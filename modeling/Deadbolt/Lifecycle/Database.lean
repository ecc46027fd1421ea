import Deadbolt.Lifecycle.Sweeps

/-!
# Transactions on the database as moves

A transaction on the database moves every run it touches along transactions of that run, and
leaves the others where they are with a longer trace. `Db.Evolves` says so; a run that was
not there before starts as `insertRun` creates it.
-/

namespace Deadbolt.Execution

open Base Contracts Tx

/-! ### Runs -/

namespace View

def Evolves : View → View → Prop := Relation.ReflTransGen Transacts

theorem Evolves.refl (v : View) : v.Evolves v := Relation.ReflTransGen.refl

variable {a b : View}

theorem Evolves.trans {c : View} (h : a.Evolves b) (h' : b.Evolves c) : a.Evolves c :=
  Relation.ReflTransGen.trans h h'

theorem Transacts.evolves (h : a.Transacts b) : a.Evolves b :=
  Relation.ReflTransGen.single h

theorem Evolves.reaches (h : a.Evolves b) : a.Reaches b := by
  induction h with
  | refl => exact Relation.ReflTransGen.refl
  | tail _ ht ih => exact ih.trans ht.reaches

theorem Evolves.idle (v : View) (vs : List Visit) : v.Evolves ⟨v.run, v.trace ++ vs⟩ :=
  (Leads.idle v vs).transacts.evolves

end View

/-- A run as `insertRun` creates it, before any evaluation. -/
def Run.Created (r : Run) : Prop :=
  ∃ req d id now steps wf, r = initialRun req d id now steps ∧
    d.manifest.workflow? req.workflowName = some wf ∧ (wf.nodes.map WorkflowNode.id).Nodup ∧
    List.Forall₂ (fun n e => ∃ t, e.2 = initialStep n t) wf.nodes steps.rows

theorem Run.Created.step {r : Run} (h : r.Created) {id : StepID} {s : Step}
    (hs : r.steps.find? id = some s) : ∃ n t, s = initialStep n t := by
  obtain ⟨req, d, runID, now, steps, wf, rfl, -, -, hrows⟩ := h
  have hmem := (steps.find?_eq_some_iff id s).mp hs
  generalize wf.nodes = nodes at hrows
  generalize steps.rows = rows at hrows hmem
  induction hrows with
  | nil => cases hmem
  | cons he _ ih =>
    rcases List.mem_cons.mp hmem with rfl | hmem
    · obtain ⟨t, ht⟩ := he
      exact ⟨_, t, ht⟩
    · exact ih hmem

theorem Run.Created.sound {r : Run} (h : r.Created) : r.Sound where
  steps := by
    rw [Run.eachStep_iff]
    intro id s hs
    obtain ⟨n, t, rfl⟩ := h.step hs
    exact .of_idle rfl rfl List.nodup_nil (by simp [initialStep])
  quiet := by
    obtain ⟨req, d, runID, now, steps, wf, rfl, -⟩ := h
    exact nofun
  shaped := by
    obtain ⟨req, d, runID, now, steps, wf, rfl, hwf, hnd, hrows⟩ := h
    refine ⟨wf, hwf, ?_, hnd⟩
    change steps.rows.map _ = _
    generalize wf.nodes = nodes at hrows
    generalize steps.rows = rows at hrows
    induction hrows with
    | nil => rfl
    | cons he _ ih =>
      obtain ⟨t, ht⟩ := he
      simp only [List.map_cons, ih, ht]
      rfl

/-! ### Databases -/

namespace Db

def Sound (db : Db) : Prop := ∀ id r, db.runs.find? id = some r → r.Sound

/-- What the transactions of the engine do to the runs. -/
structure Evolves (db db' : Db) : Prop where
  trace : ∃ vs, db'.sys.trace = db.sys.trace ++ vs
  kept : ∀ id r, db.runs.find? id = some r → ∃ r', db'.runs.find? id = some r' ∧
    View.Evolves ⟨r, db.sys.trace⟩ ⟨r', db'.sys.trace⟩
  fresh : ∀ id r', db.runs.find? id = none → db'.runs.find? id = some r' →
    ∃ r0 tr, r0.Created ∧ r0.id = id ∧ View.Evolves ⟨r0, tr⟩ ⟨r', db'.sys.trace⟩

variable {db : Db}

theorem Evolves.of_same {db' : Db} (hr : db'.runs = db.runs) (ht : db'.sys.trace = db.sys.trace) :
    db.Evolves db' where
  trace := ⟨[], by simp [ht]⟩
  kept id r h := ⟨r, hr ▸ h, by rw [ht]; exact View.Evolves.refl _⟩
  fresh id r' hn h := by rw [hr, hn] at h; cases h

theorem Evolves.refl (db : Db) : db.Evolves db := .of_same rfl rfl

theorem Evolves.trans {a b c : Db} (h : a.Evolves b) (h' : b.Evolves c) : a.Evolves c where
  trace := by
    obtain ⟨vs, hvs⟩ := h.trace
    obtain ⟨ws, hws⟩ := h'.trace
    exact ⟨vs ++ ws, by rw [hws, hvs, List.append_assoc]⟩
  kept id r hr := by
    obtain ⟨r1, hr1, he1⟩ := h.kept id r hr
    obtain ⟨r2, hr2, he2⟩ := h'.kept id r1 hr1
    exact ⟨r2, hr2, he1.trans he2⟩
  fresh id r' hn hr' := by
    cases hb : b.runs.find? id with
    | none => exact h'.fresh id r' hb hr'
    | some r1 =>
      obtain ⟨r0, tr, hc, hid, he⟩ := h.fresh id r1 hn hb
      obtain ⟨r2, hr2, he2⟩ := h'.kept id r1 hb
      obtain rfl := Option.mem_unique hr' hr2
      exact ⟨r0, tr, hc, hid, he.trans he2⟩

theorem Evolves.sound {db' : Db} (h : db.Evolves db') (hs : db.Sound) : db'.Sound := by
  intro id r' hr'
  cases hr : db.runs.find? id with
  | none =>
    obtain ⟨r0, tr, hc, -, he⟩ := h.fresh id r' hr hr'
    exact he.reaches.sound hc.sound
  | some r =>
    obtain ⟨r1, hr1, he⟩ := h.kept id r hr
    obtain rfl := Option.mem_unique hr' hr1
    exact he.reaches.sound (hs id r hr)

@[simp] theorem find?_putScope (db : Db) (id k : RunID) (c : RunScope) :
    (db.putScope id c).runs.find? k =
      (db.runs.find? k).map fun r => if k = id then c.run else r :=
  Table.find?_modify ..

@[simp] theorem sys_putScope (db : Db) (id : RunID) (c : RunScope) :
    (db.putScope id c).sys = c.sys := rfl

theorem evolves_putScope {id : RunID} {r : Run} {c : RunScope} (hr : db.runs.find? id = some r)
    (h : View.Transacts ⟨r, db.sys.trace⟩ c.view) : db.Evolves (db.putScope id c) where
  trace := h.reaches.trace
  kept k r' hk := by
    obtain ⟨vs, hvs⟩ := h.reaches.trace
    have hvs : c.sys.trace = db.sys.trace ++ vs := hvs
    rw [find?_putScope, hk]
    by_cases hki : k = id
    · subst hki
      obtain rfl := Option.mem_unique hr hk
      exact ⟨c.run, by simp, h.evolves⟩
    · refine ⟨r', by simp [hki], ?_⟩
      rw [sys_putScope, hvs]
      exact View.Evolves.idle ⟨r', db.sys.trace⟩ vs
  fresh k r' hn hk := by
    rw [find?_putScope, hn] at hk
    cases hk

end Db

theorem commits_onRun {α : Type} (id : RunID) (x : RunTx α) (db : Db) (Q : α → Db → Prop) :
    Commits (onRun id x) db Q ↔ ∀ r, db.runs.find? id = some r →
      Commits x ⟨id, r, db.sys⟩ fun a c => Q a (db.putScope id c) := by
  simp only [onRun, commits_zoom, Db.scope?, Option.map_eq_some_iff]
  constructor
  · intro h r hr
    exact h _ ⟨r, hr, rfl⟩
  · rintro h _ ⟨r, hr, rfl⟩
    exact h r hr

theorem ensures_onRun {α : Type} (id : RunID) (x : RunTx α) (db : Db) (Q : α → Db → Prop) :
    Ensures (onRun id x) db Q ↔ ∃ r, db.runs.find? id = some r ∧
      Ensures x ⟨id, r, db.sys⟩ fun a c => Q a (db.putScope id c) := by
  simp only [onRun, ensures_zoom, Db.scope?, Option.map_eq_some_iff]
  constructor
  · rintro ⟨_, ⟨r, hr, rfl⟩, h⟩
    exact ⟨r, hr, h⟩
  · rintro ⟨r, hr, h⟩
    exact ⟨_, ⟨r, hr, rfl⟩, h⟩

/-! ### Refinement -/

/-- Every commit from a sound database evolves it. -/
def Refines {α : Type} (x : DbTx α) : Prop :=
  ∀ db, db.Sound → Commits x db fun _ db' => db.Evolves db'

namespace Refines

variable {α β : Type}

variable {x : DbTx α}

theorem of_same
    (h : ∀ db, Commits x db fun _ db' => db'.runs = db.runs ∧ db'.sys.trace = db.sys.trace) :
    Refines x :=
  fun db _ => (h db).mono fun _ _ h => .of_same h.1 h.2

theorem pure (a : α) : Refines (Pure.pure a : DbTx α) := fun db _ => by
  simpa using Db.Evolves.refl db

theorem fail (e : EngineError) : Refines (Tx.fail e : DbTx α) := fun _ _ => by simp

theorem read (f : Db → α) : Refines (Tx.read f : DbTx α) := fun db _ => by
  simpa using Db.Evolves.refl db

theorem require (p : Prop) [Decidable p] (e : EngineError) :
    Refines (Tx.require p e : DbTx Unit) := fun db _ => by
  simpa using fun _ => Db.Evolves.refl db

theorem bind {f : α → DbTx β} (hx : Refines x) (hf : ∀ a, Refines (f a)) :
    Refines (x >>= f) := fun db hdb =>
  (hx db hdb).bind fun a db' h => (hf a db' (h.sound hdb)).mono fun _ _ h' => h.trans h'

theorem ite {p : Prop} [Decidable p] {y : DbTx α} (hx : Refines x) (hy : Refines y) :
    Refines (if p then x else y) := by
  split
  · exact hx
  · exact hy

theorem onRun {id : RunID} {x : RunTx α}
    (h : ∀ c, c.run.Sound → Commits x c fun _ c' => c.view.Transacts c'.view) :
    Refines (onRun id x) := by
  intro db hdb
  rw [commits_onRun]
  intro r hr
  exact (h _ (hdb id r hr)).mono fun _ _ ht => Db.evolves_putScope hr ht

theorem onRun_leads {id : RunID} {x : RunTx α}
    (h : ∀ c, c.run.Sound → Commits x c fun _ c' => c.view.Leads c'.view) :
    Refines (Execution.onRun id x) :=
  onRun fun c hc => (h c hc).mono fun _ _ hl => hl.transacts

theorem forEach {xs : List β} {f : β → DbTx Unit} (h : ∀ x ∈ xs, Refines (f x)) :
    Refines (forEach xs f) := by
  intro db hdb
  refine (commits_forEach (I := fun db' => db.Evolves db' ∧ db'.Sound) ?_ db
    ⟨.refl db, hdb⟩).mono fun _ _ h => h.1
  rintro x hx db' ⟨he, hs⟩
  exact (h x hx db' hs).mono fun _ _ h' => ⟨he.trans h', h'.sound hs⟩

theorem foldEach {xs : List β} {f : α → β → DbTx α} (h : ∀ x ∈ xs, ∀ a, Refines (f a x)) (a : α) :
    Refines (foldEach xs a f) := by
  intro db hdb
  refine (commits_foldEach (I := fun _ db' => db.Evolves db' ∧ db'.Sound) ?_ a db
    ⟨.refl db, hdb⟩).mono fun _ _ h => h.1
  rintro x hx a db' ⟨he, hs⟩
  exact (h x hx a db' hs).mono fun _ _ h' => ⟨he.trans h', h'.sound hs⟩

end Refines

end Deadbolt.Execution
