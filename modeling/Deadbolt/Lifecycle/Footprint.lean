import Deadbolt.Lifecycle.Sound
import Deadbolt.Recovery.Disaster

/-!
# What a transaction leaves alone

All but two statements leave the lease of a step or delete it: a claim inserts one and a heartbeat
extends it. This module says so once for every transaction on one run, together with the other
things that can be read off a statement without its context: the columns that are never written,
which transactions may open a case, and which ones evaluate the graph. A preorder on the scopes that
such statements keep is `Framed`, and every transaction here keeps it.
-/

namespace Deadbolt.Execution

open Base Contracts Tx RunTx

/-- The visits of a claim that creates an attempt. -/
@[simp] def VisitKind.grants : VisitKind → Bool
  | .claimAttempt _ _ => true
  | _ => false

/-! ### Cases -/

/-- The columns a resolution writes. -/
def Case.verdict (c : Case) :
    CaseStatus × Option CaseResolution × Option ActorID × Option Time :=
  (c.status, c.resolution, c.actorID, c.resolvedAt)

/-- A case later on: its verdict stays once it is resolved. -/
def Case.Lasts (c c' : Case) : Prop :=
  c'.id = c.id ∧ (c.status = .resolved → c'.verdict = c.verdict)

theorem Case.Lasts.refl (c : Case) : c.Lasts c := ⟨rfl, fun _ => rfl⟩

theorem Case.Lasts.status {c c' : Case} (h : c.Lasts c') (hc : c.status = .resolved) :
    c'.status = .resolved := (congrArg Prod.fst (h.2 hc)).trans hc

theorem Case.Lasts.trans {c1 c2 c3 : Case} (h : c1.Lasts c2) (h' : c2.Lasts c3) : c1.Lasts c3 :=
  ⟨h'.1.trans h.1, fun hc => (h'.2 (h.status hc)).trans (h.2 hc)⟩

theorem Case.Lasts.of_open {c c' : Case} (h : c.status = .open) (hid : c'.id = c.id) :
    c.Lasts c' := ⟨hid, fun hc => by rw [h] at hc; cases hc⟩

namespace Step

def Files (s s' : Step) : Prop :=
  ∀ (i : Nat) (c : Case), s.cases[i]? = some c → ∃ c', s'.cases[i]? = some c' ∧ c.Lasts c'

variable {s s' : Step}

theorem Files.of_eq (h : s'.cases = s.cases) : s.Files s' :=
  fun i c hc => ⟨c, by rw [h, hc], .refl c⟩

variable {s1 s2 s3 : Step}

theorem Files.trans (h : s1.Files s2) (h' : s2.Files s3) : s1.Files s3 := by
  intro i c hc
  obtain ⟨c2, hc2, hl⟩ := h i c hc
  obtain ⟨c3, hc3, hl'⟩ := h' i c2 hc2
  exact ⟨c3, hc3, hl.trans hl'⟩

theorem Files.map {f : Case → Case} (hf : ∀ c : Case, c.Lasts (f c))
    (h : s'.cases = s.cases.map f) : s.Files s' :=
  fun i c hc => ⟨f c, by rw [h, List.getElem?_map, hc]; rfl, hf c⟩

theorem Files.append {cs : List Case} (h : s'.cases = s.cases ++ cs) : s.Files s' := by
  intro i c hc
  refine ⟨c, ?_, .refl c⟩
  rw [h, List.getElem?_append_left (List.getElem?_eq_some_iff.mp hc).1, hc]

/-- An approval that is decided, expired or cancelled stays as it is. -/
def Stands (s s' : Step) : Prop :=
  ∀ a, s.approval = some a → a.status ≠ .pending → s'.approval = some a

theorem Stands.of_eq (h : s'.approval = s.approval) : s.Stands s' := fun _ ha _ => h.trans ha

theorem Stands.trans (h : s1.Stands s2) (h' : s2.Stands s3) : s1.Stands s3 :=
  fun a ha hd => h' a (h a ha hd) hd

theorem stands_updatePendingApproval (s : Step) (f : Approval → Approval) :
    s.Stands (s.updatePendingApproval f) := by
  intro a ha hd
  simp [updatePendingApproval, ha, hd]

/-- A step later on: its cases are kept, and so is an approval that is closed. -/
structure Lasts (s s' : Step) : Prop where
  files : s.Files s'
  stands : s.Stands s'

theorem Lasts.of_eq (hc : s'.cases = s.cases) (ha : s'.approval = s.approval) : s.Lasts s' :=
  ⟨.of_eq hc, .of_eq ha⟩

theorem Lasts.trans (h : s1.Lasts s2) (h' : s2.Lasts s3) : s1.Lasts s3 :=
  ⟨h.files.trans h'.files, h.stands.trans h'.stands⟩

end Step

/-! ### Statements on a step -/

namespace Step

/-- A statement that gives a lease up or leaves it, keeps the cases and a closed approval, and opens
a case only if it may hold. -/
structure Sheds (holds : Bool) (s s' : Step) : Prop where
  node : (s'.nodeID, s'.kind) = (s.nodeID, s.kind)
  lease : ∀ l, s'.lease = some l → s.lease = some l
  cases : holds = false → s'.hasOpenCase = true → s.hasOpenCase = true
  lasts : s.Lasts s'

variable {holds : Bool} {s s' : Step}

theorem Sheds.files (h : s.Sheds holds s') : s.Files s' := h.lasts.files

theorem Sheds.of_stands (hn : (s'.nodeID, s'.kind) = (s.nodeID, s.kind))
    (hl : ∀ l, s'.lease = some l → s.lease = some l) (hc : s'.cases = s.cases)
    (ha : s.Stands s') : s.Sheds holds s' :=
  ⟨hn, hl, fun _ h => by rw [hasOpenCase, hc] at h; exact h, .of_eq hc, ha⟩

theorem Sheds.of_cases
    (hn : (s'.nodeID, s'.kind, s'.approval) = (s.nodeID, s.kind, s.approval))
    (hl : ∀ l, s'.lease = some l → s.lease = some l) (hc : s'.cases = s.cases) :
    s.Sheds holds s' := by
  simp only [Prod.mk.injEq] at hn
  exact .of_stands (by rw [hn.1, hn.2.1]) hl hc (.of_eq hn.2.2)

theorem Sheds.of_eq (hn : (s'.nodeID, s'.kind, s'.approval) = (s.nodeID, s.kind, s.approval))
    (hl : s'.lease = s.lease) (hc : s'.cases = s.cases) : s.Sheds holds s' :=
  .of_cases hn (fun _ h => hl ▸ h) hc

@[simp] theorem Sheds.refl (s : Step) : s.Sheds holds s := .of_eq rfl rfl rfl

theorem Sheds.trans {s1 s2 s3 : Step} (h : s1.Sheds holds s2) (h' : s2.Sheds holds s3) :
    s1.Sheds holds s3 :=
  ⟨h'.node.trans h.node, fun l hl => h.lease l (h'.lease l hl),
    fun hh hc => h.cases hh (h'.cases hh hc), h.lasts.trans h'.lasts⟩

theorem Sheds.filter_lease (p : Lease → Bool)
    (hn : (s'.nodeID, s'.kind, s'.approval) = (s.nodeID, s.kind, s.approval))
    (hl : s'.lease = s.lease.filter p) (hc : s'.cases = s.cases) : s.Sheds holds s' := by
  refine .of_cases hn (fun l h => ?_) hc
  rw [hl] at h
  exact (Option.filter_eq_some_iff.mp h).1

theorem Sheds.no_lease
    (hn : (s'.nodeID, s'.kind, s'.approval) = (s.nodeID, s.kind, s.approval))
    (hl : s'.lease = none) (hc : s'.cases = s.cases) : s.Sheds holds s' := by
  refine .of_cases hn (fun l h => ?_) hc
  rw [hl] at h
  cases h

theorem Sheds.map_cases (f : Case → Case) (hf : ∀ c, (f c).status = .open → c.status = .open)
    (hl : ∀ c : Case, c.Lasts (f c)) : s.Sheds holds { s with cases := s.cases.map f } := by
  refine ⟨rfl, fun _ h => h, fun _ h => ?_, .map hl rfl, .of_eq rfl⟩
  simp only [hasOpenCase, List.any_map, List.any_eq_true, Function.comp_apply, beq_iff_eq] at h ⊢
  obtain ⟨c, hc, ho⟩ := h
  exact ⟨c, hc, hf c ho⟩

theorem sheds_updatePendingApproval (f : Approval → Approval) :
    s.Sheds holds (s.updatePendingApproval f) :=
  .of_stands rfl (fun _ h => h) rfl (stands_updatePendingApproval s f)

@[simp] theorem sheds_ite {c : Prop} [Decidable c] {t : Step} (h : s.Sheds holds s')
    (h' : s.Sheds holds t) : s.Sheds holds (if c then s' else t) := by
  split
  · exact h
  · exact h'

variable (id : AttemptID) (status : AttemptStatus) (error output : Json) (now dueAt : Time)
  (timer : Option Timer) (source : Option CompletionSource) (actor : ActorID)

@[simp] theorem sheds_hold (case : Case) : s.Sheds true (s.hold case) :=
  ⟨rfl, fun _ h => h, (by simp), .append rfl, .of_eq rfl⟩

@[simp] theorem sheds_closeOpenCases (actor : Option ActorID) (resolution : CaseResolution)
    (now : Time) : s.Sheds holds (s.closeOpenCases actor resolution now) := by
  refine .map_cases _ (fun c ho => ?_) fun c => ?_
  · split at ho
    · cases ho
    · exact ho
  · split
    · next hc => exact .of_open hc rfl
    · exact .refl c

@[simp] theorem sheds_resolveCase (id : CaseID) (resolution : CaseResolution) :
    s.Sheds holds (s.resolveCase id resolution actor now) := by
  refine .map_cases _ (fun c ho => ?_) fun c => ?_
  · split at ho
    · cases ho
    · exact ho
  · split
    · next hc => exact .of_open hc.2 rfl
    · exact .refl c

@[simp] theorem sheds_mintWindow (t : Time) : s.Sheds holds (s.mintWindow t) := by
  unfold mintWindow
  split
  · exact .of_eq rfl rfl rfl
  · exact .refl s

@[simp] theorem sheds_parkRetry : s.Sheds holds (s.parkRetry timer dueAt) := .of_eq rfl rfl rfl

@[simp] theorem sheds_parkDelay : s.Sheds holds (s.parkDelay timer dueAt) := by
  unfold parkDelay
  simp only
  split <;> exact .of_eq rfl rfl rfl

@[simp] theorem sheds_revokeSiblings : s.Sheds holds (s.revokeSiblings now) :=
  .filter_lease _ rfl rfl rfl

@[simp] theorem sheds_revokeCancelled (graceUntil : Time) :
    s.Sheds holds (s.revokeCancelled now graceUntil) := by
  unfold revokeCancelled
  split
  · exact .no_lease rfl rfl rfl
  · exact .of_eq rfl rfl rfl

@[simp] theorem sheds_failWith (reason : String) : s.Sheds holds (s.failWith reason) :=
  .of_eq rfl rfl rfl

@[simp] theorem sheds_cancelOpenWith (reason : Option String) :
    s.Sheds holds (s.cancelOpenWith reason) := by
  unfold cancelOpenWith
  split
  · exact .refl s
  · exact .of_eq rfl rfl rfl

@[simp] theorem sheds_cancelOpen : s.Sheds holds s.cancelOpen := by
  unfold cancelOpen
  split
  · exact .refl s
  · exact .of_eq rfl rfl rfl

@[simp] theorem sheds_cancelIdle : s.Sheds holds s.cancelIdle := by
  unfold cancelIdle
  split
  · exact .refl s
  · exact .of_eq rfl rfl rfl

@[simp] theorem sheds_cancelTimers : s.Sheds holds s.cancelTimers := .of_eq rfl rfl rfl

@[simp] theorem sheds_succeed : s.Sheds holds (s.succeed output) := .of_eq rfl rfl rfl

@[simp] theorem sheds_succeed_from :
    s.Sheds holds { s.succeed output with completionSource := source } := .of_eq rfl rfl rfl

@[simp] theorem sheds_skip (reason : String) : s.Sheds holds (s.skip reason) := .of_eq rfl rfl rfl

@[simp] theorem sheds_makeReady (t : Time) : s.Sheds holds (s.makeReady t) := .of_eq rfl rfl rfl

@[simp] theorem sheds_fireRetry (timer : TimerID) (t : Time) :
    s.Sheds holds ((s.fireTimer timer now).makeReady t) := .of_eq rfl rfl rfl

@[simp] theorem sheds_fireDelay (timer : TimerID) :
    s.Sheds holds { (s.fireTimer timer now).succeed output with completionSource := source } :=
  .of_eq rfl rfl rfl

theorem sheds_requestApproval (hnone : s.approval = none) (a : Approval) :
    s.Sheds holds (s.requestApproval a) := by
  have ha (s' : Step) : s.Stands s' := fun _ h => by rw [hnone] at h; cases h
  unfold requestApproval
  simp only
  split <;> exact .of_stands rfl (fun _ h => h) rfl (ha _)

@[simp] theorem sheds_decideApproval (status : ApprovalStatus) (comment : String) :
    s.Sheds holds (s.decideApproval status comment actor now) := sheds_updatePendingApproval _

@[simp] theorem sheds_expireApproval : s.Sheds holds s.expireApproval :=
  sheds_updatePendingApproval _

@[simp] theorem sheds_cancelApproval : s.Sheds holds s.cancelApproval :=
  sheds_updatePendingApproval _

@[simp] theorem sheds_start (started deadline : Time) :
    s.Sheds holds (s.start id started deadline) := .of_eq rfl rfl rfl

@[simp] theorem sheds_updateAttempt (p : Attempt → Bool) (f : Attempt → Attempt) :
    s.Sheds holds (s.updateAttempt id p f) := .of_eq rfl rfl rfl

@[simp] theorem sheds_complete (digest : String) (state : StepState) :
    s.Sheds holds (s.complete id status digest error now state output) :=
  .filter_lease _ rfl rfl rfl

@[simp] theorem sheds_lose : s.Sheds holds (s.lose id status error now) := .no_lease rfl rfl rfl

@[simp] theorem sheds_fence (epoch : Int) : s.Sheds holds (s.fence id epoch error now) := by
  unfold fence
  simp only
  split <;> exact .filter_lease _ rfl rfl rfl

@[simp] theorem sheds_attachEvidence (x : Payload) :
    s.Sheds holds (s.awaitOperator.attachEvidence x) := by
  have hawait : s.Sheds holds s.awaitOperator := .of_eq rfl rfl rfl
  unfold attachEvidence
  split
  · exact hawait
  · refine hawait.trans (.map_cases _ (fun c ho => ?_) fun c => ?_)
    · split at ho <;> exact ho
    · split <;> exact ⟨rfl, fun _ => rfl⟩

@[simp] theorem sheds_openCase (case : Case) :
    s.Sheds true { s.awaitOperator with cases := s.cases ++ [case] } :=
  ⟨rfl, fun _ h => h, (by simp), .append rfl, .of_eq rfl⟩

end Step

/-! ### Statements on a run -/

namespace Run

/-- A statement that sheds in every step and leaves the pinned columns. -/
structure Sheds (holds : Bool) (r r' : Run) : Prop where
  pinned : r'.pinned = r.pinned
  steps : ∃ f, r'.steps = r.steps.mapRows f ∧ ∀ k (s : Step), s.Sheds holds (f k s)

variable {holds : Bool} {r r' : Run}

theorem Sheds.of_steps (hp : r'.pinned = r.pinned) (hs : r'.steps = r.steps) :
    r.Sheds holds r' :=
  ⟨hp, fun _ s => s, by simp [hs], fun _ s => .refl s⟩

@[simp] theorem sheds_self : r.Sheds holds r := .of_steps rfl rfl

theorem sheds_mapSteps {f : StepID → Step → Step} (hf : ∀ k (s : Step), s.Sheds holds (f k s)) :
    r.Sheds holds (r.mapSteps f) := ⟨rfl, f, rfl, hf⟩

theorem sheds_updateStep (id : StepID) {p : Step → Bool} {f : Step → Step}
    (hf : ∀ s : Step, s.Sheds holds (f s)) : r.Sheds holds (r.updateStep id p f) := by
  refine sheds_mapSteps fun k s => ?_
  split
  · exact hf s
  · exact .refl s

theorem sheds_setStep {id : StepID} {s s' : Step} (hf : r.steps.find? id = some s)
    (hs : s.Sheds holds s') : r.Sheds holds (r.setStep id s') := by
  classical
  have hrow : (r.setStep id s').steps =
      r.steps.mapRows fun k t => if k = id ∧ t = s then s' else t := by
    simp only [setStep, mapSteps]
    refine Table.mapRows_congr fun k t ht => ?_
    by_cases hk : k = id
    · subst hk
      have : t = s := Option.mem_unique ((r.steps.find?_eq_some_iff k t).mpr ht) hf
      simp [this]
    · simp [hk]
  refine ⟨rfl, _, hrow, fun k t => ?_⟩
  split
  · next h => exact h.2 ▸ hs
  · exact .refl t

@[simp] theorem sheds_setStatus (status : RunStatus) (reason : Option String) :
    r.Sheds holds (r.setStatus status reason) := .of_steps rfl rfl

theorem sheds_apply (u : StatusMove) : r.Sheds holds (u.apply r) :=
  .of_steps (u.pinned_apply r) (u.steps_apply r)

variable {r1 : Run}

@[simp] theorem sheds_ite {c : Prop} [Decidable c] (h : r.Sheds holds r') (h' : r.Sheds holds r1) :
    r.Sheds holds (if c then r' else r1) := by
  split
  · exact h
  · exact h'

theorem Sheds.hasOpenCase (h : r.Sheds false r') (ho : r'.hasOpenCase = true) :
    r.hasOpenCase = true := by
  obtain ⟨f, hf, hs⟩ := h.steps
  obtain ⟨k, s', hk, hopen⟩ := (anyStep_eq_true _ _).mp ho
  rw [hf, Table.find?_mapRows] at hk
  obtain ⟨s, hfind, rfl⟩ := Option.map_eq_some_iff.mp hk
  exact (anyStep_eq_true _ _).mpr ⟨k, s, hfind, (hs k s).cases rfl hopen⟩

/-- The steps stay, each with its cases. -/
def Files (r r' : Run) : Prop :=
  ∀ k s, r.steps.find? k = some s → ∃ s', r'.steps.find? k = some s' ∧ s.Files s'

theorem Files.of_steps (h : r'.steps = r.steps) : r.Files r' :=
  fun k s hs => ⟨s, by rw [h, hs], .of_eq rfl⟩

theorem Files.trans {r2 r3 : Run} (h : r1.Files r2) (h' : r2.Files r3) : r1.Files r3 := by
  intro k s hs
  obtain ⟨s2, hs2, hf⟩ := h k s hs
  obtain ⟨s3, hs3, hf'⟩ := h' k s2 hs2
  exact ⟨s3, hs3, hf.trans hf'⟩

/-- The steps stay, each with its cases and a closed approval. -/
def Lasts (r r' : Run) : Prop :=
  ∀ k s, r.steps.find? k = some s → ∃ s', r'.steps.find? k = some s' ∧ s.Lasts s'

theorem Lasts.of_steps (h : r'.steps = r.steps) : r.Lasts r' :=
  fun k s hs => ⟨s, by rw [h, hs], .of_eq rfl rfl⟩

theorem Lasts.trans {r2 r3 : Run} (h : r1.Lasts r2) (h' : r2.Lasts r3) : r1.Lasts r3 := by
  intro k s hs
  obtain ⟨s2, hs2, hl⟩ := h k s hs
  obtain ⟨s3, hs3, hl'⟩ := h' k s2 hs2
  exact ⟨s3, hs3, hl.trans hl'⟩

theorem Lasts.files (h : r.Lasts r') : r.Files r' := by
  intro k s hs
  obtain ⟨s', hs', hl⟩ := h k s hs
  exact ⟨s', hs', hl.files⟩

theorem Sheds.lasts (h : r.Sheds holds r') : r.Lasts r' := by
  obtain ⟨f, hf, hs⟩ := h.steps
  intro k s hk
  exact ⟨f k s, by rw [hf, Table.find?_mapRows, hk]; rfl, (hs k s).lasts⟩

theorem Sheds.files (h : r.Sheds holds r') : r.Files r' := h.lasts.files

end Run

/-! ### Framed relations -/

/-- A preorder on scopes that shedding statements, readings and the visits of anything but a claim
keep; `holds` says whether holds are among the statements. -/
class Framed (holds : outParam Bool) (R : RunScope → RunScope → Prop) : Prop
    extends Std.Refl R, IsTrans RunScope R where
  tick : ∀ c, R c c.tick
  draw : ∀ c, R c c.draw
  visit : ∀ c k, ¬ k.grants = true → R c (c.visit k)
  write : ∀ c r, c.run.Sheds holds r → R c (c.withRun r)

def RunScope.OpensNoCase (c c' : RunScope) : Prop :=
  c'.run.hasOpenCase = true → c.run.hasOpenCase = true

instance : Framed false RunScope.OpensNoCase where
  refl _ h := h
  trans _ _ _ h h' ho := h (h' ho)
  tick _ h := h
  draw _ h := h
  visit _ _ _ h := h
  write _ _ hs ho := hs.hasOpenCase ho

def RunScope.Files (c c' : RunScope) : Prop := c.run.Files c'.run

instance : Framed true RunScope.Files where
  refl _ := .of_steps rfl
  trans _ _ _ h h' := Run.Files.trans h h'
  tick _ := .of_steps rfl
  draw _ := .of_steps rfl
  visit _ _ _ := .of_steps rfl
  write _ _ h := h.files

variable (id : StepID) (nodeID : String) (policy : RetryPolicy) (failed : FailedAttempt)
  (reason : String) (case : CaseID) (session : WorkerSession) (now : Time) (deadline : Option Time)

section

variable {holds : Bool} {R : RunScope → RunScope → Prop} [framed : Framed holds R]

include framed

namespace RunTx

@[simp] theorem keeps_clockTimestamp [Platform] : Keeps R clockTimestamp := by
  intro c
  simpa using framed.tick c

@[simp] theorem keeps_newID [Platform] : Keeps R newID := by
  intro c
  simpa using framed.draw c

@[simp] theorem keeps_sampleJitter [Platform] : Keeps R sampleJitter := by
  intro c
  simpa using framed.draw c

@[simp] theorem keeps_getRun : Keeps R getRun := by
  simp [getRun]

@[simp] theorem keeps_getRunID : Keeps R getRunID := by
  simp [getRunID]

@[simp] theorem keeps_getStep (id : StepID) : Keeps R (getStep id) := by
  intro c
  simpa using fun _ _ => framed.refl c

theorem keeps_modifyRun {f : Run → Run} (hf : ∀ r : Run, r.Sheds holds (f r)) :
    Keeps R (modifyRun f) := by
  intro c
  simpa using framed.write c _ (hf c.run)

@[simp] theorem keeps_setStatus (status : RunStatus) (reason : Option String) :
    Keeps R (modifyRun fun r => r.setStatus status reason) :=
  keeps_modifyRun fun _ => Run.sheds_setStatus status reason

theorem keeps_apply (u : StatusMove) : Keeps R (modifyRun u.apply) :=
  keeps_modifyRun fun _ => Run.sheds_apply u

@[simp] theorem keeps_updateRun {p : Run → Bool} {f : Run → Run}
    (hf : ∀ r : Run, r.Sheds holds (f r)) : Keeps R (updateRun p f) := by
  intro c
  simp only [commits_updateRun]
  exact framed.write c _ (Run.sheds_ite (hf c.run) Run.sheds_self)

@[simp] theorem keeps_updateStep {id : StepID} {p : Step → Bool} {f : Step → Step}
    (hf : ∀ s : Step, s.Sheds holds (f s)) : Keeps R (updateStep id p f) := by
  intro c
  simpa using framed.write c _ (Run.sheds_updateStep id hf)

@[simp] theorem keeps_mapSteps {f : StepID → Step → Step}
    (hf : ∀ k (s : Step), s.Sheds holds (f k s)) : Keeps R (mapSteps f) := by
  intro c
  simpa using framed.write c _ (Run.sheds_mapSteps hf)

@[simp] theorem keeps_note {k : VisitKind} (hk : ¬ k.grants = true) : Keeps R (note k) := by
  intro c
  simpa using framed.visit c k hk

end RunTx

@[simp] theorem keeps_appendRunEvent (t : EventType) (x : Payload) :
    Keeps R (appendRunEvent t x) := by
  intro c
  rw [commits_appendRunEvent]
  exact fun _ => framed.write c _ (.of_steps rfl rfl)

@[simp] theorem keeps_appendRunEventIfRoom (t : EventType) (x : Payload) :
    Keeps R (appendRunEventIfRoom t x) := by
  intro c
  simp only [commits_appendRunEventIfRoom]
  exact ⟨fun _ => framed.write c _ (.of_steps rfl rfl), fun _ => framed.refl c⟩

/-! ### Status writes -/

namespace RunTx

@[simp] theorem keeps_recomputeForRetry : Keeps R (modifyRun Run.recomputeForRetry) :=
  keeps_apply .retryWait

@[simp] theorem keeps_recomputeForDelay : Keeps R (modifyRun Run.recomputeForDelay) :=
  keeps_apply .delayWait

@[simp] theorem keeps_recomputeAfterControl : Keeps R (modifyRun Run.recomputeAfterControl) :=
  keeps_apply .control

@[simp] theorem keeps_parkForReconciliation : Keeps R (modifyRun Run.parkForReconciliation) :=
  keeps_apply .hold

@[simp] theorem keeps_parkForQuota : Keeps R (modifyRun Run.parkForQuota) := keeps_apply .quota

@[simp] theorem keeps_parkForHandoff : Keeps R (modifyRun Run.parkForHandoff) :=
  keeps_apply .handoff

@[simp] theorem keeps_markStarted : Keeps R (modifyRun Run.markStarted) := keeps_apply .started

@[simp] theorem keeps_leaveRetry : Keeps R (modifyRun Run.leaveRetry) := keeps_apply .leaveRetry

@[simp] theorem keeps_leaveHandoff : Keeps R (modifyRun Run.leaveHandoff) :=
  keeps_apply .leaveHandoff

@[simp] theorem keeps_leaveReconciliation (retry : Bool) :
    Keeps R (modifyRun fun r => r.leaveReconciliation retry) :=
  keeps_apply (.leaveReconciliation retry)

@[simp] theorem keeps_pause : Keeps R (modifyRun Run.pause) := keeps_apply .pause

@[simp] theorem keeps_markPaused : Keeps R (modifyRun Run.markPaused) :=
  keeps_apply .pauseDrained

@[simp] theorem keeps_resume : Keeps R (modifyRun Run.resume) := keeps_apply .resume

@[simp] theorem keeps_clearPause : Keeps R (modifyRun Run.clearPause) := keeps_apply .clearPause

end RunTx

/-! ### Helpers -/

variable [Platform]

@[simp] theorem keeps_closeOpenCasesTx (actor : Option ActorID) (resolution : CaseResolution) :
    Keeps R (closeOpenCasesTx actor reason resolution) := by
  unfold closeOpenCasesTx
  repeat' with_reducible refine keeps_bind ?_ fun _ => ?_
  all_goals simp

@[simp] theorem keeps_ensureIdempotencyWindowTx :
    Keeps R (ensureIdempotencyWindowTx id policy) := by
  unfold ensureIdempotencyWindowTx
  split
  · simp
  · refine keeps_ite (fun _ => by simp) fun _ => ?_
    refine keeps_bind (by simp) fun s => ?_
    split
    · simp
    · repeat' with_reducible refine keeps_bind ?_ fun _ => ?_
      all_goals simp

@[simp] theorem keeps_deriveIdempotencyDeadlineTx (windowMs : Int) :
    Keeps R (deriveIdempotencyDeadlineTx id windowMs) := by
  unfold deriveIdempotencyDeadlineTx
  refine keeps_bind (by simp) fun s => ?_
  split
  · simp
  · split
    · simp
    · simp

@[simp] theorem keeps_claimIdempotencyAdmissionTx :
    Keeps R (claimIdempotencyAdmissionTx id policy) := by
  unfold claimIdempotencyAdmissionTx
  refine keeps_ite (fun _ => by simp) fun _ => ?_
  refine keeps_bind (by simp) fun s => ?_
  split
  · simp
  · split
    · simp
    · refine keeps_ite (fun _ => by simp) fun _ => ?_
      refine keeps_bind (by simp) fun derived => ?_
      split <;> simp

@[simp] theorem keeps_newTimer (s : Step) (kind : TimerKind) (dueAt : Time)
    (attemptNumber : Option Int) (operationID : Option String) :
    Keeps R (newTimer s kind dueAt attemptNumber operationID reason) := by
  unfold newTimer
  split <;> simp

@[simp] theorem keeps_scheduleRetryTx (number : Int) (operationID : String) :
    Keeps R (scheduleRetryTx id nodeID failed policy number now deadline operationID) := by
  unfold scheduleRetryTx
  refine keeps_bind (by simp) fun sample => keeps_ite (fun _ => by simp) fun _ => ?_
  repeat' with_reducible refine keeps_bind ?_ fun _ => ?_
  all_goals simp

@[simp] theorem keeps_retryDeadline (validUntil : Option Time) :
    Keeps R (retryDeadline id policy validUntil) := by
  unfold retryDeadline
  split
  · simp
  · split <;> simp

@[simp] theorem keeps_failRunForStepTx (code : String) (actor : Option ActorID) :
    Keeps R (failRunForStepTx id code actor) := by
  unfold failRunForStepTx
  repeat' with_reducible refine keeps_bind ?_ fun _ => ?_
  all_goals simp

@[simp] theorem keeps_failOverdueRunWithoutStepsTx : Keeps R failOverdueRunWithoutStepsTx := by
  unfold failOverdueRunWithoutStepsTx
  repeat' with_reducible refine keeps_bind ?_ fun _ => ?_
  all_goals simp

@[simp] theorem keeps_settleExpiredRunForControlTx :
    Keeps R settleExpiredRunForControlTx := by
  unfold settleExpiredRunForControlTx
  refine keeps_bind (by simp) fun r => ?_
  split <;> simp

@[simp] theorem keeps_settleRunTerminalTx (wf : WorkflowManifest)
    (state? : String → Option StepState) (outputs : Outputs) (runInput defaultOutput : Json) :
    Keeps R (settleRunTerminalTx wf state? outputs runInput defaultOutput) := by
  unfold settleRunTerminalTx
  split
  · simp
  · simp
  · refine keeps_bind (by simp) fun _ => ?_
    refine keeps_bind (by simp) fun hit => ?_
    simp
  · refine keeps_bind (by simp) fun _ => ?_
    refine keeps_bind (keeps_updateRun fun r => .of_steps rfl rfl) fun hit => ?_
    simp

/-! ### Controls -/

@[simp] theorem keeps_approvalExpiredNowTx (t : Option Time) :
    Keeps R (approvalExpiredNowTx t) := by
  unfold approvalExpiredNowTx
  split <;> simp

@[simp] theorem keeps_validateApprovalOutputTx (out : Json) :
    Keeps R (validateApprovalOutputTx id nodeID out) := by
  unfold validateApprovalOutputTx
  refine keeps_bind (by simp) fun r => keeps_ite (fun _ => by simp) fun _ => ?_
  exact keeps_bind (by simp) fun _ => by simp

@[simp] theorem keeps_expireApprovalTx (a : ApprovalID) :
    Keeps R (expireApprovalTx id nodeID a) := by
  unfold expireApprovalTx
  refine keeps_bind (by simp) fun s => keeps_ite (fun _ => ?_) fun _ => by simp
  repeat' with_reducible refine keeps_bind ?_ fun _ => ?_
  all_goals simp

@[simp] theorem keeps_commitCancelTx (actor : Option ActorID) : Keeps R (commitCancelTx actor) := by
  unfold commitCancelTx
  repeat' with_reducible refine keeps_bind ?_ fun _ => ?_
  all_goals try simp
  refine keeps_ite (fun _ => ?_) fun _ => ?_
  · exact keeps_bind (keeps_modifyRun fun r => .of_steps rfl rfl) fun _ => by simp
  · exact keeps_bind (keeps_modifyRun fun r => .of_steps rfl rfl) fun _ => by simp

@[simp] theorem keeps_cancelRunTx (revision : Int) (actor : Option ActorID) :
    Keeps R (cancelRunTx revision actor) := by
  unfold cancelRunTx
  repeat' with_reducible refine keeps_bind ?_ fun _ => ?_
  all_goals simp

@[simp] theorem keeps_settleCancellingRunTx : Keeps R settleCancellingRunTx := by
  unfold settleCancellingRunTx
  refine keeps_bind (by simp) fun r => keeps_ite (fun _ => ?_) fun _ => by simp
  refine keeps_bind (by simp) fun now => keeps_ite (fun _ => by simp) fun _ => ?_
  exact keeps_bind (keeps_modifyRun fun r => .of_steps rfl rfl) fun _ => by simp

@[simp] theorem keeps_runDeadlineExceededTx (t : Option Time) :
    Keeps R (runDeadlineExceededTx t) := by
  unfold runDeadlineExceededTx
  split <;> simp

@[simp] theorem keeps_commitPauseTx : Keeps R commitPauseTx := by
  unfold commitPauseTx
  repeat' with_reducible refine keeps_bind ?_ fun _ => ?_
  all_goals simp

@[simp] theorem keeps_pauseRunTx (revision : Int) : Keeps R (pauseRunTx revision) := by
  unfold pauseRunTx
  repeat' with_reducible refine keeps_bind ?_ fun _ => ?_
  all_goals simp

@[simp] theorem keeps_commitResumeTx : Keeps R commitResumeTx := by
  unfold commitResumeTx
  repeat' with_reducible refine keeps_bind ?_ fun _ => ?_
  all_goals simp

@[simp] theorem keeps_resumeRunTx (revision : Int) : Keeps R (resumeRunTx revision) := by
  unfold resumeRunTx
  repeat' with_reducible refine keeps_bind ?_ fun _ => ?_
  all_goals try simp
  split <;> simp

@[simp] theorem keeps_settleOverdueRunForControl : Keeps R settleOverdueRunForControl := by
  unfold settleOverdueRunForControl
  refine keeps_bind (by simp) fun r => keeps_ite (fun _ => by simp) fun _ => ?_
  exact keeps_bind (by simp) fun expired => by simp

@[simp] theorem keeps_settlePauseAfterCompletionTx : Keeps R settlePauseAfterCompletionTx := by
  unfold settlePauseAfterCompletionTx
  refine keeps_bind (by simp) fun r => keeps_ite (fun _ => by simp) fun _ => ?_
  exact keeps_ite (fun _ => by simp) fun _ => by simp

@[simp] theorem keeps_settlePauseIgnoringError : Keeps R settlePauseIgnoringError := by
  unfold settlePauseIgnoringError
  refine keeps_bind (by simp) fun r => keeps_ite (fun _ => by simp) fun _ => ?_
  exact keeps_ite (fun _ => by simp) fun _ => by simp

@[simp] theorem keeps_markCaseResolvedTx (resolution : CaseResolution) (actor : ActorID) :
    Keeps R (markCaseResolvedTx id case resolution actor) := by
  unfold markCaseResolvedTx
  repeat' with_reducible refine keeps_bind ?_ fun _ => ?_
  all_goals simp

@[simp] theorem keeps_resolveCaseSucceedTx (result : Json) (actor : ActorID) :
    Keeps R (resolveCaseSucceedTx id nodeID case result actor) := by
  unfold resolveCaseSucceedTx
  repeat' with_reducible refine keeps_bind ?_ fun _ => ?_
  all_goals simp

@[simp] theorem keeps_resolveRetryAdmission (s : Step) :
    Keeps R (resolveRetryAdmission id policy s now) := by
  unfold resolveRetryAdmission
  refine keeps_ite (fun _ => ?_) fun _ => by simp
  refine keeps_bind (by simp) fun valid => ?_
  split <;> simp

@[simp] theorem keeps_resolveCaseRetryTx (actor : ActorID) :
    Keeps R (resolveCaseRetryTx id nodeID case policy actor now) := by
  unfold resolveCaseRetryTx
  repeat' with_reducible refine keeps_bind ?_ fun _ => ?_
  all_goals simp

@[simp] theorem keeps_resolveCaseFailTx (actor : ActorID) :
    Keeps R (resolveCaseFailTx id case reason actor) := by
  unfold resolveCaseFailTx
  repeat' with_reducible refine keeps_bind ?_ fun _ => ?_
  all_goals simp

@[simp] theorem keeps_releaseHoldTx (action : ResolveAction) : Keeps R (releaseHoldTx action) := by
  unfold releaseHoldTx
  refine keeps_bind (by simp) fun r => keeps_ite (fun _ => ?_) fun _ => by simp
  exact keeps_bind (by simp) fun _ => by simp

@[simp] theorem keeps_resolveCaseTx (req : ResolveReconciliationRequest) :
    Keeps R (resolveCaseTx id nodeID case policy req now) := by
  unfold resolveCaseTx
  split <;> simp

@[simp] theorem keeps_settleHoldAfterCompletionTx : Keeps R settleHoldAfterCompletionTx := by
  unfold settleHoldAfterCompletionTx
  refine keeps_bind (by simp) fun r => keeps_ite (fun _ => by simp) fun _ => ?_
  refine keeps_ite (fun _ => by simp) fun _ => keeps_ite (fun _ => by simp) fun _ => ?_
  exact keeps_bind (by simp) fun _ => by simp

/-! ### Workers and sweeps -/

@[simp] theorem keeps_failForArtifacts (refs : List String) :
    Keeps R (failForArtifacts id nodeID refs) := by
  unfold failForArtifacts
  refine keeps_bind (by simp) fun s => keeps_ite (fun _ => ?_) fun _ => by simp
  repeat' with_reducible refine keeps_bind ?_ fun _ => ?_
  all_goals simp

@[simp] theorem keeps_startTx (a : AttemptID) (epoch : Int) :
    Keeps R (startTx session a epoch) := by
  unfold startTx
  refine keeps_bind (by simp) fun r => ?_
  split
  · simp
  · split
    · simp
    · refine keeps_bind (by simp) fun now => keeps_bind (by simp) fun _ => ?_
      refine keeps_ite (fun _ => ?_) fun _ => ?_
      · split <;> simp
      · repeat' with_reducible refine keeps_bind ?_ fun _ => ?_
        all_goals simp

@[simp] theorem keeps_stopAckTx (a : AttemptID) (epoch : Int) (stopped : Bool) :
    Keeps R (stopAckTx session a epoch stopped) := by
  unfold stopAckTx
  refine keeps_bind (by simp) fun r => ?_
  split
  · simp
  · repeat' with_reducible refine keeps_bind ?_ fun _ => ?_
    all_goals simp

@[simp] theorem keeps_fenceAttemptTx (a : AttemptID) (epoch : Int) :
    Keeps R (fenceAttemptTx id a epoch reason) := by
  unfold fenceAttemptTx
  repeat' with_reducible refine keeps_bind ?_ fun _ => ?_
  all_goals simp

@[simp] theorem keeps_loseAttempt (a : AttemptID) (status : AttemptStatus) (code message : String)
    (retryable : Bool) (effect : String) :
    Keeps R (loseAttempt id a status code message retryable effect) := by
  unfold loseAttempt
  repeat' with_reducible refine keeps_bind ?_ fun _ => ?_
  all_goals simp

@[simp] theorem keeps_failOverdueTx : Keeps R failOverdueTx := by
  unfold failOverdueTx
  repeat' with_reducible refine keeps_bind ?_ fun _ => ?_
  all_goals simp

@[simp] theorem keeps_loseOverdueAttempt (a : Attempt) : Keeps R (loseOverdueAttempt id a) := by
  unfold loseOverdueAttempt appendTaskLost appendSweepFailed
  repeat' with_reducible refine keeps_bind ?_ fun _ => ?_
  all_goals simp

@[simp] theorem keeps_readyHandoff : Keeps R (readyHandoff id nodeID) := by
  unfold readyHandoff
  repeat' with_reducible refine keeps_bind ?_ fun _ => ?_
  all_goals simp

@[simp] theorem keeps_exhaustHandoff : Keeps R (exhaustHandoff id) := by
  unfold exhaustHandoff appendSweepFailed
  repeat' with_reducible refine keeps_bind ?_ fun _ => ?_
  all_goals simp

@[simp] theorem keeps_handoffTx : Keeps R (handoffTx id now) := by
  unfold handoffTx appendSweepFailed
  refine keeps_bind (by simp) fun r => keeps_ite (fun _ => by simp) fun _ => ?_
  refine keeps_bind (by simp) fun s => keeps_ite (fun _ => ?_) fun _ => by simp
  repeat' with_reducible refine keeps_bind ?_ fun _ => ?_
  all_goals simp

@[simp] theorem keeps_fireRetryTimerTx (timer : TimerID) :
    Keeps R (fireRetryTimerTx id timer now) := by
  unfold fireRetryTimerTx
  refine keeps_bind (by simp) fun r => ?_
  split
  · simp
  · split
    · simp
    · refine keeps_ite (fun _ => ?_) fun _ => by simp
      repeat' with_reducible refine keeps_bind ?_ fun _ => ?_
      all_goals simp

@[simp] theorem keeps_failOverdueRunTx : Keeps R failOverdueRunTx := by
  unfold failOverdueRunTx
  exact keeps_bind (by simp) fun r => by simp

@[simp] theorem keeps_terminalizeHistoryLimitExceeded :
    Keeps R terminalizeHistoryLimitExceeded := by
  unfold terminalizeHistoryLimitExceeded
  refine keeps_bind (by simp) fun r => keeps_ite (fun _ => by simp) fun _ => ?_
  repeat' with_reducible refine keeps_bind ?_ fun _ => ?_
  all_goals simp

@[simp] theorem keeps_parkOnQuota : Keeps R (parkOnQuota now) := by
  unfold parkOnQuota
  refine keeps_bind (by simp) fun r => keeps_ite (fun _ => ?_) fun _ => by simp
  exact keeps_bind (by simp) fun _ => by simp

end

/-! ### Holds -/

section

variable {R : RunScope → RunScope → Prop} [framed : Framed true R] [Platform]

include framed

@[simp] theorem keeps_routeStepToReconciliationTx (a : Option AttemptID) (evidence : Payload) :
    Keeps R (routeStepToReconciliationTx id nodeID a reason evidence) := by
  unfold routeStepToReconciliationTx
  repeat' with_reducible refine keeps_bind ?_ fun _ => ?_
  all_goals simp

@[simp] theorem keeps_retryIdempotentTx (s : Step) (operationID : String) (evidence : Payload) :
    Keeps R (retryIdempotentTx id nodeID failed policy s now deadline operationID evidence) := by
  unfold retryIdempotentTx
  refine keeps_bind (by simp) fun valid => ?_
  split <;> simp

@[simp] theorem keeps_scheduleRetryOrHoldTx :
    Keeps R (scheduleRetryOrHoldTx id nodeID failed policy deadline) := by
  unfold scheduleRetryOrHoldTx
  repeat' with_reducible refine keeps_bind ?_ fun _ => ?_
  all_goals try simp
  repeat' with_reducible refine keeps_ite (fun _ => ?_) fun _ => ?_
  all_goals simp

@[simp] theorem keeps_holdCandidate (pc : PendingClaim) (timeoutMs : Int) (extra : Payload) :
    Keeps R (holdCandidate pc session timeoutMs reason extra) := by
  unfold holdCandidate
  exact keeps_bind (by simp) fun _ => by simp

@[simp] theorem keeps_retryOrFailTx : Keeps R (retryOrFailTx id nodeID failed policy deadline) := by
  unfold retryOrFailTx
  refine keeps_bind (by simp) fun verdict => ?_
  split <;> simp

@[simp] theorem keeps_loseUnstarted (a : Attempt) :
    Keeps R (loseUnstarted id nodeID a policy deadline) := by
  unfold loseUnstarted appendTaskLost
  repeat' with_reducible refine keeps_bind ?_ fun _ => ?_
  all_goals simp

@[simp] theorem keeps_loseStarted (a : Attempt) :
    Keeps R (loseStarted id nodeID a policy deadline now) := by
  unfold loseStarted appendTaskLost
  repeat' with_reducible refine keeps_bind ?_ fun _ => ?_
  all_goals simp

@[simp] theorem keeps_loseAttemptTx (a : AttemptID) : Keeps R (loseAttemptTx id a now) := by
  unfold loseAttemptTx
  refine keeps_bind (by simp) fun r => ?_
  split
  · simp
  · split
    · simp
    · refine keeps_ite (fun _ => by simp) fun _ => ?_
      exact keeps_ite (fun _ => by simp) fun _ => by simp

@[simp] theorem keeps_holdStepTx (i : Incident) : Keeps R (holdStepTx i id nodeID) := by
  unfold holdStepTx
  refine keeps_bind (by simp) fun _ => ?_
  refine keeps_bind (by simp) fun r => keeps_bind (by simp) fun s => ?_
  have hevent : Keeps R (do
      note .disasterHold
      modifyRun fun r => r.pushHoldEvent
        [("stepId", idJson id), ("nodeId", .str nodeID), ("reason", .str "RECONCILIATION"),
         ("holdReason", .str "DISASTER_RECOVERY_HOLD"),
         ("uncertaintyWindowStart", timeJson i.recoveryPoint),
         ("uncertaintyWindowEnd", timeJson i.incidentAt)]) :=
    keeps_bind (by simp) fun _ => keeps_modifyRun fun r => .of_steps rfl rfl
  refine keeps_ite (fun _ => ?_) fun _ => ?_
  · exact keeps_bind (by simp) fun _ => hevent
  · exact keeps_bind (by simp) fun _ => keeps_bind (by simp) fun _ => hevent

@[simp] theorem keeps_holdRunTx (i : Incident) : Keeps R (holdRunTx i) := by
  unfold holdRunTx
  refine keeps_bind (by simp) fun r => keeps_ite (fun _ => by simp) fun _ => ?_
  repeat' with_reducible refine keeps_bind ?_ fun _ => ?_
  all_goals simp

end

/-! ### Evaluations -/

section

variable {holds : Bool} {R : RunScope → RunScope → Prop} [framed : Framed holds R] [Platform]

include framed

@[simp] theorem keeps_scheduleDelayTx (delayMs : Int) : Keeps R (scheduleDelayTx id delayMs) := by
  unfold scheduleDelayTx
  refine keeps_bind (by simp) fun _ => keeps_bind (by simp) fun _ => ?_
  repeat' with_reducible refine keeps_bind ?_ fun _ => ?_
  all_goals simp

@[simp] theorem keeps_requestApproval (cfg : ApprovalNodeConfig) (payload : Json) :
    Keeps R (requestApproval id nodeID cfg payload) := by
  unfold requestApproval
  refine keeps_bind (by simp) fun _ => fun c => ?_
  simp only [commits_bind, commits_getRun, commits_getStep]
  intro s hf
  simp only [commits_ite, commits_pure]
  refine ⟨fun _ => framed.refl c, fun hnone => ?_⟩
  -- The insert meets the row that was read, and that one has no approval.
  have hnone : s.approval = none := by simpa using hnone
  have hinsert (a : Approval) (c1 : RunScope) (hrun : c1.run = c.run) :
      R c1 (c1.withRun (c1.run.updateStep id (fun _ => true) fun s => s.requestApproval a)) := by
    refine framed.write c1 _ ?_
    rw [hrun, Run.updateStep_of_find hf rfl]
    exact Run.sheds_setStep hf (Step.sheds_requestApproval hnone a)
  have hrest (x : Payload) : Keeps R (do
      if s.state = .blocked then do
        appendRunEvent .approvalRequested x
        modifyRun Run.recomputeAfterControl
        pure true
      else pure false) := by
    refine keeps_ite (fun _ => ?_) fun _ => by simp
    exact keeps_bind (by simp) fun _ => by simp
  simp only [commits_bind, commits_newID, commits_clockTimestamp,
    commits_updateStep]
  refine (hrest _ _).mono fun _ _ h => ?_
  refine framed.trans _ _ _ (framed.draw c) (framed.trans _ _ _ (framed.tick _) ?_)
  exact framed.trans _ _ _ (hinsert _ _ rfl) h

@[simp] theorem keeps_openApprovalTx (node : WorkflowNode) (runInput : Json) (outputs : Outputs) :
    Keeps R (openApprovalTx id node runInput outputs) := by
  unfold openApprovalTx
  split
  · simp
  · split <;> simp

omit [Platform] in
theorem keeps_writeBlocked (id : StepID) {f : Step → Step} (hf : ∀ s : Step, s.Sheds holds (f s))
    (t : EventType) (x : Payload) : Keeps R (writeBlocked id f t x) := by
  unfold writeBlocked
  refine keeps_bind (keeps_updateStep hf) fun hit => ?_
  simp

@[simp] theorem keeps_skipUnselected (st : DagState) : Keeps R (skipUnselected st nodeID) := by
  unfold skipUnselected skipStep
  split
  · simp
  · refine keeps_ite (fun _ => ?_) fun _ => by simp
    exact keeps_bind (keeps_writeBlocked _ (by simp) _ _) fun _ => by simp

@[simp] theorem keeps_applyDecision (d : Dag) (st : DagState) (node : WorkflowNode)
    (decision : NodeDecision) : Keeps R (applyDecision d st node id decision) := by
  cases decision with
  | wait => simp [applyDecision]
  | skip =>
    refine keeps_bind (keeps_writeBlocked id (by simp) _ _) fun hit => ?_
    simp
  | ready =>
    refine keeps_bind ?_ fun hit => by simp
    exact keeps_bind (by simp) fun now => keeps_writeBlocked id (by simp) _ _
  | approval => exact keeps_bind (by simp) fun created => by simp
  | fail code => exact keeps_bind (by simp) fun _ => by simp
  | succeed output unselected =>
    refine keeps_bind (keeps_writeBlocked id (by simp) _ _) fun hit => ?_
    exact keeps_ite (fun _ => by simp) fun _ => by simp
  | delay ms => exact keeps_bind (by simp) fun timer => by simp

@[simp] theorem keeps_evaluateNode (d : Dag) (st : DagState) (node : WorkflowNode) :
    Keeps R (evaluateNode d st node) := by
  unfold evaluateNode
  split <;> simp

@[simp] theorem keeps_evaluateNodes (d : Dag) (nodes : List WorkflowNode) (st : DagState) :
    Keeps R (evaluateNodes d nodes st) := by
  induction nodes generalizing st with
  | nil => simp [evaluateNodes]
  | cons node rest ih => exact keeps_bind (by simp) fun res => by simp [ih]

@[simp] theorem keeps_evaluatePasses (d : Dag) (fuel : Nat) (st : DagState) :
    Keeps R (evaluatePasses d fuel st) := by
  induction fuel generalizing st with
  | zero => simp [evaluatePasses]
  | succ fuel ih => exact keeps_bind (by simp) fun res => by simp [ih]

@[simp] theorem keeps_evaluateBlockedDAGTx (d : Dag) (steps : List (String × DagStep))
    (outputs : Outputs) : Keeps R (evaluateBlockedDAGTx d steps outputs) :=
  keeps_evaluatePasses d _ _

@[simp] theorem keeps_advanceAfterStepSuccessTx (output : Json) :
    Keeps R (advanceAfterStepSuccessTx output) := by
  unfold advanceAfterStepSuccessTx
  refine keeps_bind (by simp) fun r => ?_
  split
  · simp
  · exact keeps_bind (by simp) fun res => by simp

@[simp] theorem keeps_evaluateInitialDAG (wf : WorkflowManifest) :
    Keeps R (evaluateInitialDAG wf) := by
  unfold evaluateInitialDAG
  refine keeps_bind (by simp) fun r => keeps_bind (by simp) fun res => ?_
  simp

@[simp] theorem keeps_commitDecisionTx (a : ApprovalID) (req : DecideApprovalRequest) :
    Keeps R (commitDecisionTx id nodeID a req now) := by
  unfold commitDecisionTx
  repeat' with_reducible refine keeps_bind ?_ fun _ => ?_
  all_goals simp

@[simp] theorem keeps_decideApprovalTx (a : ApprovalID) (req : DecideApprovalRequest) :
    Keeps R (decideApprovalTx id a req) := by
  unfold decideApprovalTx
  repeat' with_reducible refine keeps_bind ?_ fun _ => ?_
  all_goals try simp
  split
  · simp
  · refine keeps_bind (by simp) fun expired => keeps_bind (by simp) fun _ => ?_
    refine keeps_ite (fun _ => ?_) fun _ => by simp
    repeat' with_reducible refine keeps_bind ?_ fun _ => ?_
    all_goals simp

@[simp] theorem keeps_afterLastCaseTx (req : ResolveReconciliationRequest) :
    Keeps R (afterLastCaseTx req) := by
  unfold afterLastCaseTx
  refine keeps_bind (by simp) fun r => keeps_ite (fun _ => by simp) fun _ => ?_
  exact keeps_ite (fun _ => keeps_bind (by simp) fun _ => by simp) fun _ => by simp

@[simp] theorem keeps_resolveReconciliationCaseTx (req : ResolveReconciliationRequest) :
    Keeps R (resolveReconciliationCaseTx id case req) := by
  unfold resolveReconciliationCaseTx
  refine keeps_bind (by simp) fun r => keeps_bind (by simp) fun s => ?_
  split
  · simp
  · repeat' with_reducible refine keeps_bind ?_ fun _ => ?_
    all_goals simp

@[simp] theorem keeps_fireDelayTimerTx (timer : TimerID) :
    Keeps R (fireDelayTimerTx id timer now) := by
  unfold fireDelayTimerTx
  refine keeps_bind (by simp) fun r => ?_
  split
  · simp
  · split
    · simp
    · refine keeps_ite (fun _ => ?_) fun _ => by simp
      repeat' with_reducible refine keeps_bind ?_ fun _ => ?_
      all_goals simp

@[simp] theorem keeps_reconcileReadyRunTx : Keeps R reconcileReadyRunTx := by
  unfold reconcileReadyRunTx
  refine keeps_bind (by simp) fun r => ?_
  have hchecked : Keeps R (do
      let now ← clockTimestamp
      modifyRun fun r => { r with reconciliationCheckedAt := some now }) :=
    keeps_bind (by simp) fun now => keeps_modifyRun fun r => .of_steps rfl rfl
  split
  · simp
  · refine keeps_bind (by simp) fun res => keeps_ite (fun _ => hchecked) fun _ => ?_
    exact keeps_bind (by simp) fun _ => hchecked

end

/-! ### Completions -/

section

variable {R : RunScope → RunScope → Prop} [framed : Framed true R] [Platform]

include framed

@[simp] theorem keeps_afterOutcomeTx (a : Attempt) (res : CompletionResult) :
    Keeps R (afterOutcomeTx id nodeID a res) := by
  unfold afterOutcomeTx
  refine keeps_bind (by simp) fun r => ?_
  split <;> simp

@[simp] theorem keeps_commitCompletionTx (a : Attempt) (req : CompleteRequest)
    (res : CompletionResult) : Keeps R (commitCompletionTx id nodeID a req res) := by
  unfold commitCompletionTx
  repeat' with_reducible refine keeps_bind ?_ fun _ => ?_
  all_goals simp

@[simp] theorem keeps_completeTx (req : CompleteRequest) (lookup : ArtifactLookup) :
    Keeps R (completeTx session req lookup) := by
  unfold completeTx
  refine keeps_bind (by simp) fun r => ?_
  split
  · simp
  · refine keeps_bind (by simp) fun _ => keeps_ite (fun _ => by simp) fun _ => ?_
    split
    · repeat' with_reducible refine keeps_bind ?_ fun _ => ?_
      all_goals try simp
      split <;> simp
    · simp

end

end Deadbolt.Execution
