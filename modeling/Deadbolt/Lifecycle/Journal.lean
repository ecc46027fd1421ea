import Deadbolt.Execution.Sample
import Deadbolt.Lifecycle.Recovery

/-!
# The journal of a run

`run_events` and the outbox rows that announce them. Every transaction of the engine appends
through `appendRunEvent`, which numbers the event, keeps the last number for a terminal one and
inserts the outbox row; so the journal grows one announced event at a time. A recovery inserts
its events by statements of its own that do neither.
-/

namespace Deadbolt.Execution

open Base Contracts

/-- The event counter of a run, its events and their outbox rows. -/
structure Journal where
  last : Nat
  events : List Event
  outbox : List OutboxEvent

def Run.journal (r : Run) : Journal := ⟨r.lastEventSequence, r.events, r.outbox⟩

/-- The outbox row is the one of the event. The row of the creation names no sequence. -/
def Event.AnnouncedBy (e : Event) (o : OutboxEvent) : Prop :=
  o.type = e.type ∧ (o.sequence = some e.sequence ∨ o.sequence = none ∧ e.type = .runCreated)

namespace Journal

def push (j : Journal) (t : EventType) (x : Payload) : Journal :=
  ⟨j.last + 1, j.events ++ [⟨j.last + 1, t, x⟩], j.outbox ++ [⟨some (j.last + 1), t⟩]⟩

inductive Grows (j : Journal) : Journal → Prop
  | refl : Grows j j
  | push {k : Journal} (h : Grows j k) (t : EventType) (x : Payload)
      (hroom : k.last < maxRunEvents - 1 ∨ t.terminal = true ∧ k.last = maxRunEvents - 1) :
      Grows j (k.push t x)

/-- The events are numbered from one without a gap, within the budget, and the last number is a
terminal event's. -/
structure Numbered (j : Journal) : Prop where
  sequences : j.events.map Event.sequence = List.range' 1 j.last
  bound : j.last ≤ maxRunEvents
  final : ∀ e ∈ j.events, e.sequence = maxRunEvents → e.type.terminal = true

variable {j k l : Journal}

theorem Grows.trans (h : j.Grows k) (h' : k.Grows l) : j.Grows l := by
  induction h' with
  | refl => exact h
  | push _ t x hroom ih => exact ih.push t x hroom

theorem Grows.numbered (h : j.Grows k) (hj : j.Numbered) : k.Numbered := by
  induction h with
  | refl => exact hj
  | @push k _ t x hroom ih =>
    constructor
    · simp only [Journal.push, List.map_append, ih.sequences, List.map_cons, List.map_nil]
      rw [List.range'_1_concat, Nat.add_comm 1]
    · simp only [Journal.push]
      have hmax : 1 ≤ maxRunEvents := by decide
      omega
    · intro e he hseq
      rcases List.mem_append.mp he with he | he
      · exact ih.final e he hseq
      · rw [List.mem_singleton.mp he] at hseq ⊢
        simp only at hseq ⊢
        rcases hroom with hroom | hroom
        · omega
        · exact hroom.1

/-- What is appended is announced, event by event. -/
theorem Grows.announced (h : j.Grows k) : ∃ es os, k.events = j.events ++ es ∧
    k.outbox = j.outbox ++ os ∧ List.Forall₂ Event.AnnouncedBy es os := by
  induction h with
  | refl => exact ⟨[], [], by simp, by simp, .nil⟩
  | @push k _ t x _ ih =>
    obtain ⟨es, os, hes, hos, hall⟩ := ih
    refine ⟨es ++ [⟨k.last + 1, t, x⟩], os ++ [⟨some (k.last + 1), t⟩], ?_, ?_, ?_⟩
    · simp [Journal.push, hes]
    · simp [Journal.push, hos]
    · exact List.rel_append hall (.cons ⟨rfl, .inl rfl⟩ .nil)

end Journal

/-! ### Moves -/

namespace Run

variable {r r1 r' : Run} {t : EventType} {tr vs : List Visit}

theorem grows_pushEvent (h : r.hasEventSlot t = true) (x : Payload) :
    r.journal.Grows (r.pushEvent t x).journal := by
  refine Journal.Grows.refl.push t x ?_
  simpa [hasEventSlot, journal] using h

theorem Logs.grows (h : r.Logs r') : r.journal.Grows r'.journal := by
  induction h with
  | refl => exact .refl
  | tail _ t x _ _ hslot ih => exact ih.trans (grows_pushEvent hslot x)

theorem Ends.grows (h : Ends t r r') : r.journal.Grows r'.journal := by
  obtain ⟨r1, x, hl, hslot, rfl⟩ := h
  exact hl.grows.trans (grows_pushEvent hslot x)

theorem Closes.grows (h : r.Closes vs t r1) : r.journal.Grows r1.journal := by
  cases h with
  | @fail id r0 r2 ws reason actor now closedAt hf hl =>
    have hsame : r0.journal = r.journal := by cases hf <;> rfl
    have hgrows : r.journal.Grows r2.journal := hsame ▸ hl.grows
    exact hgrows
  | _ => exact .refl

end Run

theorem StatusMove.journal_apply (u : StatusMove) (r : Run) : (u.apply r).journal = r.journal := by
  obtain ⟨_, _, _, _, h⟩ := u.apply_eq r
  rw [h]
  rfl

theorem Run.Moves.grows {r r' : Run} {tr vs : List Visit} (h : r.Moves tr vs r') :
    r.journal.Grows r'.journal := by
  cases h with
  | event t x _ hslot => exact grows_pushEvent hslot x
  | @step id s s' k u =>
    cases u with
    | none => exact .refl
    | some u =>
      have hsame : (u.apply (r.setStep id s')).journal = r.journal := u.journal_apply _
      rw [StatusMove.follow, hsame]
      exact .refl
  | status u =>
    rw [u.journal_apply r]
    exact .refl
  | close hc he => exact hc.grows.trans he.grows
  | _ => exact .refl

/-- A change appends to the journal, unless a recovery holds the run. -/
theorem View.Change.grows {a b : View} (hc : a.Change b)
    (hP : ∀ v ∈ b.trace, v.run.id = a.run.id → v.kind ≠ .disasterHold) :
    a.run.journal.Grows b.run.journal := by
  obtain ⟨r', tr'⟩ := b
  rcases hc with (⟨vs, hm, -⟩ | ⟨vs, hm, -⟩) | ⟨vs, hm, htr⟩
  · exact hm.grows
  · simp only at hm
    cases hm
    exact .refl
  · simp only at hm htr hP
    have hheld : ⟨.disasterHold, a.run⟩ ∉ tr' := fun hv => hP _ hv rfl rfl
    rw [htr] at hheld
    cases hm <;> simp at hheld

/-! ### Every run -/

theorem Run.Created.numbered {r : Run} (h : r.Created) :
    r.journal.Numbered ∧ List.Forall₂ Event.AnnouncedBy r.journal.events r.journal.outbox := by
  obtain ⟨req, d, runID, now, steps, wf, rfl, -⟩ := h
  refine ⟨⟨rfl, (by decide : 1 ≤ maxRunEvents), fun e he hseq => ?_⟩, .cons ⟨rfl, .inr ⟨rfl, rfl⟩⟩ .nil⟩
  rw [List.mem_singleton.mp he] at hseq
  cases hseq

theorem Journal.Grows.announced_all {j k : Journal} (h : j.Grows k)
    (hj : List.Forall₂ Event.AnnouncedBy j.events j.outbox) :
    List.Forall₂ Event.AnnouncedBy k.events k.outbox := by
  obtain ⟨es, os, hes, hos, hall⟩ := h.announced
  rw [hes, hos]
  exact List.rel_append hj hall

/-- The events of a run are numbered `1..last_event_sequence` with at most `maxRunEvents` of them,
the last number is a terminal event's, every event has its own outbox row in their common order, and
events and outbox rows are committed together: in every run of the installation in which no recovery
has held this run. -/
theorem journal_complete [Platform] (fleet : Fleet) (os : List Operation) (id : RunID) (r : Run)
    (hr : (installation.exec (World.initial fleet) os).db.runs.find? id = some r)
    (hP : ∀ v ∈ (installation.exec (World.initial fleet) os).db.sys.trace, v.run.id = id →
      v.kind ≠ .disasterHold) :
    r.events.map Event.sequence = List.range' 1 r.lastEventSequence ∧
      r.lastEventSequence ≤ maxRunEvents ∧
      (∀ e ∈ r.events, e.sequence = maxRunEvents → e.type.terminal = true) ∧
      List.Forall₂ Event.AnnouncedBy r.events r.outbox ∧
      ∀ before after r0, os = before ++ after →
        (installation.exec (World.initial fleet) before).db.runs.find? id = some r0 →
        ∃ es xs, r.events = r0.events ++ es ∧ r.outbox = r0.outbox ++ xs ∧
          List.Forall₂ Event.AnnouncedBy es xs := by
  obtain ⟨-, -, hnum, hann⟩ := installation_run_invariant
    (I := fun r => r.journal.Numbered ∧
      List.Forall₂ Event.AnnouncedBy r.journal.events r.journal.outbox)
    (P := fun v => v.kind ≠ .disasterHold) (fun _ h => h.numbered)
    (fun a b _ h hP hc => ⟨(hc.grows hP).numbered h.1, (hc.grows hP).announced_all h.2⟩) hP hr
  refine ⟨hnum.sequences, hnum.bound, hnum.final, hann, fun before after r0 hos hr0 => ?_⟩
  subst hos
  obtain ⟨hs0, hid0⟩ := installation_sound hr0
  obtain ⟨r', hr', hop⟩ := installation_append after hr0
  obtain rfl := Option.mem_unique hr' hr
  have hgrows : r0.journal.Grows r'.journal :=
    (hop.invariant (J := fun v => v.run.id = id ∧ r0.journal.Grows v.run.journal)
      (P := fun v => v.run.id = id → v.kind ≠ .disasterHold)
      (fun a b _ h hP hc => ⟨(congrArg Prod.fst hc.pinned).trans h.1,
        h.2.trans (hc.grows (by rw [h.1]; exact hP))⟩) hs0 hP ⟨hid0, .refl⟩).2
  exact hgrows.announced

/-- The journal of a run that a worker has started. -/
theorem journal_complete_started :
    ∃ r, ((@installation Sample.platform).exec (World.initial (Sample.single "safe" none))
        (Sample.started.map .engine)).db.runs.find? 0 = some r ∧
      r.events.map Event.type = [.runCreated, .taskClaimed, .taskStarted] ∧
      r.events.map Event.sequence = List.range' 1 r.lastEventSequence ∧
      List.Forall₂ Event.AnnouncedBy r.events r.outbox := by
  obtain ⟨r, hr, htypes⟩ := (Option.any_eq_true (fun r : Run =>
      r.events.map Event.type == [.runCreated, .taskClaimed, .taskStarted])
    (((@installation Sample.platform).exec (World.initial (Sample.single "safe" none))
      (Sample.started.map .engine)).db.runs.find? 0)).mp (by decide +kernel)
  rw [beq_iff_eq] at htypes
  have hvisits : ∀ v ∈ ((@installation Sample.platform).exec
      (World.initial (Sample.single "safe" none)) (Sample.started.map .engine)).db.sys.trace,
      (v.kind != .disasterHold) = true := List.all_eq_true.mp (by decide +kernel)
  have h := @journal_complete Sample.platform (Sample.single "safe" none)
    (Sample.started.map .engine) 0 r hr fun v hv _ => by simpa using hvisits v hv
  exact ⟨r, hr, htypes, h.1, h.2.2.2.1⟩

/-- A recovery of a new run leaves it with two events and one outbox row. -/
theorem recovery_event_unannounced :
    (((@installation Sample.platform).exec (World.initial (Sample.single "safe" none))
      [.engine (.createRun Sample.request), .recover ⟨0, 0⟩ []]).db.runs.find? 0).any (fun r =>
        r.events.map Event.type == [.runCreated, .stepWaiting] && r.outbox.length == 1) = true := by
  decide +kernel

end Deadbolt.Execution
