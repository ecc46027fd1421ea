import Deadbolt.Lifecycle.Succeeded

/-!
# What a step of an open run waits for

While a run is open, none of its steps has failed or been cancelled, and a pending timer, a pending
approval or an open case keeps its step `WAITING` for that reason and no other.
-/

namespace Deadbolt.Execution

open Base Contracts

def TimerKind.reason : TimerKind → String
  | .retryBackoff => "RETRY_BACKOFF"
  | .delay => "DELAY"

theorem filter_map_eq_nil {α : Type} {l : List α} {p : α → Bool} {f : α → α} {x : α}
    (hlen : (l.filter p).length ≤ 1) (hx : x ∈ l) (hp : p x = true) (hfx : p (f x) = false)
    (hf : ∀ y, p y = false → p (f y) = false) : (l.map f).filter p = [] := by
  rw [List.filter_eq_nil_iff]
  intro z hz
  obtain ⟨y, hy, rfl⟩ := List.mem_map.mp hz
  cases hpy : p y with
  | false => simp [hf y hpy]
  | true =>
    have hy' : y ∈ l.filter p := List.mem_filter.mpr ⟨hy, hpy⟩
    have hx' : x ∈ l.filter p := List.mem_filter.mpr ⟨hx, hp⟩
    obtain rfl : y = x := by
      cases hl : l.filter p with
      | nil => rw [hl] at hx'; cases hx'
      | cons a rest =>
        rw [hl] at hlen hx' hy'
        have hrest : rest = [] := List.length_eq_zero_iff.mp (by simpa using hlen)
        subst hrest
        rw [List.mem_singleton.mp hx', List.mem_singleton.mp hy']
    simp [hfx]

namespace Step

def pendings (s : Step) : List Timer := s.timers.filter fun t => t.state == .pending

def openCases (s : Step) : List Case := s.cases.filter fun c => c.status == .open

def Free (s : Step) : Prop :=
  s.pendings = [] ∧ s.hasPendingApproval = false ∧ s.openCases = []

/-- A step of an open run waits for what is pending of it. -/
structure Waits (s : Step) : Prop where
  unclosed : ¬ s.Closed
  timers : s.pendings.length ≤ 1
  armed : ∀ t ∈ s.pendings, s.waitsFor t.kind.reason = true
  asked : s.hasPendingApproval = true → s.waitsFor "APPROVAL" = true
  cases : s.openCases.length ≤ 1
  held : s.openCases ≠ [] → s.waitsFor "RECONCILIATION" = true

section

variable {r r' : Run} {tr : List Visit} {id : StepID} {s s' : Step}

theorem unclosed_of (t : StepState) (hs : s.state = t) (ht : t ≠ .cancelled ∧ t ≠ .failed) :
    ¬ s.Closed := by
  rintro (h | h)
  · exact ht.1 (hs.symm.trans h)
  · exact ht.2 (hs.symm.trans h)

theorem Free.waits (h : s.Free) (hc : ¬ s.Closed) : s.Waits where
  unclosed := hc
  timers := by simp [h.1]
  armed t ht := by rw [h.1] at ht; cases ht
  asked ha := by rw [h.2.1] at ha; cases ha
  cases := by simp [h.2.2]
  held hne := absurd h.2.2 hne

theorem waitsFor_ne {a b : String} (h : s.waitsFor a = true) (hne : a ≠ b) :
    s.waitsFor b = false := by
  rw [waitsFor_eq_true] at h
  simp [waitsFor, h.2, hne]

theorem Waits.no_timers (h : s.Waits) (hw : ∀ kind : TimerKind, s.waitsFor kind.reason = false) :
    s.pendings = [] := by
  rw [List.eq_nil_iff_forall_not_mem]
  intro t ht
  have hwait := h.armed t ht
  rw [hw] at hwait
  cases hwait

theorem Waits.no_approval (h : s.Waits) (hw : s.waitsFor "APPROVAL" = false) :
    s.hasPendingApproval = false := by
  by_contra ha
  have hwait := h.asked (by simpa using ha)
  rw [hw] at hwait
  cases hwait

theorem Waits.no_case (h : s.Waits) (hw : s.waitsFor "RECONCILIATION" = false) :
    s.openCases = [] := by
  by_contra hne
  have hwait := h.held hne
  rw [hw] at hwait
  cases hwait

theorem Waits.free (h : s.Waits) (hs : s.state ≠ .waiting) : s.Free := by
  have hw (reason : String) : s.waitsFor reason = false := by simp [waitsFor, hs]
  exact ⟨h.no_timers fun _ => hw _, h.no_approval (hw _), h.no_case (hw _)⟩

theorem Waits.free_of_handoff (h : s.Waits) (hs : s.waitsFor "RECOVERY_HANDOFF" = true) :
    s.Free := by
  refine ⟨h.no_timers fun kind => ?_, h.no_approval (waitsFor_ne hs (by decide)),
    h.no_case (waitsFor_ne hs (by decide))⟩
  cases kind <;> exact waitsFor_ne hs (by decide)

theorem Waits.free_of_owns (h : s.Waits) (he : s.Engaged) {a : AttemptID} (ho : s.Owns a) :
    s.Free ∧ s.state = .running := by
  have hrun : s.state = .running := (he ho.hasLive).resolve_right h.unclosed
  exact ⟨h.free (by rw [hrun]; nofun), hrun⟩

theorem pendings_fireTimer (h : s.Waits) {timer : Timer} (ht : timer ∈ s.timers)
    (hp : timer.state = .pending) (now : Time) : (s.fireTimer timer.id now).pendings = [] := by
  refine filter_map_eq_nil h.timers ht (by simp [hp]) (by simp [hp]) fun t ht => ?_
  split
  · rfl
  · exact ht

theorem openCases_resolveCase (h : s.openCases.length ≤ 1) {case : CaseID} (hc : s.Holds case)
    (resolution : CaseResolution) (actor : ActorID) (now : Time) :
    (s.resolveCase case resolution actor now).openCases = [] := by
  obtain ⟨c, hc, hid, hopen⟩ := hc
  refine filter_map_eq_nil h hc (by simp [hopen]) (by simp [hid, hopen, Case.resolve])
    fun x hx => ?_
  split
  · rfl
  · exact hx

theorem Holds.openCases_ne {case : CaseID} (hc : s.Holds case) : s.openCases ≠ [] := by
  obtain ⟨c, hc, -, hopen⟩ := hc
  exact List.ne_nil_of_mem (List.mem_filter.mpr ⟨hc, by simp [hopen]⟩)

theorem hasPendingApproval_decideApproval {status : ApprovalStatus} (hs : status ≠ .pending)
    (comment : String) (actor : ActorID) (now : Time) :
    (s.decideApproval status comment actor now).hasPendingApproval = false := by
  cases ha : s.approval with
  | none => simp [hasPendingApproval, decideApproval, updatePendingApproval, ha]
  | some a =>
    by_cases hp : a.status = .pending <;>
      simp [hasPendingApproval, decideApproval, updatePendingApproval, ha, hp, hs]

theorem pendings_append (h : s.pendings = []) {kind : TimerKind} {timer : Option Timer}
    (harms : s.Arms kind timer) :
    ({ s with timers := s.timers ++ timer.toList }).pendings.length ≤ 1 ∧
      ∀ t ∈ ({ s with timers := s.timers ++ timer.toList }).pendings, t.kind = kind := by
  have happend : ({ s with timers := s.timers ++ timer.toList }).pendings = timer.toList := by
    simp only [pendings, List.filter_append] at h ⊢
    rw [h, List.nil_append, List.filter_eq_self]
    intro t ht
    simp [(harms.1 t (Option.mem_toList.mp ht)).2]
  rw [happend]
  exact ⟨by cases timer <;> simp, fun t ht => (harms.1 t (Option.mem_toList.mp ht)).1⟩

theorem Closes.free {policy : RetryPolicy} {a : AttemptID} {status : AttemptStatus} {s1 : Step}
    (hc : s.Closes policy a status s1) (h : s.Free) : s1.Free := by
  obtain ⟨state, reason, output, attempts, lease, v, rfl⟩ := hc.eq
  exact h

theorem Free.waits_parkRetry (h : s.pendings = []) (ha : s.hasPendingApproval = false)
    (hc : s.openCases = []) {timer : Option Timer} (harms : s.Arms .retryBackoff timer)
    (dueAt : Time) : (s.parkRetry timer dueAt).Waits := by
  obtain ⟨hlen, hkind⟩ := pendings_append h harms
  refine ⟨unclosed_of .waiting rfl (by decide), hlen, fun t ht => ?_, fun ha' => ?_, ?_, fun hne => ?_⟩
  · rw [hkind t ht]
    rfl
  · cases ha.symm.trans ha'
  · exact (congrArg List.length hc).trans_le (Nat.zero_le 1)
  · exact absurd hc hne

theorem Free.waits_hold (h : s.Free) {case : Case} (hcase : case.status = .open) :
    (s.hold case).Waits := by
  obtain ⟨ht, ha, hc⟩ := h
  refine ⟨unclosed_of .waiting rfl (by decide), ?_, fun t ht' => ?_, fun ha' => ?_, ?_, fun _ => rfl⟩
  · exact (congrArg List.length ht).trans_le (Nat.zero_le 1)
  · exact absurd (List.ne_nil_of_mem ht') (not_not_intro ht)
  · cases ha.symm.trans ha'
  · simp only [openCases] at hc
    simp [openCases, hold, List.filter_append, hc, hcase]

theorem Moves.waits {k : Option VisitKind} {u : Option StatusMove} (hm : Moves r id s k u s')
    (hf : r.steps.find? id = some s) (he : s.Engaged) (h : s.Waits)
    (hP : ∀ x ∈ k, Visit.holdsReady ⟨x, r⟩ = true) : s'.Waits := by
  have hfree {t : StepState} (ht : s.state = t) (hne : t ≠ .waiting) : s.Free :=
    h.free (by rw [ht]; exact hne)
  cases hm with
  | mint now windowMs =>
    obtain ⟨v, hv⟩ := mintWindow_eq s (now + millis windowMs)
    rw [hv]
    exact ⟨h.unclosed, h.timers, h.armed, h.asked, h.cases, h.held⟩
  | derive x windowMs =>
    obtain ⟨v, hv⟩ := mintWindow_eq s (x.createdAt + durationMs windowMs)
    rw [hv]
    exact ⟨h.unclosed, h.timers, h.armed, h.asked, h.cases, h.held⟩
  | skip reason hs =>
    have hs' : (s.skip reason).Free := hfree hs (by decide)
    exact hs'.waits (unclosed_of .skipped rfl (by decide))
  | succeedControl output hs =>
    have hs' : (s.succeed output).Free := hfree hs (by decide)
    exact hs'.waits (unclosed_of .succeeded rfl (by decide))
  | ready t hs =>
    have hs' : (s.makeReady t).Free := hfree hs (by decide)
    exact hs'.waits (unclosed_of .ready rfl (by decide))
  | requestApproval a _ _ _ hs =>
    obtain ⟨ht, -, hc⟩ := hfree hs (by decide)
    rw [requestApproval_blocked hs]
    refine ⟨unclosed_of .waiting rfl (by decide), h.timers, fun t ht' => ?_, fun _ => rfl, h.cases,
      fun hne => absurd hc hne⟩
    exact absurd (List.ne_nil_of_mem ht') (not_not_intro ht)
  | lateApproval _ _ _ _ hc => exact absurd hc h.unclosed
  | parkDelay timer dueAt harms _ hs =>
    obtain ⟨ht, ha, hc⟩ := hfree hs (by decide)
    obtain ⟨hlen, hkind⟩ := pendings_append ht harms
    rw [parkDelay_blocked hs]
    refine ⟨unclosed_of .waiting rfl (by decide), hlen, fun t ht' => ?_, fun ha' => ?_, h.cases,
      fun hne => absurd hc hne⟩
    · rw [hkind t ht']
      rfl
    · cases ha.symm.trans ha'
  | lateDelay _ _ _ _ hc => exact absurd hc h.unclosed
  | fireRetry timer now _ hw ht hp =>
    have hs' : ((s.fireTimer timer.id now).makeReady timer.dueAt).Free :=
      ⟨pendings_fireTimer h ht hp.2 now, h.no_approval (waitsFor_ne hw (by decide)),
        h.no_case (waitsFor_ne hw (by decide))⟩
    exact hs'.waits (unclosed_of .ready rfl (by decide))
  | fireDelay timer now _ hw ht hp =>
    have hs' : ((s.fireTimer timer.id now).succeed (.obj [])).Free :=
      ⟨pendings_fireTimer h ht hp.2 now, h.no_approval (waitsFor_ne hw (by decide)),
        h.no_case (waitsFor_ne hw (by decide))⟩
    exact Free.waits (s := { (s.fireTimer timer.id now).succeed (.obj []) with
      completionSource := some .timer }) hs' (unclosed_of .succeeded rfl (by decide))
  | grant a l _ _ _ hs =>
    have hs' : (s.grant a l).Free := hfree hs (by decide)
    exact hs'.waits (unclosed_of .running rfl (by decide))
  | start => exact ⟨h.unclosed, h.timers, h.armed, h.asked, h.cases, h.held⟩
  | renew => exact ⟨h.unclosed, h.timers, h.armed, h.asked, h.cases, h.held⟩
  | acknowledge => exact ⟨h.unclosed, h.timers, h.armed, h.asked, h.cases, h.held⟩
  | park a _ howns hc _ _ hp =>
    have hs1 := hc.free (h.free_of_owns he howns).1
    cases hp with
    | retry timer dueAt harms => exact Free.waits_parkRetry hs1.1 hs1.2.1 hs1.2.2 harms dueAt
    | hold case hcase => exact hs1.waits_hold hcase
  | fence a epoch error now howns =>
    obtain ⟨x, hx, hid, hl, -⟩ := howns
    obtain ⟨hs, hrun⟩ := h.free_of_owns he ⟨x, hx, hid, hl⟩
    unfold Step.fence
    split
    · exact Free.waits hs (unclosed_of .waiting rfl (by decide))
    · exact Free.waits hs h.unclosed
  | claimHold case hcase =>
    have hready := hP _ rfl
    simp only [Visit.holdsReady, hf, Option.any_some, beq_iff_eq] at hready
    exact (hfree hready (by decide)).waits_hold hcase
  | approve status comment actor now output _ _ hp hstatus =>
    have hw := h.asked hp
    have hs' : ((s.decideApproval status comment actor now).succeed output).Free := by
      refine ⟨h.no_timers fun kind => ?_, ?_, h.no_case (waitsFor_ne hw (by decide))⟩
      · cases kind <;> exact waitsFor_ne hw (by decide)
      · exact hasPendingApproval_decideApproval hstatus comment actor now
    exact hs'.waits (unclosed_of .succeeded rfl (by decide))
  | readyHandoff t _ hw =>
    have hs' : (s.makeReady t).Free := h.free_of_handoff hw
    exact hs'.waits (unclosed_of .ready rfl (by decide))

theorem Unsettles.waits {k : VisitKind} (hm : Unsettles r id s k s') (he : s.Engaged)
    (h : s.Waits) : s'.Waits := by
  cases hm with
  | finish a howns hc hs =>
    have hs1 := hc.free (h.free_of_owns he howns).1
    exact hs1.waits (unclosed_of .succeeded hs (by decide))
  | confirm case actor now result hc =>
    have hw := h.held hc.openCases_ne
    rw [if_pos hw]
    have hs' : (s.resolveCase case .succeed actor now).Free := by
      refine ⟨h.no_timers fun kind => ?_, h.no_approval (waitsFor_ne hw (by decide)),
        openCases_resolveCase h.cases hc .succeed actor now⟩
      cases kind <;> exact waitsFor_ne hw (by decide)
    exact Free.waits hs' (unclosed_of .succeeded rfl (by decide))
  | retry case actor now timer dueAt hw hc harms _ =>
    refine Free.waits_parkRetry (s := s.resolveCase case .retry actor now)
      (h.no_timers fun kind => ?_) (h.no_approval (waitsFor_ne hw (by decide)))
      (openCases_resolveCase h.cases hc .retry actor now) harms dueAt
    cases kind <;> exact waitsFor_ne hw (by decide)

theorem Transits.waits (ht : Transits r r' tr id s s') (hf : r.steps.find? id = some s)
    (he : s.Engaged) (hopen : r'.status.closing = false) (h : s.Waits)
    (hP : ∀ v ∈ tr, v.run.id = r.id → v.holdsReady = true) : s'.Waits := by
  cases ht with
  | same => exact h
  | moves hm _ hv _ => exact hm.waits hf he h fun x hx => hP _ (hv x hx) rfl
  | unsettles hm _ _ => exact hm.waits he h
  | winds _ hr _ => cases hopen.symm.trans hr
  | closes _ _ _ _ hr =>
    rw [hr] at hopen
    cases hopen
  | held _ hv => cases hP _ hv rfl

end

end Step

/-! ### Every run -/

/-- An open run had been open before, but for a disaster recovery. -/
theorem View.Change.open_of_open {a b : View} (hc : a.Change b)
    (hP : ∀ v ∈ b.trace, v.run.id = a.run.id → v.holdsReady = true)
    (hopen : b.run.status.closing = false) : a.run.status.closing = false := by
  by_contra hclosing
  rw [Bool.not_eq_false] at hclosing
  obtain ⟨r', tr'⟩ := b
  have hclosed : r'.status.closing = true := by
    rcases hc with (⟨vs, hm, -⟩ | ⟨vs, hm, -⟩) | ⟨vs, hm, htr⟩
    · exact hm.closing hclosing
    · simp only at hm
      cases hm
      exact hclosing
    · simp only at hm htr hP
      cases hm with
      | status => cases hP ⟨.disasterHold, a.run⟩ (by simp [htr]) rfl
      | step => exact hclosing
      | event => exact hclosing
  cases hopen.symm.trans hclosed

def Run.Waits (r : Run) : Prop :=
  r.status.closing = false → ∀ k s, r.steps.find? k = some s → s.Waits

variable {r : Run}

theorem Run.Created.waits (h : r.Created) : r.Waits := by
  intro _ k s hs
  obtain ⟨n, t, rfl⟩ := h.step hs
  refine Step.Free.waits ⟨rfl, rfl, rfl⟩ ?_
  unfold initialStep
  by_cases hready : (n.after.isEmpty && n.type == .task) = true <;>
    simp [Step.Closed, hready]

theorem View.Change.waits {a b : View} (hc : a.Change b) (hs : a.run.Sound) (he : a.run.Engaged)
    (h : a.run.Waits) (hP : ∀ v ∈ b.trace, v.run.id = a.run.id → v.holdsReady = true) :
    b.run.Waits := by
  intro hopen k s' hs'
  obtain ⟨s, hf, ht⟩ := hc.transits hs hs'
  exact ht.waits hf (he k s hf) hopen (h (hc.open_of_open hP hopen) k s hf) hP

theorem installation_waits [Platform] {fleet : Fleet} {os : List Operation} {id : RunID}
    (hr : (installation.exec (World.initial fleet) os).db.runs.find? id = some r)
    (hP : ∀ v ∈ (installation.exec (World.initial fleet) os).db.sys.trace,
      v.run.id = id → v.holdsReady = true) : r.Waits := by
  obtain ⟨-, -, -, h⟩ := installation_run_invariant (I := fun r => r.Engaged ∧ r.Waits)
    (fun _ h => ⟨h.engaged, h.waits⟩)
    (fun a b hs h hP hc => ⟨hc.engaged hs h.1 hP, hc.waits hs h.1 h.2 hP⟩) hP hr
  exact h

/-! ### Due timers -/

/-- The reasons for which a waiting run lets a timer of the kind fire. -/
def TimerKind.wakes : TimerKind → String → Bool
  | .retryBackoff, reason => Text.toUpper (Text.trimSpace reason) ∈ ["RETRY_BACKOFF", "RETRY", ""]
  | .delay, reason => reason == "DELAY"

def Run.timerFires (r : Run) (s : Step) (t : Timer) (now : Time) : Bool :=
  match t.kind with
  | .retryBackoff => r.retryFires s t now
  | .delay => r.delayFires s t now

theorem Step.Waits.timerFires {s : Step} (h : s.Waits) {t : Timer} {now : Time} (ht : t ∈ s.timers)
    (hp : t.state = .pending) (hdue : t.dueAt ≤ now) (hover : r.overdue now = false) :
    r.timerFires s t now = true ↔ r.status.active = true ∨
      r.status = .waiting ∧ t.kind.wakes (reasonText r.reasonCode) = true := by
  have hw := h.armed t (List.mem_filter.mpr ⟨ht, by simp [hp]⟩)
  cases hk : t.kind with
  | retryBackoff =>
    rw [hk] at hw
    have hw : s.waitsFor "RETRY_BACKOFF" = true := hw
    simp only [Run.timerFires, hk, Run.retryFires, hp, hdue, hw, hover]
    cases hs : r.status <;> simp [canFireRetry, TimerKind.wakes, RunStatus.active]
  | delay =>
    rw [hk] at hw
    have hw : s.waitsFor "DELAY" = true := hw
    simp only [Run.timerFires, hk, Run.delayFires, hp, hw, hover]
    cases hs : r.status <;> simp [Run.delayStatusFires, TimerKind.wakes, RunStatus.active]

/-- A due timer of an open run that is not overdue passes its guard if and only if the run is
`QUEUED`, `RUNNING` or `WAITING` for a reason of the timer's kind, in every run of the installation
in which no hold of a claim finds a step that is not `READY` and no disaster recovery holds the
run. -/
theorem due_timer_fires [Platform] (fleet : Fleet) (os : List Operation) (id : RunID) (r : Run)
    (hr : (installation.exec (World.initial fleet) os).db.runs.find? id = some r)
    (hP : ∀ v ∈ (installation.exec (World.initial fleet) os).db.sys.trace,
      v.run.id = id → v.holdsReady = true)
    (hopen : r.status.closing = false) (now : Time) (hover : r.overdue now = false) (k : StepID)
    (s : Step) (hs : r.steps.find? k = some s) (t : Timer) (ht : t ∈ s.timers)
    (hp : t.state = .pending) (hdue : t.dueAt ≤ now) :
    r.timerFires s t now = true ↔ r.status.active = true ∨
      r.status = .waiting ∧ t.kind.wakes (reasonText r.reasonCode) = true :=
  (installation_waits hr hP hopen k s hs).timerFires ht hp hdue hover

def Sample.delayBeside (nodes : List WorkflowNode) : Fleet :=
  fleet [taskManifest "a" "safe" none] [workflow "w" (nodes ++ [delayNode "d" []])]

def Sample.delayDue : List Action := [.createRun request, .reconcileReadyWork [], .elapse 1000000]

theorem due_timer_fires_delay :
    ∃ r s t, ((@installation Sample.platform).exec (World.initial (Sample.delayBeside []))
        (Sample.delayDue.map .engine)).db.runs.find? 0 = some r ∧
      r.steps.find? 1 = some s ∧ t ∈ s.timers ∧ t.state = .pending ∧
      r.timerFires s t 1000010 = true := by
  obtain ⟨r, hr, h⟩ := (Option.any_eq_true (fun r : Run => r.status == .waiting &&
    (r.reasonCode == some "DELAY" && (!r.overdue 1000010 && (r.steps.find? 1).any fun s =>
      s.timers.any fun t => t.kind == .delay && (t.state == .pending &&
        decide (t.dueAt ≤ 1000010)))))
    (((@installation Sample.platform).exec (World.initial (Sample.delayBeside []))
      (Sample.delayDue.map .engine)).db.runs.find? 0)).mp (by decide +kernel)
  simp only [Bool.and_eq_true, beq_iff_eq, Bool.not_eq_true'] at h
  obtain ⟨hstatus, hreason, hover, h⟩ := h
  obtain ⟨s, hs, h⟩ := (Option.any_eq_true ..).mp h
  obtain ⟨t, ht, h⟩ := List.any_eq_true.mp h
  simp only [Bool.and_eq_true, beq_iff_eq, decide_eq_true_eq] at h
  obtain ⟨hk, hp, hdue⟩ := h
  have hvisits : ∀ v ∈ ((@installation Sample.platform).exec
      (World.initial (Sample.delayBeside [])) (Sample.delayDue.map .engine)).db.sys.trace,
      v.holdsReady = true := List.all_eq_true.mp (by decide +kernel)
  have hfires := @due_timer_fires Sample.platform (Sample.delayBeside [])
    (Sample.delayDue.map .engine) 0 r hr (fun v hv _ => hvisits v hv) (by rw [hstatus]; rfl)
    1000010 hover 1 s hs t ht hp hdue
  exact ⟨r, s, t, hr, hs, ht, hp, hfires.mpr (.inr ⟨hstatus, by rw [hk, hreason]; rfl⟩)⟩

/-- Beside a pending approval the run waits for `APPROVAL`, and the due delay does not fire. -/
theorem due_delay_blocked :
    ((Sample.run (Sample.delayBeside [Sample.approvalNode "b" []]) Sample.delayDue).db.runs.find? 0
      ).any (fun r => !r.status.closing && r.status != .pausing && r.status != .paused &&
        !r.pauseRequested && !r.hasOpenCase && !r.overdue 1000010 &&
        (r.steps.find? 2).any fun s => s.timers.any fun t =>
          t.state == .pending && decide (t.dueAt ≤ 1000010) && !r.timerFires s t 1000010) = true := by
  decide +kernel

end Deadbolt.Execution
