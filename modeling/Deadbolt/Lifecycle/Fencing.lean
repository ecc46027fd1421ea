import Deadbolt.Lifecycle.Ownership

/-!
# Stale owners change nothing

A worker request changes a run only if the lease of the step it names is of the caller's session
and epoch and has not expired when the request arrives. `Heartbeat` compares the attempt where
`Start` and `Complete` compare the lease; the two agree in every reachable state.
-/

namespace Deadbolt.Execution

open Base Contracts Tx RunTx

/-- The lease of the step is of the attempt, session and epoch and holds at the time. -/
def Step.OwnedBy (s : Step) (sessionID : SessionID) (attemptID : AttemptID) (epoch : Int)
    (now : Time) : Prop :=
  ∃ l, s.lease = some l ∧ l.attemptID = attemptID ∧ l.sessionID = sessionID ∧ l.epoch = epoch ∧
    now < l.expiresAt

variable {s : Step}

theorem Step.OwnedBy.mono {sessionID : SessionID} {attemptID : AttemptID} {epoch : Int}
    {now now' : Time} (h : s.OwnedBy sessionID attemptID epoch now') (hle : now ≤ now') :
    s.OwnedBy sessionID attemptID epoch now := by
  obtain ⟨l, hl, ha, hs, he, hlt⟩ := h
  exact ⟨l, hl, ha, hs, he, lt_of_le_of_lt hle hlt⟩

theorem Step.leaseOf?_eq_some {id : AttemptID} {l : Lease} (h : s.leaseOf? id = some l) :
    s.lease = some l ∧ l.attemptID = id := by
  simpa [leaseOf?, Option.filter_eq_some_iff] using h

variable [Platform]

/-! ### One transaction -/

/-- The run is left alone, or a step of it is owned. -/
def RunScope.Guarded (c c' : RunScope) (session : WorkerSession) (attemptID : AttemptID)
    (epoch : Int) : Prop :=
  c'.run = c.run ∨ ∃ k s, c.run.steps.find? k = some s ∧
    s.OwnedBy session.sessionID attemptID epoch (Platform.clock c.sys.ticks)

theorem startTx_guarded (c : RunScope) (session : WorkerSession) (attempt : AttemptID)
    (epoch : Int) :
    Commits (startTx session attempt epoch) c fun _ c' => c.Guarded c' session attempt epoch := by
  simp only [startTx, commits_bind, commits_getRun]
  cases ha : c.run.attempt? attempt with
  | none => simp
  | some row =>
    obtain ⟨hf, -, -⟩ := Run.attempt?_eq_some ha
    simp only
    cases hl : row.2.1.leaseOf? attempt with
    | none => simp
    | some lease =>
      obtain ⟨hlease, hid⟩ := Step.leaseOf?_eq_some hl
      simp only [commits_bind, commits_clockTimestamp, commits_require]
      rintro ⟨-, -, hepoch, hsession, hnow⟩ _ _ -
      exact .inr ⟨row.1, row.2.1, hf, lease, hlease, hid, hsession, hepoch, hnow⟩

theorem completeTx_guarded (c : RunScope) (session : WorkerSession) (req : CompleteRequest)
    (lookup : ArtifactLookup) : Commits (completeTx session req lookup) c fun _ c' =>
      c.Guarded c' session req.attemptID req.ownershipEpoch := by
  simp only [completeTx, commits_bind, commits_getRun]
  cases ha : c.run.attempt? req.attemptID with
  | none => simp
  | some row =>
    obtain ⟨hf, -, -⟩ := Run.attempt?_eq_some ha
    simp only [commits_bind, commits_require, commits_ite, commits_fail]
    rintro -
    refine ⟨fun _ => ⟨fun _ _ => .inl rfl, fun _ => trivial⟩, fun _ => ?_⟩
    split
    · next deadline lease hdeadline hl =>
      obtain ⟨hlease, hid⟩ := Step.leaseOf?_eq_some hl
      simp only [commits_bind, commits_require, commits_clockTimestamp]
      rintro - ⟨hepoch, hsession, hnow, -⟩ _ _ -
      exact .inr ⟨row.1, row.2.1, hf, lease, hlease, hid, hsession, hepoch, hnow⟩
    · simp

/-- A heartbeat renews the lease of an attempt of the session and epoch before it expires, or
nothing. -/
theorem heartbeatTx_renews (c : RunScope) (session : WorkerSession) (attempt : AttemptID)
    (epoch : Int) : Commits (heartbeatTx session attempt epoch) c fun _ c' =>
      c.sys.ticks ≤ c'.sys.ticks ∧ (c'.run = c.run ∨
        ∃ k s a l t, c.run.steps.find? k = some s ∧ a ∈ s.attempts ∧ a.id = attempt ∧
          a.epoch = epoch ∧ a.sessionID = session.sessionID ∧ s.lease = some l ∧
          l.attemptID = attempt ∧ Platform.clock c.sys.ticks < l.expiresAt ∧
          c'.run = c.run.setStep k (s.renewLease attempt t)) := by
  have hstay : c.sys.ticks ≤ c.sys.ticks + 1 := Nat.le_succ _
  simp only [heartbeatTx, commits_bind, commits_getRun]
  cases ha : c.run.attempt? attempt with
  | none => simp
  | some row =>
    obtain ⟨hf, hmem, hid⟩ := Run.attempt?_eq_some ha
    simp only
    cases hl : row.2.1.leaseOf? attempt with
    | none => simp
    | some lease =>
      obtain ⟨hlease, hlid⟩ := Step.leaseOf?_eq_some hl
      simp only [commits_bind, commits_clockTimestamp, commits_ite, commits_pure]
      refine ⟨fun _ => ⟨hstay, .inl rfl⟩, fun howner => ?_⟩
      cases row.2.2.deadlineAt with
      | none => exact (commits_pure ..).mpr ⟨hstay, .inl rfl⟩
      | some deadline =>
        simp only [commits_ite, commits_pure]
        refine ⟨fun _ => ⟨hstay, .inl rfl⟩, fun _ => ⟨fun _ => ⟨hstay, .inl rfl⟩, fun hdue => ?_⟩⟩
        cases row.2.2.stops.find? fun sc => sc.ackedAt.isNone with
        | some sc => exact (commits_pure ..).mpr ⟨hstay, .inl rfl⟩
        | none =>
          simp only [commits_bind, commits_clockTimestamp, commits_updateStep,
            commits_pure, RunScope.run_tick]
          rw [Run.updateStep_of_find hf rfl]
          simp only [not_or, not_not, not_le] at howner hdue
          exact ⟨Nat.le_add_right _ 2, .inr ⟨row.1, row.2.1, row.2.2, lease, _, hf, hmem, hid,
            howner.1, howner.2, hlease, hlid, hdue.1, rfl⟩⟩

/-! ### Requests -/

namespace World

variable {w : World} {session : WorkerSession}

omit [Platform] in
theorem runs_attemptOn {α : Type} {id : Option RunID} {x : RunTx α}
    {failed : RunID → EngineError → World} {p : Prop}
    (hfailed : ∀ id e, (failed id e).db.runs = w.db.runs) (hx : ∀ k r, w.db.runs.find? k = some r →
      Commits x ⟨k, r, w.db.sys⟩ fun _ c' => c'.run = r ∨ p) (hp : ¬ p) :
    (w.attemptOn id x failed).db.runs = w.db.runs := by
  unfold attemptOn
  split
  · rfl
  · next k =>
    unfold transact
    split
    · next a db' he =>
      have hcommits : Commits (onRun k x) w.db fun _ db' => db'.runs = w.db.runs := by
        rw [commits_onRun]
        intro r hr
        refine (hx k r hr).mono fun _ c' hc => ?_
        have hrun : c'.run = r := hc.resolve_right hp
        change w.db.runs.modify k (fun _ => c'.run) = w.db.runs
        rw [hrun]
        exact Table.modify_self hr
      exact hcommits a db' he
    · exact hfailed k _

/-- Some lease is of the session, attempt and epoch and holds now. -/
def Owned (w : World) (sessionID : SessionID) (attemptID : AttemptID) (epoch : Int) : Prop :=
  ∃ id r k s, w.db.runs.find? id = some r ∧ r.steps.find? k = some s ∧
    s.OwnedBy sessionID attemptID epoch (Platform.clock w.db.sys.ticks)

omit [Platform] in
theorem runs_onHistoryLimit (w : World) (id : RunID) (e : EngineError) :
    (w.onHistoryLimit id e).db.runs = w.db.runs := by
  unfold onHistoryLimit
  split <;> rfl

theorem runs_start {attemptID : AttemptID} {epoch : Int}
    (h : ¬ w.Owned session.sessionID attemptID epoch) :
    (w.step (.start session attemptID epoch)).db.runs = w.db.runs := by
  refine runs_attemptOn w.runs_onHistoryLimit (fun id r hr => ?_) h
  refine (startTx_guarded _ session attemptID epoch).mono fun _ _ hg => ?_
  rcases hg with hrun | ⟨k, s, hs, ho⟩
  · exact .inl hrun
  · exact .inr ⟨id, r, k, s, hr, hs, ho⟩

theorem runs_complete {req : CompleteRequest} {lookup : ArtifactLookup}
    (h : ¬ w.Owned session.sessionID req.attemptID req.ownershipEpoch) :
    (w.step (.complete session req lookup)).db.runs = w.db.runs := by
  simp only [step]
  split
  · refine runs_attemptOn w.runs_onHistoryLimit (fun id r hr => ?_) h
    refine (completeTx_guarded _ session req lookup).mono fun _ _ hg => ?_
    rcases hg with hrun | ⟨k, s, hs, ho⟩
    · exact .inl hrun
    · exact .inr ⟨id, r, k, s, hr, hs, ho⟩
  · rfl

/-- What a heartbeat leaves of a run: everything but the leases of owned steps. -/
def Beats (w : World) (session : WorkerSession) (attempts : List (AttemptID × Int)) (r r' : Run) :
    Prop :=
  { r' with steps := r.steps } = r ∧ ∀ k s, r.steps.find? k = some s →
    (∀ item ∈ attempts, ¬ s.OwnedBy session.sessionID item.1 item.2
      (Platform.clock w.db.sys.ticks)) → r'.steps.find? k = some s

/-- One item of a heartbeat, after others. The lease of a step is of the session and epoch of its
attempt, so an item that names neither meets the tests of no attempt. -/
theorem beats_item {attempts : List (AttemptID × Int)} {item : AttemptID × Int}
    (hitem : item ∈ attempts) {r : Run} (hsound : r.Sound) (hordered : r.Ordered) {c c' : RunScope}
    (hticks : w.db.sys.ticks ≤ c.sys.ticks) (hb : w.Beats session attempts r c.run)
    (hc : c'.run = c.run ∨ ∃ k s a l t, c.run.steps.find? k = some s ∧ a ∈ s.attempts ∧
      a.id = item.1 ∧ a.epoch = item.2 ∧ a.sessionID = session.sessionID ∧ s.lease = some l ∧
      l.attemptID = item.1 ∧ Platform.clock c.sys.ticks < l.expiresAt ∧
      c'.run = c.run.setStep k (s.renewLease item.1 t)) : w.Beats session attempts r c'.run := by
  rcases hc with hrun | ⟨k, s, a, l, t, hs, ha, hid, hepoch, hsession, hl, hlid, hlt, hrun⟩
  · rw [hrun]
    exact hb
  · rw [hrun]
    refine ⟨hb.1, fun j s0 hs0 hstale => ?_⟩
    have hj := hb.2 j s0 hs0 hstale
    rw [Run.find?_setStep]
    split
    · next he =>
      subst he
      obtain rfl := Option.mem_unique hj hs
      obtain ⟨-, x, hx, hxid, hxe, hxs⟩ := (hordered j s0 hs0).lease l hl
      obtain rfl : x = a := (hsound.steps.find hs0).eq_of_id hx ha (hxid.trans (hlid.trans hid.symm))
      exact absurd ⟨l, hl, hlid, hxs.symm.trans hsession, hxe.symm.trans hepoch,
        lt_of_le_of_lt (Platform.clock_mono hticks) hlt⟩ (hstale item hitem)
    · exact hj

theorem beats_heartbeat (hw : ∀ id r, w.db.runs.find? id = some r → r.Sound ∧ r.Ordered)
    (session : WorkerSession) (attempts : List (AttemptID × Int)) {id : RunID} {r : Run}
    (hr : w.db.runs.find? id = some r) :
    ∃ r', (w.step (.heartbeat session attempts)).db.runs.find? id = some r' ∧
      w.Beats session attempts r r' := by
  have hinit : w.Beats session attempts r r := ⟨rfl, fun _ _ hs _ => hs⟩
  have hall : Commits (heartbeatAll session attempts) w.db fun _ db' =>
      w.db.sys.ticks ≤ db'.sys.ticks ∧
        ∃ r', db'.runs.find? id = some r' ∧ w.Beats session attempts r r' := by
    refine commits_forEach ?_ _ ⟨le_refl _, r, hr, hinit⟩
    rintro item hitem db ⟨hticks, r1, hr1, hb1⟩
    simp only [commits_bind, commits_read]
    cases db.runOfAttempt? item.1 with
    | none => exact (commits_pure ..).mpr ⟨hticks, r1, hr1, hb1⟩
    | some k =>
      simp only [commits_bind, commits_pure]
      rw [commits_onRun]
      intro r2 hr2
      refine (heartbeatTx_renews _ session item.1 item.2).mono ?_
      rintro _ c' ⟨hle, hc⟩
      refine ⟨le_trans hticks hle, ?_⟩
      rw [Db.find?_putScope, hr1]
      by_cases hk : id = k
      · subst hk
        obtain rfl := Option.mem_unique hr1 hr2
        exact ⟨c'.run, by simp, beats_item hitem (hw id r hr).1 (hw id r hr).2
          (c := ⟨id, r1, db.sys⟩) hticks hb1 hc⟩
      · exact ⟨r1, by simp [hk], hb1⟩
  simp only [step, attempt, transact]
  split
  · next a db' he => exact (hall a db' he).2
  · exact ⟨r, hr, hinit⟩

/-! ### Submitted requests -/

/-- The caller owns the attempt when its request arrives: its session and epoch hold a lease
that has not expired, and the session is of the worker it names. -/
def Owner (w : World) (caller : Caller) (attemptID : AttemptID) (epoch : Int) : Prop :=
  w.Owned caller.sessionID attemptID epoch ∧
    ∃ row, w.db.fleet.sessions.find? caller.sessionID = some row ∧ row.workerID = caller.workerID

def OwnerOf (w : World) (caller : Caller) (s : Step) (attemptID : AttemptID) (epoch : Int) : Prop :=
  s.OwnedBy caller.sessionID attemptID epoch (Platform.clock w.db.sys.ticks) ∧
    ∃ row, w.db.fleet.sessions.find? caller.sessionID = some row ∧ row.workerID = caller.workerID

def tick (w : World) : World :=
  { w with db := { w.db with sys := { w.db.sys with ticks := w.db.sys.ticks + 1 } } }

/-- A submitted request is refused before its transaction, or names the session and the worker of
an authenticated session. -/
theorem submit_cases (w : World) (token : SessionID) (caller : Caller)
    (request : WorkerSession → Action) :
    (w.submit token caller request).db.runs = w.db.runs ∨
      ∃ session, w.submit token caller request = w.tick.step (request session) ∧
        session.sessionID = caller.sessionID ∧
        ∃ row, w.db.fleet.sessions.find? caller.sessionID = some row ∧
          row.workerID = caller.workerID := by
  unfold submit
  cases hauth : w.authenticate token with
  | none => exact .inl rfl
  | some session =>
    simp only
    split
    · next hcaller =>
      refine .inr ⟨session, rfl, hcaller.2.symm, ?_⟩
      obtain ⟨row, hrow, hrest⟩ := Option.bind_eq_some_iff.mp hauth
      obtain ⟨worker, -, hsession⟩ := Option.bind_eq_some_iff.mp hrest
      split at hsession
      · cases hsession
      · cases hsession
        exact ⟨row, by rw [hcaller.2]; exact hrow, hcaller.1.symm⟩
    · exact .inl rfl

theorem Owned.of_tick {sessionID : SessionID} {attemptID : AttemptID} {epoch : Int}
    (h : w.tick.Owned sessionID attemptID epoch) : w.Owned sessionID attemptID epoch := by
  obtain ⟨id, r, k, s, hr, hs, ho⟩ := h
  exact ⟨id, r, k, s, hr, hs, ho.mono (Platform.clock_mono (Nat.le_succ _))⟩

end World

omit [Platform] in
theorem Step.Sound.live_le_one (h : s.Sound) :
    (s.attempts.filter fun a => a.status.live).length ≤ 1 := by
  set live := s.attempts.filter fun a => a.status.live with hlive
  have hnodup : (live.map Attempt.id).Nodup :=
    h.ids.sublist (List.Sublist.map _ List.filter_sublist)
  cases hl : live with
  | nil => simp
  | cons a rest =>
    -- Every live attempt has the id of the owner.
    have hall : ∀ b ∈ live, b.id = a.id := by
      intro b hb
      have ha : a ∈ live := by simp [hl]
      obtain ⟨ha, hal⟩ := List.mem_filter.mp ha
      obtain ⟨hb, hbl⟩ := List.mem_filter.mp hb
      exact h.unique ⟨a, ha, rfl, hal⟩ hb hbl
    have hrep : live.map Attempt.id = List.replicate live.length a.id := by
      rw [List.eq_replicate_iff]
      refine ⟨List.length_map _, fun x hx => ?_⟩
      obtain ⟨b, hb, rfl⟩ := List.mem_map.mp hx
      exact hall b hb
    rw [hrep, List.nodup_replicate] at hnodup
    rw [← hl]
    exact hnodup

omit [Platform] in
/-- The epochs of numbered attempts increase with their numbers. -/
theorem Step.Ordered.epoch_lt {max : Int} (h : s.Ordered max) {a b : Attempt} (ha : a ∈ s.attempts)
    (hb : b ∈ s.attempts) (hlt : a.number < b.number) : a.epoch < b.epoch := by
  obtain ⟨i, hi, rfl⟩ := List.mem_iff_getElem.mp ha
  obtain ⟨j, hj, rfl⟩ := List.mem_iff_getElem.mp hb
  have hnumber (n : Nat) (hn : n < s.attempts.length) : s.attempts[n].number = (n : Int) + 1 := by
    have := congrArg (fun l : List Int => l[n]?) h.numbers
    simpa [hn] using this
  rw [hnumber i hi, hnumber j hj] at hlt
  have hij : i < j := by omega
  have := List.pairwise_iff_getElem.mp h.epochs i j (by simpa using hi) (by simpa using hj) hij
  simpa using this

/-- Ownership of a step is exclusive, and only its owner changes it: in every reachable world a
step has one live attempt at most, its lease is of the current epoch and of that attempt, and a
request of any other caller, or one that arrives when the lease has expired, leaves the rows as
they are. -/
theorem ownership_exclusive (fleet : Fleet) (os : List Operation) (w : World)
    (hw : w = installation.exec (World.initial fleet) os) :
    (∀ id r k s, w.db.runs.find? id = some r → r.steps.find? k = some s →
      (s.attempts.filter fun a => a.status.live).length ≤ 1 ∧
      (∀ l, s.lease = some l → l.epoch = s.currentEpoch ∧
        ∀ a ∈ s.attempts, a.status.live = true → a.epoch = l.epoch) ∧
      ∀ a ∈ s.attempts, ∀ b ∈ s.attempts, a.number < b.number → a.epoch < b.epoch) ∧
    (∀ token caller attemptID epoch, ¬ w.Owner caller attemptID epoch →
      (w.submit token caller fun session => .start session attemptID epoch).db.runs =
        w.db.runs) ∧
    (∀ token caller req lookup, ¬ w.Owner caller req.attemptID req.ownershipEpoch →
      (w.submit token caller fun session => .complete session req lookup).db.runs = w.db.runs) ∧
    ∀ token caller attempts id r, w.db.runs.find? id = some r →
      ∃ r', (w.submit token caller fun session => .heartbeat session attempts).db.runs.find? id =
          some r' ∧ { r' with steps := r.steps } = r ∧
        ∀ k s, r.steps.find? k = some s →
          (∀ item ∈ attempts, ¬ w.OwnerOf caller s item.1 item.2) →
          r'.steps.find? k = some s := by
  subst hw
  set w := installation.exec (World.initial fleet) os
  have hinv (id : RunID) (r : Run) (hr : w.db.runs.find? id = some r) : r.Sound ∧ r.Ordered :=
    installation_ordered hr
  refine ⟨fun id r k s hr hs => ?_, fun token caller attemptID epoch hstale => ?_,
    fun token caller req lookup hstale => ?_, fun token caller attempts id r hr => ?_⟩
  · obtain ⟨hsound, hordered⟩ := hinv id r hr
    have hstep : s.Sound := hsound.steps.find hs
    have horder := hordered k s hs
    refine ⟨hstep.live_le_one, fun l hl => ?_, fun a ha b hb => horder.epoch_lt ha hb⟩
    obtain ⟨hcur, x, hx, hxid, hxe, -⟩ := horder.lease l hl
    refine ⟨hcur, fun a ha hlive => ?_⟩
    have hown : a.id = l.attemptID := hstep.unique (hstep.leased l hl) ha hlive
    rw [hstep.eq_of_id ha hx (hown.trans hxid.symm)]
    exact hxe
  · rcases w.submit_cases token caller _ with hsame | ⟨session, hw', hid, hrow⟩
    · exact hsame
    · rw [hw', World.runs_start]
      · rfl
      · rw [hid]
        exact fun ho => hstale ⟨ho.of_tick, hrow⟩
  · rcases w.submit_cases token caller _ with hsame | ⟨session, hw', hid, hrow⟩
    · exact hsame
    · rw [hw', World.runs_complete]
      · rfl
      · rw [hid]
        exact fun ho => hstale ⟨ho.of_tick, hrow⟩
  · rcases w.submit_cases token caller _ with hsame | ⟨session, hw', hid, hrow⟩
    · exact ⟨r, hsame ▸ hr, rfl, fun _ _ hs _ => hs⟩
    · obtain ⟨r', hr', hcols, hsteps⟩ := World.beats_heartbeat (w := w.tick) hinv session attempts hr
      rw [hw']
      refine ⟨r', hr', hcols, fun k s hs hstale => hsteps k s hs fun item hitem ho => ?_⟩
      rw [hid] at ho
      exact hstale item hitem ⟨ho.mono (Platform.clock_mono (Nat.le_succ _)), hrow⟩

omit [Platform] in
theorem ownership_exclusive_claimed :
    ∃ r s l, ((@installation Sample.platform).exec (World.initial (Sample.single "safe" none))
        (Sample.claimed.map .engine)).db.runs.find? 0 = some r ∧ r.steps.find? 1 = some s ∧
      s.lease = some l ∧ l.epoch = s.currentEpoch :=
  ⟨_, _, _, rfl, rfl, rfl,
    (((@ownership_exclusive Sample.platform (Sample.single "safe" none)
      (Sample.claimed.map .engine) _ rfl).1 0 _ 1 _ rfl rfl).2.1 _ rfl).1⟩

end Deadbolt.Execution
