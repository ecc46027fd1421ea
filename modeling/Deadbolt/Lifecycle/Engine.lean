import Deadbolt.Lifecycle.Transactions

/-!
# The engine refines the run automaton

Every action of the engine moves every run along transactions of the automaton, from any
reachable world, and keeps the world sound.
-/

namespace Deadbolt.Execution

open Base Contracts

namespace World

/-- Sound runs, and claims in flight that are of tasks. -/
structure Sound (w : World) : Prop where
  db : w.db.Sound
  claims : ∀ c ∈ w.claims, w.db.Tasks c.pending

/-- What one action does to the runs and to the claims in flight. -/
structure Follows (w w' : World) : Prop where
  db : w.db.Evolves w'.db
  claims : ∀ c ∈ w'.claims, c ∈ w.claims ∨ w'.db.Tasks c.pending

variable {w : World} {α : Type} {x : DbTx α}

theorem Follows.of_same {w' : World} (hr : w'.db.runs = w.db.runs)
    (ht : w'.db.sys.trace = w.db.sys.trace) (hc : ∀ c ∈ w'.claims, c ∈ w.claims) : w.Follows w' :=
  ⟨.of_same hr ht, fun c h => .inl (hc c h)⟩

theorem Follows.refl (w : World) : w.Follows w := .of_same rfl rfl fun _ h => h

theorem Follows.sound {w' : World} (h : w.Follows w') (hw : w.Sound) : w'.Sound where
  db := h.db.sound hw.db
  claims c hc := (h.claims c hc).elim (fun hc => (hw.claims c hc).evolves h.db) id

/-- A transaction that evolves the database, with a reaction to its failure that leaves the
database alone. -/
theorem follows_transact {w0 : World} {failed : EngineError → World} (hdb : w.db = w0.db)
    (hc : ∀ c ∈ w.claims, c ∈ w0.claims) (hx : Tx.Commits x w.db fun _ db' => w.db.Evolves db')
    (hf : ∀ e, w0.Follows (failed e)) : w0.Follows (w.transact x failed) := by
  unfold transact
  split
  · next a db' he => exact ⟨hdb ▸ hx a db' he, fun c h => .inl (hc c h)⟩
  · next e he => exact hf e

theorem follows_attempt {w0 : World} (hdb : w.db = w0.db) (hc : ∀ c ∈ w.claims, c ∈ w0.claims)
    (hx : Tx.Commits x w.db fun _ db' => w.db.Evolves db') : w0.Follows (w.attempt x) :=
  follows_transact hdb hc hx fun _ => .of_same (by rw [hdb]) (by rw [hdb]) hc

theorem follows_attemptOn (hw : w.Sound) {id : Option RunID} {x : RunTx α}
    {failed : RunID → EngineError → World}
    (hx : ∀ c, c.run.Sound → Tx.Commits x c fun _ c' => c.view.Transacts c'.view)
    (hf : ∀ id e, w.Follows (failed id e)) : w.Follows (w.attemptOn id x failed) := by
  unfold attemptOn
  split
  · exact .refl w
  · exact follows_transact rfl (fun _ h => h) (Refines.onRun hx w.db hw.db) (hf _)

theorem follows_of_refines (hw : w.Sound) (hx : Refines x) :
    w.Follows (w.attempt x) := follows_attempt rfl (fun _ h => h) (hx w.db hw.db)

theorem follows_onHistoryLimit (w : World) (id : RunID) (err : EngineError) :
    w.Follows (w.onHistoryLimit id err) := by
  unfold onHistoryLimit
  split <;> exact .of_same rfl rfl fun _ h => h

theorem follows_onOverdue (w : World) (id : RunID) (err : EngineError) :
    w.Follows (w.onOverdue id err) := by
  unfold onOverdue
  split <;> exact .of_same rfl rfl fun _ h => h

variable [Platform]

theorem follows_snapshot (w : World) (session : WorkerSession) (slots : Nat)
    (locked : List RunID) : w.Follows (w.snapshot session slots locked) := by
  unfold snapshot
  split
  · split
    · next pending db' he =>
      obtain ⟨hdb, hp⟩ := claimSnapshotTx_tasks session slots locked w.db pending db' he
      refine ⟨hdb, fun c hc => ?_⟩
      rcases List.mem_append.mp hc with hc | hc
      · exact .inl hc
      · obtain rfl := List.mem_singleton.mp hc
        exact .inr hp
    · exact .refl w
  · exact .refl w

theorem Sound.verified (hw : w.Sound) {claim : InflightClaim} (hc : claim ∈ w.claims)
    (verified : List Bool) :
    w.db.Tasks (claim.pending.zipWith (fun pc v => { pc with verified := v }) verified) := by
  intro pc hpc
  rw [← List.map_uncurry_zip_eq_zipWith] at hpc
  obtain ⟨⟨p, v⟩, hp, rfl⟩ := List.mem_map.mp hpc
  exact hw.claims claim hc p (List.of_mem_zip hp).1

theorem follows_commitClaim (hw : w.Sound) (index : Nat) (verified : List Bool)
    (locked : List RunID) (ready : List String) :
    w.Follows (w.commitClaim index verified locked ready) := by
  unfold commitClaim
  split
  · exact .refl w
  · next claim hclaim =>
    refine follows_attempt rfl (fun _ => List.mem_of_mem_eraseIdx) ?_
    exact claimCommitTx_evolves hw.db (hw.verified (List.mem_of_getElem? hclaim) verified) _ _ _ _

theorem refines_heartbeatAll (session : WorkerSession) (attempts : List (AttemptID × Int)) :
    Refines (heartbeatAll session attempts) := by
  refine .forEach fun item _ => .bind (.read _) fun id => ?_
  cases id with
  | none => exact .pure _
  | some id =>
    refine .bind (.onRun_leads fun _ _ => ?_) fun _ => .pure _
    exact heartbeatTx_leads _ _ _ _

theorem follows_resolve (hw : w.Sound) (caseID : CaseID) (req : ResolveReconciliationRequest) :
    w.Follows (w.resolve caseID req) := by
  unfold resolve
  split
  · exact follows_of_refines hw (.onRun fun _ hr => resolveReconciliationCaseTx_transacts hr _ _ _)
  · exact .refl w

theorem follows_decide (hw : w.Sound) (approvalID : ApprovalID) (req : DecideApprovalRequest) :
    w.Follows (w.decide approvalID req) := by
  unfold World.decide
  split
  · exact .refl w
  · refine follows_transact rfl (fun _ h => h) (Refines.onRun_leads (fun _ hr =>
      decideApprovalTx_leads hr _ _ _) w.db hw.db) fun e => ?_
    split <;> exact .of_same rfl rfl fun _ h => h

/-- Every action moves the runs along the automaton. -/
theorem follows_step (hw : w.Sound) (a : Action) : w.Follows (w.step a) := by
  have hleads {α : Type} {id : Option RunID} {x : RunTx α} {failed : RunID → EngineError → World}
      (hx : ∀ c, c.run.Sound → Tx.Commits x c fun _ c' => c.view.Leads c'.view)
      (hf : ∀ id e, w.Follows (failed id e)) : w.Follows (w.attemptOn id x failed) :=
    follows_attemptOn hw (fun c hc => (hx c hc).mono fun _ _ h => h.transacts) hf
  -- A follow-up is forgotten when it is taken.
  have hafter {α : Type} {w' : World} {id : RunID} {x : RunTx α} (hdb : w'.db = w.db)
      (hc : w'.claims = w.claims)
      (hx : ∀ c, c.run.Sound → Tx.Commits x c fun _ c' => c.view.Leads c'.view) :
      w.Follows (w'.attempt (onRun id x)) :=
    follows_attempt hdb (fun _ h => hc ▸ h) (by rw [hdb]; exact Refines.onRun_leads hx w.db hw.db)
  cases a with
  | createRun req =>
    simp only [step]
    split
    · exact follows_of_refines hw (.createRunInTx req)
    · exact .refl w
  | claimSnapshot session slots locked => exact follows_snapshot w session slots locked
  | claimCommit index verified locked ready => exact follows_commitClaim hw index verified locked ready
  | start session attemptID epoch =>
    exact hleads (fun c _ => startTx_leads c _ _ _) w.follows_onHistoryLimit
  | heartbeat session attempts => exact follows_of_refines hw (refines_heartbeatAll session attempts)
  | complete session req lookup =>
    simp only [step]
    split
    · exact follows_attemptOn hw (fun c hc => completeTx_transacts hc _ _ _) w.follows_onHistoryLimit
    · exact .refl w
  | stopAck session attemptID epoch stopped =>
    exact hleads (fun c _ => stopAckTx_leads c _ _ _ _) fun _ _ => .refl w
  | pauseRun id revision =>
    simp only [step]
    exact hleads (fun c _ => pauseRunTx_leads c _) w.follows_onOverdue
  | resumeRun id revision =>
    simp only [step]
    exact hleads (fun c hc => resumeRunTx_leads hc _) w.follows_onOverdue
  | cancelRun id revision actor =>
    exact follows_of_refines hw (.onRun_leads fun c _ => cancelRunTx_leads c _ _)
  | resolveCase caseID req => exact follows_resolve hw caseID req
  | decideApproval approvalID req => exact follows_decide hw approvalID req
  | settleExpiredApproval index =>
    simp only [step]
    split
    · exact .refl w
    · exact hafter rfl rfl fun c _ => expireApprovalTx_leads c _ _ _
  | settleOverdueControl index =>
    simp only [step]
    split
    · exact .refl w
    · exact hafter rfl rfl fun c _ => settleOverdueRunForControl_leads c
  | terminalizeHistory index =>
    simp only [step]
    split
    · exact .refl w
    · exact hafter rfl rfl fun c _ => terminalizeHistoryLimitExceeded_leads c
  | openSession workerID => exact follows_of_refines hw (.openSessionTx workerID)
  | revokeWorker workerID => exact follows_of_refines hw (.revokeWorkerTx workerID)
  | reconcileExpiredLeases locked => exact follows_of_refines hw (.reconcileExpiredLeases locked)
  | fireDueRetryTimers => exact follows_of_refines hw .fireDueRetryTimersTx
  | fireDueDelayTimers => exact follows_of_refines hw .fireDueDelayTimers
  | sweepExpiredApprovals => exact follows_of_refines hw .sweepExpiredApprovals
  | reconcileReadyWork locked => exact follows_of_refines hw (.reconcileReadyWork locked)
  | reconfigure fleet => exact .of_same rfl rfl fun _ h => h
  | elapse ticks => exact .of_same rfl rfl fun _ h => h

omit [Platform] in
theorem sound_initial (fleet : Fleet) : (initial fleet).Sound where
  db id r h := by
    change (none : Option Run) = some r at h
    cases h
  claims c h := absurd h List.not_mem_nil

end World

end Deadbolt.Execution
