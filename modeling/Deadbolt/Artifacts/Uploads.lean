import Deadbolt.Artifacts.Store
import Deadbolt.Recovery.Disaster

/-!
# Uploads

`internal/artifacts/service.go`: the reservation of an upload, its finalization in two transactions
with the check of the object between them, and the association of a finalized artifact with a
result. A depot is the engine's world with the artifact rows of the installation beside it, and
what running requests and sweeps remember.
-/

namespace Deadbolt.Artifacts

open Base Contracts Execution

def maxObjectBytes : Int := 104857600

def envStorageQuotaBytes : Int := 1073741824

/-- The arguments of `Finalize`; an empty expected environment is `none`. -/
structure FinalizeRequest where
  artifactID : ArtifactID
  attemptID : AttemptID
  epoch : Int
  sha : String
  sessionID : Option SessionID
  expectedEnv : Option EnvironmentID

/-- The arguments of `Reserve`; an empty expected environment is `none`. -/
structure ReserveRequest where
  runID : RunID
  attemptID : AttemptID
  epoch : Int
  sizeBytes : Int
  sha : String
  sessionID : Option SessionID
  expectedEnv : Option EnvironmentID

/-- A row a sweep has selected, with the status it then has. -/
structure Victim where
  id : ArtifactID
  key : String
  status : ArtifactStatus

/-- The engine and the artifact service of one organization. -/
structure Depot where
  world : World
  artifacts : Table ArtifactID ArtifactRow
  /-- `s.store ≠ nil`. -/
  configured : Bool
  /-- Finalizations between their two transactions, with the row they found. -/
  finalizing : List (FinalizeRequest × ArtifactRow)
  /-- The victims each sweep still has to process. -/
  sweeps : List (List Victim)
  /-- Victims whose object is gone and whose row is to be closed. -/
  confirmed : List Victim
  /-- The artifacts whose object a sweep asked the store to delete. -/
  erased : List ArtifactID

abbrev DepotTx := Tx Depot ArtifactError

namespace Depot

/-- The depot after clock readings and draws. -/
def advance (d : Depot) (ticks draws : Nat) : Depot :=
  { d with world := { d.world with db := { d.world.db with sys :=
      { d.world.db.sys with
        ticks := d.world.db.sys.ticks + ticks, draws := d.world.db.sys.draws + draws } } } }

@[simp] theorem artifacts_advance (d : Depot) (m n : Nat) :
    (d.advance m n).artifacts = d.artifacts := rfl

def row? (d : Depot) (orgID : OrganizationID) (id : ArtifactID) : Option ArtifactRow :=
  (d.artifacts.find? id).filter fun row => row.organizationID == orgID

end Depot

namespace DepotTx

variable [Platform]

def clockTimestamp : DepotTx Time := do
  let now ← Tx.read fun d => Platform.clock d.world.db.sys.ticks
  Tx.write fun d => d.advance 1 0
  return now

def newID : DepotTx Nat := do
  let id ← Tx.read fun d => Platform.uuid d.world.db.sys.draws
  Tx.write fun d => d.advance 0 1
  return id

@[simp] theorem commits_clockTimestamp (d : Depot) (Q : Time → Depot → Prop) :
    Tx.Commits clockTimestamp d Q ↔ Q (Platform.clock d.world.db.sys.ticks) (d.advance 1 0) := by
  simp [clockTimestamp]

@[simp] theorem commits_newID (d : Depot) (Q : Nat → Depot → Prop) :
    Tx.Commits newID d Q ↔ Q (Platform.uuid d.world.db.sys.draws) (d.advance 0 1) := by
  simp [newID]

end DepotTx

structure Owner where
  run : Run
  stepID : StepID
  step : Step
  attempt : Attempt

/-- `task_attempts` joined with `run_steps` and `runs`. -/
def owner? (db : Db) (id : AttemptID) : Option Owner :=
  (db.runOfAttempt? id).bind fun runID => (db.runs.find? runID).bind fun r =>
    (r.attempt? id).map fun row => ⟨r, row.1, row.2.1, row.2.2⟩

/-- `validSHA`, `service.go:145-147`. -/
def validSHA [Encodings] (sha : String) : Bool :=
  let digits := (Encodings.lowerTrim sha).toList
  digits.length == 64 && digits.all fun c => "0123456789abcdef".toList.contains c

variable [Platform] [Encodings]

/-- The attempt joined with its lease, if the lease, the attempt and the run are in time,
`service.go:213-222` and again `:432-445`, `:664-671`. The clock is read once
for each of the three tests. -/
def liveOwnerTx (id : AttemptID) : DepotTx Owner := do
  let found ← Tx.read fun d => owner? d.world.db id
  let leased ← DepotTx.clockTimestamp
  let due ← DepotTx.clockTimestamp
  let now ← DepotTx.clockTimestamp
  match found with
  | none => Tx.fail .notOwned
  | some o => do
    Tx.require ((o.step.leaseOf? id).any fun l => leased < l.expiresAt) .notOwned
    Tx.require (o.attempt.deadlineAt.any fun t => due < t) .notOwned
    Tx.require (o.run.overdue now = false) .notOwned
    return o

/-- `ReserveTx`, `service.go:153-264`, and `Reserve`, which repeats it in a
transaction of its own. The storage key is random. -/
def reserveTx (orgID : OrganizationID) (req : ReserveRequest) (key : String) :
    DepotTx ArtifactID := do
  let d ← Tx.read id
  Tx.require (d.configured = true) .storeUnavailable
  Tx.require (0 ≤ req.sizeBytes ∧ req.sizeBytes ≤ maxObjectBytes) .tooLarge
  Tx.require (validSHA req.sha = true) .reservationMismatch
  match owner? d.world.db req.attemptID with
  | none => Tx.fail .notOwned
  | some candidate => do
    Tx.require (req.expectedEnv.all (· == candidate.run.environmentID) = true) .notOwned
    Tx.require ((d.world.db.fleet.admissions.find? candidate.run.environmentID).isSome = true)
      .notOwned
    let o ← liveOwnerTx req.attemptID
    Tx.require (o.run.id = req.runID) .reservationMismatch
    Tx.require (req.sessionID.all (· == o.attempt.sessionID) = true) .notOwned
    Tx.require (req.expectedEnv.all (· == o.run.environmentID) = true) .notOwned
    Tx.require (o.attempt.epoch = req.epoch) .notOwned
    Tx.require (o.attempt.status.live = true) .notOwned
    let reserved := (d.artifacts.select fun _ row =>
      row.organizationID == orgID && row.environmentID == o.run.environmentID &&
        (row.status == .pendingUpload || row.status == .ready)).map fun e => e.2.sizeBytes
    Tx.require (reserved.sum + req.sizeBytes ≤ envStorageQuotaBytes) .quotaExceeded
    let created ← DepotTx.clockTimestamp
    let artifactID ← DepotTx.newID
    let row : ArtifactRow :=
      { organizationID := orgID, environmentID := o.run.environmentID, runID := req.runID
        stepID := o.stepID, attemptID := some req.attemptID, storageKey := key
        sizeBytes := req.sizeBytes, sha256Hash := Encodings.lowerTrim req.sha
        status := .pendingUpload, expiresAt := none, createdAt := created }
    match d.artifacts.insert? artifactID row with
    | none => Tx.fail .provider
    | some artifacts => do
      Tx.write fun d => { d with artifacts := artifacts }
      return artifactID

/-- `SnapshotForFinalize`, `service.go:534-603`, and the first transaction of
`Finalize`. -/
def snapshotForFinalizeTx (orgID : OrganizationID) (req : FinalizeRequest) : DepotTx Unit := do
  let d ← Tx.read id
  match d.row? orgID req.artifactID with
  | none => Tx.fail .artifactNotFound
  | some row => do
    Tx.require (req.expectedEnv.all (· == row.environmentID) = true) .artifactNotFound
    match row.attemptID with
    | none => Tx.fail .notOwned
    | some attemptID => do
      let o ← liveOwnerTx attemptID
      Tx.require (row.status = .pendingUpload) .reservationMismatch
      Tx.require (attemptID = req.attemptID ∧ o.attempt.epoch = req.epoch) .notOwned
      Tx.require (req.sessionID.all (· == o.attempt.sessionID) = true) .notOwned
      Tx.require (req.expectedEnv.all (· == row.environmentID) = true) .artifactNotFound
      Tx.require (o.attempt.status.live = true) .notOwned
      Tx.require (validSHA req.sha = true ∧ Encodings.lowerTrim req.sha = row.sha256Hash)
        .reservationMismatch
      Tx.write fun d => { d with finalizing := d.finalizing ++ [(req, row)] }

/-- `VerifySnapshot`, `service.go:607-641`. -/
def verifySnapshot (store : Option ObjectStore) (snapshot : ArtifactRow) :
    Except ArtifactError Unit :=
  match store with
  | none => .error .storeUnavailable
  | some store => verifyObject store snapshot.storageKey snapshot.sizeBytes snapshot.sha256Hash

/-- `transitionToReadyTx`, `service.go:657-693`. -/
def transitionToReadyTx (orgID : OrganizationID) (req : FinalizeRequest)
    (snapshot : ArtifactRow) : DepotTx Unit := do
  let d ← Tx.read id
  match d.row? orgID req.artifactID with
  | none => Tx.fail .notOwned
  | some row =>
    match row.attemptID with
    | none => Tx.fail .notOwned
    | some attemptID => do
      let o ← liveOwnerTx attemptID
      Tx.require (req.expectedEnv.all (· == row.environmentID) = true) .artifactNotFound
      Tx.require (row.status = .pendingUpload ∧ attemptID = req.attemptID ∧
        o.attempt.epoch = req.epoch ∧ row.sha256Hash = snapshot.sha256Hash ∧
        req.sessionID.all (· == o.attempt.sessionID) = true) .notOwned
      Tx.write fun d => { d with
        artifacts := d.artifacts.modify req.artifactID fun row => { row with status := .ready } }

/-- `LookupForCompletionTx`, `service.go:953-975`, with the codes of
`artifactFailureCode`. An id that does not parse fails the query and with it the transaction. -/
def lookupForCompletion (d : Depot) (orgID : OrganizationID) (req : CompleteRequest) :
    ArtifactLookup :=
  match Encodings.parseID req.artifactID with
  | none => .unavailable
  | some id =>
    match d.row? orgID id with
    | none => .failed "ARTIFACT_NOT_FOUND"
    | some row =>
      match row.attemptID.bind (owner? d.world.db) with
      | none => .failed "ARTIFACT_NOT_FOUND"
      | some o =>
        if row.status ≠ .ready then .failed "ARTIFACT_NOT_READY"
        else if row.stepID ≠ o.stepID ∨ o.attempt.id ≠ req.attemptID ∨
            o.attempt.epoch ≠ req.ownershipEpoch ∨ o.attempt.status.live = false then
          .failed "ARTIFACT_NOT_OWNED"
        else .found

theorem ready_of_lookupForCompletion {d : Depot} {orgID : OrganizationID} {req : CompleteRequest}
    {id : ArtifactID} (hid : Encodings.parseID req.artifactID = some id)
    (h : lookupForCompletion d orgID req = .found) :
    ∃ row, d.artifacts.find? id = some row ∧ row.status = .ready := by
  unfold lookupForCompletion at h
  rw [hid] at h
  dsimp only at h
  split at h
  · cases h
  · next row hrow =>
    split at h
    · cases h
    · split at h
      · cases h
      · next hready =>
        exact ⟨row, (Option.filter_eq_some_iff.mp hrow).1, not_not.mp hready⟩

end Deadbolt.Artifacts
