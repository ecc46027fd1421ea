import Deadbolt.Execution.Engine

/-!
# Workers and their credentials

The worker service around the engine: challenges, enrollment, session creation, authentication,
polls, drain and revocation, `internal/worker/service.go:72-509, 692-720`. A call that runs several
statements is between two of them a member of a list, and any other call may come in between: a
session is created in three statements, and only the second looks at the status of the worker.

Keys are decoded ones, with `none` for a text that does not decode; tokens stand for their hashes.
A poll is the check of the status, the advertised bundles, and claims until its deadline.
-/

namespace Deadbolt.Worker

open Base Execution

abbrev PublicKey := Nat
abbrev Nonce := Nat
abbrev Signature := Nat
abbrev EnrollmentToken := Nat

class SignatureScheme where
  verify : PublicKey → Nonce → Signature → Bool

structure Challenge where
  workerID : Option WorkerID
  publicKey : Option PublicKey
  expiresAt : Time
  usedAt : Option Time
  deriving DecidableEq

structure Enrollment where
  environmentID : EnvironmentID
  poolName : String
  expiresAt : Time
  usedAt : Option Time
  deriving DecidableEq

structure SessionRequest where
  workerID : WorkerID
  nonce : Nonce
  signature : Signature
  deriving DecidableEq

structure EnrollRequest where
  token : EnrollmentToken
  publicKey : Option PublicKey
  nonce : Nonce
  signature : Signature
  deriving DecidableEq

/-- A worker that has proved its key and consumed its enrollment. -/
structure Enrollee where
  publicKey : PublicKey
  environmentID : EnvironmentID
  poolName : String
  deriving DecidableEq

/-- A `PollAssignments` call that found its worker active. -/
structure Poll where
  session : WorkerSession
  slots : Nat

/-- The rows of the service and the calls that are between two statements. -/
structure Registry where
  world : World
  /-- `workers.public_key`. -/
  keys : Table WorkerID PublicKey
  challenges : Table Nonce Challenge
  enrollments : Table EnrollmentToken Enrollment
  /-- `CreateSession` calls that have consumed their nonce. -/
  reconnects : List SessionRequest
  /-- `CreateSession` calls that have found their worker and verified its signature. -/
  issuing : List WorkerID
  /-- `EnrollWorker` calls that have proved their key. -/
  applicants : List (PublicKey × EnrollmentToken)
  /-- `EnrollWorker` calls that have consumed their token. -/
  enrollees : List Enrollee
  /-- Authenticated requests. -/
  requests : List WorkerSession
  polls : List Poll

/-- A request of an authenticated worker but a poll. -/
inductive WorkerRequest where
  | start (attemptID : AttemptID) (ownershipEpoch : Int)
  | heartbeat (attempts : List (AttemptID × Int))
  | complete (req : CompleteRequest) (lookup : ArtifactLookup)
  | stopAck (attemptID : AttemptID) (ownershipEpoch : Int) (processStopped : Bool)

def WorkerRequest.action (session : WorkerSession) : WorkerRequest → Action
  | start attemptID epoch => .start session attemptID epoch
  | heartbeat attempts => .heartbeat session attempts
  | complete req lookup => .complete session req lookup
  | stopAck attemptID epoch stopped => .stopAck session attemptID epoch stopped

/-- The actions of the engine that no worker asks for and that concern no worker. -/
def internal : Action → Bool
  | .createRun _ | .pauseRun .. | .resumeRun .. | .cancelRun .. | .resolveCase ..
  | .decideApproval .. | .settleExpiredApproval _ | .settleOverdueControl _ | .terminalizeHistory _
  | .reconcileExpiredLeases _ | .fireDueRetryTimers | .fireDueDelayTimers | .sweepExpiredApprovals
  | .reconcileReadyWork _ | .elapse _ => true
  | _ => false

inductive ServiceStep where
  | createChallenge (nonce : Nonce) (workerID : Option WorkerID) (publicKey : Option PublicKey)
  | createEnrollment (token : EnrollmentToken) (environmentID : EnvironmentID) (poolName : String)
  | reconnect (req : SessionRequest)
  | lookupWorker (index : Nat)
  | issueSession (index : Nat)
  | proveKey (req : EnrollRequest)
  | consumeToken (index : Nat)
  | insertWorker (index : Nat)
  | authenticate (token : SessionID)
  | request (index : Nat) (caller : Caller) (req : WorkerRequest)
  | poll (index : Nat) (caller : Caller) (poolName : String) (slots : Nat)
  | advertise (index : Nat) (digests : List String)
  | claimSnapshot (index : Nat) (locked : List RunID)
  | claimCommit (index : Nat) (verified : List Bool) (locked : List RunID) (ready : List String)
  | endPoll (index : Nat)
  | revokeWorker (workerID : WorkerID)
  | drainWorker (workerID : WorkerID)
  | operate (a : Action)
  | configure (admissions : Table EnvironmentID Admission)
      (deployments : Table DeploymentID Deployment)
      (channels : List ((EnvironmentID × String) × DeploymentID)) (controls : Option Controls)

variable [Platform]

def activeSessions (db : Db) (env : EnvironmentID) (now : Time) : List (SessionID × Session) :=
  db.fleet.sessions.rows.filter fun e =>
    e.2.environmentID == env && e.2.revokedAt.isNone && decide (now < e.2.expiresAt)

/-- The transaction of `EnrollWorker`, `service.go:169-199`. -/
def enrollTx (env : EnvironmentID) (pool : String) : DbTx (WorkerID × SessionID) := do
  let db ← Tx.read id
  match db.fleet.admissions.find? env with
  | none => Tx.fail .noRows
  | some _ => do
    let now ← dbClock
    Tx.require ((activeSessions db env now).length < maxWorkerSessions) .sessionQuotaExceeded
    let workerID ← dbNewID
    match db.fleet.workers.insert? workerID ⟨env, pool, .active⟩ with
    | none => Tx.fail .uniqueViolation
    | some workers => do
      let sessionID ← dbNewID
      let now ← dbClock
      match db.fleet.sessions.insert? sessionID
          ⟨workerID, env, now + millis sessionTTLMs, none, []⟩ with
      | none => Tx.fail .uniqueViolation
      | some sessions => do
        Tx.write fun db =>
          { db with fleet := { db.fleet with workers := workers, sessions := sessions } }
        pure (workerID, sessionID)

/-- The bundles of a session after it has advertised `digests`. -/
def advertised (bundles digests : List String) : List String :=
  let kept := bundles.filter fun b => decide (b ∈ digests)
  kept ++ digests.dedup.filter fun b => decide (b ∉ kept)

namespace Registry

def now (s : Registry) : Time := Platform.clock s.world.db.sys.ticks

def tick (s : Registry) : Registry := { s with world := s.world.step (.elapse 1) }

def withFleet (s : Registry) (f : Fleet → Fleet) : Registry :=
  { s with world := s.world.step (.reconfigure (f s.world.db.fleet)) }

/-- `CreateChallenge`: for a worker or for a key, and not for both. -/
def createChallenge (s : Registry) (nonce : Nonce) (workerID : Option WorkerID)
    (publicKey : Option PublicKey) : Registry :=
  if workerID.isSome = publicKey.isSome then s
  else { s.tick with
    challenges := s.challenges.put nonce ⟨workerID, publicKey, s.now + millis (5 * 60 * 1000), none⟩ }

def createEnrollment (s : Registry) (token : EnrollmentToken) (env : EnvironmentID)
    (pool : String) : Registry :=
  { s.tick with
    enrollments := s.enrollments.put token ⟨env, pool, s.now + millis (10 * 60 * 1000), none⟩ }

/-- `UPDATE worker_challenges SET used_at … RETURNING worker_id, public_key`. -/
def consumeChallenge (s : Registry) (nonce : Nonce) : Option (Challenge × Registry) :=
  match s.challenges.find? nonce with
  | none => none
  | some c =>
    if c.usedAt = none ∧ s.now < c.expiresAt then
      some (c, { s.tick with
        challenges := s.challenges.modify nonce fun c => { c with usedAt := some s.now } })
    else none

/-- The first statement of `CreateSession`. -/
def reconnect (s : Registry) (req : SessionRequest) : Registry :=
  match s.consumeChallenge req.nonce with
  | none => s
  | some (c, s) =>
    if c.workerID = some req.workerID ∧ c.publicKey = none then
      { s with reconnects := s.reconnects ++ [req] }
    else s

/-- The second statement of `CreateSession`: the worker, its status and its signature. -/
def lookupWorker [SignatureScheme] (s : Registry) (index : Nat) : Registry :=
  match s.reconnects[index]? with
  | none => s
  | some req =>
    let s := { s with reconnects := s.reconnects.eraseIdx index }
    match s.world.db.fleet.workers.find? req.workerID, s.keys.find? req.workerID with
    | some w, some key =>
      if w.status ≠ .revoked ∧ SignatureScheme.verify key req.nonce req.signature = true then
        { s with issuing := s.issuing ++ [req.workerID] }
      else s
    | _, _ => s

/-- The transaction of `CreateSession`. -/
def issueSession (s : Registry) (index : Nat) : Registry :=
  match s.issuing[index]? with
  | none => s
  | some workerID =>
    { s with
      issuing := s.issuing.eraseIdx index
      world := s.world.step (.openSession workerID) }

/-- The first statement of `EnrollWorker`, and the proof of possession. -/
def proveKey [SignatureScheme] (s : Registry) (req : EnrollRequest) : Registry :=
  match s.consumeChallenge req.nonce with
  | none => s
  | some (c, s) =>
    match req.publicKey, c.publicKey with
    | some key, some bound =>
      if c.workerID = none ∧ key = bound ∧
          SignatureScheme.verify key req.nonce req.signature = true then
        { s with applicants := s.applicants ++ [(key, req.token)] }
      else s
    | _, _ => s

/-- `app.consume_enrollment_token`. -/
def consumeToken (s : Registry) (index : Nat) : Registry :=
  match s.applicants[index]? with
  | none => s
  | some (key, token) =>
    let s := { s with applicants := s.applicants.eraseIdx index }
    match s.enrollments.find? token with
    | none => s
    | some e =>
      if e.usedAt = none ∧ s.now < e.expiresAt then
        { s.tick with
          enrollments := s.enrollments.modify token fun e => { e with usedAt := some s.now }
          enrollees := s.enrollees ++ [⟨key, e.environmentID, e.poolName⟩] }
      else s

/-- The transaction of `EnrollWorker`. -/
def insertWorker (s : Registry) (index : Nat) : Registry :=
  match s.enrollees[index]? with
  | none => s
  | some e =>
    let s := { s with enrollees := s.enrollees.eraseIdx index }
    match enrollTx e.environmentID e.poolName s.world.db with
    | .error _ => s
    | .ok ((workerID, _), db) =>
      { s with world := { s.world with db := db }, keys := s.keys.put workerID e.publicKey }

/-- `AuthenticateSession` of a request. -/
def authenticate (s : Registry) (token : SessionID) : Registry :=
  match s.world.authenticate token with
  | none => s.tick
  | some session => { s.tick with requests := s.requests ++ [session] }

def request (s : Registry) (index : Nat) (caller : Caller) (req : WorkerRequest) : Registry :=
  match s.requests[index]? with
  | none => s
  | some session =>
    let s := { s with requests := s.requests.eraseIdx index }
    if caller.workerID = session.workerID ∧ caller.sessionID = session.sessionID then
      { s with world := s.world.step (req.action session) }
    else s

/-- The start of `PollAssignments`. -/
def poll (s : Registry) (index : Nat) (caller : Caller) (pool : String) (slots : Nat) : Registry :=
  match s.requests[index]? with
  | none => s
  | some session =>
    let s := { s with requests := s.requests.eraseIdx index }
    if caller.workerID = session.workerID ∧ caller.sessionID = session.sessionID ∧
        pool = session.poolName ∧
        (s.world.db.fleet.workers.find? session.workerID).any (fun w => w.status == .active) = true
    then { s with polls := s.polls ++ [⟨session, slots⟩] }
    else s

/-- `advertiseDeployments` of a poll. -/
def advertise (s : Registry) (index : Nat) (digests : List String) : Registry :=
  match s.polls[index]? with
  | none => s
  | some p => s.withFleet fun f => { f with
      sessions := f.sessions.modify p.session.sessionID fun ws =>
        { ws with bundles := advertised ws.bundles digests } }

def claimSnapshot (s : Registry) (index : Nat) (locked : List RunID) : Registry :=
  match s.polls[index]? with
  | none => s
  | some p =>
    if 0 < p.slots then
      { s with world := s.world.step (.claimSnapshot p.session p.slots locked) }
    else s

/-- `DrainWorker`. -/
def drainWorker (s : Registry) (workerID : WorkerID) : Registry :=
  s.withFleet fun f => { f with
    workers := f.workers.modify workerID fun w => { w with status := .draining } }

def initial (admissions : Table EnvironmentID Admission)
    (deployments : Table DeploymentID Deployment)
    (channels : List ((EnvironmentID × String) × DeploymentID)) (controls : Option Controls) :
    Registry :=
  ⟨.initial ⟨Table.empty, Table.empty, admissions, deployments, channels, controls⟩, Table.empty,
    Table.empty, Table.empty, [], [], [], [], [], []⟩

end Registry

def service [SignatureScheme] : System Registry ServiceStep where
  step s
    | .createChallenge nonce workerID publicKey => s.createChallenge nonce workerID publicKey
    | .createEnrollment token env pool => s.createEnrollment token env pool
    | .reconnect req => s.reconnect req
    | .lookupWorker index => s.lookupWorker index
    | .issueSession index => s.issueSession index
    | .proveKey req => s.proveKey req
    | .consumeToken index => s.consumeToken index
    | .insertWorker index => s.insertWorker index
    | .authenticate token => s.authenticate token
    | .request index caller req => s.request index caller req
    | .poll index caller pool slots => s.poll index caller pool slots
    | .advertise index digests => s.advertise index digests
    | .claimSnapshot index locked => s.claimSnapshot index locked
    | .claimCommit index verified locked ready =>
      { s with world := s.world.step (.claimCommit index verified locked ready) }
    | .endPoll index => { s with polls := s.polls.eraseIdx index }
    | .revokeWorker workerID => { s with world := s.world.step (.revokeWorker workerID) }
    | .drainWorker workerID => s.drainWorker workerID
    | .operate a => if internal a = true then { s with world := s.world.step a } else s
    | .configure admissions deployments channels controls => s.withFleet fun f =>
      ⟨f.workers, f.sessions, admissions, deployments, channels, controls⟩

end Deadbolt.Worker
