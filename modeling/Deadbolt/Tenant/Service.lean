import Deadbolt.Tenant.Command
import Deadbolt.Tenant.Rbac

/-!
# The tenant service

The mutations of `internal/tenant/service.go` as programs of statements: organizations with their
members, projects, environments and API keys, each mutation inside `withCommandTx`.

A `FOR UPDATE` of the organization row, an `UPDATE` or `DELETE` of a row and an insert under a
unique key are claims. The share lock that a foreign key takes on its parent is not: it only
removes interleavings.
-/

namespace Deadbolt.Tenant

open Base Program

abbrev ProjectID := Nat
abbrev EnvironmentID := Nat
abbrev Instant := Nat

inductive MemberStatus
  | active
  | suspended
  deriving DecidableEq

namespace MemberStatus

def text : MemberStatus → String
  | active => "ACTIVE"
  | suspended => "SUSPENDED"

def ofText? (s : String) : Option MemberStatus :=
  [active, suspended].find? fun status => status.text == s

end MemberStatus

inductive EnvironmentName
  | development
  | staging
  | production
  deriving DecidableEq

namespace EnvironmentName

def text : EnvironmentName → String
  | development => "development"
  | staging => "staging"
  | production => "production"

def ofText? (s : String) : Option EnvironmentName :=
  [development, staging, production].find? fun name => name.text == s

end EnvironmentName

structure Member where
  role : Role
  status : MemberStatus
  deriving DecidableEq

namespace Member

def activeOwner (m : Member) : Bool := m.role == .owner && m.status == .active

end Member

structure Environment where
  projectID : ProjectID
  name : EnvironmentName
  maxConcurrency : Int
  deriving DecidableEq

/-- A row of `api_keys`. The secret is not part of the model: a caller who presents a key is the
key. -/
structure APIKey where
  environmentID : EnvironmentID
  capabilities : List String
  expiresAt : Option Instant
  revokedAt : Option Instant
  deriving DecidableEq

/-- An organization with the rows that its deletion cascades to. -/
structure Organization where
  name : String
  members : Table UserID Member
  projects : Table ProjectID String
  environments : Table EnvironmentID Environment
  keys : Table KeyID APIKey

namespace Organization

/-- `SELECT COUNT(*) … WHERE role = 'Owner' AND status = 'ACTIVE'`. -/
def activeOwners (o : Organization) : Nat := (o.members.rows.filter fun r => r.2.activeOwner).length

end Organization

abbrev Tenants := Table OrganizationID Organization

namespace Tenants

def member? (db : Tenants) (org : OrganizationID) (user : UserID) : Option Member :=
  (db.find? org).bind fun o => o.members.find? user

def key? (db : Tenants) (org : OrganizationID) (key : KeyID) : Option APIKey :=
  (db.find? org).bind fun o => o.keys.find? key

def environment? (db : Tenants) (org : OrganizationID) (env : EnvironmentID) : Option Environment :=
  (db.find? org).bind fun o => o.environments.find? env

def activeOwners (db : Tenants) (org : OrganizationID) : Nat :=
  ((db.find? org).map Organization.activeOwners).getD 0

end Tenants

inductive TenantLock
  | organization (id : OrganizationID)
  | member (org : OrganizationID) (user : UserID)
  | project (org : OrganizationID) (name : String)
  | environment (org : OrganizationID) (project : ProjectID) (name : EnvironmentName)
  | key (org : OrganizationID) (id : KeyID)
  deriving DecidableEq

inductive TenantError
  | lastOwnerDemotion
  | lastOwnerRemoval
  | lastOwnerSuspension
  | machineKeyRestricted
  | capabilityElevation
  | environmentMismatch
  | invalidRole
  | invalidStatus
  | invalidEnvironment
  | keyRevoked
  | unauthorized (detail : String)
  | forbidden (detail : String)
  | notFound
  | noRows
  | uniqueViolation
  | foreignKeyViolation
  deriving DecidableEq

inductive TenantResult
  | empty
  | organization (id : OrganizationID) (name : String)
  | member (user : UserID) (role : Role) (status : MemberStatus)
  | project (id : ProjectID) (name : String)
  | environment (id : EnvironmentID) (env : Environment)
  | key (id : KeyID) (key : APIKey)
  deriving DecidableEq

abbrev TenantProgram := Program TenantLock Tenants TenantError TenantResult

/-- Roll back unless the statement finds and claims its row. -/
def claimRow (k : TenantLock) (p : Tenants → Bool) (e : TenantError) :
    Program TenantLock Tenants TenantError Unit := do
  let found ← Program.claim k p .done
  Program.require (found = true) e

def modifyOrganization (org : OrganizationID) (f : Organization → Organization) :
    Program TenantLock Tenants TenantError Unit :=
  Program.modify fun db => db.modify org f

/-! ### Organizations and members -/

/-- The body of `CreateOrganization`, `service.go:47-66`. -/
def insertOrganization (org : OrganizationID) (user : UserID) (name : String) : TenantProgram := do
  claimRow (.organization org) (fun db => (db.find? org).isNone) .uniqueViolation
  Program.modify fun db => db.put org ⟨name, .empty, .empty, .empty, .empty⟩
  modifyOrganization org fun o => { o with members := o.members.put user ⟨.owner, .active⟩ }
  pure (.organization org name)

/-- The body of `UpdateOrganization`, `service.go:100-111`. -/
def renameOrganization (org : OrganizationID) (name : String) : TenantProgram := do
  claimRow (.organization org) (fun db => (db.find? org).isSome) .notFound
  modifyOrganization org fun o => { o with name := name }
  pure (.organization org name)

/-- The body of `DeleteOrganization`, `service.go:121-128`. -/
def eraseOrganization (org : OrganizationID) : TenantProgram := do
  claimRow (.organization org) (fun db => (db.find? org).isSome) .notFound
  Program.modify fun db => db.erase org
  pure .empty

/-- The body of `AddMember`, `service.go:172-178`. -/
def insertMember (org : OrganizationID) (user : UserID) (role : Role) : TenantProgram := do
  claimRow (.member org user) (fun db => (db.member? org user).isNone) .uniqueViolation
  let parent ← Program.read fun db : Tenants => (db.find? org).isSome
  Program.require (parent = true) .foreignKeyViolation
  modifyOrganization org fun o => { o with members := o.members.put user ⟨role, .active⟩ }
  pure (.member user role .active)

/-- The `UPDATE` or `DELETE` of a member; it must find its row. -/
def writeMember (org : OrganizationID) (user : UserID)
    (change : Table UserID Member → Table UserID Member) : TenantProgram := do
  claimRow (.member org user) (fun db => (db.member? org user).isSome) .notFound
  modifyOrganization org fun o => { o with members := change o.members }
  pure .empty

/-- The three changes of a member: the organization row is locked, and an active owner is given
up only if another one remains. -/
def changeMember (org : OrganizationID) (user : UserID) (givesUp : Bool) (lastOwner : TenantError)
    (change : Table UserID Member → Table UserID Member) : TenantProgram := do
  claimRow (.organization org) (fun db => (db.find? org).isSome) .noRows
  let current ← Program.read fun db : Tenants => db.member? org user
  match current with
  | none => .fail .notFound
  | some m => do
    if m.activeOwner && givesUp then do
      let ownerCount ← Program.read fun db : Tenants => db.activeOwners org
      Program.require (1 < ownerCount) lastOwner
    else pure ()
    writeMember org user change

/-- The body of `UpdateMemberRole`, `service.go:193-240`. -/
def setMemberRole (org : OrganizationID) (user : UserID) (role : Role) : TenantProgram :=
  changeMember org user (role != .owner) .lastOwnerDemotion fun members =>
    members.modify user fun m => { m with role := role }

/-- The body of `UpdateMemberStatus`, `service.go:251-298`. -/
def setMemberStatus (org : OrganizationID) (user : UserID) (status : MemberStatus) :
    TenantProgram :=
  changeMember org user (status == .suspended) .lastOwnerSuspension fun members =>
    members.modify user fun m => { m with status := status }

/-- The body of `RemoveMember`, `service.go:305-348`. -/
def eraseMember (org : OrganizationID) (user : UserID) : TenantProgram :=
  changeMember org user true .lastOwnerRemoval fun members => members.erase user

/-! ### Projects and environments -/

/-- The body of `CreateProject`, `service.go:382-389`. -/
def insertProject (org : OrganizationID) (id : ProjectID) (name : String) : TenantProgram := do
  claimRow (.project org name)
    (fun db => !((db.find? org).any fun o => o.projects.any fun n => n == name)) .uniqueViolation
  let parent ← Program.read fun db : Tenants => (db.find? org).isSome
  Program.require (parent = true) .foreignKeyViolation
  modifyOrganization org fun o => { o with projects := o.projects.put id name }
  pure (.project id name)

/-- The body of `CreateEnvironment`, `service.go:482-517`. -/
def insertEnvironment (org : OrganizationID) (id : EnvironmentID) (env : Environment) :
    TenantProgram := do
  let project ← Program.read fun db : Tenants =>
    (db.find? org).any fun o => (o.projects.find? env.projectID).isSome
  Program.require (project = true) .notFound
  claimRow (.environment org env.projectID env.name)
    (fun db => !((db.find? org).any fun o => o.environments.any fun e =>
      e.projectID == env.projectID && e.name == env.name)) .uniqueViolation
  modifyOrganization org fun o => { o with environments := o.environments.put id env }
  pure (.environment id env)

/-! ### API keys -/

/-- `CalculateExpiry`, `apikey.go:200-206`: 90 days by default. -/
def calculateExpiry (now : Instant) (days : Int) : Instant :=
  now + (if days ≤ 0 then 90 else days.toNat) * 86400

/-- The body of `createAPIKeyInternal`, `service.go:678-735`, without the audit
event. -/
def insertKey (org : OrganizationID) (id : KeyID) (key : APIKey) : TenantProgram := do
  let env ← Program.read fun db : Tenants => (db.environment? org key.environmentID).isSome
  Program.require (env = true) .notFound
  claimRow (.key org id) (fun db => (db.key? org id).isNone) .uniqueViolation
  modifyOrganization org fun o => { o with keys := o.keys.put id key }
  pure (.key id key)

/-- The key that replaces another one: same environment and capabilities, new expiry. -/
def APIKey.renew (key : APIKey) (now : Instant) (expiryDays : Int) : APIKey :=
  { key with expiresAt := some (calculateExpiry now expiryDays), revokedAt := none }

/-- The body of `RotateAPIKey`, `service.go:849-967`, without the audit event. A
machine caller passes its environment. -/
def rotateKey (org : OrganizationID) (id new : KeyID) (expiryDays : Int) (now : Instant)
    (callerCaps : List String) (callerEnv : Option EnvironmentID) : TenantProgram := do
  let _ ← Program.claim (.key org id) (fun db => (db.key? org id).isSome) .done
  let found ← Program.read fun db : Tenants => db.key? org id
  match found with
  | none => .fail .notFound
  | some key => do
    Program.require (key.revokedAt = none) .keyRevoked
    Program.require (∀ env, callerEnv = some env → key.environmentID = env) .environmentMismatch
    Program.require (∀ c ∈ key.capabilities, c ∈ callerCaps) .capabilityElevation
    match (if callerEnv.isSome then validateKeyCapabilities key.capabilities true else .ok ()) with
    | .error (.unknownCapability c) => .fail (.forbidden c)
    | .error .machineKeyRestricted => .fail .machineKeyRestricted
    | .ok () => do
      let result ← insertKey org new (key.renew now expiryDays)
      modifyOrganization org fun o =>
        { o with keys := o.keys.modify id fun k => { k with revokedAt := some now } }
      pure result

/-- The body of `RevokeAPIKey`, `service.go:786-833`, without the audit event. -/
def revokeKey (org : OrganizationID) (id : KeyID) (now : Instant)
    (callerEnv : Option EnvironmentID) : TenantProgram := do
  let found ← Program.read fun db : Tenants => db.key? org id
  match found with
  | none => .fail .notFound
  | some key => do
    Program.require (∀ env, callerEnv = some env → key.environmentID = env) .environmentMismatch
    let _ ← Program.claim (.key org id) (fun db => (db.key? org id).isSome) .done
    modifyOrganization org fun o =>
      { o with keys := o.keys.modify id fun k =>
          { k with revokedAt := k.revokedAt.or (some now) } }
    pure .empty

/-! ### Commits without competition -/

variable {db db' : Tenants} {org : OrganizationID} {res : TenantResult}

theorem claimRow_run {k : TenantLock} {p : Tenants → Bool} {e : TenantError} {x : Unit × Tenants} :
    (claimRow k p e).run db = .ok x ↔ p db = true ∧ ((), db) = x := by
  simp [claimRow, run_bind, run_require_ok]

theorem insertOrganization_run {user : UserID} {name : String}
    (h : (insertOrganization org user name).run db = .ok (res, db')) : db.find? org = none := by
  obtain ⟨_, db1, hclaim, -⟩ := run_bind_ok.mp h
  simpa using (claimRow_run.mp hclaim).1

theorem changeMember_run {user : UserID} {givesUp : Bool} {lastOwner : TenantError}
    {change : Table UserID Member → Table UserID Member}
    (h : (changeMember org user givesUp lastOwner change).run db = .ok (res, db')) :
    ∃ m, db.member? org user = some m ∧
      db' = db.modify org fun o => { o with members := change o.members } := by
  have hwrite : (writeMember org user change).run db = .ok (res, db') →
      db' = db.modify org fun o => { o with members := change o.members } := by
    intro h
    obtain ⟨_, db1, hclaim, h⟩ := run_bind_ok.mp h
    cases (claimRow_run.mp hclaim).2
    obtain ⟨_, db2, hmod, h⟩ := run_bind_ok.mp h
    cases hmod
    cases h
    rfl
  obtain ⟨_, db1, hclaim, h⟩ := run_bind_ok.mp h
  cases (claimRow_run.mp hclaim).2
  obtain ⟨current, db2, hread, h⟩ := run_bind_ok.mp h
  cases hread
  split at h
  · cases h
  · next m hm =>
    refine ⟨m, hm, hwrite ?_⟩
    dsimp only at h
    split at h
    · obtain ⟨count, db3, hcount, h⟩ := run_bind_ok.mp h
      cases hcount
      obtain ⟨_, db4, hreq, h⟩ := run_bind_ok.mp h
      cases (run_require_ok.mp hreq).2
      exact h
    · exact h

theorem insertKey_run {id : KeyID} {key : APIKey}
    (h : (insertKey org id key).run db = .ok (res, db')) :
    db' = db.modify org fun o => { o with keys := o.keys.put id key } := by
  simp only [insertKey, bind_eq, run_bind_ok, run_require_ok,
    claimRow_run, run_read] at h
  obtain ⟨env, db1, h1, _, db2, ⟨-, h2⟩, _, db3, ⟨-, h3⟩, _, db4, h4, h5⟩ := h
  cases h1
  cases h2
  cases h3
  cases h4
  cases h5
  rfl

/-- A rotated key was valid, in the environment of a machine caller, and without a capability that
the caller lacks. -/
theorem rotateKey_run {id new : KeyID} {expiryDays : Int} {now : Instant} {callerCaps : List String}
    {callerEnv : Option EnvironmentID}
    (h : (rotateKey org id new expiryDays now callerCaps callerEnv).run db = .ok (res, db')) :
    ∃ key, db.key? org id = some key ∧ key.revokedAt = none ∧
      (∀ env, callerEnv = some env → key.environmentID = env) ∧
      (∀ c ∈ key.capabilities, c ∈ callerCaps) ∧
      db' = Table.modify (Table.modify db org fun o =>
          { o with keys := o.keys.put new (key.renew now expiryDays) }) org fun o =>
        { o with keys := o.keys.modify id fun k => { k with revokedAt := some now } } := by
  obtain ⟨_, db1, hclaim, h⟩ := run_bind_ok.mp h
  cases hclaim
  obtain ⟨found, db2, hread, h⟩ := run_bind_ok.mp h
  cases hread
  split at h
  · cases h
  · next key hkey =>
    obtain ⟨_, db3, h3, h⟩ := run_bind_ok.mp h
    obtain ⟨hrev, heq⟩ := run_require_ok.mp h3
    cases heq
    obtain ⟨_, db4, h4, h⟩ := run_bind_ok.mp h
    obtain ⟨henv, heq⟩ := run_require_ok.mp h4
    cases heq
    obtain ⟨_, db5, h5, h⟩ := run_bind_ok.mp h
    obtain ⟨hcaps, heq⟩ := run_require_ok.mp h5
    cases heq
    refine ⟨key, hkey, hrev, henv, hcaps, ?_⟩
    split at h
    · cases h
    · cases h
    · obtain ⟨result, db6, hins, h⟩ := run_bind_ok.mp h
      obtain ⟨_, db7, hmod, h⟩ := run_bind_ok.mp h
      cases hmod
      cases h
      rw [insertKey_run hins]

/-! ### Writes

What each mutation writes, for any relation that its single writes keep. -/

section Writes

variable {W : Tenants → Tenants → Prop}

theorem claimRow_writes (W : Tenants → Tenants → Prop) (k : TenantLock) (p : Tenants → Bool)
    (e : TenantError) : (claimRow k p e).Writes W :=
  Program.Writes.bind (fun _ => trivial) fun _ => writes_require _ _ _

variable {org : OrganizationID} {user : UserID} {name : String} {id : KeyID}

theorem modifyOrganization_writes {f : Organization → Organization}
    (h : ∀ db : Tenants, W db (db.modify org f)) : (modifyOrganization org f).Writes W :=
  (writes_modify _ _).mpr h

theorem insertOrganization_writes
    (hput : ∀ db : Tenants, W db (db.put org ⟨name, .empty, .empty, .empty, .empty⟩))
    (hmember : ∀ db : Tenants, W db (db.modify org fun o =>
      { o with members := o.members.put user ⟨.owner, .active⟩ })) :
    (insertOrganization org user name).Writes W :=
  .bind (claimRow_writes _ _ _ _) fun _ => .bind ((writes_modify _ _).mpr hput) fun _ =>
    .bind (modifyOrganization_writes hmember) fun _ => trivial

theorem renameOrganization_writes
    (h : ∀ db : Tenants, W db (db.modify org fun o => { o with name := name })) :
    (renameOrganization org name).Writes W :=
  .bind (claimRow_writes _ _ _ _) fun _ => .bind (modifyOrganization_writes h) fun _ => trivial

theorem eraseOrganization_writes (h : ∀ db : Tenants, W db (db.erase org)) :
    (eraseOrganization org).Writes W :=
  .bind (claimRow_writes _ _ _ _) fun _ =>
    .bind ((writes_modify _ _).mpr h) fun _ => trivial

theorem insertMember_writes {role : Role} (h : ∀ db : Tenants, W db (db.modify org fun o =>
      { o with members := o.members.put user ⟨role, .active⟩ })) :
    (insertMember org user role).Writes W :=
  .bind (claimRow_writes _ _ _ _) fun _ => .bind (writes_read _ _) fun _ =>
    .bind (writes_require _ _ _) fun _ =>
      .bind (modifyOrganization_writes h) fun _ => trivial

theorem changeMember_writes {givesUp : Bool} {lastOwner : TenantError}
    {change : Table UserID Member → Table UserID Member}
    (h : ∀ db : Tenants, W db (db.modify org fun o => { o with members := change o.members })) :
    (changeMember org user givesUp lastOwner change).Writes W := by
  have hwrite : (writeMember org user change).Writes W :=
    .bind (claimRow_writes _ _ _ _) fun _ => .bind (modifyOrganization_writes h) fun _ => trivial
  refine .bind (claimRow_writes _ _ _ _) fun _ => .bind (writes_read _ _) fun current => ?_
  split
  · trivial
  · dsimp only
    split
    · exact .bind (writes_read _ _) fun _ => .bind (writes_require _ _ _)
        fun _ => hwrite
    · exact hwrite

theorem insertProject_writes {id : ProjectID} (h : ∀ db : Tenants, W db (db.modify org fun o =>
      { o with projects := o.projects.put id name })) : (insertProject org id name).Writes W :=
  .bind (claimRow_writes _ _ _ _) fun _ => .bind (writes_read _ _) fun _ =>
    .bind (writes_require _ _ _) fun _ =>
      .bind (modifyOrganization_writes h) fun _ => trivial

theorem insertEnvironment_writes {id : EnvironmentID} {env : Environment}
    (h : ∀ db : Tenants, W db (db.modify org fun o =>
      { o with environments := o.environments.put id env })) :
    (insertEnvironment org id env).Writes W :=
  .bind (writes_read _ _) fun _ => .bind (writes_require _ _ _) fun _ =>
    .bind (claimRow_writes _ _ _ _) fun _ =>
      .bind (modifyOrganization_writes h) fun _ => trivial

theorem insertKey_writes {key : APIKey}
    (h : ∀ db : Tenants, W db (db.modify org fun o => { o with keys := o.keys.put id key })) :
    (insertKey org id key).Writes W :=
  .bind (writes_read _ _) fun _ => .bind (writes_require _ _ _) fun _ =>
    .bind (claimRow_writes _ _ _ _) fun _ =>
      .bind (modifyOrganization_writes h) fun _ => trivial

theorem rotateKey_writes {new : KeyID} {expiryDays : Int} {now : Instant} {callerCaps : List String}
    {callerEnv : Option EnvironmentID} (hput : ∀ (key : APIKey) (db : Tenants),
      W db (db.modify org fun o => { o with keys := o.keys.put new key }))
    (hrevoke : ∀ db : Tenants, W db (db.modify org fun o =>
      { o with keys := o.keys.modify id fun k => { k with revokedAt := some now } })) :
    (rotateKey org id new expiryDays now callerCaps callerEnv).Writes W := by
  refine .bind (fun _ => trivial) fun _ => .bind (writes_read _ _) fun found => ?_
  split
  · trivial
  · refine .bind (writes_require _ _ _) fun _ => .bind (writes_require _ _ _)
      fun _ => .bind (writes_require _ _ _) fun _ => ?_
    split
    · trivial
    · trivial
    · exact .bind (insertKey_writes (hput _)) fun _ =>
        .bind (modifyOrganization_writes hrevoke) fun _ => trivial

theorem revokeKey_writes {now : Instant} {callerEnv : Option EnvironmentID}
    (h : ∀ db : Tenants, W db (db.modify org fun o =>
      { o with keys := o.keys.modify id fun k =>
          { k with revokedAt := k.revokedAt.or (some now) } })) :
    (revokeKey org id now callerEnv).Writes W := by
  refine .bind (writes_read _ _) fun found => ?_
  split
  · trivial
  · exact .bind (writes_require _ _ _) fun _ => .bind (fun _ => trivial) fun _ =>
      .bind (modifyOrganization_writes h) fun _ => trivial

end Writes

/-! ### Service calls -/

structure CommandHeader where
  key : String
  fingerprint : String
  operation : String
  deriving DecidableEq

/-- Who calls the service, and under which command. -/
structure ServiceContext where
  actor : Actor
  header : Option CommandHeader
  deriving DecidableEq

variable [CreationHash]

abbrev TenantCommand := CommandRequest TenantLock Tenants TenantError TenantResult

/-- A mutation of an organization under the caller's command. -/
def organizationCommand (ctx : ServiceContext) (org : OrganizationID) (code : Int)
    (mutate : TenantProgram) : TenantCommand where
  organizationID := org
  command := ctx.header.map fun h => ⟨.actor org ctx.actor, h.key, h.fingerprint, h.operation⟩
  operation := ""
  form := .fixed code
  mutate := mutate
  inScope := by
    intro c hc
    obtain ⟨h, -, rfl⟩ := Option.map_eq_some_iff.mp hc
    rfl

/-- `CreateOrganization`, `service.go:28-73`: under a command the organization's
id is a hash of the user and the key. -/
def createOrganization (user : UserID) (header : Option CommandHeader) (fresh : OrganizationID)
    (name : String) : Except TenantError TenantCommand :=
  if name = "" then .error (.forbidden "name is required")
  else
    let org := (header.map fun h => CreationHash.commandOrganizationID user h.key).getD fresh
    .ok
      { organizationID := org
        command := header.map fun h => ⟨.creator user, h.key, h.fingerprint, h.operation⟩
        operation := ""
        form := .fixed 201
        mutate := insertOrganization org user name
        inScope := by
          intro c hc
          obtain ⟨h, hh, rfl⟩ := Option.map_eq_some_iff.mp hc
          simp [Command.organizationID, org, hh] }

section Calls

variable (ctx : ServiceContext) (org : OrganizationID)

def updateOrganization (name : String) : Except TenantError TenantCommand :=
  if name = "" then .error (.forbidden "name is required")
  else .ok (organizationCommand ctx org 200 (renameOrganization org name))

def deleteOrganization : Except TenantError TenantCommand :=
  .ok (organizationCommand ctx org 204 (eraseOrganization org))

def addMember (user : UserID) (role : String) : Except TenantError TenantCommand :=
  match Role.ofText? role with
  | none => .error .invalidRole
  | some role => .ok (organizationCommand ctx org 201 (insertMember org user role))

def updateMemberRole (user : UserID) (role : String) : Except TenantError TenantCommand :=
  match Role.ofText? role with
  | none => .error .invalidRole
  | some role => .ok (organizationCommand ctx org 200 (setMemberRole org user role))

def updateMemberStatus (user : UserID) (status : String) : Except TenantError TenantCommand :=
  match MemberStatus.ofText? status with
  | none => .error .invalidStatus
  | some status => .ok (organizationCommand ctx org 200 (setMemberStatus org user status))

def removeMember (user : UserID) : Except TenantError TenantCommand :=
  .ok (organizationCommand ctx org 204 (eraseMember org user))

def createProject (id : ProjectID) (name : String) : Except TenantError TenantCommand :=
  if name = "" then .error (.forbidden "name is required")
  else .ok (organizationCommand ctx org 201 (insertProject org id name))

/-- `CreateEnvironment`: a missing or negative concurrency is 10. -/
def createEnvironment (id : EnvironmentID) (project : ProjectID) (name : String)
    (maxConcurrency : Int) : Except TenantError TenantCommand :=
  match EnvironmentName.ofText? name with
  | none => .error .invalidEnvironment
  | some name => .ok (organizationCommand ctx org 201 (insertEnvironment org id
      ⟨project, name, if maxConcurrency ≤ 0 then 10 else maxConcurrency⟩))

/-- `CreateAPIKey`, `service.go:622-652`: the sanitized capabilities are some of
the creator's, and none that machine keys may not have. -/
def createAPIKey (id : KeyID) (env : EnvironmentID) (capabilities : List String)
    (expiryDays : Int) (now : Instant) (creatorCaps : List String) :
    Except TenantError TenantCommand :=
  if creatorCaps = [] then .error (.forbidden "creator capabilities cannot be empty")
  else
    let capabilities := sanitizeCapabilities capabilities
    if capabilities = [] then .error (.forbidden "requested capabilities cannot be empty")
    else if ¬ ∀ c ∈ capabilities, c ∈ creatorCaps then .error .capabilityElevation
    else
      match validateKeyCapabilities capabilities true with
      | .error (.unknownCapability c) => .error (.forbidden c)
      | .error .machineKeyRestricted => .error .machineKeyRestricted
      | .ok () => .ok (organizationCommand ctx org 201 (insertKey org id
          ⟨env, capabilities, some (calculateExpiry now expiryDays), none⟩))

/-- `RotateAPIKey`, `service.go:839-971`. -/
def rotateAPIKey (id new : KeyID) (expiryDays : Int) (now : Instant) (callerCaps : List String)
    (callerEnv : Option EnvironmentID) : Except TenantError TenantCommand :=
  if callerCaps = [] then .error (.forbidden "caller capabilities cannot be empty")
  else .ok (organizationCommand ctx org 200
    (rotateKey org id new expiryDays now callerCaps callerEnv))

def revokeAPIKey (id : KeyID) (now : Instant) (callerEnv : Option EnvironmentID) :
    Except TenantError TenantCommand :=
  .ok (organizationCommand ctx org 204 (revokeKey org id now callerEnv))

end Calls

inductive TenantRequest
  | createOrganization (user : UserID) (header : Option CommandHeader) (fresh : OrganizationID)
    (name : String)
  | updateOrganization (ctx : ServiceContext) (org : OrganizationID) (name : String)
  | deleteOrganization (ctx : ServiceContext) (org : OrganizationID)
  | addMember (ctx : ServiceContext) (org : OrganizationID) (user : UserID) (role : String)
  | updateMemberRole (ctx : ServiceContext) (org : OrganizationID) (user : UserID) (role : String)
  | updateMemberStatus (ctx : ServiceContext) (org : OrganizationID) (user : UserID)
    (status : String)
  | removeMember (ctx : ServiceContext) (org : OrganizationID) (user : UserID)
  | createProject (ctx : ServiceContext) (org : OrganizationID) (id : ProjectID) (name : String)
  | createEnvironment (ctx : ServiceContext) (org : OrganizationID) (id : EnvironmentID)
    (project : ProjectID) (name : String) (maxConcurrency : Int)
  | createAPIKey (ctx : ServiceContext) (org : OrganizationID) (id : KeyID) (env : EnvironmentID)
    (capabilities : List String) (expiryDays : Int) (now : Instant) (creatorCaps : List String)
  | rotateAPIKey (ctx : ServiceContext) (org : OrganizationID) (id new : KeyID) (expiryDays : Int)
    (now : Instant) (callerCaps : List String) (callerEnv : Option EnvironmentID)
  | revokeAPIKey (ctx : ServiceContext) (org : OrganizationID) (id : KeyID) (now : Instant)
    (callerEnv : Option EnvironmentID)

namespace TenantRequest

variable [Endpoints TenantResult]

/-- The command that the service runs, or its refusal before any transaction. -/
def command : TenantRequest → Except TenantError TenantCommand
  | createOrganization user header fresh name =>
    Tenant.createOrganization user header fresh name
  | updateOrganization ctx org name => Tenant.updateOrganization ctx org name
  | deleteOrganization ctx org => Tenant.deleteOrganization ctx org
  | addMember ctx org user role => Tenant.addMember ctx org user role
  | updateMemberRole ctx org user role => Tenant.updateMemberRole ctx org user role
  | updateMemberStatus ctx org user status => Tenant.updateMemberStatus ctx org user status
  | removeMember ctx org user => Tenant.removeMember ctx org user
  | createProject ctx org id name => Tenant.createProject ctx org id name
  | createEnvironment ctx org id project name maxConcurrency =>
    Tenant.createEnvironment ctx org id project name maxConcurrency
  | createAPIKey ctx org id env capabilities expiryDays now creatorCaps =>
    Tenant.createAPIKey ctx org id env capabilities expiryDays now creatorCaps
  | rotateAPIKey ctx org id new expiryDays now callerCaps callerEnv =>
    Tenant.rotateAPIKey ctx org id new expiryDays now callerCaps callerEnv
  | revokeAPIKey ctx org id now callerEnv => Tenant.revokeAPIKey ctx org id now callerEnv

def program (q : TenantRequest) :
    Program (CommandKey ⊕ TenantLock) (Commands × Tenants) (CommandError TenantError) Response :=
  match q.command with
  | .error e => .fail (.mutation e)
  | .ok r => r.withCommandTx

end TenantRequest

end Deadbolt.Tenant
