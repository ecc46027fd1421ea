import Deadbolt.Tenant.Service

/-!
# Tenant requests over HTTP

Authentication, organization scope and the handlers of `internal/tenant/http.go`, one request at a
time: who may call which mutation of the service, with which capabilities and in which
environment. New rows get new ids, and every API key that a request leaves behind is written down
with its issuer.
-/

namespace Deadbolt.Tenant

open Base

/-- What a caller presents: a human session, or the secret of an API key. -/
inductive Credential
  | human (user : UserID)
  | machine (org : OrganizationID) (key : KeyID)
  deriving DecidableEq

inductive EnvironmentRef
  | id (env : EnvironmentID)
  | name (text : String)
  deriving DecidableEq

/-- The environment selectors that `RequireOrgScope` compares with a machine key's environment:
`env_id`, `environment`, `X-Environment-ID` and `X-Environment`. -/
structure EnvironmentSelectors where
  queryEnvID : Option EnvironmentID
  queryEnv : Option EnvironmentRef
  headerEnvID : Option EnvironmentID
  headerEnv : Option EnvironmentRef
  deriving DecidableEq

/-- The mutations of `RegisterRoutes`, `http.go:94-135`. -/
inductive Route
  | createOrganization (name : String)
  | updateOrganization (name : String)
  | deleteOrganization
  | addMember (user : UserID) (role : String)
  | updateMemberRole (user : UserID) (role : String)
  | updateMemberStatus (user : UserID) (status : String)
  | removeMember (user : UserID)
  | createProject (name : String)
  | createEnvironment (project : ProjectID) (name : String) (maxConcurrency : Int)
  | createAPIKey (env : EnvironmentID) (capabilities : List String) (expiryDays : Int)
  | rotateAPIKey (id : KeyID) (expiryDays : Int)
  | revokeAPIKey (id : KeyID)
  deriving DecidableEq

namespace Route

/-- The capability that a route requires; the creation of an organization requires none. -/
def requiredCap : Route → Option Capability
  | createOrganization _ => none
  | updateOrganization _ => some .orgUpdate
  | deleteOrganization => some .orgDelete
  | addMember _ _ | updateMemberRole _ _ | updateMemberStatus _ _ | removeMember _ =>
    some .adminMember
  | createProject _ | createEnvironment _ _ _ => some .adminProject
  | createAPIKey _ _ _ | rotateAPIKey _ _ | revokeAPIKey _ => some .adminKey

/-- `r.PathValue("envId")`. -/
def routeEnv : Route → Option EnvironmentID
  | createAPIKey env _ _ => some env
  | _ => none

def humanOnly : Route → Bool
  | addMember _ _ | updateMemberRole _ _ | updateMemberStatus _ _ | removeMember _ => true
  | createProject _ | createEnvironment _ _ _ => true
  | _ => false

def wellFormed : Route → Bool
  | createOrganization name | updateOrganization name | createProject name => name != ""
  | addMember _ role | updateMemberRole _ role => role != ""
  | updateMemberStatus _ status => status != ""
  | createEnvironment _ name _ => name != ""
  | _ => true

end Route

/-- A mutating request. `targetOrg` is what path, header, query or session select. -/
structure HttpRequest where
  credential : Credential
  targetOrg : OrganizationID
  idempotencyKey : String
  operation : String
  fingerprint : String
  selectors : EnvironmentSelectors
  now : Instant
  route : Route
  deriving DecidableEq

inductive HttpError
  | unauthenticated
  | apiKeyRevoked
  | apiKeyExpired
  | missingIdempotencyKey
  | idempotencyConflict
  | crossTenantAccessDenied
  | environmentMismatch
  | forbidden
  | forbiddenOrganizationMembership
  | machineKeyUnauthorized
  | unauthorized
  | invalidRequest
  | service (e : CommandError TenantError)
  deriving DecidableEq

/-- The caller as the handlers see it: the actor of the audit and the command scope, its
capabilities, and the environment of a machine key. -/
structure Caller where
  actor : Actor
  capabilities : List String
  environmentID : Option EnvironmentID
  deriving DecidableEq

namespace HttpRequest

variable (req : HttpRequest)

def actor : Actor :=
  match req.credential with
  | .human user => .user user
  | .machine _ key => .key key

/-- The command of the request: `Idempotency-Key` is not empty here. -/
def header : CommandHeader := ⟨req.idempotencyKey, req.fingerprint, req.operation⟩

/-- `RequireAuth`, `http.go:189-299`: a session, or an API key that is neither
revoked nor expired. -/
def requireAuth (db : Tenants) : Except HttpError (Option APIKey) :=
  match req.credential with
  | .human _ => .ok none
  | .machine org key =>
    match db.key? org key with
    | none => .error .unauthenticated
    | some row =>
      if row.revokedAt.isSome then .error .apiKeyRevoked
      else if row.expiresAt.any fun expiry => decide (expiry < req.now) then .error .apiKeyExpired
      else .ok (some row)

/-- A selector names the environment of the key. -/
def selects (env : EnvironmentID) (name : Option String) : EnvironmentRef → Bool
  | .id e => e == env
  | .name text => some text == name

/-- The environment checks of a machine key, `http.go:412-444`. -/
def environmentMatches (db : Tenants) (org : OrganizationID) (env : EnvironmentID) : Bool :=
  let name := (db.environment? org env).map fun e => e.name.text
  req.route.routeEnv.all (fun e => e == env) &&
  req.selectors.queryEnvID.all (fun e => e == env) &&
  req.selectors.queryEnv.all (selects env name) &&
  req.selectors.headerEnvID.all (fun e => e == env) &&
  req.selectors.headerEnv.all (selects env name)

/-- `RequireOrgScope`, `http.go:306-467`, after the replay of completed commands:
a machine key of the organization, or an active member, with the required capability. -/
def requireOrgScope (db : Tenants) (key : Option APIKey) : Except HttpError Caller :=
  match req.credential, key with
  | .machine org id, some row =>
    if org ≠ req.targetOrg then .error .crossTenantAccessDenied
    else if req.environmentMatches db org row.environmentID = false then .error .environmentMismatch
    else if req.route.requiredCap.all (canAPIKeyPerform row.capabilities) = false then
      .error .forbidden
    else .ok ⟨.key id, row.capabilities, some row.environmentID⟩
  | .machine _ _, none => .error .unauthenticated
  | .human user, _ =>
    match db.member? req.targetOrg user with
    | none => .error .forbiddenOrganizationMembership
    | some m =>
      if m.status ≠ .active then .error .forbiddenOrganizationMembership
      else if req.route.requiredCap.all m.role.canPerform = false then .error .forbidden
      else .ok ⟨.user user, m.role.capabilities, none⟩

/-- The service call of a handler behind `RequireOrgScope`; `fresh` is the id that a new row gets.
The creation of an organization is not among them. -/
def serviceCall (fresh : Nat) (caller : Caller) : Option TenantRequest :=
  let ctx : ServiceContext := ⟨caller.actor, some req.header⟩
  match req.route with
  | .createOrganization _ => none
  | .updateOrganization name => some (.updateOrganization ctx req.targetOrg name)
  | .deleteOrganization => some (.deleteOrganization ctx req.targetOrg)
  | .addMember user role => some (.addMember ctx req.targetOrg user role)
  | .updateMemberRole user role => some (.updateMemberRole ctx req.targetOrg user role)
  | .updateMemberStatus user status => some (.updateMemberStatus ctx req.targetOrg user status)
  | .removeMember user => some (.removeMember ctx req.targetOrg user)
  | .createProject name => some (.createProject ctx req.targetOrg fresh name)
  | .createEnvironment project name maxConcurrency =>
    some (.createEnvironment ctx req.targetOrg fresh project name maxConcurrency)
  | .createAPIKey env capabilities expiryDays =>
    some (.createAPIKey ctx req.targetOrg fresh env capabilities expiryDays req.now
      caller.capabilities)
  | .rotateAPIKey id expiryDays =>
    some (.rotateAPIKey ctx req.targetOrg id fresh expiryDays req.now caller.capabilities
      caller.environmentID)
  | .revokeAPIKey id => some (.revokeAPIKey ctx req.targetOrg id req.now caller.environmentID)

end HttpRequest

/-- An API key that a request has left behind, with its issuer and what the issuer held then. -/
structure Issuance where
  issuer : Credential
  issuerCaps : List String
  issuerEnv : Option EnvironmentID
  org : OrganizationID
  key : KeyID
  capabilities : List String
  environmentID : EnvironmentID
  deriving DecidableEq

/-- The tables, the next id of a row, and the keys issued so far. -/
structure TenantWorld where
  store : Commands × Tenants
  nextID : Nat
  issued : List Issuance

def TenantWorld.empty : TenantWorld := ⟨(Table.empty, Table.empty), 0, []⟩

/-- The end of a request: refused, answered by the completed command of the same key, or served. -/
inductive HttpAnswer
  | refused (e : HttpError)
  | recorded (responseCode : Int) (outcome : Contracts.Json)
  | served (response : Response)

namespace TenantWorld

variable (w : TenantWorld) (req : HttpRequest)

/-- `GetCompletedCommand` and its answer, which comes before any authorization,
`http.go:372-388` and `:504-519`. -/
def completed (org : OrganizationID) (scope : CommandScope) : Option HttpAnswer :=
  match w.store.1.find? (scope, req.idempotencyKey) with
  | none => none
  | some row =>
    if row.organizationID = org ∧ row.status = .completed then
      if row.fingerprint ≠ req.fingerprint ∨ row.operation ≠ req.operation then
        some (.refused .idempotencyConflict)
      else some (.recorded row.responseCode row.outcome)
    else none

/-- The requests that reach the service, with their caller: `RequireAuth`, then
`HandleCreateOrganization` or `RequireOrgScope` and the handler. -/
def admission [CreationHash] : Except HttpAnswer (Caller × TenantRequest) :=
  match req.requireAuth w.store.2 with
  | .error e => .error (.refused e)
  | .ok key =>
    if req.idempotencyKey = "" then .error (.refused .missingIdempotencyKey)
    else
      match req.route, req.credential with
      -- A machine key has no user, so the test of the caller's type is never reached.
      | .createOrganization _, .machine _ _ => .error (.refused .unauthorized)
      | .createOrganization name, .human user =>
        match w.completed req (CreationHash.commandOrganizationID user req.idempotencyKey)
            (.creator user) with
        | some answer => .error answer
        | none =>
          if req.route.wellFormed = false then .error (.refused .invalidRequest)
          else .ok (⟨.user user, [], none⟩,
            .createOrganization user (some req.header) w.nextID name)
      | _, _ =>
        match w.completed req req.targetOrg (.actor req.targetOrg req.actor) with
        | some answer => .error answer
        | none =>
          match req.requireOrgScope w.store.2 key with
          | .error e => .error (.refused e)
          | .ok caller =>
            if req.route.humanOnly && caller.environmentID.isSome then
              .error (.refused .machineKeyUnauthorized)
            else if req.route.wellFormed = false then .error (.refused .invalidRequest)
            else
              match req.serviceCall w.nextID caller with
              | none => .error (.refused .invalidRequest)
              | some q => .ok (caller, q)

/-- The key that a request has left under the next id. -/
def issuance (caller : Caller) (db : Tenants) : List Issuance :=
  match db.key? req.targetOrg w.nextID with
  | none => []
  | some row =>
    [⟨req.credential, caller.capabilities, caller.environmentID, req.targetOrg, w.nextID,
      row.capabilities, row.environmentID⟩]

/-- One request, from authentication to its answer. -/
def handle [CreationHash] [Endpoints TenantResult] : TenantWorld × HttpAnswer :=
  match w.admission req with
  | .error answer => (w, answer)
  | .ok (caller, q) =>
    match q.program.run w.store with
    | .error e => (w, .refused (.service e))
    | .ok (response, store) =>
      (⟨store, w.nextID + 1, w.issued ++ w.issuance req caller store.2⟩, .served response)

end TenantWorld

def tenantHttp [CreationHash] [Endpoints TenantResult] : System TenantWorld HttpRequest where
  step w req := (w.handle req).1

/-! ### Who reaches the service -/

namespace HttpRequest

variable {req : HttpRequest}

/-- A machine caller: a valid key of the organization that meets the environment checks and has
the required capability. -/
structure ByMachine (req : HttpRequest) (db : Tenants) (caller : Caller) (id : KeyID) (row : APIKey) :
    Prop where
  credential : req.credential = .machine req.targetOrg id
  key : db.key? req.targetOrg id = some row
  environment : req.environmentMatches db req.targetOrg row.environmentID = true
  capability : req.route.requiredCap.all (canAPIKeyPerform row.capabilities) = true
  caller : caller = ⟨.key id, row.capabilities, some row.environmentID⟩

/-- A human caller: an active member whose role has the required capability. -/
structure ByHuman (req : HttpRequest) (db : Tenants) (caller : Caller) (user : UserID) (m : Member) :
    Prop where
  credential : req.credential = .human user
  member : db.member? req.targetOrg user = some m
  active : m.status = .active
  capability : req.route.requiredCap.all m.role.canPerform = true
  caller : caller = ⟨.user user, m.role.capabilities, none⟩

theorem requireOrgScope_ok {db : Tenants} {key : Option APIKey} {caller : Caller}
    (hauth : req.requireAuth db = .ok key) (h : req.requireOrgScope db key = .ok caller) :
    (∃ id row, req.ByMachine db caller id row) ∨ ∃ user m, req.ByHuman db caller user m := by
  unfold requireOrgScope at h
  split at h
  · next org id row hcred =>
    split_ifs at h with horg henv hcap
    cases h
    have horg : org = req.targetOrg := not_not.mp horg
    subst horg
    refine .inl ⟨id, row, hcred, ?_, by simpa using henv, by simpa using hcap, rfl⟩
    simp only [requireAuth, hcred] at hauth
    split at hauth
    · cases hauth
    · next row' hrow =>
      split_ifs at hauth
      cases hauth
      exact hrow
  · cases h
  · next _ user hcred =>
    split at h
    · cases h
    · next m hm =>
      split_ifs at h with hactive hcap
      cases h
      exact .inr ⟨user, m, hcred, hm, not_not.mp hactive, by simpa using hcap, rfl⟩

end HttpRequest

/-- A request that reaches the service creates an organization, or has passed `RequireOrgScope`. -/
theorem TenantWorld.admission_ok [CreationHash] {w : TenantWorld} {req : HttpRequest} {caller : Caller}
    {q : TenantRequest} (h : w.admission req = .ok (caller, q)) :
    (∃ user name, req.route = .createOrganization name ∧ caller = ⟨.user user, [], none⟩ ∧
      q = .createOrganization user (some req.header) w.nextID name) ∨
    ((∃ id row, req.ByMachine w.store.2 caller id row ∧ req.route.humanOnly = false) ∨
      ∃ user m, req.ByHuman w.store.2 caller user m) ∧ req.serviceCall w.nextID caller = some q := by
  unfold admission at h
  split at h
  · cases h
  · next key hauth =>
    split at h
    · cases h
    · split at h
      · cases h
      · next name user hroute hcred =>
        split at h
        · cases h
        · split at h
          · cases h
          · cases h
            exact .inl ⟨user, name, hroute, rfl, rfl⟩
      · split at h
        · cases h
        · split at h
          · cases h
          · next caller' hscope =>
            split_ifs at h with hhuman
            split at h
            · cases h
            · next q' hcall =>
              cases h
              refine .inr ⟨?_, hcall⟩
              obtain ⟨id, row, hm⟩ | hm := HttpRequest.requireOrgScope_ok hauth hscope
              · refine .inl ⟨id, row, hm, ?_⟩
                simpa [hm.caller] using hhuman
              · exact .inr hm

end Deadbolt.Tenant
