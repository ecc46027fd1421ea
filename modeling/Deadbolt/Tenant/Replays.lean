import Deadbolt.Tenant.Ownership

/-!
# The last command of a revoked key

A key that rotates or revokes itself loses its authentication with that command. `RequireAuth`
(`internal/tenant/http.go`) therefore answers a revoked key from the completed command, if the
request is the rotation or the revocation of this key. It looks for the command of the bare path,
while `RequireOrgScope` has recorded it under the path with its query.
-/

namespace Deadbolt.Tenant

open Base

/-- `RequestFingerprint`, and the text of a key's id in a path. -/
class Wire where
  requestFingerprint : String → String → String → String
  keyText : KeyID → String

/-- A request as it is sent: the path without `/api/v1` or `/v1`, the encoded query, and what the
router and the handlers read from headers, path and body. -/
structure SentRequest where
  method : String
  path : String
  query : String
  body : String
  request : HttpRequest

/-- The route rotates or revokes the key. -/
def Route.Invalidates (route : Route) (id : KeyID) : Prop :=
  route = .revokeAPIKey id ∨ ∃ expiryDays, route = .rotateAPIKey id expiryDays

section

variable [Wire]

namespace SentRequest

variable (s : SentRequest)

def under (path : String) : HttpRequest :=
  { s.request with
    operation := s.method ++ " " ++ path
    fingerprint := Wire.requestFingerprint s.method path s.body }

/-- The request that the handlers serve. `RequireOrgScope` appends the query to the path,
`http.go:359-366`, and `HandleCreateOrganization` does not, `:500-502`. -/
def asCommand : HttpRequest :=
  match s.request.route with
  | .createOrganization _ => s.under s.path
  | _ => s.under (if s.query = "" then s.path else s.path ++ "?" ++ s.query)

/-- `isSelfInvalidatingKeyReplay`, `http.go:178-184`. -/
def isSelfInvalidatingKeyReplay (id : KeyID) : Bool :=
  if s.method = "POST" then s.path == "/api-keys/" ++ Wire.keyText id ++ "/rotate"
  else s.method == "DELETE" && s.path == "/api-keys/" ++ Wire.keyText id

end SentRequest

namespace TenantWorld

/-- The answer to a revoked key, `http.go:211-240`. -/
def replayRevoked (w : TenantWorld) (s : SentRequest) (org : OrganizationID) (id : KeyID) :
    HttpAnswer :=
  if s.request.idempotencyKey ≠ "" ∧ s.isSelfInvalidatingKeyReplay id = true then
    (w.completed (s.under s.path) org (.actor org (.key id))).getD (.refused .apiKeyRevoked)
  else .refused .apiKeyRevoked

/-- What a revoked key may be told: nothing, or what its own completed command has left, if the
request names the command's method and path and has its body. -/
def Discloses (w : TenantWorld) (s : SentRequest) (org : OrganizationID) (id : KeyID)
    (answer : HttpAnswer) : Prop :=
  answer = .refused .apiKeyRevoked ∨
  s.isSelfInvalidatingKeyReplay id = true ∧
    (answer = .refused .idempotencyConflict ∨
    ∃ row, w.store.1.find? (.actor org (.key id), s.request.idempotencyKey) = some row ∧
      row.status = .completed ∧ row.fingerprint = (s.under s.path).fingerprint ∧
      row.operation = (s.under s.path).operation ∧
      answer = .recorded row.responseCode row.outcome)

variable {w : TenantWorld} {req : HttpRequest} {s : SentRequest} {org : OrganizationID}

omit [Wire] in
theorem completed_cases {scope : CommandScope} {answer : HttpAnswer}
    (h : w.completed req org scope = some answer) :
    answer = .refused .idempotencyConflict ∨
    ∃ row, w.store.1.find? (scope, req.idempotencyKey) = some row ∧ row.status = .completed ∧
      row.fingerprint = req.fingerprint ∧ row.operation = req.operation ∧
      answer = .recorded row.responseCode row.outcome := by
  unfold completed at h
  split at h
  · cases h
  · next row hrow =>
    split_ifs at h with hdone hsame
    · cases h
      exact .inl rfl
    · cases h
      obtain ⟨hfp, hop⟩ := not_or.mp hsame
      exact .inr ⟨row, hrow, hdone.2, not_not.mp hfp, not_not.mp hop, rfl⟩

theorem discloses_replayRevoked (w : TenantWorld) (s : SentRequest) (org : OrganizationID)
    (id : KeyID) : w.Discloses s org id (w.replayRevoked s org id) := by
  unfold replayRevoked
  split_ifs with hself
  · cases hc : w.completed (s.under s.path) org (.actor org (.key id)) with
    | none => exact .inl rfl
    | some answer => exact .inr ⟨hself.2, completed_cases hc⟩
  · exact .inl rfl

variable [CreationHash]

omit [Wire] in
theorem admission_ne_served (response : Response) :
    w.admission req ≠ .error (.served response) := by
  have hcompleted (org scope) : w.completed req org scope ≠ some (.served response) := by
    intro h
    obtain hconflict | ⟨_, _, _, _, _, hrecorded⟩ := completed_cases h
    · cases hconflict
    · cases hrecorded
  intro h
  unfold admission at h
  repeat' split at h
  -- Of the answers before the service only that of a completed command is no refusal.
  all_goals simp only [reduceCtorEq, Except.error.injEq] at h
  · subst h
    exact hcompleted _ _ ‹_›
  · subst h
    exact hcompleted _ _ ‹_›

omit [Wire] in
theorem admission_key {x : Caller × TenantRequest} (h : w.admission req = .ok x) :
    req.idempotencyKey ≠ "" := by
  unfold admission at h
  split at h
  · cases h
  · split at h
    · cases h
    · assumption

variable [Endpoints TenantResult]

/-- One request as it is sent, from `RequireAuth` to its answer. -/
def respond (w : TenantWorld) (s : SentRequest) : TenantWorld × HttpAnswer :=
  match s.asCommand.requireAuth w.store.2, s.request.credential with
  | .error .apiKeyRevoked, .machine org id => (w, w.replayRevoked s org id)
  | _, _ => w.handle s.asCommand

end TenantWorld

variable [CreationHash] [Endpoints TenantResult]

def tenantWire : System TenantWorld SentRequest where
  step w s := (w.respond s).1

namespace TenantWorld

variable {w : TenantWorld} {req : HttpRequest} {s : SentRequest} {response : Response}

/-! ### Recorded commands -/

omit [Wire] in
/-- A request changes nothing, or a command of the service has committed and is served. -/
theorem handle_cases (w : TenantWorld) (req : HttpRequest) :
    ((w.handle req).1 = w ∧ ∀ response, (w.handle req).2 ≠ .served response) ∨
    ∃ caller q r response, w.admission req = .ok (caller, q) ∧ q.command = .ok r ∧
      (w.handle req).2 = .served response ∧
      r.withCommandTx.run w.store = .ok (response, (w.handle req).1.store) := by
  unfold handle
  split
  · next answer hadm =>
    refine .inl ⟨rfl, ?_⟩
    rintro response rfl
    exact admission_ne_served response hadm
  · next caller q hadm =>
    split
    · exact .inl ⟨rfl, by simp⟩
    · next response store hrun =>
      unfold TenantRequest.program at hrun
      split at hrun
      · cases hrun
      · next r hr => exact .inr ⟨caller, q, r, response, hadm, hr, rfl, hrun⟩

theorem respond_row {id : CommandKey} {row : CommandRow} (h : w.store.1.find? id = some row) :
    (w.respond s).1.store.1.find? id = some row := by
  unfold respond
  split
  · exact h
  · obtain ⟨hsame, -⟩ | ⟨_, _, r, _, _, _, _, hrun⟩ := w.handle_cases s.asCommand
    · rw [hsame, h]
    · obtain ⟨held, hpost⟩ := r.run_post hrun
      exact (hpost.rely (Set.empty_disjoint held)).2 id row h

omit [Wire] in
/-- The rotation or revocation that a key has issued against itself is recorded under the key. -/
theorem handle_invalidates {org : OrganizationID} {id : KeyID}
    (hcred : req.credential = .machine org id) (hroute : req.route.Invalidates id)
    (hserved : (w.handle req).2 = .served response) (hfirst : response.replayed = false) :
    ∃ row, (w.handle req).1.store.1.find? (.actor org (.key id), req.idempotencyKey) = some row ∧
      req.idempotencyKey ≠ "" ∧ row.organizationID = org ∧ row.status = .completed ∧
      row.fingerprint = req.fingerprint ∧ row.operation = req.operation ∧
      response.outcome = some row.outcome := by
  obtain ⟨-, hno⟩ | ⟨caller, q, r, response', hadm, hr, hserved', hrun⟩ := w.handle_cases req
  · exact absurd hserved (hno response)
  obtain rfl : response' = response := by simpa [hserved'] using hserved
  obtain ⟨_, _, hcreate, -⟩ | ⟨hcaller, hcall⟩ := admission_ok hadm
  · obtain hrevoke | ⟨_, hrotate⟩ := hroute
    · simp [hrevoke] at hcreate
    · simp [hrotate] at hcreate
  obtain ⟨id', row, hm, -⟩ | ⟨user, m, hm⟩ := hcaller
  · obtain ⟨rfl, rfl⟩ : req.targetOrg = org ∧ id' = id := by
      simpa [hcred, eq_comm] using hm.credential
    -- Both routes run under the command of the key.
    obtain ⟨code, mutate, rfl⟩ : ∃ code mutate,
        r = organizationCommand ⟨.key id', some req.header⟩ req.targetOrg code mutate := by
      obtain hrevoke | ⟨_, hrotate⟩ := hroute
      · simp only [HttpRequest.serviceCall, hrevoke, hm.caller, Option.some.injEq] at hcall
        subst hcall
        cases hr
        exact ⟨_, _, rfl⟩
      · simp only [HttpRequest.serviceCall, hrotate, hm.caller, Option.some.injEq] at hcall
        subst hcall
        simp only [TenantRequest.command, rotateAPIKey] at hr
        split at hr
        · cases hr
        · cases hr
          exact ⟨_, _, rfl⟩
    obtain ⟨held, hpost⟩ := CommandRequest.run_post hrun
    have hset := hpost.command _ rfl
    obtain hnone | ⟨row, hrow⟩ := Option.eq_none_or_eq_some
      (w.store.1.find? (.actor req.targetOrg (.key id'), req.idempotencyKey))
    · obtain herr | ⟨code', raw, hres, -, -, hfind⟩ := hset.fresh hnone
      · cases herr
      · cases hres
        exact ⟨_, (hfind _).trans (if_pos rfl), admission_key hadm, rfl, rfl, rfl, rfl, rfl⟩
    · have hrep := (hset.recorded row hrow).2.1 _ rfl
      simp [hfirst] at hrep
  · have hhuman := hm.credential
    simp [hcred] at hhuman

theorem respond_served (h : (w.respond s).2 = .served response) :
    w.respond s = w.handle s.asCommand := by
  unfold respond at h ⊢
  split at h
  · next org id _ _ =>
    obtain hno | ⟨-, hno | ⟨_, _, _, _, _, hno⟩⟩ := w.discloses_replayRevoked s org id
    all_goals simp [hno] at h
  · rfl

end TenantWorld

/-- A revoked key changes nothing with any request, and it learns nothing but the outcome of its
own command. If the key has once rotated or revoked itself by a request without a query, that
request is answered with the recorded outcome ever after. -/
theorem revoked_key_replays {w : TenantWorld} {s : SentRequest} {org : OrganizationID}
    {id : KeyID} (hcred : s.request.credential = .machine org id)
    (hrevoked : s.asCommand.requireAuth w.store.2 = .error .apiKeyRevoked) :
    (w.respond s).1 = w ∧ w.Discloses s org id (w.respond s).2 ∧
    ∀ (w0 : TenantWorld) (response : Response) later, (w0.respond s).2 = .served response →
      response.replayed = false → tenantWire.exec (w0.respond s).1 later = w →
      s.request.route.Invalidates id → s.isSelfInvalidatingKeyReplay id = true → s.query = "" →
      ∃ code outcome, response.outcome = some outcome ∧
        (w.respond s).2 = .recorded code outcome := by
  have hrespond : w.respond s = (w, w.replayRevoked s org id) := by
    simp only [TenantWorld.respond, hrevoked, hcred]
  rw [hrespond]
  refine ⟨rfl, w.discloses_replayRevoked s org id, ?_⟩
  intro w0 response later hserved hfirst hlater hroute hself hquery
  have hpath : s.asCommand = s.under s.path := by
    unfold SentRequest.asCommand
    split
    · rfl
    · rw [if_pos hquery]
  have hhandle := TenantWorld.respond_served hserved
  rw [hhandle, hpath] at hserved hlater
  have hcred : (s.under s.path).credential = .machine org id := hcred
  obtain ⟨row, hrow, hkey, horg, hstatus, hfp, hop, hout⟩ :=
    TenantWorld.handle_invalidates hcred hroute hserved hfirst
  have hrow : w.store.1.find? (.actor org (.key id), (s.under s.path).idempotencyKey) =
      some row := by
    rw [← hlater]
    exact tenantWire.invariant_of_step (I := fun w => w.store.1.find? _ = some row)
      (fun _ _ => TenantWorld.respond_row) hrow later
  have hcompleted : w.completed (s.under s.path) org (.actor org (.key id)) =
      some (.recorded row.responseCode row.outcome) := by
    unfold TenantWorld.completed
    rw [hrow]
    simp [horg, hstatus, hfp, hop]
  refine ⟨row.responseCode, row.outcome, hout, ?_⟩
  exact (if_pos ⟨hkey, hself⟩).trans (by rw [hcompleted, Option.getD_some])

end

namespace Sample

@[reducible] def wire : Wire := ⟨fun method path body => method ++ path ++ body, toString⟩

def withKey : TenantWorld :=
  requests [request 1 0 (.createOrganization "acme"), request 1 1 (.createProject "web"),
    request 1 2 (.createEnvironment 1 "staging" 0), request 1 3 (.createAPIKey 2 ["admin:key"] 0)]

def revocation (query : String) : SentRequest :=
  ⟨"DELETE", "/api-keys/3", query, "",
    ⟨.machine 1 3, 1, "4", "", "", ⟨none, none, none, none⟩, 0, .revokeAPIKey 3⟩⟩

def send (s : SentRequest) (w : TenantWorld) : TenantWorld × HttpAnswer :=
  @TenantWorld.respond wire creationHash endpoints w s

def revoked (w : TenantWorld) : Bool := (w.store.2.key? 1 3).any fun key => key.revokedAt.isSome

end Sample

open Sample in
/-- The key revokes itself and asks once more. -/
theorem revoked_key_replays_revocation :
    let w := (send (revocation "") withKey).1
    revoked w = true ∧ ∃ code, (send (revocation "") w).2 = .recorded code (.obj []) := by
  refine ⟨by decide +kernel, ?_⟩
  obtain ⟨-, -, hreplay⟩ := @revoked_key_replays wire creationHash endpoints
    (send (revocation "") withKey).1 (revocation "") 1 3 rfl rfl
  obtain ⟨code, outcome, hout, hrecorded⟩ := hreplay withKey ⟨false, none, some (.obj [])⟩ [] rfl
    rfl rfl (.inl rfl) (by decide +kernel) rfl
  cases hout
  exact ⟨code, hrecorded⟩

open Sample in
/-- With a query the key revokes itself as well, but the same request is then in conflict with its
own command. -/
theorem revoked_key_conflicts :
    let s := revocation "reason=leaked"
    (send s withKey).2 = .served ⟨false, none, some (.obj [])⟩ ∧
    revoked (send s withKey).1 = true ∧
    (send s (send s withKey).1).2 = .refused .idempotencyConflict :=
  ⟨rfl, by decide +kernel, rfl⟩

end Deadbolt.Tenant
