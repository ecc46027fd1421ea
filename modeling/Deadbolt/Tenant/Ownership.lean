import Deadbolt.Tenant.Http

/-!
# Becoming an owner

Membership routes ask for `admin:member`, which an administrator has, and not for the role of an
owner: an administrator may assign the owner's role, also to themself, or reactivate a suspended
owner, and a machine key with `org:delete` may delete the organization. Without these requests,
only an owner's action makes an owner or deletes the organization.
-/

namespace Deadbolt.Tenant

open Base

/-- An organization that is there stays, and its active owners were active owners before. -/
def OwnersFrom (org : OrganizationID) (db db' : Tenants) : Prop :=
  (db.find? org).isSome → (db'.find? org).isSome ∧ ∀ user m', db'.member? org user = some m' →
    m'.activeOwner = true → ∃ m, db.member? org user = some m ∧ m.activeOwner = true

theorem OwnersFrom.refl (org : OrganizationID) (db : Tenants) : OwnersFrom org db db :=
  fun h => ⟨h, fun _ m' hm ho => ⟨m', hm, ho⟩⟩

variable {org org' : OrganizationID} {db db' : Tenants} {user : UserID}

theorem OwnersFrom.trans {db'' : Tenants} (h : OwnersFrom org db db')
    (h' : OwnersFrom org db' db'') : OwnersFrom org db db'' := by
  intro hsome
  obtain ⟨hsome', hold⟩ := h hsome
  obtain ⟨hsome'', hold'⟩ := h' hsome'
  refine ⟨hsome'', fun user m'' hm'' ho'' => ?_⟩
  obtain ⟨m', hm', ho'⟩ := hold' user m'' hm'' ho''
  exact hold user m' hm' ho'

theorem ownersFrom_modify {f : Organization → Organization}
    (hf : org = org' → ∀ o, db.find? org = some o → ∀ user m', (f o).members.find? user = some m' →
      m'.activeOwner = true → ∃ m, o.members.find? user = some m ∧ m.activeOwner = true) :
    OwnersFrom org db (db.modify org' f) := by
  intro hsome
  obtain ⟨o, ho⟩ := Option.isSome_iff_exists.mp hsome
  have hfind : (db.modify org' f).find? org = some (if org = org' then f o else o) := by
    rw [Table.find?_modify, ho]
    rfl
  refine ⟨by simp [hfind], fun user m' hm' hown => ?_⟩
  simp only [Tenants.member?, hfind, ho, Option.bind_some] at hm' ⊢
  split at hm'
  · next horg => exact hf horg o ho user m' hm' hown
  · exact ⟨m', hm', hown⟩

theorem ownersFrom_modify_members {f : Organization → Organization}
    (hf : ∀ o, (f o).members = o.members) (db : Tenants) : OwnersFrom org db (db.modify org' f) :=
  ownersFrom_modify fun _ o _ _ m' hm' hown => ⟨m', hf o ▸ hm', hown⟩

theorem ownersFrom_modify_ne (h : org ≠ org') (f : Organization → Organization) (db : Tenants) :
    OwnersFrom org db (db.modify org' f) :=
  ownersFrom_modify fun he => absurd he h

/-- A write that leaves the organization's row alone. -/
theorem ownersFrom_of_find? (h : db'.find? org = db.find? org) : OwnersFrom org db db' := by
  intro hsome
  refine ⟨h ▸ hsome, fun user m' hm' hown => ⟨m', ?_, hown⟩⟩
  simpa [Tenants.member?, h] using hm'

theorem ownersFrom_run {p : TenantProgram} (h : p.Writes (OwnersFrom org)) {res : TenantResult}
    (hrun : p.run db = .ok (res, db')) : OwnersFrom org db db' :=
  h.run (OwnersFrom.refl org) OwnersFrom.trans hrun

/-! ### What each mutation does to the owners -/

theorem Role.ofText?_text {s : String} {role : Role} (h : Role.ofText? s = some role) :
    role.text = s := by
  simpa using List.find?_some h

theorem MemberStatus.ofText?_text {s : String} {status : MemberStatus}
    (h : MemberStatus.ofText? s = some status) : status.text = s := by
  simpa using List.find?_some h

theorem ownersFrom_put_member {role : Role} (h : org = org' → role ≠ .owner) (db : Tenants) :
    OwnersFrom org db (db.modify org' fun o =>
      { o with members := o.members.put user ⟨role, .active⟩ }) := by
  refine ownersFrom_modify fun horg o _ user' m' hm' hown => ?_
  obtain hf | ⟨b, hf⟩ := Option.eq_none_or_eq_some (o.members.find? user)
  · rw [Table.find?_put hf] at hm'
    split at hm'
    · cases hm'
      simp [Member.activeOwner, h horg] at hown
    · exact ⟨m', hm', hown⟩
  · rw [Table.put_of_find?_eq_some hf] at hm'
    exact ⟨m', hm', hown⟩

theorem ownersFrom_modify_member {f : Member → Member}
    (h : org = org' → ∀ m, db.member? org user = some m → (f m).activeOwner = true →
      m.activeOwner = true) :
    OwnersFrom org db (db.modify org' fun o =>
      { o with members := o.members.modify user f }) := by
  refine ownersFrom_modify fun horg o ho user' m' hm' hown => ?_
  rw [Table.find?_modify] at hm'
  obtain ⟨m, hm, rfl⟩ := Option.map_eq_some_iff.mp hm'
  refine ⟨m, hm, ?_⟩
  split at hown
  · next huser =>
    subst huser
    exact h horg m (by simp [Tenants.member?, ho, hm]) hown
  · exact hown

theorem ownersFrom_erase_member (org org' : OrganizationID) (user : UserID) (db : Tenants) :
    OwnersFrom org db (db.modify org' fun o => { o with members := o.members.erase user }) := by
  refine ownersFrom_modify fun _ o _ user' m' hm' hown => ⟨m', ?_, hown⟩
  rw [Table.find?_erase] at hm'
  split at hm'
  · cases hm'
  · exact hm'

/-- A new organization is another one than those that exist. -/
theorem ownersFrom_insertOrganization {name : String} {res : TenantResult}
    (hrun : (insertOrganization org' user name).run db = .ok (res, db')) :
    OwnersFrom org db db' := by
  by_cases horg : org = org'
  · subst horg
    intro hsome
    simp [insertOrganization_run hrun] at hsome
  · refine ownersFrom_run (insertOrganization_writes (fun db => ownersFrom_of_find? ?_)
      (ownersFrom_modify_ne horg _)) hrun
    obtain hf | ⟨b, hf⟩ := Option.eq_none_or_eq_some (db.find? org')
    · rw [Table.find?_put hf, if_neg horg]
    · rw [Table.put_of_find?_eq_some hf]

theorem ownersFrom_erase_ne (h : org ≠ org') (db : Tenants) : OwnersFrom org db (db.erase org') :=
  ownersFrom_of_find? (by rw [Table.find?_erase, if_neg h])

namespace TenantRequest

/-- The request makes an active owner of someone who is none, or deletes the organization. -/
def Seizes (org : OrganizationID) (db : Tenants) : TenantRequest → Prop
  | addMember _ org' _ role => org = org' ∧ role = Role.text .owner
  | updateMemberRole _ org' user role => org = org' ∧ role = Role.text .owner ∧
    ∃ m, db.member? org user = some m ∧ m.status = .active ∧ m.role ≠ .owner
  | updateMemberStatus _ org' user status => org = org' ∧ status = MemberStatus.text .active ∧
    ∃ m, db.member? org user = some m ∧ m.role = .owner ∧ m.status ≠ .active
  | deleteOrganization _ org' => org = org'
  | _ => False

variable [CreationHash]

theorem mutate_ownersFrom {org : OrganizationID} {q : TenantRequest} {r : TenantCommand}
    (h : q.command = .ok r) {db db' : Tenants} {res : TenantResult}
    (hseizes : ¬ q.Seizes org db) (hrun : r.mutate.run db = .ok (res, db')) :
    OwnersFrom org db db' := by
  cases q with
  | createOrganization user header fresh name =>
    simp only [command, Tenant.createOrganization] at h
    split at h
    · cases h
    · cases h
      exact ownersFrom_insertOrganization hrun
  | updateOrganization ctx org' name =>
    simp only [command, Tenant.updateOrganization] at h
    split at h
    · cases h
    · cases h
      exact ownersFrom_run (renameOrganization_writes
        (ownersFrom_modify_members fun _ => rfl)) hrun
  | deleteOrganization ctx org' =>
    cases h
    exact ownersFrom_run (eraseOrganization_writes (ownersFrom_erase_ne hseizes)) hrun
  | addMember ctx org' user role =>
    simp only [command, Tenant.addMember] at h
    split at h
    · cases h
    · next role' hrole =>
      cases h
      refine ownersFrom_run (insertMember_writes (ownersFrom_put_member fun horg howner => ?_)) hrun
      exact hseizes ⟨horg, by rw [← Role.ofText?_text hrole, howner]⟩
  | updateMemberRole ctx org' user role =>
    simp only [command, Tenant.updateMemberRole] at h
    split at h
    · cases h
    · next role' hrole =>
      cases h
      obtain ⟨-, -, rfl⟩ := changeMember_run hrun
      refine ownersFrom_modify_member fun horg m hm hown => ?_
      obtain ⟨rfl, hactive⟩ : role' = .owner ∧ m.status = .active := by
        simpa [Member.activeOwner] using hown
      by_contra hnot
      refine hseizes ⟨horg, (Role.ofText?_text hrole).symm, m, hm, hactive, fun howner => hnot ?_⟩
      simp [Member.activeOwner, howner, hactive]
  | updateMemberStatus ctx org' user status =>
    simp only [command, Tenant.updateMemberStatus] at h
    split at h
    · cases h
    · next status' hstatus =>
      cases h
      obtain ⟨-, -, rfl⟩ := changeMember_run hrun
      refine ownersFrom_modify_member fun horg m hm hown => ?_
      obtain ⟨howner, rfl⟩ : m.role = .owner ∧ status' = .active := by
        simpa [Member.activeOwner] using hown
      by_contra hnot
      refine hseizes ⟨horg, (MemberStatus.ofText?_text hstatus).symm, m, hm, howner,
        fun hactive => hnot ?_⟩
      simp [Member.activeOwner, howner, hactive]
  | removeMember ctx org' user =>
    cases h
    exact ownersFrom_run (changeMember_writes (ownersFrom_erase_member org org' user)) hrun
  | createProject ctx org' id name =>
    simp only [command, Tenant.createProject] at h
    split at h
    · cases h
    · cases h
      exact ownersFrom_run (insertProject_writes (ownersFrom_modify_members fun _ => rfl)) hrun
  | createEnvironment ctx org' id project name maxConcurrency =>
    simp only [command, Tenant.createEnvironment] at h
    split at h
    · cases h
    · cases h
      exact ownersFrom_run (insertEnvironment_writes (ownersFrom_modify_members fun _ => rfl)) hrun
  | createAPIKey ctx org' id env capabilities expiryDays now creatorCaps =>
    simp only [command, Tenant.createAPIKey] at h
    split_ifs at h
    split at h
    · cases h
    · cases h
    · cases h
      exact ownersFrom_run (insertKey_writes (ownersFrom_modify_members fun _ => rfl)) hrun
  | rotateAPIKey ctx org' id new expiryDays now callerCaps callerEnv =>
    simp only [command, Tenant.rotateAPIKey] at h
    split at h
    · cases h
    · cases h
      exact ownersFrom_run (rotateKey_writes (fun _ => ownersFrom_modify_members fun _ => rfl)
        (ownersFrom_modify_members fun _ => rfl)) hrun
  | revokeAPIKey ctx org' id now callerEnv =>
    cases h
    exact ownersFrom_run (revokeKey_writes (ownersFrom_modify_members fun _ => rfl)) hrun

end TenantRequest

/-! ### Every sequence of requests -/

namespace HttpRequest

/-- The request is issued by an active owner of its organization. -/
def byOwner (req : HttpRequest) (db : Tenants) : Bool :=
  match req.credential with
  | .human user => (db.member? req.targetOrg user).any Member.activeOwner
  | .machine _ _ => false

/-- The request makes an active owner of someone who is none, or is a deletion by a machine key. -/
def seizes (req : HttpRequest) (db : Tenants) : Bool :=
  match req.route with
  | .addMember _ role => role == Role.text .owner
  | .updateMemberRole user role => role == Role.text .owner &&
    (db.member? req.targetOrg user).any fun m => m.status == .active && m.role != .owner
  | .updateMemberStatus user status => status == MemberStatus.text .active &&
    (db.member? req.targetOrg user).any fun m => m.role == .owner && m.status != .active
  | .deleteOrganization =>
    match req.credential with
    | .human _ => false
    | .machine _ _ => true
  | _ => false

end HttpRequest

section Requests

variable [CreationHash] [Endpoints TenantResult]

omit [Endpoints TenantResult] in
/-- A request of someone else than an owner that reaches the service and seizes the organization
is one of the listed ones: a person who may delete it is an owner. -/
theorem seizes_of_admission {w : TenantWorld} {req : HttpRequest} {caller : Caller} {q : TenantRequest}
    (hadmits : w.admission req = .ok (caller, q)) {org : OrganizationID}
    (howner : req.targetOrg = org → req.byOwner w.store.2 = false)
    (hq : q.Seizes org w.store.2) : req.targetOrg = org ∧ req.seizes w.store.2 = true := by
  obtain ⟨user, name, -, -, rfl⟩ | ⟨hcaller, hcall⟩ := TenantWorld.admission_ok hadmits
  · exact hq.elim
  · cases hroute : req.route with
    | addMember user role =>
      simp only [HttpRequest.serviceCall, hroute, Option.some.injEq] at hcall
      subst hcall
      exact ⟨hq.1.symm, by simpa [HttpRequest.seizes, hroute] using hq.2⟩
    | updateMemberRole user role =>
      simp only [HttpRequest.serviceCall, hroute, Option.some.injEq] at hcall
      subst hcall
      obtain ⟨rfl, hrole, m, hm, hactive, hnot⟩ := hq
      exact ⟨rfl, by simp [HttpRequest.seizes, hroute, hrole, hm, hactive, hnot]⟩
    | updateMemberStatus user status =>
      simp only [HttpRequest.serviceCall, hroute, Option.some.injEq] at hcall
      subst hcall
      obtain ⟨rfl, hstatus, m, hm, hrole, hnot⟩ := hq
      exact ⟨rfl, by simp [HttpRequest.seizes, hroute, hstatus, hm, hrole, hnot]⟩
    | deleteOrganization =>
      simp only [HttpRequest.serviceCall, hroute, Option.some.injEq] at hcall
      subst hcall
      refine ⟨hq.symm, ?_⟩
      obtain ⟨id, row, hm, -⟩ | ⟨user, m, hm⟩ := hcaller
      · simp [HttpRequest.seizes, hroute, hm.credential]
      · have hrole : m.role = .owner := by
          simpa [hroute, Route.requiredCap, Role.canPerform_orgDelete] using hm.capability
        have hnot := howner hq.symm
        simp [HttpRequest.byOwner, hm.credential, hm.member, Member.activeOwner, hrole,
          hm.active] at hnot
    | _ =>
      simp only [HttpRequest.serviceCall, hroute, Option.some.injEq, reduceCtorEq] at hcall
      try subst hcall
      try exact hq.elim

theorem ownersFrom_step {w : TenantWorld} {req : HttpRequest} {org : OrganizationID}
    (howner : req.targetOrg = org → req.byOwner w.store.2 = false)
    (hseizes : req.targetOrg = org → req.seizes w.store.2 = false) :
    OwnersFrom org w.store.2 (tenantHttp.step w req).store.2 := by
  change OwnersFrom org w.store.2 (w.handle req).1.store.2
  unfold TenantWorld.handle
  split
  · exact .refl _ _
  · next caller q hadmits =>
    split
    · exact .refl _ _
    · next response store hrun =>
      unfold TenantRequest.program at hrun
      split at hrun
      · cases hrun
      · next r hr =>
        obtain rfl | ⟨b, hmut⟩ := CommandRequest.run_withCommandTx hrun
        · exact .refl _ _
        · refine TenantRequest.mutate_ownersFrom hr (fun hq => ?_) hmut
          obtain ⟨ht, hs⟩ := seizes_of_admission hadmits howner hq
          exact absurd ((hseizes ht).symm.trans hs) (by simp)

/-- In every sequence of requests in which no active owner of an organization acts on it, nobody
assigns the owner's role or reactivates an owner, and no machine key deletes it: the organization
stays, and whoever is an active owner was one before. -/
theorem owners_only_from_owners (w : TenantWorld) (org : OrganizationID) (reqs : List HttpRequest)
    (horg : (w.store.2.find? org).isSome)
    (howner : tenantHttp.Along
      (fun w req => req.targetOrg = org → req.byOwner w.store.2 = false) w reqs)
    (hseizes : tenantHttp.Along
      (fun w req => req.targetOrg = org → req.seizes w.store.2 = false) w reqs) :
    ((tenantHttp.exec w reqs).store.2.find? org).isSome ∧
    ∀ user m', (tenantHttp.exec w reqs).store.2.member? org user = some m' →
      m'.activeOwner = true →
      ∃ m, w.store.2.member? org user = some m ∧ m.activeOwner = true := by
  have hfrom : OwnersFrom org w.store.2 (tenantHttp.exec w reqs).store.2 :=
    tenantHttp.invariant (I := fun w' => OwnersFrom org w.store.2 w'.store.2)
      (fun w' req hw hc => hw.trans (ownersFrom_step hc.1 hc.2)) (OwnersFrom.refl org _)
      (System.Along.and _ howner hseizes)
  exact hfrom horg

end Requests

/-! ### An administrator becomes an owner -/

namespace Sample

@[reducible] def creationHash : CreationHash := ⟨fun user _ => user⟩

@[reducible] def endpoints : Endpoints TenantResult where
  encode _ _ := some (.obj [])
  decodes _ _ := true
  decodes_encode _ := rfl

/-- A person's request to organization 1; its number is its idempotency key. -/
def request (user : UserID) (number : Nat) (route : Route) : HttpRequest :=
  ⟨.human user, 1, toString number, "", "", ⟨none, none, none, none⟩, 0, route⟩

def requests (reqs : List HttpRequest) : TenantWorld :=
  (@tenantHttp creationHash endpoints).exec TenantWorld.empty reqs

def withAdmin : List HttpRequest :=
  [request 1 0 (.createOrganization "acme"), request 1 1 (.addMember 2 "Admin")]

end Sample

open Sample in
/-- The administrator adds a viewer and asks in vain for the deletion. -/
theorem owners_only_from_owners_viewer :
    let w := (@tenantHttp creationHash endpoints).exec (requests withAdmin)
      [request 2 2 (.addMember 3 "Viewer"), request 2 3 .deleteOrganization]
    (w.store.2.member? 1 3).isSome = true ∧ (w.store.2.find? 1).isSome = true ∧
    ∀ user m', w.store.2.member? 1 user = some m' → m'.activeOwner = true →
      ∃ m, (requests withAdmin).store.2.member? 1 user = some m ∧ m.activeOwner = true := by
  refine ⟨by decide +kernel, @owners_only_from_owners creationHash endpoints _ _ _ ?_ ?_ ?_⟩
  · decide +kernel
  · exact ⟨fun _ => by decide +kernel, fun _ => by decide +kernel, trivial⟩
  · exact ⟨fun _ => by decide +kernel, fun _ => by decide +kernel, trivial⟩

open Sample in
/-- The administrator, who is no owner, assigns the owner's role to themself, and then may delete
the organization. -/
theorem admin_becomes_owner :
    let promote := request 2 2 (.updateMemberRole 2 "Owner")
    promote.byOwner (requests withAdmin).store.2 = false ∧
    ((requests withAdmin).store.2.member? 1 2).any Member.activeOwner = false ∧
    ((requests (withAdmin ++ [promote])).store.2.member? 1 2).any Member.activeOwner = true ∧
    ((requests withAdmin).store.2.find? 1).isSome = true ∧
    ((requests (withAdmin ++ [promote, request 2 3 .deleteOrganization])).store.2.find? 1).isNone =
      true := by
  decide +kernel

end Deadbolt.Tenant
