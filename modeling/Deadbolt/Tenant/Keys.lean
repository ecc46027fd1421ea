import Deadbolt.Tenant.Http

/-!
# API keys never gain capabilities

A key is created with some of its creator's capabilities, or rotated with the capabilities of the
old key, which are again some of the caller's. Only creation tests for every caller that the
capabilities suit a machine; rotation by a person relies on what is stored. The invariant is
therefore about all stored keys: each one was issued, with capabilities that a machine may have
and that its issuer held.
-/

namespace Deadbolt.Tenant

open Base

def APIKey.SameGrant (k k' : APIKey) : Prop :=
  k'.capabilities = k.capabilities ∧ k'.environmentID = k.environmentID

theorem APIKey.SameGrant.refl (k : APIKey) : k.SameGrant k := ⟨rfl, rfl⟩

variable {k : APIKey} {db db' db'' : Tenants} {org : OrganizationID}

theorem APIKey.SameGrant.trans {k' k'' : APIKey} (h : k.SameGrant k') (h' : k'.SameGrant k'') :
    k.SameGrant k'' := ⟨h'.1.trans h.1, h'.2.trans h.2⟩

/-- Every key has the grant of a key that was there, or is the new one. -/
def GrantsFrom (new : OrganizationID → KeyID → APIKey → Prop) (db db' : Tenants) : Prop :=
  ∀ org id k', db'.key? org id = some k' →
    (∃ k, db.key? org id = some k ∧ k.SameGrant k') ∨ new org id k'

abbrev GrantsKept : Tenants → Tenants → Prop := GrantsFrom fun _ _ _ => False

theorem GrantsKept.refl (db : Tenants) : GrantsKept db db :=
  fun _ _ k h => .inl ⟨k, h, .refl k⟩

theorem GrantsKept.from {new : OrganizationID → KeyID → APIKey → Prop} (h : GrantsKept db db')
    (h' : GrantsFrom new db' db'') : GrantsFrom new db db'' := by
  intro org id k'' hk''
  obtain ⟨k', hk', hs'⟩ | hnew := h' org id k'' hk''
  · obtain ⟨k, hk, hs⟩ | hf := h org id k' hk'
    · exact .inl ⟨k, hk, hs.trans hs'⟩
    · exact hf.elim
  · exact .inr hnew

theorem GrantsKept.trans (h : GrantsKept db db') (h' : GrantsKept db' db'') : GrantsKept db db'' :=
    h.from h'

theorem key?_modify (db : Tenants) (org org' : OrganizationID) (f : Organization → Organization)
    (id : KeyID) : Tenants.key? (db.modify org f) org' id =
      (db.find? org').bind fun o => (if org' = org then f o else o).keys.find? id := by
  unfold Tenants.key?
  rw [Table.find?_modify, Option.bind_map]
  rfl

/-- A write of one organization whose keys keep their grants. -/
theorem grantsKept_modify {f : Organization → Organization}
    (hf : ∀ o id k', (f o).keys.find? id = some k' → ∃ k, o.keys.find? id = some k ∧ k.SameGrant k')
    (db : Tenants) : GrantsKept db (db.modify org f) := by
  intro org' id k' hk'
  rw [key?_modify] at hk'
  obtain ⟨o, ho, hk'⟩ := Option.bind_eq_some_iff.mp hk'
  refine .inl ?_
  have hget : ∃ k, o.keys.find? id = some k ∧ k.SameGrant k' := by
    split at hk'
    · exact hf o id k' hk'
    · exact ⟨k', hk', .refl k'⟩
  obtain ⟨k, hk, hs⟩ := hget
  exact ⟨k, Option.bind_eq_some_iff.mpr ⟨o, ho, hk⟩, hs⟩

theorem grantsKept_modify_keys {f : Organization → Organization} (hf : ∀ o, (f o).keys = o.keys)
    (db : Tenants) : GrantsKept db (db.modify org f) :=
  grantsKept_modify (fun o id k' hk' => ⟨k', by rwa [hf] at hk', .refl k'⟩) db

theorem grantsKept_put (db : Tenants) (org : OrganizationID) (name : String) :
    GrantsKept db (db.put org ⟨name, .empty, .empty, .empty, .empty⟩) := by
  intro org' id k' hk'
  cases hf : db.find? org with
  | some o =>
    rw [Table.put_of_find?_eq_some hf] at hk'
    exact .inl ⟨k', hk', .refl k'⟩
  | none =>
    unfold Tenants.key? at hk'
    rw [Table.find?_put hf] at hk'
    split at hk'
    · simp [Table.find?, Table.empty] at hk'
    · exact .inl ⟨k', hk', .refl k'⟩

theorem grantsKept_erase (db : Tenants) (org : OrganizationID) : GrantsKept db (db.erase org) := by
  intro org' id k' hk'
  unfold Tenants.key? at hk'
  rw [Table.find?_erase] at hk'
  split at hk'
  · cases hk'
  · exact .inl ⟨k', hk', .refl k'⟩

/-! ### What each mutation issues -/

theorem grantsFrom_put (db : Tenants) (org : OrganizationID) (id : KeyID) (key : APIKey) :
    GrantsFrom (fun org' id' k' => org' = org ∧ id' = id ∧ key.SameGrant k') db
      (db.modify org fun o => { o with keys := o.keys.put id key }) := by
  intro org' id' k' hk'
  rw [key?_modify] at hk'
  obtain ⟨o, ho, hk'⟩ := Option.bind_eq_some_iff.mp hk'
  have hold : o.keys.find? id' = some k' →
      ∃ k, db.key? org' id' = some k ∧ k.SameGrant k' := fun hk =>
    ⟨k', Option.bind_eq_some_iff.mpr ⟨o, ho, hk⟩, .refl k'⟩
  split at hk'
  · next horg =>
    cases hf : o.keys.find? id with
    | some b => exact .inl (hold (by rwa [Table.put_of_find?_eq_some hf] at hk'))
    | none =>
      rw [Table.find?_put hf] at hk'
      split at hk'
      · next hid =>
        cases hk'
        exact .inr ⟨horg, hid, .refl _⟩
      · exact .inl (hold hk')
  · exact .inl (hold hk')

theorem GrantsFrom.kept {new : OrganizationID → KeyID → APIKey → Prop} (h : GrantsFrom new db db')
    (h' : GrantsKept db' db'')
    (hnew : ∀ {org id} {k k' : APIKey}, new org id k → k.SameGrant k' → new org id k') :
    GrantsFrom new db db'' := by
  intro org id k'' hk''
  obtain ⟨k', hk', hs'⟩ | hf := h' org id k'' hk''
  · obtain ⟨k, hk, hs⟩ | hn := h org id k' hk'
    · exact .inl ⟨k, hk, hs.trans hs'⟩
    · exact .inr (hnew hn hs')
  · exact hf.elim

theorem grantsKept_revoke (revoked : APIKey → Option Instant) (org : OrganizationID) (id : KeyID)
    (db : Tenants) : GrantsKept db (db.modify org fun o =>
      { o with keys := o.keys.modify id fun k => { k with revokedAt := revoked k } }) := by
  refine grantsKept_modify (fun o id' k' hk' => ?_) db
  rw [Table.find?_modify] at hk'
  obtain ⟨k, hk, rfl⟩ := Option.map_eq_some_iff.mp hk'
  refine ⟨k, hk, ?_⟩
  split
  · exact ⟨rfl, rfl⟩
  · exact .refl k

/-- What a person or a key with the given capabilities and environment may issue. -/
structure Grantable (caps : List String) (env : Option EnvironmentID) (k : APIKey) : Prop where
  nonempty : k.capabilities ≠ []
  machine : MachineCapabilities k.capabilities
  subset : ∀ c ∈ k.capabilities, c ∈ caps
  environment : ∀ e, env = some e → k.environmentID = e

theorem Grantable.sameGrant {caps : List String} {env : Option EnvironmentID} {k' : APIKey}
    (h : Grantable caps env k) (hs : k.SameGrant k') : Grantable caps env k' := by
  obtain ⟨hc, he⟩ := hs
  exact ⟨hc ▸ h.nonempty, hc ▸ h.machine, hc ▸ h.subset, fun e h' => he.trans (h.environment e h')⟩

theorem grantsKept_run {p : TenantProgram} (h : p.Writes GrantsKept) {res : TenantResult}
    (hrun : p.run db = .ok (res, db')) : GrantsKept db db' :=
  h.run GrantsKept.refl GrantsKept.trans hrun

namespace TenantRequest

variable [CreationHash]

/-- The keys that a request may leave behind: under its new id, with the capabilities asked for
or those of the rotated key. -/
def Issues : TenantRequest → Tenants → OrganizationID → KeyID → APIKey → Prop
  | createAPIKey _ org id env _ _ _ creatorCaps, _ => fun org' id' k =>
    org' = org ∧ id' = id ∧ k.environmentID = env ∧ Grantable creatorCaps none k
  | rotateAPIKey _ org id new _ _ callerCaps callerEnv, db => fun org' id' k =>
    org' = org ∧ id' = new ∧ ∃ old, db.key? org id = some old ∧ old.SameGrant k ∧
      (∀ c ∈ k.capabilities, c ∈ callerCaps) ∧ ∀ e, callerEnv = some e → k.environmentID = e
  | _, _ => fun _ _ _ => False

theorem mutate_grantsFrom {q : TenantRequest} {r : TenantCommand} (h : q.command = .ok r)
    {db db' : Tenants} {res : TenantResult} (hrun : r.mutate.run db = .ok (res, db')) :
    GrantsFrom (q.Issues db) db db' := by
  -- Nine mutations write no key at all, or only revoke one.
  have hkept : GrantsKept db db' → GrantsFrom (q.Issues db) db db' := fun hk org id k hkey =>
    (hk org id k hkey).imp_right False.elim
  cases q with
  | createOrganization user header fresh name =>
    simp only [command, Tenant.createOrganization] at h
    split at h
    · cases h
    · cases h
      exact hkept (grantsKept_run (insertOrganization_writes (fun db => grantsKept_put db _ _)
        (grantsKept_modify_keys fun _ => rfl)) hrun)
  | updateOrganization ctx org name =>
    simp only [command, Tenant.updateOrganization] at h
    split at h
    · cases h
    · cases h
      exact hkept (grantsKept_run (renameOrganization_writes
        (grantsKept_modify_keys fun _ => rfl)) hrun)
  | deleteOrganization ctx org =>
    cases h
    exact hkept (grantsKept_run (eraseOrganization_writes fun db => grantsKept_erase db _) hrun)
  | addMember ctx org user role =>
    simp only [command, Tenant.addMember] at h
    split at h
    · cases h
    · cases h
      exact hkept (grantsKept_run (insertMember_writes (grantsKept_modify_keys fun _ => rfl)) hrun)
  | updateMemberRole ctx org user role =>
    simp only [command, Tenant.updateMemberRole] at h
    split at h
    · cases h
    · cases h
      exact hkept (grantsKept_run (changeMember_writes (grantsKept_modify_keys fun _ => rfl)) hrun)
  | updateMemberStatus ctx org user status =>
    simp only [command, Tenant.updateMemberStatus] at h
    split at h
    · cases h
    · cases h
      exact hkept (grantsKept_run (changeMember_writes (grantsKept_modify_keys fun _ => rfl)) hrun)
  | removeMember ctx org user =>
    cases h
    exact hkept (grantsKept_run (changeMember_writes (grantsKept_modify_keys fun _ => rfl)) hrun)
  | createProject ctx org id name =>
    simp only [command, Tenant.createProject] at h
    split at h
    · cases h
    · cases h
      exact hkept (grantsKept_run (insertProject_writes (grantsKept_modify_keys fun _ => rfl)) hrun)
  | createEnvironment ctx org id project name maxConcurrency =>
    simp only [command, Tenant.createEnvironment] at h
    split at h
    · cases h
    · cases h
      exact hkept (grantsKept_run (insertEnvironment_writes
        (grantsKept_modify_keys fun _ => rfl)) hrun)
  | createAPIKey ctx org id env capabilities expiryDays now creatorCaps =>
    simp only [command, Tenant.createAPIKey] at h
    split_ifs at h with _ hempty hsubset
    split at h
    · cases h
    · cases h
    · next hvalid =>
      cases h
      rw [insertKey_run hrun]
      intro org' id' k' hk'
      obtain hold | ⟨horg, hid, hs⟩ := grantsFrom_put db org id _ org' id' k' hk'
      · exact .inl hold
      · refine .inr ⟨horg, hid, hs.2, ?_⟩
        refine Grantable.sameGrant ⟨hempty, ?_, ?_, nofun⟩ hs
        · exact (validateKeyCapabilities_ok _).mp hvalid
        · exact hsubset
  | rotateAPIKey ctx org id new expiryDays now callerCaps callerEnv =>
    simp only [command, Tenant.rotateAPIKey] at h
    split at h
    · cases h
    · cases h
      obtain ⟨key, hkey, -, henv, hcaps, rfl⟩ := rotateKey_run hrun
      refine GrantsFrom.kept (fun org' id' k' hk' => ?_)
        (grantsKept_revoke (fun _ => some now) org id _) ?_
      · obtain hold | ⟨horg, hid, hs⟩ := grantsFrom_put db org new _ org' id' k' hk'
        · exact .inl hold
        · exact .inr ⟨horg, hid, key, hkey, hs, hs.1 ▸ hcaps, fun e he => hs.2.trans (henv e he)⟩
      · rintro org' id' k k' ⟨horg, hid, old, hold, hs, hc, he⟩ hs'
        exact ⟨horg, hid, old, hold, hs.trans hs', hs'.1 ▸ hc, fun e h' => hs'.2.trans (he e h')⟩
  | revokeAPIKey ctx org id now callerEnv =>
    cases h
    exact hkept (grantsKept_run (revokeKey_writes (grantsKept_revoke _ _ _)) hrun)

variable [Endpoints TenantResult]

theorem program_grantsFrom {q : TenantRequest} {s s' : Commands × Tenants} {response : Response}
    (hrun : q.program.run s = .ok (response, s')) : GrantsFrom (q.Issues s.2) s.2 s'.2 := by
  unfold program at hrun
  split at hrun
  · cases hrun
  · next r hr =>
    obtain rfl | ⟨b, hmut⟩ := CommandRequest.run_withCommandTx hrun
    · exact fun org id k hk => .inl ⟨k, hk, .refl k⟩
    · exact mutate_grantsFrom hr hmut

end TenantRequest

/-! ### Every sequence of requests -/

/-- The issuance that a key row comes from. -/
def Issuance.Of (e : Issuance) (org : OrganizationID) (id : KeyID) (k : APIKey) : Prop :=
  e.org = org ∧ e.key = id ∧ e.capabilities = k.capabilities ∧ e.environmentID = k.environmentID

/-- The issuance gave nothing that its issuer did not hold; a machine issuer was itself issued. -/
structure Issuance.Sound (issued : List Issuance) (e : Issuance) : Prop where
  nonempty : e.capabilities ≠ []
  machine : MachineCapabilities e.capabilities
  subset : ∀ c ∈ e.capabilities, c ∈ e.issuerCaps
  issuer : ∀ org id, e.issuer = .machine org id → ∃ e0 ∈ issued, e0.org = org ∧ e0.key = id ∧
    e0.capabilities = e.issuerCaps ∧ e0.environmentID = e.environmentID

theorem Issuance.Sound.mono {issued issued' : List Issuance} {e : Issuance} (h : e.Sound issued)
    (hsub : ∀ x ∈ issued, x ∈ issued') : e.Sound issued' := by
  refine ⟨h.nonempty, h.machine, h.subset, fun org id hi => ?_⟩
  obtain ⟨e0, he0, h0⟩ := h.issuer org id hi
  exact ⟨e0, hsub e0 he0, h0⟩

/-- Every stored key was issued, no id twice, and every issuance was sound. -/
structure KeysLog (w : TenantWorld) : Prop where
  stored : ∀ org id k, w.store.2.key? org id = some k → ∃ e ∈ w.issued, e.Of org id k
  below : ∀ e ∈ w.issued, e.key < w.nextID
  distinct : w.issued.Pairwise fun e e' => e.key ≠ e'.key
  sound : ∀ e ∈ w.issued, e.Sound w.issued

theorem keysLog_empty : KeysLog TenantWorld.empty := by
  refine ⟨fun org id k hk => ?_, ?_, .nil, ?_⟩
  · simp [TenantWorld.empty, Tenants.key?, Table.find?, Table.empty] at hk
  · simp [TenantWorld.empty]
  · simp [TenantWorld.empty]

theorem KeysLog.fresh {w : TenantWorld} (h : KeysLog w) (org : OrganizationID) :
    w.store.2.key? org w.nextID = none := by
  cases hk : w.store.2.key? org w.nextID with
  | none => rfl
  | some k =>
    obtain ⟨e, he, -, hid, -⟩ := h.stored org _ k hk
    exact absurd hid (Nat.ne_of_lt (h.below e he))

theorem KeysLog.machine {w : TenantWorld} (h : KeysLog w) {id : KeyID}
    (hk : w.store.2.key? org id = some k) :
    k.capabilities ≠ [] ∧ MachineCapabilities k.capabilities := by
  obtain ⟨e, he, -, -, hcaps, -⟩ := h.stored org id k hk
  rw [← hcaps]
  exact ⟨(h.sound e he).nonempty, (h.sound e he).machine⟩

section Requests

variable [CreationHash]

variable {w : TenantWorld} {req : HttpRequest} {caller : Caller} {q : TenantRequest} {k : APIKey}

/-- What an admitted request may leave is what its caller may grant. -/
theorem KeysLog.issues (h : KeysLog w) (hadmits : w.admission req = .ok (caller, q))
    {org : OrganizationID} {id : KeyID} (hk : q.Issues w.store.2 org id k) :
    org = req.targetOrg ∧ id = w.nextID ∧ Grantable caller.capabilities caller.environmentID k := by
  obtain ⟨user, name, -, -, rfl⟩ | ⟨hcaller, hcall⟩ := TenantWorld.admission_ok hadmits
  · exact hk.elim
  · cases hroute : req.route with
    | createAPIKey env capabilities expiryDays =>
      simp only [HttpRequest.serviceCall, hroute, Option.some.injEq] at hcall
      subst hcall
      obtain ⟨horg, hid, henv, hg⟩ := hk
      refine ⟨horg, hid, hg.nonempty, hg.machine, hg.subset, fun e he => ?_⟩
      -- The route names the environment, which a machine caller must share.
      obtain ⟨id', row, hm, -⟩ | ⟨user, m, hm⟩ := hcaller
      · have hmatch := hm.environment
        simp only [HttpRequest.environmentMatches, hroute, Route.routeEnv, Option.all_some,
          Bool.and_eq_true, beq_iff_eq] at hmatch
        rw [hm.caller] at he
        cases he
        exact henv.trans hmatch.1.1.1.1
      · rw [hm.caller] at he
        cases he
    | rotateAPIKey id' expiryDays =>
      simp only [HttpRequest.serviceCall, hroute, Option.some.injEq] at hcall
      subst hcall
      obtain ⟨horg, hid, old, hold, hs, hsub, henv⟩ := hk
      obtain ⟨hne, hmach⟩ := h.machine hold
      exact ⟨horg, hid, hs.1 ▸ hne, hs.1 ▸ hmach, hsub, henv⟩
    | _ =>
      simp only [HttpRequest.serviceCall, hroute, Option.some.injEq, reduceCtorEq] at hcall
      try subst hcall
      try exact hk.elim

variable [Endpoints TenantResult]

theorem KeysLog.new (h : KeysLog w) (hadmits : w.admission req = .ok (caller, q))
    {response : Response} {store : Commands × Tenants}
    (hrun : q.program.run w.store = .ok (response, store)) {org : OrganizationID} {id : KeyID}
    (hk : store.2.key? org id = some k) :
    (∃ k0, w.store.2.key? org id = some k0 ∧ k0.SameGrant k) ∨
      (org = req.targetOrg ∧ id = w.nextID ∧
        Grantable caller.capabilities caller.environmentID k) :=
  (TenantRequest.program_grantsFrom hrun org id k hk).imp_right (h.issues hadmits)

omit [Endpoints TenantResult] in
/-- What the caller of a request may grant is soundly issued. -/
theorem KeysLog.sound_issuance (h : KeysLog w) (hadmits : w.admission req = .ok (caller, q))
    (hk : Grantable caller.capabilities caller.environmentID k) (id : KeyID)
    {issued : List Issuance} (hsub : ∀ x ∈ w.issued, x ∈ issued) :
    Issuance.Sound issued ⟨req.credential, caller.capabilities, caller.environmentID,
      req.targetOrg, id, k.capabilities, k.environmentID⟩ := by
  refine ⟨hk.nonempty, hk.machine, hk.subset, fun org id' hcred => ?_⟩
  obtain ⟨user, name, -, rfl, -⟩ | ⟨⟨id0, row, hm, -⟩ | ⟨user, m, hm⟩, -⟩ :=
    TenantWorld.admission_ok hadmits
  · -- Whoever creates an organization has nothing to grant.
    obtain ⟨c, hc⟩ := List.exists_mem_of_ne_nil _ hk.nonempty
    exact nomatch hk.subset c hc
  · obtain ⟨horg, rfl⟩ : req.targetOrg = org ∧ id0 = id' := by
      simpa using hm.credential.symm.trans hcred
    obtain ⟨e0, he0, ho, hi, hc, he⟩ := h.stored _ _ _ hm.key
    refine ⟨e0, hsub e0 he0, ho.trans horg, hi, hc.trans (by rw [hm.caller]), he.trans ?_⟩
    exact (hk.environment _ (by rw [hm.caller])).symm
  · exact nomatch hm.credential.symm.trans hcred

theorem KeysLog.step (h : KeysLog w) (req : HttpRequest) : KeysLog (tenantHttp.step w req) := by
  change KeysLog (w.handle req).1
  unfold TenantWorld.handle
  split
  · exact h
  · next caller q hadmits =>
    split
    · exact h
    · next response store hrun =>
      have hold : ∀ {org id k} {k0 : APIKey}, w.store.2.key? org id = some k0 → k0.SameGrant k →
          ∃ e ∈ w.issued, e.Of org id k := by
        intro org id k k0 hk0 hs
        obtain ⟨e, he, ho, hi, hc, hv⟩ := h.stored org id k0 hk0
        exact ⟨e, he, ho, hi, hc.trans hs.1.symm, hv.trans hs.2.symm⟩
      unfold TenantWorld.issuance
      cases hnew : store.2.key? req.targetOrg w.nextID with
      | none =>
        simp only [List.append_nil]
        refine ⟨fun org id k hk => ?_, fun e he => Nat.lt_succ_of_lt (h.below e he), h.distinct, h.sound⟩
        obtain ⟨k0, hk0, hs⟩ | ⟨rfl, rfl, -⟩ := h.new hadmits hrun hk
        · exact hold hk0 hs
        · exact absurd (hnew.symm.trans hk) (by simp)
      | some row =>
        have hgrant : Grantable caller.capabilities caller.environmentID row := by
          obtain ⟨k0, hk0, -⟩ | ⟨-, -, hg⟩ := h.new hadmits hrun hnew
          · exact absurd (hk0.symm.trans (h.fresh _)) (by simp)
          · exact hg
        refine ⟨fun org id k hk => ?_, fun e he => ?_, ?_, fun e he => ?_⟩
        · obtain ⟨k0, hk0, hs⟩ | ⟨rfl, rfl, -⟩ := h.new hadmits hrun hk
          · obtain ⟨e, he, hof⟩ := hold hk0 hs
            exact ⟨e, List.mem_append_left _ he, hof⟩
          · obtain rfl := Option.mem_unique hnew hk
            exact ⟨_, List.mem_append_right _ (List.mem_singleton_self _), rfl, rfl, rfl, rfl⟩
        · rcases List.mem_append.mp he with he | he
          · exact Nat.lt_succ_of_lt (h.below e he)
          · rw [List.mem_singleton.mp he]
            exact Nat.lt_succ_self _
        · refine List.pairwise_append.mpr ⟨h.distinct, List.pairwise_singleton _ _, ?_⟩
          intro e he e' he'
          rw [List.mem_singleton.mp he']
          exact Nat.ne_of_lt (h.below e he)
        · rcases List.mem_append.mp he with he | he
          · exact (h.sound e he).mono fun x hx => List.mem_append_left _ hx
          · rw [List.mem_singleton.mp he]
            exact h.sound_issuance hadmits hgrant _ fun x hx => List.mem_append_left _ hx

theorem keysLog_exec (reqs : List HttpRequest) :
    KeysLog (tenantHttp.exec TenantWorld.empty reqs) :=
  tenantHttp.invariant_of_step (fun _ req h => h.step req) keysLog_empty reqs

omit [CreationHash] [Endpoints TenantResult] in
/-- Along a chain of issuances by machine keys nothing is gained. -/
theorem KeysLog.chain (h : KeysLog w) {e e' : Issuance} (he : e ∈ w.issued)
    (hc : Relation.ReflTransGen
      (fun e e' => e' ∈ w.issued ∧ e'.issuer = .machine e.org e.key) e e') :
    e' ∈ w.issued ∧ (∀ c ∈ e'.capabilities, c ∈ e.capabilities) ∧
      e'.environmentID = e.environmentID := by
  induction hc with
  | refl => exact ⟨he, fun _ hc => hc, rfl⟩
  | tail _ hstep ih =>
    obtain ⟨hmem, hissuer⟩ := hstep
    obtain ⟨hprev, hsub, henv⟩ := ih
    obtain ⟨e0, he0, -, hkey, hcaps, henv0⟩ := (h.sound _ hmem).issuer _ _ hissuer
    -- Ids are given once, so the issuer is the key before it in the chain.
    have hsymm : Std.Symm fun e e' : Issuance => e.key ≠ e'.key := ⟨fun _ _ hn => hn.symm⟩
    obtain rfl : e0 = _ := by
      by_contra hne
      exact h.distinct.forall he0 hprev hne hkey
    refine ⟨hmem, fun c hc => hsub c ?_, henv0.symm.trans henv⟩
    rw [hcaps]
    exact (h.sound _ hmem).subset c hc

/-- In every sequence of requests, a new key has capabilities, none that decides approvals or
resolves cases, and only such as its issuer holds at that moment: the role of an active member, or
a key of the same environment. Every stored key was issued so, and no chain of keys issued one by
another ends with a capability or an environment that its first key lacks. -/
theorem keys_never_escalate (reqs : List HttpRequest) (req : HttpRequest) :
    let w := tenantHttp.exec TenantWorld.empty reqs
    (∀ org id k, (tenantHttp.step w req).store.2.key? org id = some k →
      w.store.2.key? org id = none →
      k.capabilities ≠ [] ∧ Capability.text .approvalsDecide ∉ k.capabilities ∧
      Capability.text .runsReconcile ∉ k.capabilities ∧
      match req.credential with
      | .human user => ∃ m, w.store.2.member? org user = some m ∧ m.status = .active ∧
          ∀ c ∈ k.capabilities, c ∈ m.role.capabilities
      | .machine org' id' => org' = org ∧ ∃ k', w.store.2.key? org id' = some k' ∧
          k.environmentID = k'.environmentID ∧ ∀ c ∈ k.capabilities, c ∈ k'.capabilities) ∧
    (∀ org id k, w.store.2.key? org id = some k → ∃ e ∈ w.issued, e.Of org id k) ∧
    ∀ e ∈ w.issued, ∀ e', Relation.ReflTransGen
      (fun e e' => e' ∈ w.issued ∧ e'.issuer = .machine e.org e.key) e e' →
      (∀ c ∈ e'.capabilities, c ∈ e.capabilities) ∧ e'.environmentID = e.environmentID := by
  intro w
  have hlog : KeysLog w := keysLog_exec reqs
  refine ⟨fun org id k hk hnone => ?_, hlog.stored, fun e he e' hc => (hlog.chain he hc).2⟩
  change (w.handle req).1.store.2.key? org id = some k at hk
  unfold TenantWorld.handle at hk
  split at hk
  · exact absurd (hnone.symm.trans hk) (by simp)
  · next caller q hadmits =>
    split at hk
    · exact absurd (hnone.symm.trans hk) (by simp)
    · next response store hrun =>
      obtain ⟨k0, hk0, -⟩ | ⟨rfl, -, hg⟩ := hlog.new hadmits hrun hk
      · exact absurd (hnone.symm.trans hk0) (by simp)
      · refine ⟨hg.nonempty, fun hc => (hg.machine _ hc).2.1 rfl,
          fun hc => (hg.machine _ hc).2.2 rfl, ?_⟩
        obtain ⟨user, name, -, rfl, -⟩ | ⟨⟨id0, row, hm, -⟩ | ⟨user, m, hm⟩, -⟩ :=
          TenantWorld.admission_ok hadmits
        · obtain ⟨c, hc⟩ := List.exists_mem_of_ne_nil _ hg.nonempty
          exact nomatch hg.subset c hc
        · rw [hm.credential]
          refine ⟨rfl, row, hm.key, hg.environment _ (by rw [hm.caller]), ?_⟩
          simpa [hm.caller] using hg.subset
        · rw [hm.credential]
          refine ⟨m, hm.member, hm.active, ?_⟩
          simpa [hm.caller] using hg.subset

end Requests

end Deadbolt.Tenant
