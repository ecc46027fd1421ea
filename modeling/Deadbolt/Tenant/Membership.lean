import Deadbolt.Tenant.Service

/-!
# Organizations keep an owner

Every change of a member locks the organization row, counts the active owners and then writes.
While the row is locked, other sessions can only add members: that is the rely under which an
active owner other than the one given up is still there at the commit.
-/

namespace Deadbolt.Tenant

open Base Program

/-- Every member stays as it is; there may be more. -/
def Grows (members members' : Table UserID Member) : Prop :=
  ∀ user m, members.find? user = some m → members'.find? user = some m

theorem Grows.refl (members : Table UserID Member) : Grows members members := fun _ _ h => h

theorem Grows.trans {members members' members'' : Table UserID Member} (h : Grows members members')
    (h' : Grows members' members'') : Grows members members'' := fun u m hm => h' u m (h u m hm)

theorem grows_put (members : Table UserID Member) (user : UserID) (m : Member) :
    Grows members (members.put user m) := by
  intro u m' hu
  cases hf : members.find? user with
  | some b => rwa [Table.put_of_find?_eq_some hf]
  | none =>
    have hne : u ≠ user := by
      rintro rfl
      simp [hf] at hu
    rw [Table.find?_put hf, if_neg hne, hu]

def Organization.Owned (o : Organization) : Prop :=
  ∃ user m, o.members.find? user = some m ∧ m.activeOwner = true

variable {o : Organization} {held : Set TenantLock} {db db' : Tenants} {org : OrganizationID}
  {f : Organization → Organization} {user : UserID} {m : Member} {givesUp : Bool}
  {change : Table UserID Member → Table UserID Member}

theorem Organization.Owned.grows {o' : Organization} (h : o.Owned)
    (hg : Grows o.members o'.members) : o'.Owned := by
  obtain ⟨user, m, hm, ho⟩ := h
  exact ⟨user, m, hg user m hm, ho⟩

def Tenants.Owned (db : Tenants) : Prop := ∀ id o, db.find? id = some o → o.Owned

/-- An organization that is still there has all its members. -/
def KeepsMembers (id : OrganizationID) (db db' : Tenants) : Prop :=
  ∀ o, db.find? id = some o → ∃ o', db'.find? id = some o' ∧ Grows o.members o'.members

/-- While the organization row is locked, members are only added. -/
def membersRely : Rely TenantLock Tenants where
  Allows held db db' := ∀ id, .organization id ∈ held → KeepsMembers id db db'
  refl _ _ := fun _ _ o ho => ⟨o, ho, .refl _⟩
  trans h h' := by
    intro id hid o ho
    obtain ⟨o', ho', hg⟩ := h id hid o ho
    obtain ⟨o'', ho'', hg'⟩ := h' id hid o' ho'
    exact ⟨o'', ho'', hg.trans hg'⟩

/-- What a mutation commits: it takes members only from organizations that it locks, and it
leaves every organization with an owner. -/
structure LeavesOwners (held : Set TenantLock) (db db' : Tenants) : Prop where
  others : ∀ id, .organization id ∉ held → KeepsMembers id db db'
  owned : db.Owned → db'.Owned

theorem LeavesOwners.rely {held' : Set TenantLock} (h : LeavesOwners held' db db')
    (hd : Disjoint held held') : membersRely.Allows held db db' :=
  fun id hid => h.others id (Set.disjoint_left.mp hd hid)

theorem leavesOwners_modify (hf : ∀ o, Grows o.members (f o).members) (held : Set TenantLock)
    (db : Tenants) : LeavesOwners held db (db.modify org f) := by
  refine ⟨fun id _ o ho => ?_, fun h id o' ho' => ?_⟩
  · rw [Table.find?_modify, ho]
    refine ⟨_, rfl, ?_⟩
    split
    · exact hf o
    · exact .refl _
  · rw [Table.find?_modify] at ho'
    obtain ⟨o, ho, rfl⟩ := Option.map_eq_some_iff.mp ho'
    split
    · exact (h id o ho).grows (hf o)
    · exact h id o ho

/-- A write of a locked organization that leaves it an owner. -/
theorem leavesOwners_locked (hlock : .organization org ∈ held)
    (hf : ∀ o, db.find? org = some o → o.Owned → (f o).Owned) :
    LeavesOwners held db (db.modify org f) := by
  refine ⟨fun id hid o ho => ?_, fun h id o' ho' => ?_⟩
  · have hne : id ≠ org := fun he => hid (he ▸ hlock)
    rw [Table.find?_modify, ho]
    simp [hne, Grows.refl]
  · rw [Table.find?_modify] at ho'
    obtain ⟨o, ho, rfl⟩ := Option.map_eq_some_iff.mp ho'
    by_cases hid : id = org
    · subst hid
      simpa using hf o ho (h id o ho)
    · simpa [hid] using h id o ho

/-! ### Mutations that leave members alone -/

/-- The organizations have the members they had. -/
def SameMembers (db db' : Tenants) : Prop :=
  ∀ id, (db'.find? id).map Organization.members = (db.find? id).map Organization.members

theorem SameMembers.trans {db'' : Tenants} (h : SameMembers db db') (h' : SameMembers db' db'') :
    SameMembers db db'' := fun id => (h' id).trans (h id)

theorem SameMembers.leavesOwners (h : SameMembers db db') (held : Set TenantLock) :
    LeavesOwners held db db' := by
  refine ⟨fun id _ o ho => ?_, fun howned id o' ho' => ?_⟩
  · have := h id
    rw [ho] at this
    obtain ⟨o', ho', hm⟩ := Option.map_eq_some_iff.mp this
    exact ⟨o', ho', hm ▸ .refl _⟩
  · have := h id
    rw [ho'] at this
    obtain ⟨o, ho, hm⟩ := Option.map_eq_some_iff.mp this.symm
    exact (howned id o ho).grows (hm ▸ .refl _)

theorem sameMembers_modify (hf : ∀ o, (f o).members = o.members) (db : Tenants) :
    SameMembers db (db.modify org f) := by
  intro id
  rw [Table.find?_modify, Option.map_map]
  refine congrArg₂ Option.map (funext fun o => ?_) rfl
  by_cases hid : id = org <;> simp [hid, hf]

/-! ### What each mutation commits -/

/-- Every commit of the program leaves owners. -/
def CommitsOwners (p : TenantProgram) : Prop :=
  ∀ db, p.wp membersRely (fun res c => ∀ b, res = .ok b → ∀ db, membersRely.Allows c.held c.committed db →
    LeavesOwners c.held db (c.pending db)) ⟨∅, id, db⟩

theorem commitsOwners_of_writes {p : TenantProgram} (h : p.Writes SameMembers) :
    CommitsOwners p := by
  intro db
  refine wp_mono (fun res c hc b _ db _ => (hc db).leavesOwners _)
    (h.wp SameMembers.trans membersRely fun db id => rfl)

@[simp] theorem wp_claimRow (k : TenantLock) (p : Tenants → Bool) (e : TenantError)
    (Q : Except TenantError Unit → Standing TenantLock Tenants → Prop)
    (c : Standing TenantLock Tenants) :
    (claimRow k p e).wp membersRely Q c ↔ ∀ db, membersRely.Allows c.held c.committed db →
      (p (c.pending db) = true → Q (.ok ()) ⟨insert k c.held, c.pending, db⟩) ∧
      (p (c.pending db) = false → Q (.error e) ⟨c.held, c.pending, db⟩) := by
  simp only [claimRow, bind_eq, wp_bind, wp_claim, wp_done,
    wp_require]
  refine forall₂_congr fun db _ => ?_
  cases p (c.pending db) <;> simp

@[simp] theorem wp_modifyOrganization (org : OrganizationID) (f : Organization → Organization)
    (Q : Except TenantError Unit → Standing TenantLock Tenants → Prop)
    (c : Standing TenantLock Tenants) :
    (modifyOrganization org f).wp membersRely Q c ↔
      Q (.ok ()) ⟨c.held, fun db => (c.pending db).modify org f, c.committed⟩ := Iff.rfl

theorem insertMember_commitsOwners (org : OrganizationID) (user : UserID) (role : Role) :
    CommitsOwners (insertMember org user role) := by
  intro db
  simp only [insertMember, bind_eq, wp_bind, wp_claimRow, wp_read,
    wp_require, wp_modifyOrganization, pure_eq, wp_done]
  refine fun _ _ => ⟨fun _ _ _ => ⟨fun _ b _ db' _ => ?_, by simp⟩, by simp⟩
  exact leavesOwners_modify (fun o => grows_put _ _ _) _ _

theorem eraseOrganization_commitsOwners (org : OrganizationID) :
    CommitsOwners (eraseOrganization org) := by
  intro db
  simp only [eraseOrganization, bind_eq, wp_bind, wp_claimRow, wp_modify,
    pure_eq, wp_done]
  refine fun _ _ => ⟨fun _ b _ db' _ => ⟨fun id hid o ho => ?_, fun h id o ho => ?_⟩, by simp⟩
  · have hne : id ≠ org := fun he => hid (he ▸ Set.mem_insert _ _)
    simp [Table.find?_erase, hne, ho, Grows.refl]
  · rw [Table.find?_erase] at ho
    split at ho
    · cases ho
    · exact h id o ho

theorem insertOrganization_commitsOwners (org : OrganizationID) (user : UserID) (name : String) :
    CommitsOwners (insertOrganization org user name) := by
  intro db
  simp only [insertOrganization, bind_eq, wp_bind, wp_claimRow, wp_modify,
    wp_modifyOrganization, pure_eq, wp_done]
  refine fun _ _ => ⟨fun _ b _ db' _ => ?_, by simp⟩
  cases hf : db'.find? org with
  | some o =>
    -- Another session created the organization: nothing but members is added to it.
    simp only [id_eq, Table.put_of_find?_eq_some hf]
    exact leavesOwners_modify (fun o => grows_put _ _ _) _ _
  | none =>
    refine ⟨fun id hid o ho => ?_, fun h id o ho => ?_⟩
    · have hne : id ≠ org := fun he => hid (he ▸ Set.mem_insert _ _)
      simp [Table.find?_modify, Table.find?_put hf, hne, ho, Grows.refl]
    · by_cases hid : id = org
      · subst hid
        have ho' : o.members = Table.empty.put user ⟨.owner, .active⟩ := by
          simp only [id_eq, Table.find?_modify, Table.find?_put hf, if_true, Option.map_some,
            Option.some.injEq] at ho
          rw [← ho]
        refine ⟨user, ⟨.owner, .active⟩, ?_, rfl⟩
        rw [ho', Table.find?_put rfl, if_pos rfl]
      · refine h id o ?_
        simpa [Table.find?_modify, Table.find?_put hf, hid] using ho

/-! ### Changes of a member -/

/-- Of two active owners one is another user. -/
theorem Organization.exists_other_owner (h : 1 < o.activeOwners) (user : UserID) :
    ∃ u m, u ≠ user ∧ o.members.find? u = some m ∧ m.activeOwner = true := by
  by_contra hno
  push Not at hno
  have hsame : ∀ r ∈ o.members.rows.filter fun r => r.2.activeOwner, r.1 = user := by
    intro r hr
    obtain ⟨hr, ho⟩ := List.mem_filter.mp hr
    by_contra hne
    exact absurd ho (hno r.1 r.2 hne ((o.members.find?_eq_some_iff _ _).mpr hr))
  have hpair := o.members.pairwise_keys.filter fun r => r.2.activeOwner
  unfold Organization.activeOwners at h
  match hrows : o.members.rows.filter fun r => r.2.activeOwner with
  | [] => simp [hrows] at h
  | [_] => simp [hrows] at h
  | r :: r' :: rest =>
    rw [hrows] at hpair hsame
    have hne := List.rel_of_pairwise_cons hpair (List.mem_cons_self (a := r'))
    exact hne ((hsame r List.mem_cons_self).trans
      (hsame r' (List.mem_cons_of_mem _ List.mem_cons_self)).symm)

/-- The member is as the session found it, and if an active owner is given up there is another
one. -/
def Secured (org : OrganizationID) (user : UserID) (m : Member) (another : Bool) (db : Tenants) :
    Prop :=
  ∃ o, db.find? org = some o ∧ o.members.find? user = some m ∧
    (another = true → ∃ u m', u ≠ user ∧ o.members.find? u = some m' ∧ m'.activeOwner = true)

theorem Secured.stable {another : Bool} (h : Secured org user m another db)
    (hlock : .organization org ∈ held) (hr : membersRely.Allows held db db') :
    Secured org user m another db' := by
  obtain ⟨o, ho, hm, hother⟩ := h
  obtain ⟨o', ho', hg⟩ := hr org hlock o ho
  refine ⟨o', ho', hg _ _ hm, fun ha => ?_⟩
  obtain ⟨u, m', hu, hm', hown⟩ := hother ha
  exact ⟨u, m', hu, hg _ _ hm', hown⟩

/-- A change that touches one member, and keeps it an active owner unless it gives it up. -/
structure ChangesMember (user : UserID) (givesUp : Bool)
    (change : Table UserID Member → Table UserID Member) : Prop where
  others : ∀ members u, u ≠ user → (change members).find? u = members.find? u
  keeps : givesUp = false → ∀ members m, members.find? user = some m → m.activeOwner = true →
    ∃ m', (change members).find? user = some m' ∧ m'.activeOwner = true

/-- The change leaves an owner to a secured organization. -/
theorem ChangesMember.owned (hc : ChangesMember user givesUp change)
    (h : Secured org user m (m.activeOwner && givesUp) db) (ho : db.find? org = some o)
    (howned : o.Owned) : { o with members := change o.members }.Owned := by
  obtain ⟨o', ho', hm, hother⟩ := h
  obtain rfl := Option.mem_unique ho ho'
  obtain ⟨u, mu, hu, hown⟩ := howned
  by_cases hne : u = user
  · subst hne
    obtain rfl := Option.mem_unique hm hu
    cases hg : givesUp with
    | false =>
      obtain ⟨m', hm', hown'⟩ := hc.keeps hg o.members m hu hown
      exact ⟨u, m', hm', hown'⟩
    | true =>
      obtain ⟨u', m', hu', hm', hown'⟩ := hother (by simp [hown, hg])
      exact ⟨u', m', by rw [hc.others _ _ hu', hm'], hown'⟩
  · exact ⟨u, mu, by rw [hc.others _ _ hne, hu], hown⟩

/-- The write of a secured change, with the organization row locked. -/
theorem ChangesMember.wp_writeMember (hc : ChangesMember user givesUp change)
    (h : Secured org user m (m.activeOwner && givesUp) db) (hlock : .organization org ∈ held) :
    (writeMember org user change).wp membersRely (fun res c => ∀ b, res = .ok b →
      ∀ db, membersRely.Allows c.held c.committed db → LeavesOwners c.held db (c.pending db))
      ⟨held, id, db⟩ := by
  simp only [writeMember, bind_eq, wp_bind, wp_claimRow, wp_modifyOrganization,
    pure_eq, wp_done]
  refine fun db1 h1 => ⟨fun _ b _ db2 h2 => ?_, by simp⟩
  have hlock' := Set.mem_insert_of_mem (TenantLock.member org user) hlock
  refine leavesOwners_locked hlock' fun o ho howned => ?_
  exact hc.owned ((h.stable hlock h1).stable hlock' h2) ho howned

theorem changeMember_commitsOwners {lastOwner : TenantError}
    (hc : ChangesMember user givesUp change) :
    CommitsOwners (changeMember org user givesUp lastOwner change) := by
  intro db
  simp only [changeMember, bind_eq, wp_bind, wp_claimRow, wp_read]
  refine fun db1 _ => ⟨fun _ db2 h2 => ?_, by simp⟩
  have hlock := Set.mem_insert (TenantLock.organization org) ∅
  cases hcur : Tenants.member? (id db2) org user with
  | none => exact fun b hb => by cases hb
  | some m =>
    obtain ⟨o2, ho2, hm⟩ := Option.bind_eq_some_iff.mp hcur
    dsimp only
    split
    · next hgive =>
      simp only [wp_bind, wp_read, wp_require]
      refine fun db3 h3 => ⟨fun hcount => ?_, by simp⟩
      -- The member has stayed, and the count has found another owner.
      have hs : Secured org user m false db2 := ⟨o2, ho2, hm, by simp⟩
      obtain ⟨o3, ho3, hm3, -⟩ := hs.stable hlock h3
      have htwo : 1 < o3.activeOwners := by simpa [Tenants.activeOwners, ho3] using hcount
      exact hc.wp_writeMember ⟨o3, ho3, hm3, fun _ => o3.exists_other_owner htwo user⟩ hlock
    · next hgive => exact hc.wp_writeMember ⟨o2, ho2, hm, fun h => absurd h hgive⟩ hlock

theorem setMemberRole_commitsOwners (org : OrganizationID) (user : UserID) (role : Role) :
    CommitsOwners (setMemberRole org user role) := by
  refine changeMember_commitsOwners ⟨fun members u hu => ?_, fun hrole members m hm hown => ?_⟩
  · simp [Table.find?_modify, hu]
  · have howner : role = .owner := by simpa using hrole
    refine ⟨{ m with role := role }, by simp [Table.find?_modify, hm], ?_⟩
    simp_all [Member.activeOwner]

theorem setMemberStatus_commitsOwners (org : OrganizationID) (user : UserID)
    (status : MemberStatus) : CommitsOwners (setMemberStatus org user status) := by
  refine changeMember_commitsOwners ⟨fun members u hu => ?_, fun hstatus members m hm hown => ?_⟩
  · simp [Table.find?_modify, hu]
  · have hactive : status = .active := by cases status <;> simp_all
    refine ⟨{ m with status := status }, by simp [Table.find?_modify, hm], ?_⟩
    simp_all [Member.activeOwner]

theorem eraseMember_commitsOwners (org : OrganizationID) (user : UserID) :
    CommitsOwners (eraseMember org user) :=
  changeMember_commitsOwners ⟨fun members u hu => by simp [Table.find?_erase, hu], nofun⟩

/-! ### Every interleaving -/

namespace TenantRequest

variable [CreationHash]

theorem mutate_commitsOwners {q : TenantRequest} {r : TenantCommand} (h : q.command = .ok r) :
    CommitsOwners r.mutate := by
  cases q with
  | createOrganization user header fresh name =>
    simp only [command, Tenant.createOrganization] at h
    split at h
    · cases h
    · cases h
      exact insertOrganization_commitsOwners _ _ _
  | updateOrganization ctx org name =>
    simp only [command, Tenant.updateOrganization] at h
    split at h
    · cases h
    · cases h
      exact commitsOwners_of_writes (renameOrganization_writes (sameMembers_modify fun _ => rfl))
  | deleteOrganization ctx org =>
    cases h
    exact eraseOrganization_commitsOwners _
  | addMember ctx org user role =>
    simp only [command, Tenant.addMember] at h
    split at h
    · cases h
    · cases h
      exact insertMember_commitsOwners _ _ _
  | updateMemberRole ctx org user role =>
    simp only [command, Tenant.updateMemberRole] at h
    split at h
    · cases h
    · cases h
      exact setMemberRole_commitsOwners _ _ _
  | updateMemberStatus ctx org user status =>
    simp only [command, Tenant.updateMemberStatus] at h
    split at h
    · cases h
    · cases h
      exact setMemberStatus_commitsOwners _ _ _
  | removeMember ctx org user =>
    cases h
    exact eraseMember_commitsOwners _ _
  | createProject ctx org id name =>
    simp only [command, Tenant.createProject] at h
    split at h
    · cases h
    · cases h
      exact commitsOwners_of_writes (insertProject_writes (sameMembers_modify fun _ => rfl))
  | createEnvironment ctx org id project name maxConcurrency =>
    simp only [command, Tenant.createEnvironment] at h
    split at h
    · cases h
    · cases h
      exact commitsOwners_of_writes (insertEnvironment_writes (sameMembers_modify fun _ => rfl))
  | createAPIKey ctx org id env capabilities expiryDays now creatorCaps =>
    simp only [command, Tenant.createAPIKey] at h
    split_ifs at h
    split at h
    · cases h
    · cases h
    · cases h
      exact commitsOwners_of_writes (insertKey_writes (sameMembers_modify fun _ => rfl))
  | rotateAPIKey ctx org id new expiryDays now callerCaps callerEnv =>
    simp only [command, Tenant.rotateAPIKey] at h
    split at h
    · cases h
    · cases h
      exact commitsOwners_of_writes (rotateKey_writes
        (fun _ => sameMembers_modify fun _ => rfl) (sameMembers_modify fun _ => rfl))
  | revokeAPIKey ctx org id now callerEnv =>
    cases h
    exact commitsOwners_of_writes (revokeKey_writes (sameMembers_modify fun _ => rfl))

variable [Endpoints TenantResult]

/-- What a request leaves in the database. -/
def Leaves (q : TenantRequest) (held : Set (CommandKey ⊕ TenantLock))
    (res : Except (CommandError TenantError) Response) (s s' : Commands × Tenants) : Prop :=
  s' = s ∨ ∃ r, q.command = .ok r ∧ r.Post (fun held _ db db' => LeavesOwners held db db') held res s s'

def discipline : Discipline TenantRequest.program where
  inv s := s.2.Owned
  rely := commandsRely.both membersRely
  post := Leaves
  meets q s _ := by
    unfold program
    cases hq : q.command with
    | error e => exact fun s' _ => .inl rfl
    | ok r =>
      have hm : r.Mutates membersRely fun held _ db db' => LeavesOwners held db db' :=
        mutate_commitsOwners hq
      refine wp_mono (fun res c hc s' hs' => ?_) (CommandRequest.wp_withCommandTx hm s)
      exact .inr ⟨r, hq, hc s' hs'⟩
  keeps := by
    intro q held res s s' h hpost
    obtain rfl | ⟨r, -, hpost⟩ := hpost
    · exact h
    · obtain hdata | ⟨b, hdata⟩ := hpost.data
      · rw [hdata]
        exact h
      · exact hdata.owned h
  apart := by
    intro q held held' res s s' _ hd hpost
    obtain rfl | ⟨r, -, hpost⟩ := hpost
    · exact (commandsRely.both membersRely).refl _ _
    · refine ⟨hpost.rely hd, ?_⟩
      obtain hdata | ⟨b, hdata⟩ := hpost.data
      · rw [hdata]
        exact membersRely.refl _ _
      · exact hdata.rely (hd.preimage _)

end TenantRequest

def tenantSystem [CreationHash] [Endpoints TenantResult] :
    System (Pool TenantRequest (CommandKey ⊕ TenantLock) (Commands × Tenants)
      (CommandError TenantError) Response) (SessionStep TenantRequest) :=
  Pool.system TenantRequest.program

/-- In every interleaving of organization and member requests, every committed organization has a
member that is an active owner. -/
theorem organizations_owned [CreationHash] [Endpoints TenantResult]
    (as : List (SessionStep TenantRequest)) :
    (tenantSystem.exec (Pool.idle (Table.empty, Table.empty)) as).committed.2.Owned := by
  refine (Discipline.holds_exec (D := TenantRequest.discipline) ?_ as).inv
  intro id o ho
  simp [Table.find?, Table.empty] at ho

end Deadbolt.Tenant
