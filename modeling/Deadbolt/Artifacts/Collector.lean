import Deadbolt.Artifacts.Uploads
import Deadbolt.Execution.Sample

/-!
# The garbage collector

`CollectGarbage`, `internal/artifacts/service.go:718-905`: one transaction selects a batch of
victims and marks the new ones, then each victim's object is deleted outside any transaction and its
row closed in a second one. Liveness is decided by a containment query over the step outputs, which
sees a reference only as the whole output of a step; references are collected at any depth.
-/

namespace Deadbolt.Artifacts

open Base Contracts Execution Tx

def orphanGracePeriod : Time := 86400000000

def ArtifactStatus.condemned : ArtifactStatus → Bool
  | .deleting | .deleted | .expired => true
  | .pendingUpload | .ready => false

def ArtifactStatus.mark : ArtifactStatus → ArtifactStatus
  | .pendingUpload => .expired
  | _ => .deleting

theorem ArtifactStatus.condemned_mark (s : ArtifactStatus) : s.mark.condemned = true := by
  cases s <;> rfl

/-- `ORDER BY created_at ASC, id ASC`. -/
def older (a b : ArtifactID × ArtifactRow) : Prop :=
  a.2.createdAt < b.2.createdAt ∨ a.2.createdAt = b.2.createdAt ∧ a.1 ≤ b.1

instance : DecidableRel older := fun _ _ => inferInstanceAs (Decidable (_ ∨ _))

section

variable [Encodings]

/-- `output @> jsonb_build_object('$artifact', id::text)`: an object with that member. -/
def containsRef (id : ArtifactID) : Json → Bool
  | .obj members => members.any fun
    | (key, .str text) => key == artifactRefKey && text == Encodings.formatID id
    | _ => false
  | _ => false

/-- `EXISTS` a step whose output contains the reference. -/
def outputContains (db : Db) (id : ArtifactID) : Bool :=
  db.runs.any fun r => r.steps.any fun s => s.output.any (containsRef id)

namespace Depot

/-- The first `limit` rows of the organization that match and that no other transaction locks. -/
def pick (d : Depot) (orgID : OrganizationID) (locked : List ArtifactID) (limit : Nat)
    (p : ArtifactID → ArtifactRow → Bool) : List (ArtifactID × ArtifactRow) :=
  (((d.artifacts.select fun id row => row.organizationID == orgID && p id row).filter
    fun e => !locked.contains e.1).insertionSort older).take limit

/-- A row that may become a victim: past the grace period, and either never finalized or not seen
by the containment query. -/
def orphan (d : Depot) (now : Time) (id : ArtifactID) (row : ArtifactRow) : Bool :=
  decide (row.createdAt < now - orphanGracePeriod) &&
    (row.status == .pendingUpload ||
      row.status == .ready && !outputContains d.world.db id)

/-- The size of a batch; none or a negative one means fifty. -/
def batch (batchSize : Int) : Nat := if batchSize ≤ 0 then 50 else batchSize.toNat

def resumed (d : Depot) (orgID : OrganizationID) (batchSize : Int) (locked : List ArtifactID) :
    List (ArtifactID × ArtifactRow) :=
  d.pick orgID locked (batch batchSize) fun _ row => row.status == .deleting

def cleanup (d : Depot) (orgID : OrganizationID) (batchSize : Int) (locked : List ArtifactID) :
    List (ArtifactID × ArtifactRow) :=
  d.pick orgID locked (batch batchSize - (d.resumed orgID batchSize locked).length) fun _ row =>
    row.status == .expired && row.expiresAt.isNone

def fresh (d : Depot) (orgID : OrganizationID) (batchSize : Int) (now : Time)
    (locked : List ArtifactID) : List (ArtifactID × ArtifactRow) :=
  d.pick orgID locked (batch batchSize - ((d.resumed orgID batchSize locked).length +
    (d.cleanup orgID batchSize locked).length)) (d.orphan now)

/-- The first transaction of `CollectGarbage`, `service.go:719-834`. The three
queries select by disjoint sets of states, so no victim is met twice. -/
def collect (d : Depot) (orgID : OrganizationID) (batchSize : Int) (now : Time)
    (locked : List ArtifactID) : Depot :=
  let fresh := d.fresh orgID batchSize now locked
  let old := d.resumed orgID batchSize locked ++ d.cleanup orgID batchSize locked
  { d with
    artifacts := d.artifacts.mapRows fun id row =>
      if id ∈ fresh.map Prod.fst then { row with status := row.status.mark } else row
    sweeps := d.sweeps ++
      [old.map (fun e => ⟨e.1, e.2.storageKey, e.2.status⟩) ++
        fresh.map fun e => ⟨e.1, e.2.storageKey, e.2.status.mark⟩] }

structure StoreAnswer where
  stat : Except ArtifactError Int
  delete : Except ArtifactError Unit

def StoreAnswer.gone (a : StoreAnswer) : Bool :=
  match a.delete with
  | .ok () => true
  | .error err => err == .objectNotFound

/-- The store is asked to delete the object of a victim; the row is closed if it is gone. -/
def delete (d : Depot) (v : Victim) (answer : StoreAnswer) : Depot :=
  { d with
    erased := d.erased ++ [v.id]
    confirmed := if answer.gone then d.confirmed ++ [v] else d.confirmed }

/-- The next victim of a sweep, `service.go:840-903`, up to the transaction that
closes its row. -/
def dispose (d : Depot) (index : Nat) (answer : StoreAnswer) : Depot :=
  match d.sweeps[index]? with
  | none => d
  | some [] => d
  | some (v :: rest) =>
    let d := { d with sweeps := d.sweeps.set index rest }
    if d.configured = false then d
    else
      match v.status with
      | .deleting => d.delete v answer
      | .expired =>
        match answer.stat with
        | .ok _ => d.delete v answer
        | .error err =>
          if err = .objectNotFound then { d with confirmed := d.confirmed ++ [v] } else d
      | _ => d

variable [Platform]

omit [Encodings] in
/-- The transaction that closes the row of a victim, `service.go:853-862`,
`:878-880` and `:889-897`. -/
def confirm (d : Depot) (orgID : OrganizationID) (index : Nat) : Depot :=
  match d.confirmed[index]? with
  | none => d
  | some v =>
    let now := Platform.clock d.world.db.sys.ticks
    let d := { d.advance 1 0 with confirmed := d.confirmed.eraseIdx index }
    { d with artifacts := d.artifacts.modify v.id fun row =>
        if row.organizationID ≠ orgID then row
        else
          match v.status, row.status with
          | .deleting, .deleting => { row with status := .deleted }
          | .expired, .expired =>
            if row.expiresAt.isNone then { row with expiresAt := some now } else row
          | _, _ => row }

inductive Event where
  /-- A transaction of the engine or a recovery. -/
  | operate (o : Operation)
  | reserve (req : ReserveRequest) (key : String)
  | snapshot (req : FinalizeRequest)
  /-- The check of a finalization's object and its second transaction. -/
  | transition (index : Nat) (store : ObjectStore)
  | collect (batchSize : Int) (now : Time) (locked : List ArtifactID)
  | dispose (index : Nat) (answer : StoreAnswer)
  | confirm (index : Nat)

def answered (d : Depot) (orgID : OrganizationID) : Operation → Operation
  | .engine (.complete session req _) =>
    .engine (.complete session req
      (if d.configured then lookupForCompletion d orgID req else .unavailable))
  | o => o

def finalize (d : Depot) (orgID : OrganizationID) (index : Nat) (store : ObjectStore) : Depot :=
  match d.finalizing[index]? with
  | none => d
  | some (req, row) =>
    let d := { d with finalizing := d.finalizing.eraseIdx index }
    match verifySnapshot (if d.configured then some store else none) row with
    | .error _ => d
    | .ok () => (transitionToReadyTx orgID req row).commit d

def step (orgID : OrganizationID) (d : Depot) : Event → Depot
  | .operate o => { d with world := d.world.operate (d.answered orgID o) }
  | .reserve req key => (reserveTx orgID req key).commit d
  | .snapshot req => (snapshotForFinalizeTx orgID req).commit d
  | .transition index store => d.finalize orgID index store
  | .collect batchSize now locked => d.collect orgID batchSize now locked
  | .dispose index answer => d.dispose index answer
  | .confirm index => d.confirm orgID index

def initial (fleet : Fleet) (configured : Bool) : Depot :=
  { world := World.initial fleet, artifacts := Table.empty, configured, finalizing := []
    sweeps := [], confirmed := [], erased := [] }

end Depot

def depot [Platform] (orgID : OrganizationID) : System Depot Depot.Event := ⟨Depot.step orgID⟩

/-! ### References and condemned artifacts -/

/-- The value holds a reference to the artifact, at any depth. -/
def Names (v : Json) (id : ArtifactID) : Prop :=
  ∃ ref ∈ collectArtifactRefs v, Encodings.parseID ref = some id

/-- A stored step output or run output names the artifact. No operation deletes runs or steps, so
every run is retained. -/
def References (db : Db) (id : ArtifactID) : Prop :=
  ∃ runID r, db.runs.find? runID = some r ∧
    ((∃ v, r.output = some v ∧ Names v id) ∨
      ∃ stepID s v, r.steps.find? stepID = some s ∧ s.output = some v ∧ Names v id)

instance (v : Json) (id : ArtifactID) : Decidable (Names v id) :=
  inferInstanceAs (Decidable (∃ ref ∈ collectArtifactRefs v, Encodings.parseID ref = some id))

theorem references_iff (db : Db) (id : ArtifactID) :
    References db id ↔ db.runs.any (fun r => r.output.any (fun v => decide (Names v id)) ||
      r.steps.any fun s => s.output.any fun v => decide (Names v id)) = true := by
  simp only [References, Table.any_eq_true, Table.find?_eq_some_iff, Bool.or_eq_true,
    Option.any_eq_true, decide_eq_true_eq, Prod.exists, exists_and_left]

instance (db : Db) (id : ArtifactID) : Decidable (References db id) :=
  decidable_of_iff _ (references_iff db id).symm

namespace Depot

/-- The artifact has reached a state that ends it. -/
def Condemned (d : Depot) (id : ArtifactID) : Prop :=
  ∃ row, d.artifacts.find? id = some row ∧ row.status.condemned = true

instance (d : Depot) (id : ArtifactID) : Decidable (d.Condemned id) :=
  decidable_of_iff ((d.artifacts.find? id).any fun row => row.status.condemned) (by
    simp [Condemned, Option.any_eq_true])

/-- Every artifact past its grace period that an output names at any depth is finalized, and also
named by the whole output of a step, in the spelling of the database. -/
def Visible (d : Depot) (e : Event) : Prop :=
  ∀ batchSize now locked, e = .collect batchSize now locked → ∀ id row,
    References d.world.db id → d.artifacts.find? id = some row →
      row.createdAt < now - orphanGracePeriod →
      row.status ≠ .pendingUpload ∧
        (row.status = .ready → outputContains d.world.db id = true)

/-- The event associates the artifact with a completion. -/
def Associates (d : Depot) (orgID : OrganizationID) (e : Event) (id : ArtifactID) : Prop :=
  ∃ session req lookup, e = .operate (.engine (.complete session req lookup)) ∧
    Encodings.parseID req.artifactID = some id ∧ lookupForCompletion d orgID req = .found

variable [Platform]

/-- The event commits no new reference to a condemned artifact, but for the one `Complete` itself
associates. -/
def Admits (d : Depot) (orgID : OrganizationID) (e : Event) : Prop :=
  ∀ id, References (d.step orgID e).world.db id → d.Condemned id →
    References d.world.db id ∨ d.Associates orgID e id

/-! ### What an event does to the rows -/

/-- The runs and the collector's records are as before, and so is every condemnation. -/
structure Calm (d d' : Depot) : Prop where
  runs : d'.world.db.runs = d.world.db.runs
  sweeps : d'.sweeps = d.sweeps
  confirmed : d'.confirmed = d.confirmed
  erased : d'.erased = d.erased
  condemned : ∀ id, d'.Condemned id ↔ d.Condemned id

omit [Encodings] [Platform] in
theorem Calm.refl (d : Depot) : d.Calm d := ⟨rfl, rfl, rfl, rfl, fun _ => Iff.rfl⟩

variable {d : Depot} {orgID : OrganizationID} {locked : List ArtifactID} {batchSize : Int}
  {now : Time}

omit [Encodings] [Platform] in
theorem calm_commit {α : Type} {x : DepotTx α} (h : Commits x d fun _ d' => d.Calm d') :
    d.Calm (x.commit d) := by
  unfold Tx.commit
  split
  · next d' hx => exact h _ d' hx
  · exact .refl d

omit [Encodings] in
theorem commits_liveOwnerTx (id : AttemptID) (d : Depot) :
    Commits (liveOwnerTx id) d fun _ d' => d' = d.advance 3 0 := by
  simp only [liveOwnerTx, commits_bind, commits_read, DepotTx.commits_clockTimestamp]
  split
  · simp
  · simp only [commits_bind, commits_require, commits_pure]
    intro _ _ _
    rfl

/-- A reservation inserts a row that is not condemned. -/
theorem reserve_calm (d : Depot) (orgID : OrganizationID) (req : ReserveRequest) (key : String) :
    d.Calm ((reserveTx orgID req key).commit d) := by
  refine calm_commit ?_
  simp only [reserveTx, commits_bind, commits_read, commits_require]
  intro _ _ _
  split
  · simp
  · simp only [commits_bind, commits_require]
    intro _ _
    refine (commits_liveOwnerTx _ d).mono fun o d' hd' => ?_
    subst hd'
    intro _ _ _ _ _ _
    simp only [DepotTx.commits_clockTimestamp, DepotTx.commits_newID]
    split
    · simp
    · next artifacts hins =>
      simp only [commits_bind, commits_write, commits_pure]
      refine ⟨rfl, rfl, rfl, rfl, fun id => ?_⟩
      unfold Condemned
      simp only [id_eq] at hins
      rw [Table.find?_insert? hins]
      split
      · next hid =>
        subst hid
        simp [(Table.insert?_eq_some _ _ _ _ hins).1, ArtifactStatus.condemned]
      · rfl

theorem snapshot_calm (d : Depot) (orgID : OrganizationID) (req : FinalizeRequest) :
    d.Calm ((snapshotForFinalizeTx orgID req).commit d) := by
  refine calm_commit ?_
  simp only [snapshotForFinalizeTx, commits_bind, commits_read]
  split
  · simp
  · simp only [commits_bind, commits_require]
    intro _
    split
    · simp
    · simp only [commits_bind, commits_require]
      refine (commits_liveOwnerTx _ d).mono fun o d' hd' => ?_
      subst hd'
      simp only [commits_write]
      intro _ _ _ _ _ _
      exact ⟨rfl, rfl, rfl, rfl, fun _ => Iff.rfl⟩

omit [Encodings] in
theorem transition_calm (d : Depot) (orgID : OrganizationID) (req : FinalizeRequest)
    (snapshot : ArtifactRow) : d.Calm ((transitionToReadyTx orgID req snapshot).commit d) := by
  refine calm_commit ?_
  simp only [transitionToReadyTx, commits_bind, commits_read]
  split
  · simp
  · next row hrow =>
    split
    · simp
    · simp only [commits_bind]
      refine (commits_liveOwnerTx _ d).mono fun o d' hd' => ?_
      subst hd'
      simp only [commits_require, commits_write]
      intro _ hpending
      refine ⟨rfl, rfl, rfl, rfl, fun id => ?_⟩
      have hfind := (Option.filter_eq_some_iff.mp hrow).1
      unfold Condemned
      simp only [artifacts_advance, Table.find?_modify]
      by_cases hid : id = req.artifactID
      · subst hid
        simp only [id_eq] at hfind
        simp [hfind, hpending.1, ArtifactStatus.condemned]
      · simp [hid]

theorem finalize_calm (d : Depot) (orgID : OrganizationID) (index : Nat) (store : ObjectStore) :
    d.Calm (d.finalize orgID index store) := by
  unfold finalize
  split
  · exact .refl d
  · next req row _ =>
    have hlist : d.Calm { d with finalizing := d.finalizing.eraseIdx index } :=
      ⟨rfl, rfl, rfl, rfl, fun _ => Iff.rfl⟩
    dsimp only
    split
    · exact hlist
    · have ht := transition_calm { d with finalizing := d.finalizing.eraseIdx index } orgID req row
      exact ⟨ht.runs, ht.sweeps, ht.confirmed, ht.erased, ht.condemned⟩

omit [Encodings] in
theorem condemned_confirm (d : Depot) (orgID : OrganizationID) (index : Nat) (id : ArtifactID) :
    (d.confirm orgID index).Condemned id ↔ d.Condemned id := by
  unfold confirm
  split
  · rfl
  · next v _ =>
    unfold Condemned
    simp only [artifacts_advance, Table.find?_modify]
    cases d.artifacts.find? id with
    | none => simp
    | some row =>
      simp only [Option.map_some, Option.some.injEq, exists_eq_left']
      split
      · split
        · rfl
        · split
          · next hrow => simp [hrow, ArtifactStatus.condemned]
          · split <;> rfl
          · rfl
      · rfl

omit [Encodings] [Platform] in
theorem find?_of_mem_pick {limit : Nat} {p : ArtifactID → ArtifactRow → Bool}
    {e : ArtifactID × ArtifactRow} (h : e ∈ d.pick orgID locked limit p) :
    d.artifacts.find? e.1 = some e.2 ∧ p e.1 e.2 = true := by
  have hsel := List.mem_of_mem_filter
    ((List.mem_insertionSort older).mp (List.mem_of_mem_take h))
  rw [Table.mem_select, Bool.and_eq_true] at hsel
  exact ⟨(d.artifacts.find?_eq_some_iff e.1 e.2).mpr hsel.1, hsel.2.2⟩

omit [Platform] in
theorem condemned_collect {id : ArtifactID}
    (h : (d.collect orgID batchSize now locked).Condemned id) :
    d.Condemned id ∨ ∃ row, d.artifacts.find? id = some row ∧ d.orphan now id row = true := by
  obtain ⟨row', hrow', hc⟩ := h
  simp only [collect, Table.find?_mapRows, Option.map_eq_some_iff] at hrow'
  obtain ⟨row, hrow, rfl⟩ := hrow'
  split at hc
  · next hmem =>
    obtain ⟨e, he, rfl⟩ := List.mem_map.mp hmem
    exact .inr ⟨e.2, find?_of_mem_pick he⟩
  · exact .inl ⟨row, hrow, hc⟩

omit [Platform] in
theorem Condemned.collect {id : ArtifactID} (h : d.Condemned id) (orgID : OrganizationID)
    (batchSize : Int) (now : Time) (locked : List ArtifactID) :
    (d.collect orgID batchSize now locked).Condemned id := by
  obtain ⟨row, hrow, hc⟩ := h
  refine ⟨_, by rw [Depot.collect, Table.find?_mapRows, hrow, Option.map_some], ?_⟩
  split
  · exact row.status.condemned_mark
  · exact hc

omit [Platform] in
theorem condemned_victims {vs : List Victim} {v : Victim}
    (hvs : vs ∈ (d.collect orgID batchSize now locked).sweeps) (hv : v ∈ vs) :
    vs ∈ d.sweeps ∨ (d.collect orgID batchSize now locked).Condemned v.id := by
  simp only [Depot.collect, List.mem_append, List.mem_singleton] at hvs
  rcases hvs with hvs | rfl
  · exact .inl hvs
  refine .inr ?_
  simp only [List.map_append, List.mem_append, List.mem_map] at hv
  -- Resumed victims are condemned already, the new ones are marked by the update.
  rcases hv with (⟨e, he, rfl⟩ | ⟨e, he, rfl⟩) | ⟨e, he, rfl⟩
  · obtain ⟨hf, hp⟩ := find?_of_mem_pick he
    exact Condemned.collect ⟨e.2, hf, by rw [eq_of_beq hp]; rfl⟩ ..
  · obtain ⟨hf, hp⟩ := find?_of_mem_pick he
    rw [Bool.and_eq_true] at hp
    exact Condemned.collect ⟨e.2, hf, by rw [eq_of_beq hp.1]; rfl⟩ ..
  · have hmem : e.1 ∈ (d.fresh orgID batchSize now locked).map Prod.fst := List.mem_map_of_mem he
    have hf := (find?_of_mem_pick he).1
    refine ⟨_, by rw [Depot.collect, Table.find?_mapRows, hf, Option.map_some], ?_⟩
    rw [if_pos hmem]
    exact e.2.status.condemned_mark

/-! ### Safety -/

/-- No condemned artifact is referenced, and the collector has only ever processed condemned
ones. -/
structure Spared (d : Depot) : Prop where
  referenced : ∀ id, References d.world.db id → ¬ d.Condemned id
  sweeps : ∀ vs ∈ d.sweeps, ∀ v ∈ vs, d.Condemned v.id
  confirmed : ∀ v ∈ d.confirmed, d.Condemned v.id
  erased : ∀ id ∈ d.erased, d.Condemned id

omit [Platform] in
theorem references_congr {db db' : Db} (h : db'.runs = db.runs) (id : ArtifactID) :
    References db' id ↔ References db id := by
  unfold References
  rw [h]

omit [Platform] in
theorem Spared.calm {d' : Depot} (h : d.Spared) (hc : d.Calm d') : d'.Spared where
  referenced id hr hcond :=
    h.referenced id ((references_congr hc.runs id).mp hr) ((hc.condemned id).mp hcond)
  sweeps vs hvs v hv := (hc.condemned _).mpr (h.sweeps vs (hc.sweeps ▸ hvs) v hv)
  confirmed v hv := (hc.condemned _).mpr (h.confirmed v (hc.confirmed ▸ hv))
  erased id hid := (hc.condemned _).mpr (h.erased id (hc.erased ▸ hid))

theorem Spared.operate (h : d.Spared) {o : Operation} (ha : d.Admits orgID (.operate o)) :
    (d.step orgID (.operate o)).Spared where
  referenced id hr hcond := by
    rcases ha id hr hcond with hold | ⟨session, req, lookup, -, hid, hfound⟩
    · exact h.referenced id hold hcond
    · -- The association found the row `READY`.
      obtain ⟨row, hrow, hready⟩ := ready_of_lookupForCompletion hid hfound
      obtain ⟨row', hrow', hc⟩ := hcond
      obtain rfl := Option.mem_unique hrow hrow'
      rw [hready] at hc
      cases hc
  sweeps := h.sweeps
  confirmed := h.confirmed
  erased := h.erased

omit [Platform] in
theorem Spared.collect (h : d.Spared) (hv : d.Visible (.collect batchSize now locked))
    (orgID : OrganizationID) : (d.collect orgID batchSize now locked).Spared where
  referenced id hr hcond := by
    rcases condemned_collect hcond with hold | ⟨row, hrow, horphan⟩
    · exact h.referenced id hr hold
    · rw [orphan, Bool.and_eq_true, decide_eq_true_eq] at horphan
      obtain ⟨hpending, hready⟩ := hv _ _ _ rfl id row hr hrow horphan.1
      have hkind := horphan.2
      rw [Bool.or_eq_true, Bool.and_eq_true, beq_iff_eq, beq_iff_eq] at hkind
      rcases hkind with hp | ⟨hp, hunseen⟩
      · exact hpending hp
      · simp [hready hp] at hunseen
  sweeps vs hvs v hv := by
    rcases condemned_victims hvs hv with hold | hnew
    · exact (h.sweeps vs hold v hv).collect ..
    · exact hnew
  confirmed v hv := (h.confirmed v hv).collect ..
  erased id hid := (h.erased id hid).collect ..

omit [Platform] in
/-- A depot that differs in the collector's records only, each of them a condemned artifact. -/
theorem Spared.records {d' : Depot} (h : d.Spared) (hw : d'.world = d.world)
    (ha : d'.artifacts = d.artifacts) (hs : ∀ vs ∈ d'.sweeps, ∀ v ∈ vs, d.Condemned v.id)
    (hc : ∀ v ∈ d'.confirmed, d.Condemned v.id) (he : ∀ id ∈ d'.erased, d.Condemned id) :
    d'.Spared := by
  have hiff (id : ArtifactID) : d'.Condemned id ↔ d.Condemned id := by
    unfold Condemned
    rw [ha]
  exact ⟨fun id hr hcond => h.referenced id (hw ▸ hr) ((hiff id).mp hcond),
    fun vs hvs v hv => (hiff _).mpr (hs vs hvs v hv), fun v hv => (hiff _).mpr (hc v hv),
    fun id hid => (hiff _).mpr (he id hid)⟩

omit [Platform] in
theorem Spared.dispose (h : d.Spared) (index : Nat) (answer : StoreAnswer) :
    (d.dispose index answer).Spared := by
  unfold Depot.dispose
  split
  · exact h
  · exact h
  · next v rest hsweep =>
    have hmem : v :: rest ∈ d.sweeps := List.mem_of_getElem? hsweep
    have hv : d.Condemned v.id := h.sweeps _ hmem v List.mem_cons_self
    have hsweeps : ∀ vs ∈ d.sweeps.set index rest, ∀ v ∈ vs, d.Condemned v.id := by
      intro vs hvs v' hv'
      rcases List.mem_or_eq_of_mem_set hvs with hold | rfl
      · exact h.sweeps vs hold v' hv'
      · exact h.sweeps _ hmem v' (List.mem_cons_of_mem _ hv')
    have hconfirmed : ∀ v' ∈ d.confirmed ++ [v], d.Condemned v'.id := by
      intro v' hv'
      rcases List.mem_append.mp hv' with hold | hnew
      · exact h.confirmed v' hold
      · exact List.mem_singleton.mp hnew ▸ hv
    have hdelete : ({ d with sweeps := d.sweeps.set index rest }.delete v answer).Spared := by
      refine h.records rfl rfl hsweeps ?_ ?_
      · unfold delete
        dsimp only
        split
        · exact hconfirmed
        · exact h.confirmed
      · intro id hid
        rcases List.mem_append.mp hid with hold | hnew
        · exact h.erased id hold
        · exact List.mem_singleton.mp hnew ▸ hv
    have hskip : ({ d with sweeps := d.sweeps.set index rest } : Depot).Spared :=
      h.records rfl rfl hsweeps h.confirmed h.erased
    dsimp only
    split
    · exact hskip
    · split
      · exact hdelete
      · split
        · exact hdelete
        · split
          · exact h.records rfl rfl hsweeps hconfirmed h.erased
          · exact hskip
      · exact hskip

theorem Spared.confirm (h : d.Spared) (orgID : OrganizationID) (index : Nat) :
    (d.confirm orgID index).Spared := by
  have hiff := condemned_confirm d orgID index
  have hruns : (d.confirm orgID index).world.db.runs = d.world.db.runs := by
    unfold Depot.confirm
    split <;> rfl
  have hsweeps : (d.confirm orgID index).sweeps = d.sweeps := by
    unfold Depot.confirm
    split <;> rfl
  have herased : (d.confirm orgID index).erased = d.erased := by
    unfold Depot.confirm
    split <;> rfl
  have hconfirmed : ∀ v ∈ (d.confirm orgID index).confirmed, v ∈ d.confirmed := by
    intro v hv
    unfold Depot.confirm at hv
    split at hv
    · exact hv
    · exact List.mem_of_mem_eraseIdx hv
  exact ⟨fun id hr hc => h.referenced id ((references_congr hruns id).mp hr) ((hiff id).mp hc),
    fun vs hvs v hv => (hiff _).mpr (h.sweeps vs (hsweeps ▸ hvs) v hv),
    fun v hv => (hiff _).mpr (h.confirmed v (hconfirmed v hv)),
    fun id hid => (hiff _).mpr (h.erased id (herased ▸ hid))⟩

theorem Spared.step (h : d.Spared) {e : Event} (hv : d.Visible e) (ha : d.Admits orgID e) :
    (d.step orgID e).Spared := by
  cases e with
  | operate o => exact h.operate ha
  | reserve req key => exact h.calm (reserve_calm d orgID req key)
  | snapshot req => exact h.calm (snapshot_calm d orgID req)
  | transition index store => exact h.calm (finalize_calm d orgID index store)
  | collect batchSize now locked => exact h.collect hv orgID
  | dispose index answer => exact h.dispose index answer
  | confirm index => exact h.confirm orgID index

omit [Platform] in
theorem spared_initial (fleet : Fleet) (configured : Bool) : (initial fleet configured).Spared where
  referenced := by
    rintro id - ⟨row, hrow, -⟩
    cases hrow
  sweeps vs hvs := absurd hvs List.not_mem_nil
  confirmed v hv := absurd hv List.not_mem_nil
  erased id hid := absurd hid List.not_mem_nil

end Depot

/-- In every run of the depot whose sweeps see the references there are, and whose other events
commit no reference to an artifact that is already given up, no artifact that a stored output names
is on its way out, and none has had its object deleted. -/
theorem collector_spares_referenced [Platform] (orgID : OrganizationID) (fleet : Fleet)
    (configured : Bool) (es : List Depot.Event)
    (h : (depot orgID).Along (fun d e => d.Visible e ∧ d.Admits orgID e)
      (Depot.initial fleet configured) es)
    (id : ArtifactID)
    (hr : References ((depot orgID).exec (Depot.initial fleet configured) es).world.db id) :
    ¬ ((depot orgID).exec (Depot.initial fleet configured) es).Condemned id ∧
      id ∉ ((depot orgID).exec (Depot.initial fleet configured) es).erased := by
  have hs := (depot orgID).invariant (I := Depot.Spared)
    (fun d e hd he => hd.step he.1 he.2) (Depot.spared_initial fleet configured) h
  exact ⟨hs.referenced id hr, fun he => hs.referenced id hr (hs.erased id he)⟩

/-- A test that implies the two conditions: nothing is condemned yet, and a sweep finds every
artifact finalized and named by the whole output of a step. -/
def Depot.quiet (d : Depot) (e : Depot.Event) : Bool :=
  d.artifacts.rows.all fun r => !r.2.status.condemned &&
    match e with
    | .collect _ _ _ => r.2.status != .pendingUpload && outputContains d.world.db r.1
    | _ => true

theorem Depot.meets_of_quiet [Platform] {orgID : OrganizationID} {d : Depot} {e : Depot.Event}
    (h : d.quiet e = true) : d.Visible e ∧ d.Admits orgID e := by
  have hrow (id : ArtifactID) (row : ArtifactRow) (hf : d.artifacts.find? id = some row) :=
    List.all_eq_true.mp h (id, row) ((d.artifacts.find?_eq_some_iff id row).mp hf)
  simp only [Bool.and_eq_true] at hrow
  constructor
  · rintro batchSize now locked rfl id row - hf -
    have hseen := (hrow id row hf).2
    simp only [Bool.and_eq_true, bne_iff_ne] at hseen
    exact ⟨hseen.1, fun _ => hseen.2⟩
  · rintro id - ⟨row, hf, hc⟩
    exact absurd hc (by simpa using (hrow id row hf).1)

end

/-! ### Two uploads -/

namespace Sample

open Execution.Sample

def uploaded : List Depot.Event :=
  started.map (fun a => .operate (.engine a)) ++
    [.reserve ⟨0, 2, 1, 2, artifact.sha256Hash, some 1, some 1⟩ "run/1",
      .snapshot ⟨3, 2, 1, artifact.sha256Hash, some 1, some 1⟩, .transition 0 store]

def completedWith (output : Option Json) (artifactID : String) : List Depot.Event :=
  uploaded ++
    [.operate (.engine (.complete session
        { completion 2 .succeeded none with output := output, artifactID := artifactID }
        .unavailable)),
      .collect 50 (2 * orphanGracePeriod) []]

def depotAfter (es : List Depot.Event) : Depot :=
  (@depot encodings platform 1).exec (Depot.initial (single "safe-retry" none) true) es

end Sample

/-- An artifact associated with a completion outlives the sweeps. -/
theorem collector_spares_referenced_association :
    @References Sample.encodings
        (Sample.depotAfter (Sample.completedWith none "111")).world.db 3 ∧
      ¬ (Sample.depotAfter (Sample.completedWith none "111")).Condemned 3 ∧
      3 ∉ (Sample.depotAfter (Sample.completedWith none "111")).erased := by
  have hr : @References Sample.encodings
      (Sample.depotAfter (Sample.completedWith none "111")).world.db 3 := by decide +kernel
  have hquiet : (@depot Sample.encodings Execution.Sample.platform 1).Along
      (fun d e => @Depot.quiet Sample.encodings d e = true)
      (Depot.initial (Execution.Sample.single "safe-retry" none) true)
      (Sample.completedWith none "111") := by decide +kernel
  exact ⟨hr, @collector_spares_referenced Sample.encodings Execution.Sample.platform 1 _ true _
    (hquiet.mono _ fun _ _ h =>
      @Depot.meets_of_quiet Sample.encodings Execution.Sample.platform _ _ _ h) 3 hr⟩

/-- An output that holds the reference inside an object does not save the artifact. -/
theorem nested_reference_collected :
    let d := Sample.depotAfter
      (Sample.completedWith (some (.obj [("file", artifactRef "111")])) "")
    @References Sample.encodings d.world.db 3 ∧
      (d.artifacts.find? 3).map ArtifactRow.status = some .deleting := by
  decide +kernel

end Deadbolt.Artifacts
