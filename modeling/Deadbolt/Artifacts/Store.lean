import Deadbolt.Artifacts.References
import Deadbolt.Base.Fallible
import Deadbolt.Execution.State

/-!
# Artifact rows and the object store

`internal/artifacts/service.go`: the upload records, what the service asks of the object store, and
`VerifyReferences`. The store answers by storage key; the answers are what the environment decides.
-/

namespace Deadbolt.Artifacts

open Base Contracts Execution

abbrev ArtifactID := Nat
abbrev OrganizationID := Nat

inductive ArtifactStatus where
  | pendingUpload | ready | deleting | deleted | expired
  deriving DecidableEq

structure ArtifactRow where
  organizationID : OrganizationID
  environmentID : EnvironmentID
  runID : RunID
  stepID : StepID
  attemptID : Option AttemptID
  storageKey : String
  sizeBytes : Int
  sha256Hash : String
  status : ArtifactStatus
  expiresAt : Option Time
  createdAt : Time

/-- The errors of the artifact service, `service.go:48-60`, with the failed cast
of an id and the other errors of the store. -/
inductive ArtifactError where
  | objectNotFound | artifactNotFound | artifactNotReady | artifactExpired | tooLarge
  | quotaExceeded | sizeMismatch | checksumMismatch | reservationMismatch | notOwned
  | storeUnavailable | invalidID | provider
  deriving DecidableEq

/-- What the artifact service takes from outside: the text form of ids, the digest, and
`strings.ToLower(strings.TrimSpace(…))`. -/
class Encodings where
  formatID : ArtifactID → String
  parseID : String → Option ArtifactID
  parse_format : ∀ id, parseID (formatID id) = some id
  sha256Hex : List UInt8 → String
  lowerTrim : String → String

/-- `ObjectStore`, as far as the service reads it. -/
structure ObjectStore where
  stat : String → Except ArtifactError Int
  fetch : String → Except ArtifactError (List UInt8)

/-- The query of `VerifyReferences`, `service.go:1015-1017`. -/
def fetchReady (artifacts : Table ArtifactID ArtifactRow) (orgID : OrganizationID)
    (keys : List ArtifactID) : List (ArtifactID × ArtifactRow) :=
  artifacts.select fun id row =>
    row.organizationID == orgID && keys.contains id && row.status == .ready

theorem mem_fetchReady {artifacts : Table ArtifactID ArtifactRow} {orgID : OrganizationID}
    {keys : List ArtifactID} {id : ArtifactID} {row : ArtifactRow} :
    (id, row) ∈ fetchReady artifacts orgID keys ↔
      artifacts.find? id = some row ∧ row.organizationID = orgID ∧ id ∈ keys ∧
        row.status = .ready := by
  rw [fetchReady, Table.mem_select, Table.find?_eq_some_iff]
  simp [and_assoc]

theorem length_fetchReady {artifacts : Table ArtifactID ArtifactRow} {orgID : OrganizationID}
    {keys : List ArtifactID} (hn : keys.Nodup) :
    (fetchReady artifacts orgID keys).length = keys.length ↔
      ∀ id ∈ keys, ∃ row, artifacts.find? id = some row ∧ row.organizationID = orgID ∧
        row.status = .ready := by
  generalize hrefs : fetchReady artifacts orgID keys = refs
  have hmem (id row) : (id, row) ∈ refs ↔ artifacts.find? id = some row ∧
      row.organizationID = orgID ∧ id ∈ keys ∧ row.status = .ready := hrefs ▸ mem_fetchReady
  have hnodup : (refs.map Prod.fst).Nodup :=
    hrefs ▸ artifacts.nodup.sublist (List.filter_sublist.map _)
  have hsub : refs.map Prod.fst ⊆ keys := by
    intro id hid
    obtain ⟨⟨_, row⟩, hr, rfl⟩ := List.mem_map.mp hid
    exact ((hmem _ _).mp hr).2.2.1
  have hlm : (refs.map Prod.fst).length = refs.length := List.length_map _
  rw [← hlm]
  constructor
  · intro hlen id hid
    have hperm := (List.subperm_of_subset hnodup hsub).perm_of_length_le hlen.ge
    obtain ⟨⟨_, row⟩, hr, rfl⟩ := List.mem_map.mp (hperm.mem_iff.mpr hid)
    obtain ⟨hf, horg, -, hready⟩ := (hmem _ _).mp hr
    exact ⟨row, hf, horg, hready⟩
  · intro hall
    have hsup : keys ⊆ refs.map Prod.fst := by
      intro id hid
      obtain ⟨row, hf, horg, hready⟩ := hall id hid
      exact List.mem_map.mpr ⟨(id, row), (hmem _ _).mpr ⟨hf, horg, hid, hready⟩, rfl⟩
    exact le_antisymm (List.subperm_of_subset hnodup hsub).length_le
      (List.subperm_of_subset hn hsup).length_le

section

variable [Encodings]

/-- The check of a stored object, `service.go:1038-1063` and again `:492-512`
and `:617-637`. -/
def verifyObject (store : ObjectStore) (key : String) (sizeBytes : Int) (sha256 : String) :
    Except ArtifactError Unit :=
  match store.stat key with
  | .error err => .error err
  | .ok size =>
    if size ≠ sizeBytes then .error .sizeMismatch
    else
      match store.fetch key with
      | .error err => .error err
      | .ok body =>
        if (body.length : Int) ≠ sizeBytes ∨ Encodings.sha256Hex body ≠ sha256 then
          .error .checksumMismatch
        else .ok ()

/-- `VerifyReferences`, `service.go:1005-1066`. The rows are fetched by a set
of ids and counted against the list. -/
def verifyReferences (store : Option ObjectStore) (artifacts : Table ArtifactID ArtifactRow)
    (orgID : OrganizationID) (ids : List String) : Except ArtifactError Unit :=
  if ids = [] then .ok ()
  else
    match ids.mapM Encodings.parseID with
    | none => .error .invalidID
    | some keys =>
      let refs := fetchReady artifacts orgID keys
      if refs.length ≠ ids.length then .error .artifactNotFound
      else
        match store with
        | none => .error .storeUnavailable
        | some store =>
          refs.forM fun ref => verifyObject store ref.2.storageKey ref.2.sizeBytes ref.2.sha256Hash

/-! ### What verification establishes -/

/-- The object under the row's key has the row's size and digest. -/
structure ArtifactRow.Intact (row : ArtifactRow) (store : ObjectStore) : Prop where
  stat : store.stat row.storageKey = .ok row.sizeBytes
  body : ∃ bytes, store.fetch row.storageKey = .ok bytes ∧ (bytes.length : Int) = row.sizeBytes ∧
    Encodings.sha256Hex bytes = row.sha256Hash

/-- The artifact is in the tenant scope, `READY`, and its object is as reserved. -/
def Available (store : Option ObjectStore) (artifacts : Table ArtifactID ArtifactRow)
    (orgID : OrganizationID) (id : ArtifactID) : Prop :=
  ∃ row s, artifacts.find? id = some row ∧ row.organizationID = orgID ∧ row.status = .ready ∧
    store = some s ∧ row.Intact s

theorem verifyObject_ok {store : ObjectStore} {row : ArtifactRow} :
    verifyObject store row.storageKey row.sizeBytes row.sha256Hash = .ok () ↔ row.Intact store := by
  constructor
  · intro h
    unfold verifyObject at h
    split at h
    · cases h
    · next size hs =>
      split at h
      · cases h
      · next hsize =>
        split at h
        · cases h
        · next body hb =>
          split at h
          · cases h
          · next hbad =>
            have hsize : size = row.sizeBytes := not_not.mp hsize
            exact ⟨hsize ▸ hs, body, hb, by tauto, by tauto⟩
  · rintro ⟨hs, body, hb, hlen, hsha⟩
    simp [verifyObject, hs, hb, hlen, hsha]

/-- Verification of ids that parse, as the conjunction of its checks. -/
theorem verifyReferences_keys {store : Option ObjectStore}
    {artifacts : Table ArtifactID ArtifactRow} {orgID : OrganizationID} {ids : List String}
    {keys : List ArtifactID} (hkeys : ids.map Encodings.parseID = keys.map some)
    (hn : keys.Nodup) :
    verifyReferences store artifacts orgID ids = .ok () ↔
      ∀ id ∈ keys, Available store artifacts orgID id := by
  have hlen : ids.length = keys.length := by simpa using congrArg List.length hkeys
  rcases eq_or_ne ids [] with rfl | hne
  · obtain rfl : keys = [] := List.length_eq_zero_iff.mp hlen.symm
    simp [verifyReferences]
  · obtain ⟨key, hkey⟩ : ∃ key, key ∈ keys := by
      refine List.exists_mem_of_ne_nil keys fun h => hne ?_
      exact List.length_eq_zero_iff.mp (hlen.trans (h ▸ rfl))
    rw [verifyReferences, if_neg hne, Fallible.mapM_eq_some.mpr hkeys]
    dsimp only
    rw [hlen]
    by_cases hcount : ∀ id ∈ keys, ∃ row, artifacts.find? id = some row ∧
        row.organizationID = orgID ∧ row.status = .ready
    · rw [if_neg (not_not.mpr ((length_fetchReady hn).mpr hcount))]
      cases store with
      | none =>
        refine ⟨fun h => (by cases h), fun h => ?_⟩
        obtain ⟨_, _, -, -, -, hs, -⟩ := h key hkey
        cases hs
      | some store =>
        dsimp only
        rw [Fallible.forM_eq_ok]
        simp only [verifyObject_ok]
        constructor
        · intro h id hid
          obtain ⟨row, hf, horg, hready⟩ := hcount id hid
          exact ⟨row, store, hf, horg, hready, rfl,
            h (id, row) (mem_fetchReady.mpr ⟨hf, horg, hid, hready⟩)⟩
        · rintro h ⟨id, row⟩ hr
          obtain ⟨hf, horg, hid, hready⟩ := mem_fetchReady.mp hr
          obtain ⟨row', _, hf', -, -, hs, hi⟩ := h id hid
          cases hs
          obtain rfl := Option.mem_unique hf' hf
          exact hi
    · rw [if_pos fun h => hcount ((length_fetchReady hn).mp h)]
      refine ⟨fun h => (by cases h), fun h => absurd (fun id hid => ?_) hcount⟩
      obtain ⟨row, _, hf, horg, hready, -⟩ := h id hid
      exact ⟨row, hf, horg, hready⟩

end

/-! ### A value that names one artifact twice -/

namespace Sample

@[reducible]
def encodings : Encodings where
  formatID id := String.ofList (List.replicate id '1')
  parseID text := if text.toList.all (· == '1') then some text.toList.length else none
  parse_format id := by simp
  sha256Hex bytes := String.ofList (List.replicate (62 + bytes.length) '0')
  lowerTrim text := text

def artifact : ArtifactRow where
  organizationID := 1
  environmentID := 1
  runID := 1
  stepID := 1
  attemptID := none
  storageKey := "run/1"
  sizeBytes := 2
  sha256Hash := String.ofList (List.replicate 64 '0')
  status := .ready
  expiresAt := none
  createdAt := 0

def artifacts : Table ArtifactID ArtifactRow := Table.empty.put 1 artifact

def store : ObjectStore where
  stat key := if key = "run/1" then .ok 2 else .error .objectNotFound
  fetch key := if key = "run/1" then .ok [7, 7] else .error .objectNotFound

end Sample

theorem available_sample : @Available Sample.encodings (some Sample.store) Sample.artifacts 1 1 := by
  have hintact : @ArtifactRow.Intact Sample.encodings Sample.artifact Sample.store :=
    @ArtifactRow.Intact.mk Sample.encodings _ _ rfl ⟨[7, 7], rfl, rfl, by decide⟩
  exact ⟨Sample.artifact, Sample.store, rfl, rfl, rfl, rfl, hintact⟩

end Deadbolt.Artifacts
