import Deadbolt.Base.Table
import Deadbolt.Contracts.Json

/-!
# Bundle digests

The bundle files and the bundle digest of `buildDeploymentBundle`,
`sdk/typescript/src/bundle.ts:138-175`. A string of JavaScript is a list of code units. The digest
is of the paths and contents one after the other: a NUL ends a path, and nothing ends a content.
-/

namespace Deadbolt.Sdk.Bundle

open Contracts

abbrev CodeUnit := Fin 65536
abbrev JSString := List CodeUnit

/-- The bytes of a code unit that is no half of a pair; a half alone becomes U+FFFD. -/
def utf8Unit (u : CodeUnit) : List UInt8 :=
  if u.val < 0x80 then [.ofNat u.val]
  else if u.val < 0x800 then [.ofNat (0xc0 + u.val / 64), .ofNat (0x80 + u.val % 64)]
  else if 0xd800 ≤ u.val ∧ u.val < 0xe000 then [0xef, 0xbf, 0xbd]
  else [.ofNat (0xe0 + u.val / 4096), .ofNat (0x80 + u.val / 64 % 64), .ofNat (0x80 + u.val % 64)]

def utf8Pair (high low : CodeUnit) : List UInt8 :=
  let n := 0x10000 + (high.val - 0xd800) * 1024 + (low.val - 0xdc00)
  [.ofNat (0xf0 + n / 262144), .ofNat (0x80 + n / 4096 % 64), .ofNat (0x80 + n / 64 % 64),
   .ofNat (0x80 + n % 64)]

/-- `new TextEncoder().encode(s)`, and what `hash.update(s)` reads. -/
def utf8 : JSString → List UInt8
  | [] => []
  | [u] => utf8Unit u
  | u :: v :: rest =>
    if 0xd800 ≤ u.val ∧ u.val < 0xdc00 ∧ 0xdc00 ≤ v.val ∧ v.val < 0xe000 then
      utf8Pair u v ++ utf8 rest
    else utf8Unit u ++ utf8 (v :: rest)

def ascii (s : String) : JSString := s.toList.map fun c => Fin.ofNat 65536 c.toNat

inductive Architecture where
  | amd64
  | arm64
  deriving DecidableEq

inductive Content where
  | text (s : JSString)
  | bytes (b : List UInt8)
  deriving DecidableEq

def Content.encode : Content → List UInt8
  | text s => utf8 s
  | bytes b => b

/-- The options that the digest depends on. An object has each key once. -/
structure BundleOptions where
  targetArchitecture : Option Architecture
  bundleFiles : Option (List (JSString × Content))
  bundleDigest : Option String
  distinct : ((bundleFiles.getD []).map Prod.fst).Nodup

/-- `createHash("sha256")` with a hexadecimal digest. -/
class Sha256 where
  digest : List UInt8 → String

abbrev Files := List (JSString × List UInt8)

/-- `files[path] = content`. Under the key `__proto__` it sets the prototype of the object. -/
def assign (files : Files) (path : JSString) (content : List UInt8) : Files :=
  if path = ascii "__proto__" then files
  else if path ∈ files.map Prod.fst then
    files.map fun f => if f.1 = path then (path, content) else f
  else files ++ [(path, content)]

/-- `canonicalize({ targetArchitecture, targetOS })`. -/
def platformJson : Architecture → String
  | .amd64 => "\x7b\"targetArchitecture\":\"amd64\",\"targetOS\":\"linux\"\x7d"
  | .arm64 => "\x7b\"targetArchitecture\":\"arm64\",\"targetOS\":\"linux\"\x7d"

def platformPath : JSString := ascii ".deadbolt/platform.json"

namespace BundleOptions

/-- The target architecture, `amd64` by default. -/
def architecture (o : BundleOptions) : Architecture := o.targetArchitecture.getD .amd64

def entries (o : BundleOptions) : Files := (o.bundleFiles.getD []).map fun f => (f.1, f.2.encode)

def files (o : BundleOptions) : Files :=
  assign (o.entries.foldl (fun files f => assign files f.1 f.2) []) platformPath
    (utf8 (ascii (platformJson o.architecture)))

/-- What is hashed: `Object.keys(files).sort()`, each key with a NUL and its content. -/
def payload (o : BundleOptions) : List UInt8 :=
  ((o.files.map Prod.fst).insertionSort (· ≤ ·)).flatMap fun k =>
    utf8 k ++ 0 :: (o.files.lookup k).getD []

/-- `HEX_SHA256_REGEX`. -/
def isHex (digest : String) : Bool :=
  digest.length = 64 && digest.toList.all fun c => c ∈ "0123456789abcdef".toList

def unchecked [Sha256] (o : BundleOptions) : Except ContractError String :=
  match o.bundleDigest.filter (· ≠ "") with
  | some digest => .ok digest
  | none => if o.bundleFiles.getD [] = [] then .error .invalidManifest
    else .ok (Sha256.digest o.payload)

def digest [Sha256] (o : BundleOptions) : Except ContractError String := do
  let digest ← o.unchecked
  if isHex digest then return digest else throw .invalidManifest

/-- No digest is given, no path contains a NUL, is that of the target metadata or `__proto__`, and
no content contains a NUL. -/
structure Plain (o : BundleOptions) : Prop where
  digest : o.bundleDigest.filter (· ≠ "") = none
  path : ∀ f ∈ o.entries, 0 ∉ f.1 ∧ f.1 ≠ platformPath ∧ f.1 ≠ ascii "__proto__"
  content : ∀ f ∈ o.entries, 0 ∉ f.2

end BundleOptions

/-! ### Reading a digest back -/

theorem append_nul_inj {a b x y : List UInt8} (ha : 0 ∉ a) (hb : 0 ∉ b)
    (h : a ++ 0 :: x = b ++ 0 :: y) : a = b ∧ x = y := by
  rcases List.append_eq_append_iff.mp h with ⟨t, rfl, ht⟩ | ⟨t, rfl, ht⟩ <;> cases t with
  | nil => simp_all
  | cons c t =>
    have hc : 0 = c := (List.cons.inj ht).1
    simp [hc] at ha hb

/-- With the same paths, contents without a NUL can be read back. -/
theorem contents_eq {keys : List JSString} {c c' : JSString → List UInt8}
    (hkeys : ∀ k ∈ keys, 0 ∉ utf8 k) (hc : ∀ k ∈ keys, 0 ∉ c k) (hc' : ∀ k ∈ keys, 0 ∉ c' k)
    (h : (keys.flatMap fun k => utf8 k ++ 0 :: c k) = keys.flatMap fun k => utf8 k ++ 0 :: c' k) :
    ∀ k ∈ keys, c k = c' k := by
  induction keys with
  | nil => exact fun k hk => absurd hk List.not_mem_nil
  | cons k keys ih =>
    rw [List.forall_mem_cons] at hkeys hc hc' ⊢
    simp only [List.flatMap_cons, List.append_assoc, List.cons_append, List.append_cancel_left_eq,
      List.cons.injEq, true_and] at h
    rcases keys with _ | ⟨k', keys⟩
    · exact ⟨by simpa using h, fun k hk => absurd hk List.not_mem_nil⟩
    -- The next path begins where the content ends, and its NUL is the first one.
    have hsplit : (c k ++ utf8 k') ++ 0 :: (c k' ++ keys.flatMap fun k => utf8 k ++ 0 :: c k) =
        (c' k ++ utf8 k') ++ 0 :: (c' k' ++ keys.flatMap fun k => utf8 k ++ 0 :: c' k) := by
      simpa using h
    have hnext := hkeys.2 k' List.mem_cons_self
    obtain ⟨hk, hrest⟩ := append_nul_inj (by simp [hc.1, hnext]) (by simp [hc'.1, hnext]) hsplit
    exact ⟨List.append_cancel_right hk, ih hkeys.2 hc.2 hc'.2 (by simp [hrest])⟩

theorem ofNat_ne_nul {n : Nat} (h : 0 < n) (h' : n < 256) : (0 : UInt8) ≠ .ofNat n := by
  intro he
  have := congrArg UInt8.toNat he
  simp only [UInt8.toNat_zero, UInt8.toNat_ofNat'] at this
  omega

theorem nul_not_mem_utf8Unit {u : CodeUnit} (h : u ≠ 0) : 0 ∉ utf8Unit u := by
  have hu : 0 < u.val := Nat.pos_of_ne_zero fun he => h (Fin.ext he)
  have hlt := u.isLt
  unfold utf8Unit
  split_ifs <;> simp only [List.mem_cons, List.not_mem_nil, or_false, not_or]
  · exact ofNat_ne_nul hu (by omega)
  · exact ⟨ofNat_ne_nul (by omega) (by omega), ofNat_ne_nul (by omega) (by omega)⟩
  · decide
  · exact ⟨ofNat_ne_nul (by omega) (by omega), ofNat_ne_nul (by omega) (by omega),
      ofNat_ne_nul (by omega) (by omega)⟩

theorem nul_not_mem_utf8 {s : JSString} (h : 0 ∉ s) : 0 ∉ utf8 s := by
  fun_induction utf8 s with
  | case1 => exact List.not_mem_nil
  | case2 u => exact nul_not_mem_utf8Unit fun he => h (he ▸ List.mem_cons_self)
  | case3 u v rest hpair ih =>
    have hrest : 0 ∉ rest := fun hm => h (by simp [hm])
    simp only [utf8Pair, List.mem_append, List.mem_cons, List.not_mem_nil, or_false, not_or]
    refine ⟨⟨ofNat_ne_nul ?_ ?_, ofNat_ne_nul ?_ ?_, ofNat_ne_nul ?_ ?_, ofNat_ne_nul ?_ ?_⟩,
      ih hrest⟩
    all_goals omega
  | case4 u v rest _ ih =>
    rw [List.mem_cons, not_or] at h
    simp [nul_not_mem_utf8Unit (Ne.symm h.1), ih h.2]

namespace BundleOptions

variable {o o' : BundleOptions}

theorem nodup_paths (o : BundleOptions) : (o.entries.map Prod.fst).Nodup := by
  simpa [entries, Function.comp_def] using o.distinct

theorem Plain.files_eq (h : o.Plain) :
    o.files = o.entries ++ [(platformPath, utf8 (ascii (platformJson o.architecture)))] := by
  have hfold (l acc : Files) (hl : ((acc ++ l).map Prod.fst).Nodup)
      (hproto : ∀ f ∈ l, f.1 ≠ ascii "__proto__") :
      l.foldl (fun files f => assign files f.1 f.2) acc = acc ++ l := by
    induction l generalizing acc with
    | nil => simp
    | cons f l ih =>
      rw [List.forall_mem_cons] at hproto
      have hnew : f.1 ∉ acc.map Prod.fst := by
        simp only [List.map_append, List.map_cons, List.nodup_append] at hl
        exact fun hm => hl.2.2 _ hm _ List.mem_cons_self rfl
      rw [List.foldl_cons, assign, if_neg hproto.1, if_neg hnew, ih _ (by simpa using hl) hproto.2]
      simp
  have hnew : platformPath ∉ o.entries.map Prod.fst := by
    rintro hm
    obtain ⟨f, hf, he⟩ := List.mem_map.mp hm
    exact (h.path f hf).2.1 he
  rw [files, hfold o.entries [] (by simpa using o.nodup_paths) fun f hf => (h.path f hf).2.2,
    List.nil_append, assign, if_neg (by decide), if_neg hnew]

theorem Plain.nodup_files (h : o.Plain) : (o.files.map Prod.fst).Nodup := by
  rw [h.files_eq, List.map_append, List.nodup_append]
  refine ⟨o.nodup_paths, List.nodup_singleton _, fun k hk k' hk' => ?_⟩
  obtain ⟨f, hf, rfl⟩ := List.mem_map.mp hk
  exact fun he => (h.path f hf).2.1 (he.trans (List.mem_singleton.mp hk'))

theorem Plain.lookup (h : o.Plain) {f : JSString × List UInt8} (hf : f ∈ o.files) :
    (o.files.lookup f.1).getD [] = f.2 := by
  have hlookup := (Base.Table.lookup_mem f.1 f.2 o.files h.nodup_files).mpr hf
  rw [lawful_beq_subsingleton instBEqOfDecidableEq List.instBEq] at hlookup
  rw [hlookup, Option.getD_some]

/-- No path and no content that is hashed contains a NUL. -/
theorem Plain.nul_free (h : o.Plain) {f : JSString × List UInt8} (hf : f ∈ o.files) :
    0 ∉ utf8 f.1 ∧ 0 ∉ f.2 := by
  rw [h.files_eq, List.mem_append, List.mem_singleton] at hf
  rcases hf with hf | rfl
  · exact ⟨nul_not_mem_utf8 (h.path f hf).1, h.content f hf⟩
  · cases o.architecture <;> decide

theorem Plain.contents_eq (h : o.Plain) (h' : o'.Plain)
    (hkeys : (o.files.map Prod.fst).Perm (o'.files.map Prod.fst)) (he : o.payload = o'.payload) :
    ∀ k ∈ o.files.map Prod.fst, (o.files.lookup k).getD [] = (o'.files.lookup k).getD [] := by
  have hsorted : (o.files.map Prod.fst).insertionSort (· ≤ ·) =
      (o'.files.map Prod.fst).insertionSort (· ≤ ·) := by
    refine List.Perm.eq_of_pairwise (fun a b _ _ => le_antisymm) (List.pairwise_insertionSort _ _)
      (List.pairwise_insertionSort _ _) ?_
    exact ((List.perm_insertionSort _ _).trans hkeys).trans (List.perm_insertionSort _ _).symm
  have hmem (k) : k ∈ (o.files.map Prod.fst).insertionSort (· ≤ ·) ↔ k ∈ o.files.map Prod.fst :=
    (List.perm_insertionSort _ _).mem_iff
  rw [payload, payload, ← hsorted] at he
  refine fun k hk => Bundle.contents_eq (fun k hk => ?_) (fun k hk => ?_) (fun k hk => ?_) he k
    ((hmem k).mpr hk)
  · obtain ⟨f, hf, rfl⟩ := List.mem_map.mp ((hmem k).mp hk)
    exact (h.nul_free hf).1
  · obtain ⟨f, hf, rfl⟩ := List.mem_map.mp ((hmem k).mp hk)
    exact h.lookup hf ▸ (h.nul_free hf).2
  · obtain ⟨f, hf, rfl⟩ := List.mem_map.mp (hkeys.mem_iff.mp ((hmem k).mp hk))
    exact h'.lookup hf ▸ (h'.nul_free hf).2

theorem Plain.mem_of_contents (h : o.Plain) (h' : o'.Plain)
    (hcontents : ∀ k ∈ o.files.map Prod.fst,
      (o.files.lookup k).getD [] = (o'.files.lookup k).getD [])
    (hpaths : ∀ k, k ∈ o.entries.map Prod.fst → k ∈ o'.entries.map Prod.fst)
    {f : JSString × List UInt8} (hf : f ∈ o.entries) : f ∈ o'.entries := by
  have hfiles : f ∈ o.files := h.files_eq ▸ List.mem_append_left _ hf
  obtain ⟨g, hg, hgf⟩ := List.mem_map.mp (hpaths f.1 (List.mem_map_of_mem hf))
  have hgfiles : g ∈ o'.files := h'.files_eq ▸ List.mem_append_left _ hg
  have hcontent := hcontents f.1 (List.mem_map_of_mem hfiles)
  rw [h.lookup hfiles, ← hgf, h'.lookup hgfiles] at hcontent
  exact (Prod.ext hgf hcontent.symm : g = f) ▸ hg

variable [Sha256]

theorem Plain.digest_eq (h : o.Plain) {d : String} (hd : o.digest = .ok d) :
    d = Sha256.digest o.payload := by
  simp only [BundleOptions.digest, unchecked, h.digest] at hd
  split at hd
  · cases hd
  · change (if _ then _ else _) = _ at hd
    split at hd
    · exact (Except.ok.inj hd).symm
    · cases hd

end BundleOptions

/-! ### One digest of two bundles -/

namespace Sample

@[reducible] def sha256 : Sha256 := ⟨fun _ => String.ofList (List.replicate 64 '0')⟩

def file (path content : String) : JSString × Content := (ascii path, .text (ascii content))

def two : BundleOptions := ⟨none, some [file "a" "x", file "b" "y"], none, by decide⟩

/-- The same two files in the other order, and the default architecture by its name. -/
def swapped : BundleOptions := ⟨some .amd64, some [file "b" "y", file "a" "x"], none, by decide⟩

/-- One file that contains the path and the content of the second. -/
def one : BundleOptions := ⟨none, some [file "a" "xb\x00y"], none, by decide⟩

theorem plain_two : two.Plain := ⟨rfl, by decide, by decide⟩

theorem plain_swapped : swapped.Plain := ⟨rfl, by decide, by decide⟩

end Sample

end Deadbolt.Sdk.Bundle
