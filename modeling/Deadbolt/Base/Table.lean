import Mathlib

/-!
# Keyed tables

A relational table as the list of its rows, each under its primary key. The
uniqueness of keys is a field of the structure, so no statement can break it:
`UPDATE` is a map over the values, and `INSERT` of a present key is refused.
-/

namespace Deadbolt.Base

universe u v w

/-- Rows under distinct primary keys, in insertion order. -/
structure Table (κ : Type u) (α : Type v) where
  rows : List (κ × α)
  nodup : (rows.map Prod.fst).Nodup

namespace Table

variable {κ : Type u} {α : Type v} [DecidableEq κ]

def empty : Table κ α := ⟨[], List.nodup_nil⟩

def find? (t : Table κ α) (k : κ) : Option α := t.rows.lookup k

def keys (t : Table κ α) : List κ := t.rows.map Prod.fst

/-- `UPDATE`: rewrite every row in place. A `WHERE` clause is a test inside `f`. -/
def mapRows (t : Table κ α) (f : κ → α → α) : Table κ α where
  rows := t.rows.map fun r => (r.1, f r.1 r.2)
  nodup := by
    have h : (t.rows.map fun r => (r.1, f r.1 r.2)).map Prod.fst = t.rows.map Prod.fst := by
      simp [List.map_map, Function.comp_def]
    rw [h]
    exact t.nodup

def modify (t : Table κ α) (k : κ) (f : α → α) : Table κ α :=
  t.mapRows fun k' a => if k' = k then f a else a

/-- `INSERT`: a present key is a unique violation. -/
def insert? (t : Table κ α) (k : κ) (a : α) : Option (Table κ α) :=
  if h : k ∈ t.rows.map Prod.fst then none
  else some
    { rows := t.rows ++ [(k, a)]
      nodup := by
        rw [List.map_append, List.nodup_append]
        refine ⟨t.nodup, by simp, ?_⟩
        intro x hx y hy he
        have hk : y = k := by simpa using hy
        exact h (hk ▸ he ▸ hx) }

def put (t : Table κ α) (k : κ) (a : α) : Table κ α := (t.insert? k a).getD t

def erase (t : Table κ α) (k : κ) : Table κ α where
  rows := t.rows.filter fun r => r.1 ≠ k
  nodup := t.nodup.sublist (List.filter_sublist.map _)

/-- `SELECT … WHERE p`: the matching rows with their keys, in table order. -/
def select (t : Table κ α) (p : κ → α → Bool) : List (κ × α) :=
  t.rows.filter fun r => p r.1 r.2

def All (P : κ → α → Prop) (t : Table κ α) : Prop := ∀ r ∈ t.rows, P r.1 r.2

def weigh (w : α → Nat) (t : Table κ α) : Nat := (t.rows.map fun r => w r.2).sum

def any (t : Table κ α) (p : α → Bool) : Bool := t.rows.any fun r => p r.2

omit [DecidableEq κ] in
@[simp] theorem rows_mapRows (t : Table κ α) (f : κ → α → α) :
    (t.mapRows f).rows = t.rows.map fun r => (r.1, f r.1 r.2) := rfl

variable {t t' : Table κ α} {f : κ → α → α} {k : κ} {a : α} {w w' : α → Nat}

omit [DecidableEq κ] in
theorem mapRows_congr {g : κ → α → α} (h : ∀ k a, (k, a) ∈ t.rows → f k a = g k a) :
    t.mapRows f = t.mapRows g := by
  simp only [mapRows, mk.injEq]
  exact List.map_congr_left fun r hr => by rw [h r.1 r.2 hr]

omit [DecidableEq κ] in
@[simp] theorem mapRows_mapRows (t : Table κ α) (f g : κ → α → α) :
    (t.mapRows f).mapRows g = t.mapRows fun k a => g k (f k a) := by
  simp [mapRows, Function.comp_def]

omit [DecidableEq κ] in
@[simp] theorem mapRows_id (t : Table κ α) : (t.mapRows fun _ a => a) = t := by
  simp [mapRows]

theorem lookup_mem (k : κ) (a : α) (rows : List (κ × α))
    (hd : (rows.map Prod.fst).Nodup) : rows.lookup k = some a ↔ (k, a) ∈ rows := by
  induction rows with
  | nil => simp
  | cons r rest ih =>
    obtain ⟨k', a'⟩ := r
    rw [List.map_cons, List.nodup_cons] at hd
    by_cases hk : k = k'
    · subst hk
      have hn : (k, a) ∉ rest := fun hm => hd.1 (List.mem_map.mpr ⟨(k, a), hm, rfl⟩)
      simp [hn, eq_comm]
    · have hb : (k == k') = false := by simpa using hk
      simp [List.lookup_cons, hb, hk, ih hd.2]

theorem find?_eq_some_iff (t : Table κ α) (k : κ) (a : α) :
    t.find? k = some a ↔ (k, a) ∈ t.rows :=
  lookup_mem k a t.rows t.nodup

@[simp] theorem find?_mapRows (t : Table κ α) (f : κ → α → α) (k : κ) :
    (t.mapRows f).find? k = (t.find? k).map (f k) := by
  simp only [find?, rows_mapRows]
  induction t.rows with
  | nil => rfl
  | cons r rest ih =>
    obtain ⟨k', a⟩ := r
    simp only [List.map_cons, List.lookup_cons]
    by_cases hk : k = k'
    · simp [hk]
    · have hb : (k == k') = false := by simpa using hk
      simp [hb, ih]

theorem find?_modify (t : Table κ α) (k k' : κ) (f : α → α) :
    (t.modify k f).find? k' = (t.find? k').map (fun a => if k' = k then f a else a) := by
  simp [modify]

theorem find?_modify_of_some (h : t.find? k = some a) (f : α → α) (k' : κ) :
    (t.modify k f).find? k' = if k' = k then some (f a) else t.find? k' := by
  rw [find?_modify]
  split
  · next hk => rw [hk, h, Option.map_some]
  · exact Option.map_id'

theorem modify_congr (h : t.find? k = some a) {f g : α → α} (hf : f a = g a) :
    t.modify k f = t.modify k g := by
  refine mapRows_congr fun k' b hb => ?_
  split
  · next hk =>
    subst hk
    obtain rfl := Option.mem_unique h ((t.find?_eq_some_iff _ b).mpr hb)
    exact hf
  · rfl

theorem modify_id (t : Table κ α) (k : κ) : (t.modify k fun a => a) = t := by
  have hsame : (t.modify k fun a => a) = t.mapRows fun _ a => a :=
    mapRows_congr fun _ _ _ => ite_self _
  rw [hsame, mapRows_id]

theorem modify_self (h : t.find? k = some a) : t.modify k (fun _ => a) = t := by
  rw [modify_congr (f := fun _ => a) (g := fun b => b) h rfl, modify_id]

theorem all_iff_find? (P : κ → α → Prop) (t : Table κ α) :
    t.All P ↔ ∀ k a, t.find? k = some a → P k a := by
  constructor
  · intro h k a hf
    exact h (k, a) ((t.find?_eq_some_iff k a).mp hf)
  · intro h r hr
    exact h r.1 r.2 ((t.find?_eq_some_iff r.1 r.2).mpr hr)

omit [DecidableEq κ] in
theorem All.mapRows {P Q : κ → α → Prop} (h : t.All P) (f : κ → α → α)
    (hf : ∀ k a, P k a → Q k (f k a)) : (t.mapRows f).All Q := by
  intro r hr
  obtain ⟨r', hr', rfl⟩ := List.mem_map.mp hr
  exact hf _ _ (h r' hr')

theorem insert?_eq_some (t t' : Table κ α) (k : κ) (a : α) (h : t.insert? k a = some t') :
    t.find? k = none ∧ t'.rows = t.rows ++ [(k, a)] := by
  unfold insert? at h
  split at h
  · cases h
  · next hk =>
    cases h
    refine ⟨?_, rfl⟩
    cases hf : t.find? k with
    | none => rfl
    | some b =>
      have hm := (t.find?_eq_some_iff k b).mp hf
      exact absurd (List.mem_map.mpr ⟨(k, b), hm, rfl⟩) hk

theorem find?_insert? (h : t.insert? k a = some t') (k' : κ) :
    t'.find? k' = if k' = k then some a else t.find? k' := by
  obtain ⟨hnone, hrows⟩ := t.insert?_eq_some t' k a h
  unfold find? at hnone ⊢
  rw [hrows, List.lookup_append]
  by_cases hk : k' = k
  · subst hk
    simp [hnone]
  · have hb : (k' == k) = false := by simpa using hk
    simp [List.lookup_cons, hb, hk]

theorem find?_of_insert? {j : κ} {b : α} (h : t.insert? k a = some t') (hj : t.find? j = some b) :
    t'.find? j = some b := by
  rw [find?_insert? h, if_neg]
  · exact hj
  · rintro rfl
    exact absurd ((insert?_eq_some _ _ _ _ h).1.symm.trans hj) (by simp)

theorem insert?_of_find?_eq_none (h : t.find? k = none) (a : α) :
    ∃ t', t.insert? k a = some t' := by
  unfold insert?
  split
  · next hk =>
    obtain ⟨⟨k', b⟩, hm, rfl⟩ := List.mem_map.mp hk
    rw [(t.find?_eq_some_iff k' b).mpr hm] at h
    cases h
  · exact ⟨_, rfl⟩

theorem find?_put (h : t.find? k = none) (a : α) (k' : κ) :
    (t.put k a).find? k' = if k' = k then some a else t.find? k' := by
  obtain ⟨t', ht⟩ := insert?_of_find?_eq_none h a
  rw [put, ht]
  exact find?_insert? ht k'

theorem put_of_find?_eq_some {b : α} (h : t.find? k = some b) (a : α) : t.put k a = t := by
  unfold put
  cases hi : t.insert? k a with
  | none => rfl
  | some t' =>
    rw [(t.insert?_eq_some t' k a hi).1] at h
    cases h

theorem find?_erase (t : Table κ α) (k k' : κ) :
    (t.erase k).find? k' = if k' = k then none else t.find? k' := by
  ext a
  rw [find?_eq_some_iff]
  by_cases hk : k' = k
  · simp [erase, hk]
  · simp [erase, hk, ← find?_eq_some_iff]

omit [DecidableEq κ] in
theorem pairwise_keys (t : Table κ α) : t.rows.Pairwise fun a b => a.1 ≠ b.1 :=
  List.pairwise_map.mp t.nodup

theorem rows_put (h : t.find? k = none) (a : α) : (t.put k a).rows = t.rows ++ [(k, a)] := by
  obtain ⟨t', ht⟩ := insert?_of_find?_eq_none h a
  rw [put, ht]
  exact (t.insert?_eq_some t' k a ht).2

omit [DecidableEq κ] in
theorem eq_of_rows (h : t.rows = t'.rows) : t = t' := by
  cases t
  cases t'
  cases h
  rfl

theorem put_of_insert? (h : t.insert? k a = some t') : t.put k a = t' := by
  rw [put, h, Option.getD_some]

theorem modify_of_insert? (h : t.insert? k a = some t') (b : α) :
    t'.modify k (fun _ => b) = t.put k b := by
  obtain ⟨hn, hrows⟩ := t.insert?_eq_some t' k a h
  refine eq_of_rows ?_
  rw [rows_put hn, modify, rows_mapRows, hrows, List.map_append]
  have hsame : (t.rows.map fun r => (r.1, if r.1 = k then b else r.2)) = t.rows := by
    refine (List.map_congr_left fun r hr => ?_).trans (List.map_id _)
    have hne : r.1 ≠ k := by
      rintro rfl
      rw [(t.find?_eq_some_iff r.1 r.2).mpr hr] at hn
      cases hn
    rw [if_neg hne, id]
  simpa using hsame

theorem All.insert? {P : κ → α → Prop} (h : t.All P) (hi : t.insert? k a = some t') (ha : P k a) :
    t'.All P := by
  intro r hr
  rw [(t.insert?_eq_some t' k a hi).2, List.mem_append, List.mem_singleton] at hr
  rcases hr with hr | rfl
  · exact h r hr
  · exact ha

theorem weigh_mapRows_le {n : Nat} (k : κ)
    (h : ∀ k' a, (k', a) ∈ t.rows → w (f k' a) ≤ w' a + if k' = k then n else 0) :
    (t.mapRows f).weigh w ≤ t.weigh w' + n := by
  simp only [weigh, rows_mapRows, List.map_map]
  have hnd := t.nodup
  generalize t.rows = rows at h hnd
  induction rows with
  | nil => simp
  | cons r rest ih =>
    rw [List.map_cons, List.nodup_cons] at hnd
    have hr := h r.1 r.2 List.mem_cons_self
    simp only [List.map_cons, List.sum_cons, Function.comp_apply]
    by_cases hk : r.1 = k
    · -- No later row has this key, so none of them gains weight.
      have hrest : (rest.map ((fun r => w r.2) ∘ fun r => (r.1, f r.1 r.2))).sum ≤
          (rest.map fun r => w' r.2).sum := by
        refine List.sum_le_sum fun x hx => ?_
        have hne : x.1 ≠ k := fun he => hnd.1 (hk ▸ he ▸ List.mem_map_of_mem hx)
        simpa [hne] using h x.1 x.2 (List.mem_cons_of_mem _ hx)
      rw [if_pos hk] at hr
      omega
    · have hrest := ih (fun k' a hm => h k' a (List.mem_cons_of_mem _ hm)) hnd.2
      rw [if_neg hk] at hr
      omega

omit [DecidableEq κ] in
theorem weigh_mapRows_mono (h : ∀ k a, (k, a) ∈ t.rows → w (f k a) ≤ w' a) :
    (t.mapRows f).weigh w ≤ t.weigh w' := by
  simp only [weigh, rows_mapRows, List.map_map]
  exact List.sum_le_sum fun r hr => h r.1 r.2 hr

omit [DecidableEq κ] in
theorem weigh_le_weigh (h : ∀ r ∈ t.rows, w r.2 ≤ w' r.2) :
    t.weigh w ≤ t.weigh w' := List.sum_le_sum h

theorem weigh_eq_zero : t.weigh w = 0 ↔ ∀ k a, t.find? k = some a → w a = 0 := by
  unfold weigh
  rw [List.sum_eq_zero_iff]
  refine ⟨fun h k a ha => ?_, fun h n hn => ?_⟩
  · exact h _ (List.mem_map_of_mem ((t.find?_eq_some_iff k a).mp ha))
  · obtain ⟨r, hr, rfl⟩ := List.mem_map.mp hn
    exact h r.1 r.2 ((t.find?_eq_some_iff r.1 r.2).mpr hr)

theorem weigh_insert? (h : t.insert? k a = some t') : t'.weigh w = t.weigh w + w a := by
  simp [weigh, (t.insert?_eq_some t' k a h).2]

theorem length_filter_rows (t : Table κ α) (p : α → Bool) :
    (t.rows.filter fun r => p r.2).length = t.keys.countP fun k => (t.find? k).any p := by
  rw [← List.countP_eq_length_filter, keys, List.countP_map]
  refine List.countP_congr fun r hr => ?_
  rw [Function.comp_apply, (t.find?_eq_some_iff r.1 r.2).mpr hr, Option.any_some]

/-- A table with the same keys has no more rows with a property, if each of them had it before. -/
theorem length_filter_rows_le {p q : α → Bool} (hk : t'.keys = t.keys)
    (h : ∀ k a', t'.find? k = some a' → q a' = true → ∃ a, t.find? k = some a ∧ p a = true) :
    (t'.rows.filter fun r => q r.2).length ≤ (t.rows.filter fun r => p r.2).length := by
  rw [length_filter_rows, length_filter_rows, hk]
  refine List.countP_mono_left fun k _ hp => ?_
  obtain ⟨a', ha', hp'⟩ := (Option.any_eq_true _ _).mp hp
  exact (Option.any_eq_true _ _).mpr (h k a' ha' hp')

/-- A table with the same keys has the same values of a function, if it does under every key. -/
theorem map_rows_congr {β : Type w} {f : α → β} (hk : t'.keys = t.keys)
    (h : ∀ k a a', t.find? k = some a → t'.find? k = some a' → f a' = f a) :
    (t'.rows.map fun r => f r.2) = t.rows.map fun r => f r.2 := by
  have hlookup (t : Table κ α) :
      (t.rows.map fun r => some (f r.2)) = t.keys.map fun k => (t.find? k).map f := by
    rw [keys, List.map_map]
    refine List.map_congr_left fun r hr => ?_
    rw [Function.comp_apply, (t.find?_eq_some_iff r.1 r.2).mpr hr, Option.map_some]
  refine List.map_injective_iff.mpr (Option.some_injective β) ?_
  rw [List.map_map, List.map_map]
  refine (hlookup t').trans (Eq.trans ?_ (hlookup t).symm)
  rw [hk]
  refine List.map_congr_left fun k hmem => ?_
  have hmem' : k ∈ t'.keys := hk ▸ hmem
  obtain ⟨r, hr, rfl⟩ := List.mem_map.mp hmem
  obtain ⟨r', hr', he⟩ := List.mem_map.mp hmem'
  have hfind := (t.find?_eq_some_iff r.1 r.2).mpr hr
  have hfind' := (t'.find?_eq_some_iff r'.1 r'.2).mpr hr'
  rw [he] at hfind'
  rw [hfind, hfind', Option.map_some, Option.map_some, h _ _ _ hfind hfind']

omit [DecidableEq κ] in
@[simp] theorem mem_select (t : Table κ α) (p : κ → α → Bool) (r : κ × α) :
    r ∈ t.select p ↔ r ∈ t.rows ∧ p r.1 r.2 = true := by
  simp [select]

omit [DecidableEq κ] in
theorem any_eq_true (t : Table κ α) (p : α → Bool) :
    t.any p = true ↔ ∃ r ∈ t.rows, p r.2 = true := by
  simp [any]

omit [DecidableEq κ] in
theorem any_eq_false (t : Table κ α) (p : α → Bool) :
    t.any p = false ↔ ∀ r ∈ t.rows, p r.2 = false := by
  simp [any]

end Table
end Deadbolt.Base
