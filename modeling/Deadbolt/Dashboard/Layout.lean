import Deadbolt.Base.Paths

/-!
# Levels of the run graph

The levels that `computeGraphLayout` (`apps/dashboard/src/inspector.ts:287-339`) gives to the steps
of a run before it groups and places them. The loop relaxes the steps in the order of the list, also
under parents that have no level yet, and ends with the first pass that changes nothing or at a
limit.
-/

namespace Deadbolt.Dashboard

open Base Relation

/-- What the levels depend on; a missing `after` is an empty one. -/
structure Step where
  nodeId : String
  after : List String
  deriving DecidableEq

abbrev Levels := String → Option Nat

namespace Levels

def set (m : Levels) (x : String) (level : Nat) : Levels := Function.update m x (some level)

def level (m : Levels) (x : String) : Nat := (m x).getD 0

/-- `maxParentLevel` after the loop over the dependencies, lines 318-324. -/
def maxParentLevel (m : Levels) (deps : List String) : Nat := (deps.filterMap m).foldl max 0

end Levels

/-- The body of the inner loop with its `changed`, lines 313-330. -/
def relaxStep (acc : Levels × Bool) (s : Step) : Levels × Bool :=
  if s.after = [] then acc
  else
    let newLevel := acc.1.maxParentLevel s.after + 1
    if (acc.1 s.nodeId).all fun level => decide (level < newLevel) then
      (acc.1.set s.nodeId newLevel, true)
    else acc

def relaxPass (steps : List Step) (m : Levels) : Levels × Bool :=
  steps.foldl relaxStep (m, false)

/-- At most so many passes; the flag says that the last one changed nothing. -/
def relax (steps : List Step) : Nat → Levels → Levels × Bool
  | 0, m => (m, false)
  | limit + 1, m =>
    let res := relaxPass steps m
    if res.2 then relax steps limit res.1 else (res.1, true)

/-- The steps without dependencies start at level zero, lines 306-310. -/
def rootLevels (steps : List Step) : Levels :=
  steps.foldl (fun m s => if s.after = [] then m.set s.nodeId 0 else m) fun _ => none

def relaxedLevels (steps : List Step) : Levels × Bool :=
  relax steps (steps.length + 1) (rootLevels steps)

/-- The levels after the fallback, lines 335-339. -/
def levelMap (steps : List Step) : Levels :=
  steps.foldl (fun m s => if (m s.nodeId).isNone then m.set s.nodeId 0 else m)
    (relaxedLevels steps).1

/-- Some step with the second node id depends on the first one. -/
def Edge (steps : List Step) (p x : String) : Prop := ∃ s ∈ steps, s.nodeId = x ∧ p ∈ s.after

variable {steps : List Step} {m : Levels} {s : Step}

/-! ### One relaxation -/

namespace Levels

theorem level_set (m : Levels) (x : String) (n : Nat) (y : String) :
    (m.set x n).level y = if y = x then n else m.level y := by
  unfold level set
  rw [Function.update_apply]
  split <;> rfl

theorem maxParentLevel_spec (m : Levels) {deps : List String} (h : deps ≠ []) :
    (∀ p ∈ deps, m.level p ≤ m.maxParentLevel deps) ∧
      ∃ p ∈ deps, m.maxParentLevel deps = m.level p := by
  have hfold (deps : List String) (best : Nat) :
      best ≤ (deps.filterMap m).foldl max best ∧
      (∀ p ∈ deps, m.level p ≤ (deps.filterMap m).foldl max best) ∧
      ((deps.filterMap m).foldl max best = best ∨
        ∃ p ∈ deps, (deps.filterMap m).foldl max best = m.level p) := by
    induction deps generalizing best with
    | nil => simp
    | cons p deps ih =>
      cases hp : m p with
      | none =>
        obtain ⟨hbest, hle, hmem⟩ := ih best
        rw [List.filterMap_cons_none hp]
        refine ⟨hbest, List.forall_mem_cons.mpr ⟨by simp [level, hp], hle⟩, ?_⟩
        refine hmem.imp_right ?_
        rintro ⟨q, hq, he⟩
        exact ⟨q, List.mem_cons_of_mem _ hq, he⟩
      | some n =>
        obtain ⟨hbest, hle, hmem⟩ := ih (max best n)
        have hn : m.level p = n := by simp [level, hp]
        rw [List.filterMap_cons_some hp, List.foldl_cons]
        refine ⟨(le_max_left _ _).trans hbest,
          List.forall_mem_cons.mpr ⟨hn.le.trans ((le_max_right _ _).trans hbest), hle⟩, ?_⟩
        rcases hmem with he | ⟨q, hq, he⟩
        · rcases max_choice best n with hc | hc
          · exact .inl (he.trans hc)
          · exact .inr ⟨p, List.mem_cons_self, he.trans (hc.trans hn.symm)⟩
        · exact .inr ⟨q, List.mem_cons_of_mem _ hq, he⟩
  obtain ⟨-, hle, hmem⟩ := hfold deps 0
  refine ⟨hle, hmem.elim (fun h0 => ?_) id⟩
  obtain ⟨p, hp⟩ := List.exists_mem_of_ne_nil deps h
  have hzero := hle p hp
  rw [h0] at hzero
  exact ⟨p, hp, h0.trans (Nat.le_zero.mp hzero).symm⟩

def Realized (steps : List Step) (m : Levels) : Prop :=
  ∀ x, ∃ p, Path (Edge steps) p (m.level x) x

/-- Every path is at most as long as the level of its end. -/
def Bounds (steps : List Step) (m : Levels) (k : Nat) : Prop :=
  ∀ p n x, Path (Edge steps) p n x → n ≤ k → n ≤ m.level x

end Levels

open Levels

/-- A relaxation raises the level of one node, above those of its dependencies. -/
theorem relaxStep_spec (acc : Levels × Bool) (hs : s ∈ steps) (hacc : acc.1.Realized steps) :
    (relaxStep acc s).1.Realized steps ∧ (∀ x, acc.1.level x ≤ (relaxStep acc s).1.level x) ∧
      (∀ p ∈ s.after, acc.1.level p < (relaxStep acc s).1.level s.nodeId) ∧
      (relaxStep acc s = acc ∨ (relaxStep acc s).2 = true ∧ ∃ p n, Path (Edge steps) p n s.nodeId ∧
        acc.1.level s.nodeId < n) := by
  unfold relaxStep
  split
  · next h => exact ⟨hacc, fun _ => le_rfl, by simp [h], .inl rfl⟩
  · next h =>
    obtain ⟨hle, p, hp, hmax⟩ := acc.1.maxParentLevel_spec h
    obtain ⟨q, hq⟩ := hacc p
    have hpath : Path (Edge steps) q (acc.1.maxParentLevel s.after + 1) s.nodeId :=
      hmax ▸ hq.step ⟨s, hs, rfl, hp⟩
    dsimp only
    split
    · next hlow =>
      have hlow : acc.1.level s.nodeId < acc.1.maxParentLevel s.after + 1 := by
        unfold level
        cases hx : acc.1 s.nodeId with
        | none => simp
        | some n => simpa [hx] using hlow
      refine ⟨fun x => ?_, fun x => ?_, fun p hp => ?_, .inr ⟨rfl, q, _, hpath, hlow⟩⟩
      · rw [level_set]
        split
        · next hx => exact hx ▸ ⟨q, hpath⟩
        · exact hacc x
      · rw [level_set]
        split
        · next hx => exact hx ▸ hlow.le
        · exact le_rfl
      · rw [level_set, if_pos rfl]
        exact Nat.lt_succ_of_le (hle p hp)
    · next hhigh =>
      refine ⟨hacc, fun _ => le_rfl, fun p hp => ?_, .inl rfl⟩
      unfold level at hle ⊢
      cases hx : acc.1 s.nodeId with
      | none => simp [hx] at hhigh
      | some n =>
        have hn : acc.1.maxParentLevel s.after + 1 ≤ n := by simpa [hx] using hhigh
        exact (Nat.lt_succ_of_le (hle p hp)).trans_le hn

/-! ### Passes -/

/-- A pass raises every node above what its dependencies had before. It changes nothing or finds a
path that is longer than a level it has seen. -/
theorem foldl_relaxStep_spec (l : List Step) (hl : ∀ s ∈ l, s ∈ steps) (acc : Levels × Bool)
    (hacc : acc.1.Realized steps) :
    (l.foldl relaxStep acc).1.Realized steps ∧
      (∀ x, acc.1.level x ≤ (l.foldl relaxStep acc).1.level x) ∧
      (∀ s ∈ l, ∀ p ∈ s.after, acc.1.level p < (l.foldl relaxStep acc).1.level s.nodeId) ∧
      (l.foldl relaxStep acc = acc ∨ (l.foldl relaxStep acc).2 = true ∧
        ∃ p n x, Path (Edge steps) p n x ∧ acc.1.level x < n) := by
  induction l generalizing acc with
  | nil => exact ⟨hacc, fun _ => le_rfl, fun s hs => absurd hs List.not_mem_nil, .inl rfl⟩
  | cons s l ih =>
    rw [List.forall_mem_cons] at hl
    obtain ⟨hreal, hmono, habove, hstep⟩ := relaxStep_spec acc hl.1 hacc
    obtain ⟨hreal', hmono', habove', hrest⟩ := ih hl.2 _ hreal
    refine ⟨hreal', fun x => (hmono x).trans (hmono' x), List.forall_mem_cons.mpr
      ⟨fun p hp => (habove p hp).trans_le (hmono' _),
        fun t ht p hp => (hmono p).trans_lt (habove' t ht p hp)⟩, ?_⟩
    obtain hsame | ⟨hchanged, p, n, hpath, hlt⟩ := hstep
    · rw [hsame] at hrest
      rwa [List.foldl_cons, hsame]
    · refine .inr ⟨?_, p, n, s.nodeId, hpath, hlt⟩
      obtain hrest | hrest := hrest
      · rw [List.foldl_cons, hrest, hchanged]
      · exact hrest.1

/-- After `k` passes the levels bound all paths of at most `k` edges, and all paths have at most
`bound`; so the relaxation stops within the passes that are left. -/
theorem relax_stable {bound : Nat} (hbound : ∀ p n x, Path (Edge steps) p n x → n ≤ bound)
    (limit k : Nat) (m : Levels) (hm : m.Realized steps) (hk : m.Bounds steps k) (hle : k ≤ bound)
    (hlimit : bound < k + limit) :
    (relax steps limit m).2 = true ∧ (relax steps limit m).1.Realized steps ∧
      ∀ s ∈ steps, ∀ p ∈ s.after,
        (relax steps limit m).1.level p < (relax steps limit m).1.level s.nodeId := by
  induction limit generalizing k m with
  | zero => omega
  | succ limit ih =>
    obtain ⟨hreal, hmono, habove, hstep⟩ := foldl_relaxStep_spec steps (fun _ h => h) (m, false) hm
    change (relaxPass steps m = _) ∨ (relaxPass steps m).2 = true ∧ _ at hstep
    obtain hsame | ⟨hchanged, p, n, x, hpath, hlt⟩ := hstep
    · have hrelax : relax steps (limit + 1) m = (m, true) := by rw [relax, hsame]; rfl
      rw [hrelax]
      refine ⟨rfl, hm, fun s hs p hp => ?_⟩
      have := habove s hs p hp
      rwa [show steps.foldl relaxStep (m, false) = (m, false) from hsame] at this
    · have hrelax : relax steps (limit + 1) m = relax steps limit (relaxPass steps m).1 := by
        rw [relax, if_pos hchanged]
      rw [hrelax]
      -- The longer path shows that some path has more than `k` edges.
      have hlong : k < n := Nat.lt_of_not_le fun hn => absurd (hk p n x hpath hn) (not_le.mpr hlt)
      refine ih (k + 1) _ hreal ?_ (hlong.trans_le (hbound p n x hpath)) (by omega)
      intro q j y hq hj
      cases hq with
      | refl => exact Nat.zero_le _
      | step hq hedge =>
        obtain ⟨s, hs, rfl, hp⟩ := hedge
        exact (Nat.succ_le_succ (hk _ _ _ hq (Nat.le_of_succ_le_succ hj))).trans (habove s hs _ hp)

/-! ### Levels -/

theorem realized_rootLevels (steps : List Step) : (rootLevels steps).Realized steps := by
  have hfold (l : List Step) (m : Levels) (hm : m.Realized steps) :
      (l.foldl (fun m s => if s.after = [] then m.set s.nodeId 0 else m) m).Realized steps := by
    induction l generalizing m with
    | nil => exact hm
    | cons s l ih =>
      refine ih _ fun x => ?_
      dsimp only
      split
      · rw [level_set]
        split
        · exact ⟨x, .refl⟩
        · exact hm x
      · exact hm x
  exact hfold steps _ fun x => ⟨x, .refl⟩

/-- The fallback keeps the levels, and gives every listed node one. -/
theorem levelMap_spec (steps : List Step) :
    (∀ x, (levelMap steps).level x = (relaxedLevels steps).1.level x) ∧
      ∀ s ∈ steps, levelMap steps s.nodeId = some ((relaxedLevels steps).1.level s.nodeId) := by
  have hstep (m : Levels) (s : Step) (x : String) :
      (if (m s.nodeId).isNone then m.set s.nodeId 0 else m) x =
        if x = s.nodeId then some (m.level x) else m x := by
    unfold Levels.set level
    by_cases hx : x = s.nodeId
    · subst hx
      cases hm : m s.nodeId <;> simp [hm]
    · split <;> simp [hx]
  have hfold (l : List Step) (m : Levels) (x : String) :
      l.foldl (fun m s => if (m s.nodeId).isNone then m.set s.nodeId 0 else m) m x =
        if x ∈ l.map Step.nodeId then some (m.level x) else m x := by
    induction l generalizing m with
    | nil => simp
    | cons s l ih =>
      rw [List.foldl_cons, ih, level, hstep]
      by_cases hx : x = s.nodeId
      · subst hx
        simp
      · simp [hx, level]
  refine ⟨fun x => ?_, fun s hs => ?_⟩
  · rw [levelMap, level, hfold]
    split <;> rfl
  · rw [levelMap, hfold, if_pos (List.mem_map_of_mem hs)]

/-- In a graph without cycles the relaxation stops by itself within its limit. The level of a node
is the length of its longest path from a node without dependencies, and is above the levels of its
dependencies. -/
theorem levels_longest (hacyclic : ∀ x, ¬ TransGen (Edge steps) x x) :
    (relaxedLevels steps).2 = true ∧
    ∀ s ∈ steps, ∃ level, levelMap steps s.nodeId = some level ∧
      (∃ root, (∀ p, ¬ Edge steps p root) ∧ Path (Edge steps) root level s.nodeId) ∧
      (∀ p n, Path (Edge steps) p n s.nodeId → n ≤ level) ∧
      ∀ p ∈ s.after, ∀ l, levelMap steps p = some l → l < level := by
  have hbound (p n x) (h : Path (Edge steps) p n x) : n ≤ steps.length := by
    have htargets : ∀ a b, Edge steps a b → b ∈ steps.map Step.nodeId := by
      rintro a b ⟨s, hs, rfl, -⟩
      exact List.mem_map_of_mem hs
    simpa using h.length_le hacyclic htargets
  obtain ⟨hstable, hreal, habove⟩ := relax_stable hbound (steps.length + 1) 0 _
    (realized_rootLevels steps) (fun p n x _ hn => hn.trans (Nat.zero_le _)) (Nat.zero_le _)
    (by omega)
  have hpaths (p n x) (h : Path (Edge steps) p n x) : n ≤ (relaxedLevels steps).1.level x := by
    induction h with
    | refl => exact Nat.zero_le _
    | step _ hedge ih =>
      obtain ⟨s, hs, rfl, hp⟩ := hedge
      exact (Nat.succ_le_succ ih).trans (habove s hs _ hp)
  obtain ⟨hsame, hlisted⟩ := levelMap_spec steps
  refine ⟨hstable, fun s hs => ⟨_, hlisted s hs, ?_, fun p n => hpaths p n _, fun p hp l hl => ?_⟩⟩
  · obtain ⟨root, hroot⟩ := hreal s.nodeId
    refine ⟨root, fun p hp => ?_, hroot⟩
    exact absurd (hpaths p _ _ (hroot.cons hp)) (Nat.not_succ_le_self _)
  · have hlevel : (relaxedLevels steps).1.level p = l := by
      rw [← hsame, level, hl, Option.getD_some]
    exact hlevel ▸ habove s hs p hp

def Sample.diamond : List Step := [⟨"d", ["b", "a"]⟩, ⟨"c", ["b"]⟩, ⟨"b", ["a"]⟩, ⟨"a", []⟩]

/-- The last step is below two others. -/
theorem levels_longest_diamond :
    (relaxedLevels Sample.diamond).2 = true ∧ levelMap Sample.diamond "d" = some 2 ∧
    ∀ p n, Path (Edge Sample.diamond) p n "d" → n ≤ 2 := by
  have hrank (x y : String) (h : TransGen (Edge Sample.diamond) x y) :
      ["a", "b", "c", "d"].idxOf x < ["a", "b", "c", "d"].idxOf y := by
    have hedge (x y : String) (h : Edge Sample.diamond x y) :
        ["a", "b", "c", "d"].idxOf x < ["a", "b", "c", "d"].idxOf y := by
      obtain ⟨s, hs, rfl, hx⟩ := h
      revert x
      revert s
      decide
    induction h with
    | single h => exact hedge _ _ h
    | tail _ h ih => exact ih.trans (hedge _ _ h)
  obtain ⟨hstable, hlevels⟩ := levels_longest fun x h => lt_irrefl _ (hrank x x h)
  obtain ⟨level, hlevel, -, hpaths, -⟩ := hlevels ⟨"d", ["b", "a"]⟩ (by decide)
  have htwo : levelMap Sample.diamond "d" = some 2 := by decide +kernel
  obtain rfl : level = 2 := Option.some.inj (hlevel.symm.trans htwo)
  exact ⟨hstable, htwo, hpaths⟩

end Deadbolt.Dashboard
