import Deadbolt.Base.Ancestry
import Deadbolt.Base.Fallible
import Deadbolt.Contracts.Json

/-!
# The graph of a workflow

The graph analysis of `ValidateWorkflow`, `internal/contracts/validator.go:242-594`, and of its
counterpart in the TypeScript SDK, `sdk/typescript/src/validator.ts:242-496`: dependencies, choices,
merges and the nodes of their branches. Both languages run the same loops over the same maps; each
reads the outline from the manifest in its own way.
-/

namespace Deadbolt.Contracts

open Base Base.Fallible

/-- A choice and the names of its branches, with the default among them. -/
structure ChoiceOutline where
  id : String
  names : List String
  deriving DecidableEq

/-- A merge, the choice it closes, and the terminal node of each branch. -/
structure MergeOutline where
  id : String
  choice : String
  branches : List (String × String)
  deriving DecidableEq

/-- The ids of a workflow with their dependencies, its choices and its merges. -/
structure Outline where
  nodes : List (String × List String)
  choices : List ChoiceOutline
  merges : List MergeOutline
  deriving DecidableEq

namespace Outline

def ids (o : Outline) : List String := o.nodes.map Prod.fst

def after (o : Outline) (id : String) : List String := (o.nodes.lookup id).getD []

/-- `visit`, `validator.go:253-276`. -/
def ancestors? (o : Outline) (id : String) : Option (List String) :=
  Ancestry.visit o.after (o.nodes.length + 1) [] id

def ancestors (o : Outline) (id : String) : List String := (o.ancestors? id).getD []

/-! ### Branches -/

/-- The nodes of one branch: below the choice, and the terminal or above it. -/
def branchNodes (o : Outline) (m : MergeOutline) (terminal : String) : List String :=
  o.ids.filter fun n => decide (n ≠ m.choice ∧ n ≠ m.id ∧ m.choice ∈ o.ancestors n ∧
    (n = terminal ∨ n ∈ o.ancestors terminal))

/-- `choiceBranchNodeSets` of the choice that a merge closes. -/
def branchSets (o : Outline) (m : MergeOutline) : List (String × List String) :=
  m.branches.map fun b => (b.1, o.branchNodes m b.2)

/-- `nodesI` and `nodesJ`: a terminal and what is above it but not above the choice. -/
def tail (o : Outline) (m : MergeOutline) (terminal : String) : List String :=
  terminal :: (o.ancestors terminal).filter fun x =>
    decide (x ≠ m.choice ∧ x ∉ o.ancestors m.choice)

/-- A node of the second branch depends on a node of the first. -/
def Touches (o : Outline) (m : MergeOutline) (a b : String × String) : Prop :=
  ∃ v ∈ o.tail m b.2, ∃ d ∈ o.after v, d ∈ o.tail m a.2

instance (o : Outline) (m : MergeOutline) (a b : String × String) :
    Decidable (o.Touches m a b) :=
  inferInstanceAs (Decidable (∃ v ∈ o.tail m b.2, ∃ d ∈ o.after v, d ∈ o.tail m a.2))

/-! ### Checks -/

/-- Every dependency is a node, `validator.go:242-249`. -/
def checkDependencies (o : Outline) : Except ContractError Unit :=
  require (∀ n ∈ o.nodes, ∀ d ∈ n.2, d ∈ o.ids) .missingDependency

/-- Every node is visited without a cycle, `validator.go:277-281`. -/
def checkAcyclic (o : Outline) : Except ContractError Unit :=
  require (∀ id ∈ o.ids, (o.ancestors? id).isSome) .cycleDetected

/-- What the merge loop asks of one branch, `validator.go:393-400`. -/
structure BranchCloses (o : Outline) (m : MergeOutline) (c : ChoiceOutline)
    (b : String × String) : Prop where
  named : b.1 ≠ "" ∧ b.2 ≠ ""
  declared : b.1 ∈ c.names
  node : b.2 ∈ o.ids
  above : b.2 ∈ o.ancestors m.id
  below : m.choice ∈ o.ancestors b.2

instance (o : Outline) (m : MergeOutline) (c : ChoiceOutline) (b : String × String) :
    Decidable (o.BranchCloses m c b) :=
  decidable_of_iff ((b.1 ≠ "" ∧ b.2 ≠ "") ∧ b.1 ∈ c.names ∧ b.2 ∈ o.ids ∧
      b.2 ∈ o.ancestors m.id ∧ m.choice ∈ o.ancestors b.2)
    ⟨fun ⟨h1, h2, h3, h4, h5⟩ => ⟨h1, h2, h3, h4, h5⟩,
      fun ⟨h1, h2, h3, h4, h5⟩ => ⟨h1, h2, h3, h4, h5⟩⟩

/-- The graph part of the merge loop, `validator.go:355-407`: its choice is
above it and no other merge has it, and its branches are those of the choice. -/
def checkMerge (o : Outline) (m : MergeOutline) : Except ContractError Unit :=
  match o.choices.find? fun c => c.id == m.choice with
  | none => throw .invalidMerge
  | some c => do
    require (m.choice ∈ o.ancestors m.id) .invalidMerge
    require ((o.merges.filter fun n => n.choice == m.choice).length = 1) .invalidMerge
    require (m.branches ≠ []) .invalidMerge
    require (∀ b ∈ m.branches, o.BranchCloses m c b) .invalidMerge
    require (m.branches.map Prod.fst).Nodup .invalidMerge
    require (∀ n ∈ c.names, n ∈ m.branches.map Prod.fst) .invalidMerge

/-- Every choice has its merge, `validator.go:415-419`. -/
def checkChoice (o : Outline) (c : ChoiceOutline) : Except ContractError Unit :=
  require (∃ m ∈ o.merges, m.choice = c.id) .invalidChoice

/-- One node of a branch: it depends inside the branch or above it, and only the branch or the
merge depends on it, `validator.go:508-527`. -/
def checkMember (o : Outline) (m : MergeOutline) (set : List String) (u : String) :
    Except ContractError Unit := do
  require (∀ d ∈ o.after u, d = m.choice ∨ d ∈ set ∨ d ∈ o.ancestors m.choice)
    .crossBranchDependency
  require (∀ w ∈ o.nodes, u ∈ w.2 → w.1 = m.id ∨ w.1 ∈ set) .irreducibleGraph

/-- The branches of one choice, `validator.go:422-528`. -/
def checkBranches (o : Outline) (m : MergeOutline) : Except ContractError Unit := do
  let sets := o.branchSets m
  require (∀ s ∈ sets, s.2 ≠ []) .invalidBranch
  require (m.branches.Pairwise fun a b => ¬ o.Touches m a b ∧ ¬ o.Touches m b a)
    .crossBranchDependency
  require (sets.Pairwise fun a b => ∀ u ∈ a.2, u ∉ b.2) .irreducibleGraph
  require (∀ a ∈ sets, ∀ u ∈ a.2, ∀ d ∈ o.after u, ∀ b ∈ sets, a.1 ≠ b.1 → d ∉ b.2)
    .crossBranchDependency
  sets.forM fun s => s.2.forM (o.checkMember m s.2)

/-- A merge depends on its branches only through their terminals,
`validator.go:535-555`. -/
def checkTerminals (o : Outline) (m : MergeOutline) : Except ContractError Unit :=
  require (∀ d ∈ o.after m.id, (∃ s ∈ o.branchSets m, d ∈ s.2) → d ∈ m.branches.map Prod.snd)
    .invalidMerge

/-- How many branches of other choices a choice is in, itself counted. -/
def depth (o : Outline) (id : String) : Nat :=
  1 + ((o.merges.filter fun m => m.choice != id).flatMap fun m =>
    (o.branchSets m).filter fun s => decide (id ∈ s.2)).length

/-- The nesting limit, `validator.go:557-572`. -/
def checkNesting (o : Outline) (c : ChoiceOutline) : Except ContractError Unit :=
  require (o.depth c.id ≤ 8) .choiceNestingExceeded

/-- The analysis after the merge loop. -/
def checkStructure (o : Outline) : Except ContractError Unit := do
  o.choices.forM o.checkChoice
  o.merges.forM o.checkBranches
  o.merges.forM o.checkTerminals
  o.choices.forM o.checkNesting

/-! ### Nodes a mapping may read -/

/-- `nodeAllowed[id]`: the ancestors outside the branches the node is not in,
`validator.go:574-594`. -/
def allowed (o : Outline) (id : String) : List String :=
  (o.ancestors id).filter fun x => decide (∀ m ∈ o.merges, id ≠ m.id →
    ∀ s ∈ o.branchSets m, x ∈ s.2 → id ∈ s.2)

/-- What the value of a branch may read: what is above the choice, the choice, and the branch,
`validator.go:707-717`. -/
def branchAllowed (o : Outline) (m : MergeOutline) (branch : String) : List String :=
  o.ancestors m.choice ++ m.choice :: ((o.branchSets m).lookup branch).getD []

/-- `allOutputsAllowed`: the nodes outside every branch,
`validator.go:725-735`. -/
def outputAllowed (o : Outline) : List String :=
  o.ids.filter fun x => decide (∀ m ∈ o.merges, ∀ s ∈ o.branchSets m, x ∉ s.2)

end Outline
end Deadbolt.Contracts
