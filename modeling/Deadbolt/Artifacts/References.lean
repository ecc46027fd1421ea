import Deadbolt.Contracts.Json

/-!
# Artifact references

`internal/artifacts/service.go:62-109`: the typed reference a large result leaves in a JSON
value, and the references inside a value. The source visits object members in key order;
here they are visited as listed, which permutes the result only.
-/

namespace Deadbolt.Artifacts

open Contracts

def artifactRefKey : String := "$artifact"

def artifactRef (id : String) : Json := .obj [(artifactRefKey, .str id)]

/-- `IsArtifactRef`, `service.go:70-80`. -/
def isArtifactRef (members : List (String × Json)) : Option String :=
  match members with
  | [(key, .str id)] => if key = artifactRefKey ∧ id ≠ "" then some id else none
  | _ => none

mutual

/-- `CollectArtifactRefs`, `service.go:83-109`. -/
def collectArtifactRefs : Json → List String
  | .obj members =>
    match isArtifactRef members with
    | some id => [id]
    | none => collectMembers members
  | .arr items => collectItems items
  | _ => []
termination_by structural v => v

def collectItems : List Json → List String
  | [] => []
  | item :: rest => collectArtifactRefs item ++ collectItems rest
termination_by structural items => items

def collectMembers : List (String × Json) → List String
  | [] => []
  | member :: rest => collectMember member ++ collectMembers rest
termination_by structural members => members

def collectMember : String × Json → List String
  | (_, item) => collectArtifactRefs item
termination_by structural member => member

end

end Deadbolt.Artifacts
