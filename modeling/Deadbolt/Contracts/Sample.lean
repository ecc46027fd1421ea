import Deadbolt.Contracts.Validator

/-!
# Small manifests

Builders for the manifests that the concrete cases of the development use.
-/

namespace Deadbolt.Contracts.Sample

/-- Every number literal is one byte long; no case comes near a size limit. -/
@[reducible] def literals : Literals := ⟨fun _ => "0"⟩

def typedTask (name : String) (inputSchema outputSchema : Json) (retry : List (String × Json)) :
    Json :=
  .obj [("name", .str name), ("inputSchema", inputSchema), ("outputSchema", outputSchema),
    ("recovery", .str "safe"), ("entrypoint", .str name), ("retry", .obj retry)]

def task (name : String) (retry : List (String × Json)) : Json :=
  typedTask name (.obj []) (.obj []) retry

def node (id type : String) (after : List String) (members : List (String × Json)) : Json :=
  .obj ([("id", .str id), ("type", .str type), ("after", .arr (after.map .str)),
    ("sideEffect", .bool true)] ++ members)

def taskNode (id task : String) (after : List String) (input : Json) : Json :=
  node id "task" after [("task", .str task), ("input", input)]

def workflow (name : String) (nodes : List Json) (output : Json) : Json :=
  .obj [("manifestVersion", .num 1), ("name", .str name), ("inputSchema", .obj []),
    ("outputSchema", .obj []), ("nodes", .arr nodes), ("output", output)]

def digest : String := String.ofList (List.replicate 64 '0')

def deployment (tasks workflows : List Json) : Json :=
  .obj [("manifestVersion", .num 1), ("sdkVersion", .str "1"), ("protocolMajor", .num 1),
    ("nodeRuntimeMajor", .num 24), ("targetOS", .str "linux"),
    ("targetArchitecture", .str "amd64"), ("dependencyLockDigest", .str digest),
    ("bundleDigest", .str digest), ("secretNames", .arr []), ("tasks", .arr tasks),
    ("workflows", .arr workflows)]

end Deadbolt.Contracts.Sample
