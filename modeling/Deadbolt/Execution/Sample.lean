import Deadbolt.Execution.Engine

/-!
# A small installation

One environment with two workers, one deployment and a platform whose clock counts its own readings
in microseconds.
-/

namespace Deadbolt.Execution.Sample

open Base Contracts

/-- A clock that advances by one at every reading, ids in the order they are drawn, no jitter, and
the digest `d` for every completion. -/
@[reducible] def platform : Platform where
  clock n := n
  clock_mono h := by exact_mod_cast h
  uuid n := n
  uuid_injective h := h
  jitter _ := 0
  validatePayload _ _ := false
  canonicalSize _ := 0
  canonicalDigest j :=
    match j with
    | .str s => s
    | _ => "d"
  operationID _ _ n := n
  formatTime _ := ""
  parseHTTPDate _ := none
  mapOrder l := l
  mapOrder_perm _ := List.Perm.refl _

/-! ### Workflows -/

def taskNode (id : String) (after : List String) : WorkflowNode :=
  { id, type := .task, task := id, after, input := none, delayMs := none, choice := none
    merge := none, approval := none }

def approvalNode (id : String) (after : List String) : WorkflowNode :=
  { id, type := .approval, task := "", after, input := none, delayMs := none, choice := none
    merge := none
    approval := some
      { payload := none, outputSchema := none, requiredPermission := "", expiresInMs := 1000 } }

def delayNode (id : String) (after : List String) : WorkflowNode :=
  { id, type := .delay, task := "", after, input := none, delayMs := some 1000, choice := none
    merge := none, approval := none }

def taskManifest (name recovery : String) (windowMs : Option Int) : TaskManifest :=
  { name, entrypoint := name, recovery, timeoutMs := 60000, inputSchema := none
    outputSchema := none, idempotencyWindowMs := windowMs, maxAttempts := 3
    initialDelayMs := 1000, maxDelayMs := 30000 }

def workflow (name : String) (nodes : List WorkflowNode) : WorkflowManifest :=
  { name, inputSchema := none, outputSchema := none, nodes, output := none }

/-! ### The fleet -/

def table {α : Type} (rows : List (Nat × α)) : Table Nat α :=
  rows.foldl (fun t e => (t.insert? e.1 e.2).getD t) Table.empty

/-- Two active workers in an environment with ten places, and a deployment of the workflows. -/
def fleet (tasks : List TaskManifest) (workflows : List WorkflowManifest) : Fleet where
  workers := table [(1, ⟨1, "default", .active⟩), (2, ⟨1, "default", .active⟩)]
  sessions := table [(1, ⟨1, 1, 10 ^ 15, none, ["b"]⟩), (2, ⟨2, 1, 10 ^ 15, none, ["b"]⟩)]
  admissions := table [(1, ⟨10, 2000000, 0⟩)]
  deployments := table [(1,
    { id := 1, environmentID := 1, bundleDigest := "b", manifest := { tasks, workflows } })]
  channels := workflows.map fun wf => ((1, wf.name), 1)
  controls := some ⟨true, true, .active⟩

def single (recovery : String) (windowMs : Option Int) : Fleet :=
  fleet [taskManifest "a" recovery windowMs] [workflow "w" [taskNode "a" []]]

def session : WorkerSession := ⟨1, 1, 1, "default"⟩

def otherSession : WorkerSession := ⟨2, 2, 1, "default"⟩

def request : CreateRunRequest := ⟨1, "w", "k", none, .obj []⟩

def completion (attemptID : AttemptID) (outcome : Outcome) (error : Option TaskError) :
    CompleteRequest :=
  { attemptID, ownershipEpoch := 1, outcome, output := none, artifactID := "", error
    resultDigest := "d" }

/-- A run is created and its first task claimed by the first worker. -/
def claimed : List Action :=
  [.createRun request, .claimSnapshot session 1 [], .claimCommit 0 [true] [] []]

def started : List Action := claimed ++ [.start session 2 1]

/-- The worker reports a failure without saying what became of the effect. -/
def failedUnknown : List Action :=
  started ++ [.complete session (completion 2 .failed none) .unavailable]

/-- The worker is revoked while its attempt runs, and the lease sweep takes the step over. -/
def handedOff : List Action := started ++ [.revokeWorker 1, .reconcileExpiredLeases []]

def run (f : Fleet) (as : List Action) : World := (@engine platform).exec (World.initial f) as

end Deadbolt.Execution.Sample
