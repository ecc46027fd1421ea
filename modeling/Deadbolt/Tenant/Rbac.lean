import Mathlib

/-!
# Roles and capabilities

The canonical roles and capabilities (`internal/tenant/types.go:10-71`), the capabilities of a
role (`rbac.go`) and the capabilities that an API key may have
(`apikey.go:71-180`). Requests and rows name a capability by its text.
-/

namespace Deadbolt.Tenant

inductive Role
  | viewer
  | developer
  | operator
  | admin
  | owner
  deriving DecidableEq

inductive Capability
  | runsCreate
  | runsRead
  | runsControl
  | runsReconcile
  | payloadRead
  | artifactsWrite
  | deploymentsWrite
  | deploymentsRegister
  | deploymentsActivateStaging
  | deploymentsActivateProd
  | workflowsRead
  | workersRead
  | workersDrain
  | approvalsDecide
  | schedulesWrite
  | webhooksWrite
  | orgRead
  | orgUpdate
  | orgDelete
  | adminMember
  | adminKey
  | adminProject
  deriving DecidableEq

namespace Role

def text : Role → String
  | viewer => "Viewer"
  | developer => "Developer"
  | operator => "Operator"
  | admin => "Admin"
  | owner => "Owner"

/-- `IsValidRole`, with the role that the text names. -/
def ofText? (s : String) : Option Role :=
  [viewer, developer, operator, admin, owner].find? fun role => role.text == s

end Role

namespace Capability

def text : Capability → String
  | runsCreate => "runs:create"
  | runsRead => "runs:read"
  | runsControl => "runs:control"
  | runsReconcile => "runs:reconcile"
  | payloadRead => "payload:read"
  | artifactsWrite => "artifacts:write"
  | deploymentsWrite => "deployments:write"
  | deploymentsRegister => "deployments:register"
  | deploymentsActivateStaging => "deployments:activate:staging"
  | deploymentsActivateProd => "deployments:activate:production"
  | workflowsRead => "workflows:read"
  | workersRead => "workers:read"
  | workersDrain => "workers:drain"
  | approvalsDecide => "approvals:decide"
  | schedulesWrite => "schedules:write"
  | webhooksWrite => "webhooks:write"
  | orgRead => "org:read"
  | orgUpdate => "org:update"
  | orgDelete => "org:delete"
  | adminMember => "admin:member"
  | adminKey => "admin:key"
  | adminProject => "admin:project"

def all : List Capability :=
  [runsCreate, runsRead, runsControl, runsReconcile, payloadRead, artifactsWrite, deploymentsWrite,
    deploymentsRegister, deploymentsActivateStaging, deploymentsActivateProd, workflowsRead,
    workersRead, workersDrain, approvalsDecide, schedulesWrite, webhooksWrite, orgRead, orgUpdate,
    orgDelete, adminMember, adminKey, adminProject]

def isValid (c : String) : Bool := all.any fun capability => capability.text == c

end Capability

open Capability in
/-- `roleCapabilities`: each role has the capabilities of the one before it and some more. -/
def roleCapabilities : Role → List Capability
  | .viewer => [runsRead, workflowsRead, workersRead, orgRead]
  | .developer =>
    [runsRead, workflowsRead, workersRead, orgRead, runsCreate, runsControl, payloadRead,
      deploymentsRegister, deploymentsActivateStaging]
  | .operator =>
    [runsRead, workflowsRead, workersRead, orgRead, runsCreate, runsControl, payloadRead,
      deploymentsRegister, deploymentsActivateStaging, deploymentsActivateProd, deploymentsWrite,
      workersDrain, approvalsDecide, runsReconcile, schedulesWrite]
  | .admin =>
    [runsRead, workflowsRead, workersRead, orgRead, runsCreate, runsControl, payloadRead,
      deploymentsRegister, deploymentsActivateStaging, deploymentsActivateProd, deploymentsWrite,
      workersDrain, approvalsDecide, runsReconcile, adminMember, adminKey, adminProject, orgUpdate,
      schedulesWrite]
  | .owner =>
    [runsRead, workflowsRead, workersRead, orgRead, runsCreate, runsControl, payloadRead,
      deploymentsRegister, deploymentsActivateStaging, deploymentsActivateProd, deploymentsWrite,
      workersDrain, approvalsDecide, runsReconcile, adminMember, adminKey, adminProject, orgUpdate,
      orgDelete, schedulesWrite]

/-- `RoleCapabilities`: the texts of a role's capabilities. -/
def Role.capabilities (role : Role) : List String := (roleCapabilities role).map Capability.text

def Role.canPerform (role : Role) (c : Capability) : Bool := (roleCapabilities role).contains c

def canAPIKeyPerform (capabilities : List String) (c : Capability) : Bool :=
  capabilities.contains c.text

/-- Only an owner may delete the organization. -/
theorem Role.canPerform_orgDelete (role : Role) :
    role.canPerform .orgDelete = true ↔ role = .owner := by
  cases role <;> decide

/-! ### Capabilities of API keys -/

def isSpace (c : Char) : Bool :=
  let n := c.toNat
  decide (9 ≤ n ∧ n ≤ 13) || n == 32 || n == 0x85 || n == 0xA0 || n == 0x1680 ||
    decide (0x2000 ≤ n ∧ n ≤ 0x200A) || n == 0x2028 || n == 0x2029 || n == 0x202F ||
    n == 0x205F || n == 0x3000

def trimSpace (s : String) : String :=
  String.ofList ((((s.toList.dropWhile isSpace).reverse).dropWhile isSpace).reverse)

/-- `SanitizeCapabilities`: trimmed, without empty texts and repetitions. -/
def sanitizeCapabilities (capabilities : List String) : List String :=
  capabilities.foldl
    (fun result c =>
      let c := trimSpace c
      if c = "" ∨ c ∈ result then result else result ++ [c]) []

inductive KeyError
  /-- `ErrForbidden: unknown capability`. -/
  | unknownCapability (c : String)
  | machineKeyRestricted
  deriving DecidableEq

/-- `ValidateKeyCapabilities`: canonical capabilities, and for machine keys none that decides
approvals or resolves reconciliation cases. The first offence is reported. -/
def validateKeyCapabilities : List String → Bool → Except KeyError Unit
  | [], _ => .ok ()
  | c :: rest, isMachineKey =>
    if Capability.isValid c = false then .error (.unknownCapability c)
    else if isMachineKey = true ∧
        (c = Capability.text .approvalsDecide ∨ c = Capability.text .runsReconcile) then
      .error .machineKeyRestricted
    else validateKeyCapabilities rest isMachineKey

/-- What a key may have: canonical capabilities without the two that need a person. -/
def MachineCapabilities (capabilities : List String) : Prop :=
  ∀ c ∈ capabilities, Capability.isValid c = true ∧ c ≠ Capability.text .approvalsDecide ∧
    c ≠ Capability.text .runsReconcile

theorem validateKeyCapabilities_ok (capabilities : List String) :
    validateKeyCapabilities capabilities true = .ok () ↔ MachineCapabilities capabilities := by
  induction capabilities with
  | nil => simp [validateKeyCapabilities, MachineCapabilities]
  | cons c rest ih =>
    rw [validateKeyCapabilities]
    unfold MachineCapabilities at ih ⊢
    rw [List.forall_mem_cons, ← ih]
    by_cases hvalid : Capability.isValid c = true
    · by_cases hrestricted : c = Capability.text .approvalsDecide ∨ c = Capability.text .runsReconcile
      · simp [hvalid, hrestricted]
        tauto
      · simp [hvalid, hrestricted]
        tauto
    · simp [hvalid]

end Deadbolt.Tenant
