import Deadbolt.Contracts.Validator

/-!
# Accepted manifests

What the validators have established about a manifest they accept, one statement a validator.
-/

namespace Deadbolt.Contracts

open Base Base.Fallible

variable [Literals]

/-! ### Tasks -/

structure TaskAccepted (t : Json) : Prop where
  check : t.check 0 = true
  schema : Schema.task t = true
  inputSchema : validateSchema (t.field "inputSchema") = .ok ()
  outputSchema : validateSchema (t.field "outputSchema") = .ok ()
  delays : ((t.field "retry").field "initialDelayMs").number 1000 ≤
    ((t.field "retry").field "maxDelayMs").number 30000
  window : Json.text (t.get? "recovery") = "idempotent" →
    5000 + (t.field "timeoutMs").number 300000 ≤ (t.field "idempotencyWindowMs").number 0

theorem validateTask_ok {t : Json} : validateTask t = .ok () ↔ TaskAccepted t := by
  simp only [validateTask, bind_unit_eq_ok, require_eq_ok]
  constructor <;> rintro ⟨h1, h2, h3, h4, h5, h6⟩ <;> exact ⟨h1, h2, h3, h4, h5, h6⟩

def taskName (t : Json) : String := Json.text (t.get? "name")

variable {definitions : List Json}

private theorem checkTasks_from {seen tasks : List (String × Json)}
    (h : definitions.foldlM (fun tasks t => do
      validateTask t
      let name := Json.text (t.get? "name")
      require (tasks.lookup name).isNone ContractError.invalidTask
      return tasks ++ [(name, t)]) seen = .ok tasks) :
    tasks = seen ++ definitions.map (fun t => (taskName t, t)) ∧
      (∀ t ∈ definitions, TaskAccepted t ∧ seen.lookup (taskName t) = none) ∧
      (definitions.map taskName).Nodup := by
  induction definitions generalizing seen with
  | nil =>
    simp only [List.foldlM_nil, pure, Except.pure, Except.ok.injEq] at h
    simp [h]
  | cons t rest ih =>
    simp only [List.foldlM_cons, bind_eq_ok, pure, Except.pure, Except.ok.injEq] at h
    obtain ⟨_, ⟨⟨⟩, ht, ⟨⟩, hname, rfl⟩, h⟩ := h
    obtain ⟨rfl, hrest, hnodup⟩ := ih h
    have hname := Option.isNone_iff_eq_none.mp (require_eq_ok.mp hname)
    refine ⟨by simp [taskName], List.forall_mem_cons.mpr
      ⟨⟨validateTask_ok.mp ht, hname⟩, fun x hx => ⟨(hrest x hx).1, ?_⟩⟩, ?_⟩
    · have := (hrest x hx).2
      rw [List.lookup_append, Option.or_eq_none_iff] at this
      exact this.1
    · refine List.nodup_cons.mpr ⟨fun hmem => ?_, hnodup⟩
      obtain ⟨x, hx, hxt⟩ := List.mem_map.mp hmem
      have := (hrest x hx).2
      rw [hxt] at this
      simp [List.lookup_append, taskName] at this

/-- The task loop accepts tasks of different names and keeps each under its own. -/
theorem checkTasks_ok {tasks : List (String × Json)} (h : checkTasks definitions = .ok tasks) :
    tasks = definitions.map (fun t => (taskName t, t)) ∧ (∀ t ∈ definitions, TaskAccepted t) ∧
      (definitions.map taskName).Nodup := by
  obtain ⟨htasks, hall, hnodup⟩ := checkTasks_from h
  exact ⟨by simpa using htasks, fun t ht => (hall t ht).1, hnodup⟩

/-! ### Workflows -/

structure WorkflowAccepted (w : Json) (definitions : List Json) : Prop where
  check : w.check 0 = true
  nonempty : (w.field "nodes").items ≠ []
  schema : Schema.workflow w = true
  inputSchema : validateSchema (w.field "inputSchema") = .ok ()
  outputSchema : validateSchema (w.field "outputSchema") = .ok ()
  tasks : ∃ tasks, checkTasks definitions = .ok tasks ∧
    (∃ seen, checkNodes tasks (w.field "nodes").items = .ok seen) ∧
    checkGraph ⟨w.field "inputSchema", (w.field "nodes").items, tasks⟩ (w.field "output") = .ok ()

theorem validateWorkflow_ok {w : Json} (h : validateWorkflow w definitions = .ok ()) :
    WorkflowAccepted w definitions := by
  simp only [validateWorkflow, bind_unit_eq_ok, require_eq_ok] at h
  obtain ⟨hcheck, -, -, hnodes, -, hschema, hin, hout, h⟩ := h
  obtain ⟨tasks, htasks, h⟩ := bind_eq_ok.mp h
  obtain ⟨seen, hseen, h⟩ := bind_eq_ok.mp h
  exact ⟨hcheck, hnodes, hschema, hin, hout, tasks, htasks, ⟨seen, hseen⟩, h⟩

/-! ### Deployments -/

private theorem workflows_from {workflows : List Json} {seen names : List String}
    (h : workflows.foldlM (fun names w => do
      let name := Json.text (w.get? "name")
      require (name ∉ names) ContractError.invalidManifest
      validateWorkflow w definitions
      return names ++ [name]) seen = .ok names) :
    (∀ w ∈ workflows, WorkflowAccepted w definitions ∧ taskName w ∉ seen) ∧
      (workflows.map taskName).Nodup := by
  induction workflows generalizing seen with
  | nil => simp
  | cons w rest ih =>
    simp only [List.foldlM_cons, bind_eq_ok, pure, Except.pure, Except.ok.injEq] at h
    obtain ⟨_, ⟨⟨⟩, hname, ⟨⟩, hw, rfl⟩, h⟩ := h
    obtain ⟨hrest, hnodup⟩ := ih h
    refine ⟨List.forall_mem_cons.mpr ⟨⟨validateWorkflow_ok hw, require_eq_ok.mp hname⟩,
      fun x hx => ⟨(hrest x hx).1, fun hmem => (hrest x hx).2 (List.mem_append_left _ hmem)⟩⟩,
      List.nodup_cons.mpr ⟨fun hmem => ?_, hnodup⟩⟩
    obtain ⟨x, hx, hxw⟩ := List.mem_map.mp hmem
    exact (hrest x hx).2 (hxw ▸ by simp [taskName])

structure DeploymentAccepted (d : Json) : Prop where
  check : d.check 0 = true
  schema : Schema.deployment d = true
  workflows : ∀ w ∈ (d.field "workflows").items, WorkflowAccepted w (d.field "tasks").items
  names : ((d.field "workflows").items.map taskName).Nodup

theorem validateDeployment_ok {d : Json} (h : validateDeployment d = .ok ()) :
    DeploymentAccepted d := by
  simp only [validateDeployment, bind_unit_eq_ok, require_eq_ok] at h
  obtain ⟨hcheck, hschema, h⟩ := h
  obtain ⟨names, hnames, -⟩ := bind_eq_ok.mp h
  obtain ⟨hall, hnodup⟩ := workflows_from hnames
  exact ⟨hcheck, hschema, fun w hw => (hall w hw).1, hnodup⟩

end Deadbolt.Contracts
