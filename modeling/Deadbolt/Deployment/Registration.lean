import Deadbolt.Contracts.Accepted
import Deadbolt.Contracts.Sample
import Deadbolt.Contracts.Shapes
import Deadbolt.Deployment.Decode

/-!
# Registered tasks

`Register` of `internal/deployment/service.go:129-228` stores a manifest that `ValidateDeployment`
accepts and writes one `task_definitions` row a task. Three places apply the defaults of a retry
policy: the row, `NormalizeTask`, and the engine, which reads the stored manifest.
-/

namespace Deadbolt.Deployment

open Base Contracts Execution

/-! ### The row -/

/-- A conversion of a `float64` to an integer. -/
def truncate (n : Rat) : Int := n.num.tdiv n.den

/-- `integer`, `service.go:118-125`. -/
def integer (v : Json) (key : String) (default : Int) : Int :=
  match v.field key with
  | .num n => truncate n
  | _ => default

/-- The columns of a `task_definitions` row that hold the policy. -/
structure TaskDefinition where
  name : String
  entrypoint : String
  recoveryPolicy : String
  timeoutMs : Int
  maxAttempts : Int
  initialDelayMs : Int
  maxDelayMs : Int
  idempotencyWindowMs : Option Int
  deriving DecidableEq

/-- The row of a task, `service.go:187-197`. -/
def taskDefinition (task : Json) : TaskDefinition :=
  let retry := task.field "retry"
  { name := Json.text (task.get? "name"), entrypoint := Json.text (task.get? "entrypoint")
    recoveryPolicy := Json.text (task.get? "recovery")
    timeoutMs := integer task "timeoutMs" 300000
    maxAttempts := integer retry "maxAttempts" 3
    initialDelayMs := integer retry "initialDelayMs" 1000
    maxDelayMs := integer retry "maxDelayMs" 30000
    idempotencyWindowMs :=
      match task.field "idempotencyWindowMs" with
      | .num n => some (truncate n)
      | _ => none }

def TaskDefinition.policy (d : TaskDefinition) : RetryPolicy :=
  { maxAttempts := d.maxAttempts, initialDelayMs := d.initialDelayMs, maxDelayMs := d.maxDelayMs
    timeoutMs := d.timeoutMs, recovery := d.recoveryPolicy
    idempotencyWindowMs := d.idempotencyWindowMs }

inductive RegisterError where
  | contract (code : ContractError)
  | columnRange
  deriving DecidableEq

/-- A value an `INT` column takes. -/
def fitsInt (n : Int) : Bool := decide (-2147483648 ≤ n) && decide (n ≤ 2147483647)

/-- The columns of `task_definitions` and their checks,
`migrations/00002_workflows_and_deployments.sql:50-67`. -/
def TaskDefinition.storable (d : TaskDefinition) : Bool :=
  fitsInt d.timeoutMs && decide (0 < d.timeoutMs) && fitsInt d.maxAttempts
    && decide (0 < d.maxAttempts) && fitsInt d.initialDelayMs && fitsInt d.maxDelayMs
    && ["safe", "idempotent", "reconcile"].contains d.recoveryPolicy

def insertTaskDefinition (d : TaskDefinition) : Except RegisterError TaskDefinition := do
  Fallible.require d.storable .columnRange
  return d

/-- `Register`, `service.go:129-228`: the `task_definitions` rows of an
accepted manifest. -/
def register [Literals] (v : Json) : Except RegisterError (List TaskDefinition) := do
  (validateDeployment v).mapError .contract
  ((v.field "tasks").items.map taskDefinition).mapM insertTaskDefinition

/-! ### Members of a task -/

/-- A member that is absent or an integer between two bounds. -/
def OptionalInt (v : Option Json) (least greatest : Rat) : Prop :=
  v = none ∨ ∃ i : Int, v = some (.num i) ∧ least ≤ i ∧ (i : Rat) ≤ greatest

variable {least : Rat} {t d : Json}

theorem OptionalInt.mono {v : Option Json} {least' greatest : Rat}
    (h : OptionalInt v least greatest) (hle : least' ≤ least) : OptionalInt v least' greatest :=
  h.imp id fun ⟨i, hi, hlo, hhi⟩ => ⟨i, hi, hle.trans hlo, hhi⟩

/-- What the task schemas say of the members that hold the policy. -/
structure TaskShape (leastInitialDelay : Rat) (t : Json) : Prop where
  object : t.kind = .object
  name : OptionalText (t.get? "name")
  recovery : OptionalText (t.get? "recovery")
  entrypoint : OptionalText (t.get? "entrypoint")
  retry : t.get? "retry" = none ∨ ∃ members, t.get? "retry" = some (.obj members)
  attempts : OptionalInt ((t.field "retry").get? "maxAttempts") 1 10
  initial : OptionalInt ((t.field "retry").get? "initialDelayMs") leastInitialDelay maxSafeInteger
  max : OptionalInt ((t.field "retry").get? "maxDelayMs") 0 maxSafeInteger
  timeout : OptionalInt (t.get? "timeoutMs") 1 3600000
  window : OptionalInt (t.get? "idempotencyWindowMs") 1 maxSafeInteger

section

variable {ps : List (String × Schema)} {keys : List String} {v t : Json} {key : String}
  {least greatest : Rat}

theorem optionalInt_of_record (h : Schema.record ps keys v = true)
    (hs : ps.lookup key = some (Schema.integerBetween least greatest)) :
    OptionalInt (v.get? key) least greatest := by
  cases hx : v.get? key with
  | none => exact .inl rfl
  | some x =>
    obtain ⟨i, rfl, hi⟩ := Schema.integerBetween_eq_true.mp (Schema.record_get? h hs hx)
    exact .inr ⟨i, rfl, hi⟩

theorem taskShape (h : Schema.taskRecord least keys t = true) : TaskShape least t := by
  have hrecord := Schema.allOf_eq_true.mp h _ List.mem_cons_self
  have hfirst {k : Kind} {ss : List Schema} (x : Json)
      (hx : Schema.allOf (Schema.ofType k :: ss) x = true) : x.kind = k := by
    simpa [Schema.ofType] using Schema.allOf_eq_true.mp hx _ List.mem_cons_self
  have henum {texts : List String} (x : Json) (hx : Schema.enum texts x = true) :
      x.kind = .string := by
    cases x with
    | str s => rfl
    | _ => cases hx
  have hretry : t.get? "retry" = none ∨
      ∃ members, t.get? "retry" = some (.obj members) ∧
        Schema.retry least (.obj members) = true := by
    cases hr : t.get? "retry" with
    | none => exact .inl rfl
    | some r =>
      have hr := Schema.record_get? hrecord rfl hr
      have hkind := (Schema.record_eq_true.mp hr).1
      cases r with
      | obj members => exact .inr ⟨members, rfl, hr⟩
      | _ => cases hkind
  have hpolicy {key : String} {least' greatest : Rat}
      (hkey : [("maxAttempts", Schema.integerBetween 1 10),
        ("initialDelayMs", Schema.integerBetween least maxSafeInteger),
        ("maxDelayMs", Schema.integerBetween 0 maxSafeInteger)].lookup key =
          some (Schema.integerBetween least' greatest)) :
      OptionalInt ((t.field "retry").get? key) least' greatest := by
    rcases hretry with hnone | ⟨members, hsome, hretry⟩
    · exact .inl (by rw [Json.field, hnone]; rfl)
    · rw [Json.field, hsome, Option.getD_some]
      exact optionalInt_of_record hretry hkey
  exact ⟨(Schema.record_eq_true.mp hrecord).1, optionalText_of_record hrecord rfl hfirst,
    optionalText_of_record hrecord rfl henum, optionalText_of_record hrecord rfl hfirst,
    hretry.imp id (Exists.imp fun _ h => h.1), hpolicy rfl, hpolicy rfl, hpolicy rfl,
    optionalInt_of_record hrecord rfl, optionalInt_of_record hrecord rfl⟩

/-! ### Reading them -/

theorem OptionalInt.read {default : Int} (h : OptionalInt (v.get? key) least greatest) :
    (v.get? key = none ∧ integer v key default = default) ∨
      ∃ i : Int, v.get? key = some (.num i) ∧ integer v key default = i ∧ least ≤ i ∧
        (i : Rat) ≤ greatest := by
  rcases h with h | ⟨i, h, hlo, hhi⟩
  · exact .inl ⟨h, by simp [integer, Json.field, h]⟩
  · exact .inr ⟨i, h, by simp [integer, Json.field, h, truncate], hlo, hhi⟩

theorem decodeInt_num {i : Int} (h : (i : Rat) ≤ maxSafeInteger) (h0 : 0 ≤ (i : Rat)) :
    decodeInt (.num i) = some i := by
  have h1 : i ≤ 9007199254740991 := by
    unfold maxSafeInteger at h
    exact_mod_cast h
  have h2 : 0 ≤ i := by exact_mod_cast h0
  simp only [decodeInt, Rat.den_intCast, Rat.num_intCast, true_and, maxInt64]
  rw [if_pos (by omega)]

theorem OptionalInt.decode (h : OptionalInt (v.get? key) least greatest) (hleast : 0 ≤ least)
    (hgreatest : greatest ≤ maxSafeInteger) :
    decodeInt (v.field key) = some (integer v key 0) := by
  rcases h.read with ⟨hnone, hint⟩ | ⟨i, hi, hint, hlo, hhi⟩
  · rw [hint, Json.field, hnone, Option.getD_none, decodeInt]
  · rw [hint, Json.field, hi, Option.getD_some,
      decodeInt_num (hhi.trans hgreatest) (hleast.trans hlo)]

theorem OptionalInt.decodeWindow
    (h : OptionalInt (t.get? "idempotencyWindowMs") 1 maxSafeInteger) :
    decodePointer decodeInt (t.field "idempotencyWindowMs") =
      some (taskDefinition t).idempotencyWindowMs := by
  unfold taskDefinition
  rcases h with h | ⟨i, h, hlo, hhi⟩
  · simp [Json.field, h, decodePointer]
  · simp only [Json.field, h, Option.getD_some, decodePointer,
      decodeInt_num hhi (zero_le_one.trans hlo), Option.map_some, truncate, Rat.num_intCast,
      Rat.den_intCast, Nat.cast_one, Int.tdiv_one]

theorem decodeString_text (h : OptionalText (v.get? key)) :
    decodeString (v.field key) = some (Json.text (v.get? key)) := by
  rcases h with h | ⟨s, h⟩ <;> simp [Json.field, h, decodeString, Json.text]

theorem decodeStruct_object (h : v.kind = .object) : decodeStruct v = some v := by
  cases v with
  | obj members => rfl
  | _ => cases h

/-- The task the engine decodes: every absent number is zero. -/
theorem TaskShape.decode (h : TaskShape least t) (hleast : 0 ≤ least) :
    decodeTask t = some
      { name := Json.text (t.get? "name"), entrypoint := Json.text (t.get? "entrypoint")
        recovery := Json.text (t.get? "recovery"), timeoutMs := integer t "timeoutMs" 0
        inputSchema := decodeAny (t.field "inputSchema")
        outputSchema := decodeAny (t.field "outputSchema")
        idempotencyWindowMs := (taskDefinition t).idempotencyWindowMs
        maxAttempts := integer (t.field "retry") "maxAttempts" 0
        initialDelayMs := integer (t.field "retry") "initialDelayMs" 0
        maxDelayMs := integer (t.field "retry") "maxDelayMs" 0 } := by
  obtain ⟨retry, hretry, hfield⟩ : ∃ retry, decodeStruct (t.field "retry") = some retry ∧
      ∀ key, retry.field key = (t.field "retry").field key := by
    rcases h.retry with hnone | ⟨members, hsome⟩
    · have hnull : t.field "retry" = .null := by rw [Json.field, hnone, Option.getD_none]
      exact ⟨.obj [], by rw [hnull, decodeStruct], fun key => by rw [hnull]; rfl⟩
    · have hobj : t.field "retry" = .obj members := by rw [Json.field, hsome, Option.getD_some]
      exact ⟨.obj members, by rw [hobj, decodeStruct], fun key => by rw [hobj]⟩
  simp only [decodeTask, decodeStruct_object h.object, hretry, hfield, Option.bind_eq_bind,
    Option.bind_some, decodeString_text h.name, decodeString_text h.recovery, decodeString_text h.entrypoint,
    h.timeout.decode zero_le_one (by norm_num [maxSafeInteger]), h.window.decodeWindow,
    h.attempts.decode zero_le_one (by norm_num [maxSafeInteger]), h.initial.decode hleast le_rfl,
    h.max.decode le_rfl le_rfl, Option.pure_def]

end

/-! ### Normalised tasks -/

theorem lookup_setMember (members : List (String × Json)) (key k : String) (v : Json) :
    (setMember members key v).lookup k = if k = key then some v else members.lookup k := by
  rw [setMember, List.lookup_append, lookup_filter (fun x => x != key)]
  by_cases hk : k = key
  · simp [hk]
  · have hne : (k == key) = false := by simpa using hk
    simp [hk, hne, List.lookup_cons]

theorem lookup_overlay (members defaults : List (String × Json)) (k : String) :
    (overlay members defaults).lookup k = (members.lookup k).or (defaults.lookup k) := by
  rw [overlay, List.lookup_append, lookup_filter (fun x => (members.lookup x).isNone)]
  cases members.lookup k <;> simp

def statedPolicy (m : TaskManifest) : RetryPolicy :=
  { maxAttempts := m.maxAttempts, initialDelayMs := m.initialDelayMs, maxDelayMs := m.maxDelayMs
    timeoutMs := m.timeoutMs, recovery := m.recovery
    idempotencyWindowMs := m.idempotencyWindowMs }

/-- A member of a normalised policy: the task's own, or the default. -/
theorem OptionalInt.overlay {r : Json} {key : String} {greatest : Rat} {d : Int}
    (h : OptionalInt (r.get? key) least greatest) (hd : ([("maxAttempts", .num 3),
      ("initialDelayMs", .num 1000), ("maxDelayMs", .num 30000)] : List (String × Json)).lookup
        key = some (.num d)) (hleast : least ≤ d) (hgreatest : (d : Rat) ≤ greatest) :
    OptionalInt ((normalizeRetry r).get? key) least greatest ∧
      integer (normalizeRetry r) key 0 = integer r key d := by
  have hget : (normalizeRetry r).get? key = (r.get? key).or (some (.num d)) := by
    rw [← hd]
    exact lookup_overlay r.members _ key
  rcases h with h | ⟨i, h, hi⟩
  · rw [h, Option.none_or] at hget
    exact ⟨.inr ⟨d, hget, hleast, hgreatest⟩, by simp [integer, Json.field, hget, h, truncate]⟩
  · rw [h, Option.some_or] at hget
    exact ⟨.inr ⟨i, hget, hi⟩, by simp [integer, Json.field, hget, h, truncate]⟩

/-- `NormalizeTask` writes the defaults of the row. -/
theorem normalizeTask_policy [Literals] (ht : TaskAccepted t) (h : TaskShape least t)
    (hleast : 0 ≤ least) (hdefault : least ≤ 1000) :
    ∃ n m, normalizeTask t = .ok n ∧ decodeTask n = some m ∧
      statedPolicy m = (taskDefinition t).policy := by
  have hn : normalizeTask t = .ok (.obj (setMember (setMember t.members "timeoutMs"
      (.num ((t.field "timeoutMs").number 300000))) "retry" (normalizeRetry (t.field "retry")))) := by
    simp only [normalizeTask, Fallible.bind_unit_eq_ok, Fallible.require_eq_ok]
    exact ⟨ht.check, validateTask_ok.mpr ht, rfl⟩
  generalize hnorm : Json.obj _ = n at hn
  have hget (k : String) : n.get? k = if k = "retry" then some (normalizeRetry (t.field "retry"))
      else if k = "timeoutMs" then some (.num ((t.field "timeoutMs").number 300000))
      else t.get? k := by
    rw [← hnorm]
    exact (lookup_setMember _ _ _ _).trans (by rw [lookup_setMember]; rfl)
  have hretry : n.field "retry" = normalizeRetry (t.field "retry") := by simp [Json.field, hget]
  obtain ⟨hattempts, hattempts'⟩ := h.attempts.overlay (d := 3) rfl (by norm_num) (by norm_num)
  obtain ⟨hinitial, hinitial'⟩ :=
    h.initial.overlay (d := 1000) rfl (by exact_mod_cast hdefault) (by norm_num [maxSafeInteger])
  obtain ⟨hmax, hmax'⟩ := h.max.overlay (d := 30000) rfl (by norm_num)
    (by norm_num [maxSafeInteger])
  have htimeout : OptionalInt (n.get? "timeoutMs") 1 3600000 ∧
      integer n "timeoutMs" 0 = integer t "timeoutMs" 300000 := by
    have hn : n.get? "timeoutMs" = some (.num ((t.field "timeoutMs").number 300000)) := by
      simp [hget]
    rcases h.timeout with h | ⟨i, h, hi⟩ <;>
      simp only [Json.field, h, Option.getD_none, Option.getD_some, Json.number] at hn
    · exact ⟨.inr ⟨300000, hn, by norm_num, by norm_num⟩, by
        simp [integer, Json.field, hn, h, truncate]⟩
    · exact ⟨.inr ⟨i, hn, hi⟩, by simp [integer, Json.field, hn, h, truncate]⟩
  have hshape : TaskShape least n := by
    refine ⟨hnorm ▸ rfl, ?_, ?_, ?_, .inr ⟨_, (hget "retry").trans rfl⟩, hretry ▸ hattempts, hretry ▸ hinitial,
      hretry ▸ hmax, htimeout.1, ?_⟩
    · simpa [hget] using h.name
    · simpa [hget] using h.recovery
    · simpa [hget] using h.entrypoint
    · simpa [hget] using h.window
  refine ⟨n, _, hn, hshape.decode hleast, ?_⟩
  simp only [statedPolicy, TaskDefinition.policy, hretry, hattempts', hinitial', hmax', htimeout.2]
  simp [taskDefinition, hget, Json.field]

/-! ### The policy of the engine -/

def enginePolicy (m : TaskManifest) : RetryPolicy :=
  normalizeRetryPolicy m.maxAttempts m.initialDelayMs m.maxDelayMs m.timeoutMs m.recovery
    m.idempotencyWindowMs

/-- The engine takes an absent initial delay for zero once a greatest delay is declared, so it
keeps the declared delays only of a task that declares the initial one or neither. -/
def DeclaresDelays (t : Json) : Prop :=
  ((t.field "retry").get? "initialDelayMs").isSome ∨ (t.field "retry").get? "maxDelayMs" = none

instance (t : Json) : Decidable (DeclaresDelays t) := by
  unfold DeclaresDelays
  infer_instance

section

variable {t : Json}

variable {r : Json} {m : TaskManifest}

private theorem normalized_delays
    (hinitial : OptionalInt (r.get? "initialDelayMs") 0 maxSafeInteger)
    (hmax : OptionalInt (r.get? "maxDelayMs") 0 maxSafeInteger)
    (hle : (r.field "initialDelayMs").number 1000 ≤ (r.field "maxDelayMs").number 30000)
    (hdeclared : (r.get? "initialDelayMs").isSome ∨ r.get? "maxDelayMs" = none)
    (hzero : ¬ ((r.field "initialDelayMs").number 1000 = 0 ∧ integer r "maxDelayMs" 0 = 0))
    (maxAttempts timeoutMs : Int) (recovery : String) (window : Option Int) :
    let p := normalizeRetryPolicy maxAttempts (integer r "initialDelayMs" 0)
      (integer r "maxDelayMs" 0) timeoutMs recovery window
    p.initialDelayMs = integer r "initialDelayMs" 1000 ∧
      p.maxDelayMs = integer r "maxDelayMs" 30000 := by
  simp only [normalizeRetryPolicy, defaultInitialDelayMs, defaultMaxDelayMs]
  rcases hinitial with hi | ⟨i, hi, hilo, -⟩ <;> rcases hmax with hm | ⟨m, hm, hmlo, -⟩ <;>
    simp only [Json.field, hi, hm, Option.getD_none, Option.getD_some, Json.number, integer,
      truncate, Rat.num_intCast, Rat.den_intCast, Nat.cast_one, Int.tdiv_one, Option.isSome_none,
      Bool.false_eq_true, reduceCtorEq, or_self] at hle hdeclared hzero ⊢
  · decide
  · have hi' : 0 ≤ i := by exact_mod_cast hilo
    have hne : i ≠ 0 := by
      rintro rfl
      exact hzero ⟨by simp, trivial⟩
    have hneg : ¬ i < 0 := by omega
    simp [hneg, hne]
  · have hi' : 0 ≤ i := by exact_mod_cast hilo
    have hm' : i ≤ m := by exact_mod_cast hle
    have hne : ¬ (i = 0 ∧ m = 0) := by
      rintro ⟨rfl, hm0⟩
      exact hzero ⟨by simp, hm0⟩
    have hneg : ¬ i < 0 := by omega
    have hpos : ¬ m ≤ 0 := by omega
    simp only [if_neg hneg, if_neg hne, if_neg hpos, and_self]

private theorem normalized_attempts (h : OptionalInt (r.get? "maxAttempts") 1 10)
    (initialDelayMs maxDelayMs timeoutMs : Int) (recovery : String) (window : Option Int) :
    (normalizeRetryPolicy (integer r "maxAttempts" 0) initialDelayMs maxDelayMs timeoutMs recovery
      window).maxAttempts = integer r "maxAttempts" 3 := by
  simp only [normalizeRetryPolicy, defaultMaxAttempts, minMaxAttempts, maxMaxAttempts]
  rcases h with h | ⟨i, h, hlo, hhi⟩ <;>
    simp only [integer, Json.field, h, Option.getD_none, Option.getD_some, truncate,
      Rat.num_intCast, Rat.den_intCast, Nat.cast_one, Int.tdiv_one]
  · decide
  · have h1 : 1 ≤ i := by exact_mod_cast hlo
    have h2 : i ≤ 10 := by exact_mod_cast hhi
    rw [if_neg (by omega : ¬ i ≤ 0), if_neg (by omega), if_neg (by omega)]

private theorem normalized_timeout (h : OptionalInt (t.get? "timeoutMs") 1 3600000)
    (maxAttempts initialDelayMs maxDelayMs : Int) (recovery : String) (window : Option Int) :
    (normalizeRetryPolicy maxAttempts initialDelayMs maxDelayMs (integer t "timeoutMs" 0) recovery
      window).timeoutMs = integer t "timeoutMs" 300000 := by
  simp only [normalizeRetryPolicy, defaultAttemptTimeoutMs, maxAttemptTimeoutMs]
  rcases h with h | ⟨i, h, hlo, hhi⟩ <;>
    simp only [integer, Json.field, h, Option.getD_none, Option.getD_some, truncate,
      Rat.num_intCast, Rat.den_intCast, Nat.cast_one, Int.tdiv_one]
  · decide
  · have h1 : 1 ≤ i := by exact_mod_cast hlo
    have h2 : i ≤ 3600000 := by exact_mod_cast hhi
    rw [if_neg (by omega : ¬ i ≤ 0), if_neg (by omega)]

/-- `ValidateTask` alone also admits a zero initial delay, which the engine takes for an absent one
unless a greatest delay is declared. -/
def KeepsDelays (t : Json) : Prop :=
  DeclaresDelays t ∧ ¬ (((t.field "retry").field "initialDelayMs").number 1000 = 0 ∧
    integer (t.field "retry") "maxDelayMs" 0 = 0)

instance (t : Json) : Decidable (KeepsDelays t) := by
  unfold KeepsDelays
  infer_instance

theorem enginePolicy_delays [Literals] (ht : TaskAccepted t) (h : TaskShape 0 t)
    (hkeeps : KeepsDelays t) (hm : decodeTask t = some m) :
    (enginePolicy m).initialDelayMs = (taskDefinition t).initialDelayMs ∧
      (enginePolicy m).maxDelayMs = (taskDefinition t).maxDelayMs := by
  obtain rfl := Option.mem_unique (h.decode le_rfl) hm
  exact normalized_delays h.initial h.max ht.delays hkeeps.1 hkeeps.2 ..

theorem integer_bounds {key : String} (h : OptionalInt (r.get? key) 0 maxSafeInteger) :
    0 ≤ integer r key 0 ∧ integer r key 0 ≤ 2 ^ 53 := by
  rcases h.read with ⟨-, hint⟩ | ⟨i, -, hint, hlo, hhi⟩ <;> rw [hint]
  · decide
  · have hhi : i ≤ 9007199254740991 := by
      unfold maxSafeInteger at hhi
      exact_mod_cast hhi
    exact ⟨by exact_mod_cast hlo, hhi.trans (by norm_num)⟩

/-- The delays of the engine's policy of an accepted task. -/
theorem enginePolicy_bounds (h : TaskShape 0 t) (hm : decodeTask t = some m) :
    0 ≤ (enginePolicy m).initialDelayMs ∧ 0 < (enginePolicy m).maxDelayMs ∧
      (enginePolicy m).maxDelayMs ≤ 2 ^ 53 := by
  obtain rfl := Option.mem_unique (h.decode le_rfl) hm
  have hinitial := integer_bounds h.initial
  have hmax := integer_bounds h.max
  simp only [enginePolicy, normalizeRetryPolicy, defaultInitialDelayMs, defaultMaxDelayMs]
  generalize integer (t.field "retry") "initialDelayMs" 0 = i at hinitial ⊢
  generalize integer (t.field "retry") "maxDelayMs" 0 = m at hmax ⊢
  split_ifs <;> dsimp only at * <;> omega

theorem enginePolicy_eq [Literals] (ht : TaskAccepted t) (h : TaskShape 1 t)
    (hdeclared : DeclaresDelays t) (hm : decodeTask t = some m) :
    enginePolicy m = (taskDefinition t).policy := by
  obtain rfl := Option.mem_unique (h.decode zero_le_one) hm
  have hzero : ((t.field "retry").field "initialDelayMs").number 1000 ≠ 0 := by
    rcases h.initial with hnone | ⟨i, hi, hlo, -⟩
    · rw [Json.field, hnone]
      decide
    · rw [Json.field, hi]
      exact (zero_lt_one.trans_le hlo).ne'
  obtain ⟨hinitial, hmax⟩ := normalized_delays (h.initial.mono zero_le_one) h.max ht.delays
    hdeclared (fun h => hzero h.1) (integer (t.field "retry") "maxAttempts" 0) (integer t "timeoutMs" 0)
    (Json.text (t.get? "recovery")) (taskDefinition t).idempotencyWindowMs
  exact RetryPolicy.ext (normalized_attempts h.attempts ..) hinitial hmax
    (normalized_timeout h.timeout ..) rfl rfl

end

/-! ### Registered tasks -/

private theorem insertAll_ok {l rows : List TaskDefinition}
    (h : l.mapM insertTaskDefinition = .ok rows) :
    rows = l ∧ ∀ row ∈ l, row.storable = true := by
  induction l generalizing rows with
  | nil => exact ⟨(Except.ok.inj h).symm, by simp⟩
  | cons row l ih =>
    rw [List.mapM_cons] at h
    obtain ⟨row', hrow, h⟩ := Fallible.bind_eq_ok.mp h
    obtain ⟨rest, hrest, h⟩ := Fallible.bind_eq_ok.mp h
    obtain ⟨⟨⟩, hs, hrow⟩ := Fallible.bind_eq_ok.mp hrow
    obtain rfl := Except.ok.inj hrow
    obtain rfl := Except.ok.inj h
    obtain ⟨rfl, hall⟩ := ih hrest
    exact ⟨rfl, List.forall_mem_cons.mpr ⟨Fallible.require_eq_ok.mp hs, hall⟩⟩

theorem register_ok [Literals] {rows : List TaskDefinition} (h : register d = .ok rows) :
    DeploymentAccepted d ∧
      rows = (d.field "tasks").items.map taskDefinition ∧ ∀ row ∈ rows, row.storable = true := by
  obtain ⟨⟨⟩, hd, hrows⟩ := Fallible.bind_eq_ok.mp h
  have haccepted : validateDeployment d = .ok () := by
    cases hv : validateDeployment d with
    | error e =>
      rw [hv] at hd
      cases hd
    | ok u => rfl
  obtain ⟨rfl, hall⟩ := insertAll_ok hrows
  exact ⟨validateDeployment_ok haccepted, rfl, hall⟩

private theorem array_member {ps : List (String × Schema)} {keys : List String} {s : Schema}
    (key : String) (h : Schema.record ps keys d = true) (hk : key ∈ keys) (hs : ps.lookup key =
      some (Schema.allOf [Schema.ofType .array, Schema.minItems 1, Schema.items s])) :
    ∃ items, d.field key = .arr items ∧ items ≠ [] ∧ ∀ x ∈ items, s x = true := by
  obtain ⟨v, hv, hall⟩ := Schema.record_member key h hk hs
  obtain ⟨items, rfl, hitems⟩ := array_shape hall
  exact ⟨items, by rw [Json.field, hv, Option.getD_some], hitems⟩

/-- A task of an accepted deployment is accepted by itself and has the deployment's schema. -/
theorem accepted_task [Literals] (h : DeploymentAccepted d) (ht : t ∈ (d.field "tasks").items) :
    TaskAccepted t ∧ TaskShape 1 t := by
  obtain ⟨tasks, htasks, -, hschema⟩ := array_member "tasks" h.schema (by simp) rfl
  obtain ⟨workflows, hworkflows, hne, -⟩ := array_member "workflows" h.schema (by simp) rfl
  obtain ⟨w, hw⟩ := List.exists_mem_of_ne_nil workflows hne
  obtain ⟨seen, hseen, -⟩ := (h.workflows w (by rwa [hworkflows])).tasks
  rw [htasks] at ht
  exact ⟨(checkTasks_ok hseen).2.1 t (by rwa [htasks]), taskShape (hschema t ht)⟩

theorem accepted_names [Literals] (h : DeploymentAccepted d) :
    ((d.field "tasks").items.map taskName).Nodup := by
  obtain ⟨workflows, hworkflows, hne, -⟩ := array_member "workflows" h.schema (by simp) rfl
  obtain ⟨w, hw⟩ := List.exists_mem_of_ne_nil workflows hne
  obtain ⟨seen, hseen, -⟩ := (h.workflows w (by rwa [hworkflows])).tasks
  exact (checkTasks_ok hseen).2.2

/-- The policy the engine resolves for a node is that of the task of the name. -/
theorem taskRetryPolicy_eq [Literals] (h : DeploymentAccepted d) {m : DeploymentManifest}
    (hm : decodeDeployment d = some m) (ht : t ∈ (d.field "tasks").items)
    {workflowName nodeID : String} (hnode : m.retryTaskName workflowName nodeID = taskName t) :
    ∃ tm, decodeTask t = some tm ∧ m.taskRetryPolicy workflowName nodeID = enginePolicy tm := by
  obtain ⟨tasks, htasks, -, -⟩ := array_member "tasks" h.schema (by simp) rfl
  have hdecode : tasks.mapM decodeTask = some m.tasks := by
    rw [decodeDeployment, decodeStruct_object (Schema.record_eq_true.mp h.schema).1] at hm
    simp only [htasks, decodeList, Option.bind_eq_bind, Option.bind_some] at hm
    obtain ⟨ts, hts, hm⟩ := Option.bind_eq_some_iff.mp hm
    obtain ⟨ws, -, hm⟩ := Option.bind_eq_some_iff.mp hm
    obtain rfl := Option.some.inj hm
    exact hts
  have hmap := Fallible.mapM_eq_some.mp hdecode
  have hname {x : Json} {tm : TaskManifest} (hx : x ∈ tasks) (htm : decodeTask x = some tm) :
      tm.name = taskName x := by
    have hshape := (accepted_task h (by rwa [htasks])).2
    obtain rfl := Option.mem_unique (hshape.decode zero_le_one) htm
    rfl
  rw [htasks] at ht
  obtain ⟨tm, htm, hdec⟩ : ∃ tm ∈ m.tasks, some tm = decodeTask t := by
    simpa using (hmap ▸ List.mem_map_of_mem ht : decodeTask t ∈ m.tasks.map some)
  refine ⟨tm, hdec.symm, ?_⟩
  have hfind : m.task? (taskName t) = some tm := by
    cases hf : m.task? (taskName t) with
    | none =>
      have := List.find?_eq_none.mp hf tm htm
      simp [hname ht hdec.symm] at this
    | some tm' =>
      obtain ⟨x, hx, hxm⟩ : ∃ x ∈ tasks, decodeTask x = some tm' :=
        List.mem_map.mp (hmap ▸ List.mem_map_of_mem (List.mem_of_find?_eq_some hf))
      have hsame : taskName x = taskName t := by
        rw [← hname hx hxm]
        simpa using List.find?_some hf
      have hnodup := accepted_names h
      rw [htasks] at hnodup
      obtain rfl := List.inj_on_of_nodup_map hnodup hx ht hsame
      exact (hxm.symm.trans hdec.symm)
  rw [DeploymentManifest.taskRetryPolicy, hnode, hfind]
  rfl

def Sample.single (retry : List (String × Json)) : Json :=
  Contracts.Sample.deployment [Contracts.Sample.task "charge" retry]
    [Contracts.Sample.workflow "order" [Contracts.Sample.taskNode "charge" "charge" [] (.obj [])]
      (.obj [])]

def Sample.manifest (retry : List (String × Json)) : DeploymentManifest :=
  (decodeDeployment (Sample.single retry)).getD ⟨[], []⟩

end Deadbolt.Deployment
