import Deadbolt.Base.Text

/-!
# Retry policy and guards

`internal/execution/retry.go`. Times are database times in microseconds, durations of
the policy are milliseconds, and 64-bit integers are integers with the saturation the
source writes out, or the wrap-around where it writes none. The jitter sample is the 53-bit
draw of `SampleJitter`; the delay is the exact product instead of its `float64` rounding.
-/

namespace Deadbolt.Execution

open Base

/-- A database timestamp in microseconds. -/
abbrev Time := Int

/-- A number of milliseconds as a time difference, as an SQL interval is. -/
def millis (ms : Int) : Time := 1000 * ms

/-- `time.Duration(ms) * time.Millisecond` as a time difference: the nanoseconds wrap at 64 bits,
and a timestamp keeps the microseconds. -/
def durationMs (ms : Int) : Time := Int.bmod (ms * 1000000) (2 ^ 64) / 1000

/-- `runs.status`, `migrations/00003_execution_and_claims.sql:73`. -/
inductive RunStatus where
  | queued | running | waiting | pausing | paused | cancelling
  | succeeded | failed | cancelled
  deriving DecidableEq

namespace RunStatus

def terminal : RunStatus → Bool
  | succeeded | failed | cancelled => true
  | _ => false

/-- A run no transition reopens: terminal, or cancelling and about to be. -/
def closing : RunStatus → Bool
  | cancelling => true
  | s => s.terminal

end RunStatus

def defaultMaxAttempts : Int := 3
def minMaxAttempts : Int := 1
def maxMaxAttempts : Int := 10
def defaultInitialDelayMs : Int := 1000
def defaultMaxDelayMs : Int := 30000
def defaultAttemptTimeoutMs : Int := 300000
def maxAttemptTimeoutMs : Int := 3600000
def runLifetimeMs : Int := 7 * 24 * 60 * 60 * 1000
def maxRunLifetimeMs : Int := 30 * 24 * 60 * 60 * 1000
def cancelGraceMs : Int := 10 * 1000
def claimStartBudgetMs : Int := 5000
def maxInt64 : Int := 9223372036854775807

/-- `RetryPolicy`, `retry.go:50-57`. -/
@[ext]
structure RetryPolicy where
  maxAttempts : Int
  initialDelayMs : Int
  maxDelayMs : Int
  timeoutMs : Int
  recovery : String
  idempotencyWindowMs : Option Int
  deriving DecidableEq

/-- `NormalizeRetryPolicy`, `retry.go:67-104`. -/
def normalizeRetryPolicy (maxAttempts initialDelayMs maxDelayMs timeoutMs : Int)
    (recovery : String) (idempotencyWindowMs : Option Int) : RetryPolicy :=
  let maxAttempts := if maxAttempts ≤ 0 then defaultMaxAttempts else maxAttempts
  let maxAttempts := if maxAttempts < minMaxAttempts then minMaxAttempts else maxAttempts
  let maxAttempts := if maxMaxAttempts < maxAttempts then maxMaxAttempts else maxAttempts
  let initialDelayMs := if initialDelayMs < 0 then defaultInitialDelayMs else initialDelayMs
  let (initialDelayMs, maxDelayMs) :=
    if initialDelayMs = 0 ∧ maxDelayMs = 0 then (defaultInitialDelayMs, defaultMaxDelayMs)
    else (initialDelayMs, maxDelayMs)
  let maxDelayMs := if maxDelayMs ≤ 0 then defaultMaxDelayMs else maxDelayMs
  let timeoutMs := if timeoutMs ≤ 0 then defaultAttemptTimeoutMs else timeoutMs
  let timeoutMs := if maxAttemptTimeoutMs < timeoutMs then maxAttemptTimeoutMs else timeoutMs
  { maxAttempts, initialDelayMs, maxDelayMs, timeoutMs, recovery, idempotencyWindowMs }

/-- `BackoffCapMs`, `retry.go:108-138`. -/
def backoffCapMs (failedAttemptNumber initialDelayMs maxDelayMs : Int) : Int :=
  let failedAttemptNumber := if failedAttemptNumber < 1 then 1 else failedAttemptNumber
  let maxDelayMs := if maxDelayMs ≤ 0 then defaultMaxDelayMs else maxDelayMs
  if initialDelayMs ≤ 0 then 0
  else
    let shift := (failedAttemptNumber - 1).toNat
    let base :=
      if 62 ≤ shift then maxInt64
      else if maxInt64 / 2 ^ shift < initialDelayMs then maxInt64
      else initialDelayMs * 2 ^ shift
    let base := if maxDelayMs < base then maxDelayMs else base
    if base < 0 then 0 else base

/-- `JitteredDelayMs` at the sample `draw / 2^53`, `retry.go:142-154`. -/
def jitteredDelayMs (capMs : Int) (draw : Nat) : Int :=
  if capMs ≤ 0 then 0
  else if 2 ^ 53 ≤ draw then capMs
  else (draw * capMs) / 2 ^ 53

/-- A delay raised by Retry-After, `retry.go:174-186`. -/
def raiseDelay (delay maxDelayMs : Int) (retryAfterMs : Option Int) : Int :=
  match retryAfterMs with
  | none => delay
  | some ra =>
    let ra := if ra < 0 then 0 else ra
    let ra := if maxDelayMs < ra ∧ 0 < maxDelayMs then maxDelayMs else ra
    if delay < ra then ra else delay

/-- `ComputeRetryDelayMs`, `retry.go:170-187`. -/
def computeRetryDelayMs (failedAttemptNumber initialDelayMs maxDelayMs : Int) (draw : Nat)
    (retryAfterMs : Option Int) : Int :=
  raiseDelay (jitteredDelayMs (backoffCapMs failedAttemptNumber initialDelayMs maxDelayMs) draw)
    maxDelayMs retryAfterMs

/-- `strconv.ParseInt` in base ten with 64 bits. -/
def parseInt64 (cs : List Char) : Option Int :=
  let (neg, digits) :=
    match cs with
    | '-' :: rest => (true, rest)
    | '+' :: rest => (false, rest)
    | _ => (false, cs)
  if digits = [] ∨ digits.any fun c => !c.isDigit then none
  else
    let n : Int := if neg then -(Text.digitsValue digits : Int) else Text.digitsValue digits
    if -maxInt64 - 1 ≤ n ∧ n ≤ maxInt64 then some n else none

/-- `ParseRetryAfter`, `retry.go:192-228`. The HTTP-date layouts are a
parameter: `parseHTTPDate` is the instant of an accepted date. -/
def parseRetryAfter (parseHTTPDate : String → Option Time) (value : String) (now : Time) :
    Option Int :=
  let s := Text.trimSpace value
  if s = "" then none
  else
    match parseInt64 s.toList with
    | some secs =>
      if secs < 0 then none
      else if maxInt64 / 1000 < secs then some maxInt64
      else some (secs * 1000)
    | none =>
      match parseHTTPDate s with
      | none => none
      | some t => if t - now < 0 then some 0 else some ((t - now) / 1000)

/-- The normal form in which recovery modes are compared. -/
def recoveryMode (recovery : String) : String := Text.toLower (Text.trimSpace recovery)

/-- `IsValidRecoveryPolicy`, `retry.go:233-240`. -/
def isValidRecoveryPolicy (recovery : String) : Bool :=
  recoveryMode recovery ∈ ["safe", "idempotent", "reconcile"]

/-- `nonRetryableCodes`, `retry.go:244-262`. -/
def nonRetryableCodes : List String :=
  ["INPUT_MAPPING_ERROR", "OUTPUT_MAPPING_ERROR", "OUTPUT_SCHEMA_VIOLATION",
   "SCHEMA_VIOLATION", "SCHEMA_VALIDATION_ERROR", "INVALID_INPUT", "INVALID_OUTPUT",
   "MISSING_TASK", "MISSING_TASK_REF", "TASK_NOT_FOUND", "INCOMPATIBLE_BUNDLE",
   "INCOMPATIBLE_DEPLOYMENT", "UNSUPPORTED_CAPABILITY", "UNAUTHORIZED", "AUTH_ERROR",
   "PERMISSION_DENIED", "FORBIDDEN"]

/-- `IsNonRetryableCode`, `retry.go:266-273`. -/
def isNonRetryableCode (code : String) : Bool :=
  code ≠ "" && nonRetryableCodes.contains (Text.toUpper (Text.trimSpace code))

/-- `HasRetryBudget`, `retry.go:278-283`. -/
def hasRetryBudget (nextAttemptNumber maxAttempts : Int) : Bool :=
  let maxAttempts := if maxAttempts ≤ 0 then defaultMaxAttempts else maxAttempts
  decide (nextAttemptNumber ≤ maxAttempts) && decide (1 ≤ nextAttemptNumber)

/-- `RequiresReconciliation`, `retry.go:288-291`. -/
def requiresReconciliation (recovery effectStatus : String) : Bool :=
  recoveryMode recovery == "reconcile" &&
    Text.toUpper (Text.trimSpace effectStatus) == "UNKNOWN"

/-- `InsufficientIdempotencyWindow`, `retry.go:296-302`. -/
def insufficientIdempotencyWindow (now validUntil : Time) (attemptTimeoutMs : Int) : Bool :=
  let timeout := if attemptTimeoutMs ≤ 0 then defaultAttemptTimeoutMs else attemptTimeoutMs
  decide (validUntil < now + millis (claimStartBudgetMs + timeout))

/-- `InsufficientRunDeadline`, `retry.go:306-315`. -/
def insufficientRunDeadline (dueAt : Time) (attemptTimeoutMs : Int)
    (runDeadline : Option Time) : Bool :=
  match runDeadline with
  | none => false
  | some deadline =>
    let timeout := if attemptTimeoutMs ≤ 0 then defaultAttemptTimeoutMs else attemptTimeoutMs
    decide (deadline < dueAt + millis (claimStartBudgetMs + timeout))

/-- `COALESCE(reason_code, '')`. -/
def reasonText (reason : Option String) : String := reason.getD ""

/-- `CanScheduleRetry`, `retry.go:320-333`. -/
def canScheduleRetry (status : RunStatus) (reason : String) : Bool :=
  match status with
  | .queued | .running | .pausing | .paused => true
  | .waiting => Text.toUpper (Text.trimSpace reason) != "RECONCILIATION"
  | _ => false

/-- `CanFireRetry`, `retry.go:339-354`. -/
def canFireRetry (status : RunStatus) (reason : String) : Bool :=
  match status with
  | .queued | .running => true
  | .waiting => Text.toUpper (Text.trimSpace reason) ∈ ["RETRY_BACKOFF", "RETRY", ""]
  | _ => false

end Deadbolt.Execution
