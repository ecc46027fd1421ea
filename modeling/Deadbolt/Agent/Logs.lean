import Deadbolt.Base.Replace

/-!
# The logs a worker sends

`RedactExecutionLogs`, `internal/worker/process.go:444-473`: the values of the task's secrets are
replaced in both streams before the logs leave the worker. Texts are lists of bytes, as Go's
strings are.
-/

namespace Deadbolt.Agent

open Base

abbrev Bytes := List UInt8

def ascii (s : String) : Bytes := s.toList.map fun c => c.toNat.toUInt8

structure ExecutionLogs where
  stdout : Bytes
  stderr : Bytes
  deriving DecidableEq

/-- `sort.Slice` by a comparison: a sorted rearrangement, with equal elements in any order. -/
structure SortSlice (less : Bytes → Bytes → Bool) where
  sort : List Bytes → List Bytes
  perm : ∀ values, (sort values).Perm values
  ordered : ∀ values, (sort values).Pairwise fun a b => less b a = false

def longer (a b : Bytes) : Bool := decide (b.length < a.length)

/-- The values that are not empty, each once, in the order the map is ranged over. -/
def secretValues (secrets : List (String × Bytes)) : List Bytes :=
  secrets.foldl
    (fun values secret =>
      if secret.2 = [] then values
      else if secret.2 ∈ values then values
      else values ++ [secret.2])
    []

def redacted : Bytes := ascii "[REDACTED]"

def redact (values : List Bytes) (text : Bytes) : Bytes :=
  values.foldl (fun text secret => replaceAll secret redacted text) text

/-- `RedactExecutionLogs`, `process.go:447-473`; `secrets` lists the entries of
the map in the order the loop ranges over them. -/
def redactExecutionLogs (sorter : SortSlice longer) (logs : Option ExecutionLogs)
    (secrets : List (String × Bytes)) : Option ExecutionLogs :=
  match logs with
  | none => none
  | some logs =>
    if secrets.length = 0 then some logs
    else
      let values := sorter.sort (secretValues secrets)
      some { stdout := redact values logs.stdout, stderr := redact values logs.stderr }

/-! ### The values -/

theorem mem_foldl_secretValues {v : Bytes} (secrets : List (String × Bytes))
    (values : List Bytes) :
    v ∈ secrets.foldl (fun values secret => if secret.2 = [] then values
        else if secret.2 ∈ values then values else values ++ [secret.2]) values ↔
      v ∈ values ∨ v ≠ [] ∧ ∃ name, (name, v) ∈ secrets := by
  induction secrets generalizing values with
  | nil => simp
  | cons secret rest ih =>
    obtain ⟨name, value⟩ := secret
    rw [List.foldl_cons, ih]
    by_cases hempty : value = []
    · grind
    · by_cases hmem : value ∈ values <;> grind

/-- The loop collects every value that is not empty. -/
theorem mem_secretValues {secrets : List (String × Bytes)} {v : Bytes} :
    v ∈ secretValues secrets ↔ v ≠ [] ∧ ∃ name, (name, v) ∈ secrets := by
  rw [secretValues, mem_foldl_secretValues]
  simp

/-! ### What a redacted text contains -/

variable {secret : Bytes}

/-- A secret without brackets that `REDACTED` does not contain avoids the marker. -/
theorem avoids_redacted (hopen : 0x5B ∉ secret) (hclose : 0x5D ∉ secret)
    (hword : ¬ secret <:+: ascii "REDACTED") : Avoids secret redacted :=
  ⟨0x5B, ascii "REDACTED", 0x5D, by decide +kernel, hopen, hclose, hword⟩

/-- No replacement of the loop brings in an occurrence of a secret that avoids the marker. -/
theorem infix_of_infix_redact (h : Avoids secret redacted) {values : List Bytes}
    (hvalues : [] ∉ values) (text : Bytes) (hin : secret <:+: redact values text) :
    secret <:+: text := by
  induction values generalizing text with
  | nil => exact hin
  | cons v rest ih =>
    rw [List.mem_cons, not_or] at hvalues
    exact infix_of_infix_replaceAll (Ne.symm hvalues.1) h [] text (ih hvalues.2 _ hin)

/-- The loop leaves no occurrence of a secret in its list that avoids the marker, wherever in the
list it stands. -/
theorem not_infix_redact (h : Avoids secret redacted) {values : List Bytes} (hvalues : [] ∉ values)
    (hmem : secret ∈ values) (text : Bytes) : ¬ secret <:+: redact values text := by
  induction values generalizing text with
  | nil => simp at hmem
  | cons v rest ih =>
    have htail : [] ∉ rest := fun h => hvalues (List.mem_cons_of_mem v h)
    rcases List.mem_cons.mp hmem with rfl | hmem
    · have hne : secret ≠ [] := fun h => hvalues (h ▸ List.mem_cons_self)
      -- its own replacement removes it, and the later ones do not bring it back
      exact fun hin => not_infix_replaceAll hne h [] text (by simp [StartsAfter])
        (infix_of_infix_redact h htail _ hin)
    · exact ih htail hmem _

/-- Both streams that leave the worker contain no listed secret, whatever the order in which the
map is ranged over and values of one length are sorted. A secret has to be free of brackets and no
part of `REDACTED`; the other secrets may be anything. -/
theorem redactExecutionLogs_hides (sorter : SortSlice longer) (logs : ExecutionLogs)
    (secrets : List (String × Bytes)) {name : String} {secret : Bytes}
    (hlisted : (name, secret) ∈ secrets) (hne : secret ≠ []) (hopen : 0x5B ∉ secret)
    (hclose : 0x5D ∉ secret) (hword : ¬ secret <:+: ascii "REDACTED") :
    ∃ sent, redactExecutionLogs sorter (some logs) secrets = some sent ∧
      ¬ secret <:+: sent.stdout ∧ ¬ secret <:+: sent.stderr := by
  have havoids := avoids_redacted hopen hclose hword
  have hmem : secret ∈ sorter.sort (secretValues secrets) :=
    (sorter.perm _).mem_iff.mpr (mem_secretValues.mpr ⟨hne, name, hlisted⟩)
  have hempty : [] ∉ sorter.sort (secretValues secrets) := fun h =>
    (mem_secretValues.mp ((sorter.perm _).mem_iff.mp h)).1 rfl
  refine ⟨_, if_neg (List.length_pos_of_mem hlisted).ne', ?_, ?_⟩
  · exact not_infix_redact havoids hempty hmem logs.stdout
  · exact not_infix_redact havoids hempty hmem logs.stderr

def insertionSorter : SortSlice longer where
  sort := List.insertionSort fun a b => b.length ≤ a.length
  perm := List.perm_insertionSort _
  ordered values :=
    (List.pairwise_insertionSort (fun a b : Bytes => b.length ≤ a.length) values).imp
      fun h => decide_eq_false (Nat.not_lt.mpr h)

/-- Secrets that overlap and contain one another. -/
theorem redactExecutionLogs_hides_overlapping :
    ∃ sent, redactExecutionLogs insertionSorter
        (some { stdout := ascii "x=abab ba", stderr := ascii "[abab]" })
        [("a", ascii "ba"), ("b", ascii "abab")] = some sent ∧
      ¬ ascii "ba" <:+: sent.stdout ∧ ¬ ascii "ba" <:+: sent.stderr :=
  redactExecutionLogs_hides insertionSorter _ _ List.mem_cons_self (by decide +kernel)
    (by decide +kernel) (by decide +kernel) (by decide +kernel)

example : redact [ascii "abab", ascii "ba"] (ascii "x=abab ba") = ascii "x=[REDACTED] [REDACTED]" :=
  by decide +kernel

end Deadbolt.Agent
