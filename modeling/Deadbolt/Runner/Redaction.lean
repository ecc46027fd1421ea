import Deadbolt.Base.Pattern
import Deadbolt.Base.Replace

/-!
# What the runner's logger writes

`redactSensitiveData`, `runner/node/src/context.ts:3-39`. Strings are lists of UTF-16 code units.
A value is a node of a finite object graph, so that it may be shared and cyclic, and what the
function returns is a tree of new objects. The pattern has no `g` flag, so in each string only the
first match is replaced.
-/

namespace Deadbolt.Runner

open Base

/-! ### The patterns -/

abbrev JsString := List UInt16

def js (s : String) : JsString := s.toList.map fun c => c.toNat.toUInt16

/-- The `i` flag without `u`: an ASCII letter is compared in lower case, and no other code unit is
folded to an ASCII letter. -/
def fold (c : UInt16) : UInt16 := if 0x41 ≤ c ∧ c ≤ 0x5A then c + 0x20 else c

/-- `\s`. -/
def isSpace (c : UInt16) : Bool :=
  [0x09, 0x0A, 0x0B, 0x0C, 0x0D, 0x20, 0xA0, 0x1680, 0x2028, 0x2029, 0x202F, 0x205F, 0x3000,
    0xFEFF].contains c || (0x2000 ≤ c && c ≤ 0x200A)

/-- `[0-9]`. -/
def isDigit (c : UInt16) : Bool := 0x30 ≤ c && c ≤ 0x39

/-- `[a-zA-Z0-9_\-]` of a folded unit. -/
def isWord (c : UInt16) : Bool := (0x61 ≤ c && c ≤ 0x7A) || isDigit c || c == 0x5F || c == 0x2D

/-- A class under the `i` flag, repeated. -/
def piece (cls : UInt16 → Bool) (least : Nat) (most : Option Nat) : Piece UInt16 :=
  ⟨fun c => cls (fold c), least, most⟩

def literal (word : JsString) : Pattern UInt16 := word.map fun d => piece (· == d) 1 (some 1)

/-- `bearer\s+[a-zA-Z0-9_\-\.]+`. -/
def bearerPattern : Pattern UInt16 :=
  literal (js "bearer") ++ [piece isSpace 1 none, piece (fun c => isWord c || c == 0x2E) 1 none]

/-- `ey[a-zA-Z0-9_\-]{10,}\.[a-zA-Z0-9_\-]{10,}\.[a-zA-Z0-9_\-]+`. -/
def jwtPattern : Pattern UInt16 :=
  literal (js "ey") ++ [piece isWord 10 none] ++ literal (js ".") ++ [piece isWord 10 none] ++
    literal (js ".") ++ [piece isWord 1 none]

/-- `[0-9a-f]{32,64}`. -/
def hashPattern : Pattern UInt16 :=
  [piece (fun c => isDigit c || (0x61 ≤ c && c ≤ 0x66)) 32 (some 64)]

/-- `SENSITIVE_VALUE_PATTERN`, `context.ts:5-6`: its three groups. -/
def sensitiveValuePattern : List (Pattern UInt16) := [bearerPattern, jwtPattern, hashPattern]

/-- `SENSITIVE_KEY_PATTERN`, `context.ts:3-4`: one of the words, in any case. -/
def isSensitiveKey (k : JsString) : Bool :=
  [js "password", js "secret", js "token", js "apikey", js "api_key", js "authorization",
    js "bearer", js "cookie", js "credential", js "private_key"].contains (k.map fold)

/-- Some part of the string matches `SENSITIVE_VALUE_PATTERN`. -/
abbrev Sensitive (s : JsString) : Prop := Pattern.Contains sensitiveValuePattern s

/-! ### Strings -/

/-- The callback of `replace`, by the group that took part in the match. -/
def replacement (group : Nat) (found : JsString) : JsString :=
  if group = 0 then js "Bearer [REDACTED]"
  else if group = 1 then js "[REDACTED_JWT]"
  else if group = 2 ∧ 32 ≤ found.length then js "[REDACTED_HASH]"
  else js "[REDACTED]"

/-- The branch of a string: `test`, then `replace` of the first match. -/
def redactString (s : JsString) : JsString :=
  match Pattern.exec sensitiveValuePattern s with
  | none => s
  | some o => o.before ++ (replacement o.group o.found ++ o.after)

/-! ### Values -/

/-- The values that are neither strings nor objects: `typeof` is not `"object"`, or the value is
`null`. Numbers, bigints, symbols and functions are told apart by a number. -/
inductive Primitive where
  | undefined
  | null
  | boolean (b : Bool)
  | other (tag : Nat)
  deriving DecidableEq

/-- A value that may refer to one of `n` objects. -/
inductive Value (n : Nat) where
  | primitive (p : Primitive)
  | string (s : JsString)
  | ref (r : Fin n)
  deriving DecidableEq

/-- An object: an array, or what `Object.entries` lists. -/
inductive Node (n : Nat) where
  | array (items : List (Value n))
  | object (entries : List (JsString × Value n))

abbrev Graph (n : Nat) := Fin n → Node n

inductive Tree where
  | primitive (p : Primitive)
  | string (s : JsString)
  | array (items : List Tree)
  /-- The prototype is set where the entries have a key `__proto__`. -/
  | object (proto : Option Tree) (entries : List (JsString × Tree))

/-- The values an object can have as its prototype. -/
def Tree.isPrototype : Tree → Bool
  | .array _ | .object _ _ | .primitive .null => true
  | _ => false

/-- `result[k] = v` on an object made by a literal: `__proto__` sets the prototype, if the value
can be one. -/
def setProperty (result : Option Tree × List (JsString × Tree)) (k : JsString) (v : Tree) :
    Option Tree × List (JsString × Tree) :=
  if k = js "__proto__" then
    if v.isPrototype then (some v, result.2) else result
  else (result.1, result.2 ++ [(k, v)])

/-- A computation that reads and extends the set of visited objects; `none` if the depth runs
out, which `redact_yields` excludes. -/
abbrev Visiting (n : Nat) := StateT (List (Fin n)) Option

/-- The loop over `Object.entries`, with the recursive call as a parameter. -/
def redactEntries {n : Nat} (redact : Value n → Visiting n Tree)
    (entries : List (JsString × Value n)) : Visiting n (Option Tree × List (JsString × Tree)) :=
  entries.foldlM
    (fun result e =>
      if isSensitiveKey e.1 then pure (setProperty result e.1 (.string (js "[REDACTED]")))
      else return setProperty result e.1 (← redact e.2))
    (none, [])

/-- The branch of an object that was not visited, with the recursive call as a parameter. -/
def redactNode {n : Nat} (redact : Value n → Visiting n Tree) : Node n → Visiting n Tree
  | .array items => return .array (← items.mapM redact)
  | .object entries => do
    let result ← redactEntries redact entries
    return .object result.1 result.2

/-- `redactSensitiveData` with the set `seen`, to a depth of `fuel` objects. -/
def redact {n : Nat} (g : Graph n) : Nat → Value n → Visiting n Tree
  | _, .primitive p => pure (.primitive p)
  | _, .string s => pure (.string (redactString s))
  | 0, .ref _ => fun _ => none
  | fuel + 1, .ref r => fun seen =>
    if r ∈ seen then some (.string (js "[Circular]"), seen)
    else redactNode (redact g fuel) (g r) (r :: seen)

/-- `redactSensitiveData`, `context.ts:8-39`. -/
def redactSensitiveData {n : Nat} (g : Graph n) (v : Value n) : Option Tree :=
  ((redact g (n + 1) v).run []).map Prod.fst

/-- No string of the result has a part that matches the value pattern, keys included, and under a
key that matches the key pattern stands only the marker. -/
inductive Tree.Clean : Tree → Prop
  | primitive (p : Primitive) : Clean (.primitive p)
  | string {s : JsString} (h : ¬ Sensitive s) : Clean (.string s)
  | array {items : List Tree} (h : ∀ t ∈ items, Clean t) : Clean (.array items)
  | object {proto : Option Tree} {entries : List (JsString × Tree)}
      (hproto : ∀ t ∈ proto, Clean t) (hkeys : ∀ e ∈ entries, ¬ Sensitive e.1)
      (hmarked : ∀ e ∈ entries, isSensitiveKey e.1 = true → e.2 = .string (js "[REDACTED]"))
      (hvalues : ∀ e ∈ entries, Clean e.2) : Clean (.object proto entries)

/-! ### The words of the pattern -/

theorem exists_piece_of_mem_literal {word : JsString} {p : Piece UInt16} (h : p ∈ literal word) :
    ∃ cls least most, p = piece cls least most := by
  obtain ⟨d, -, rfl⟩ := List.mem_map.mp h
  exact ⟨_, _, _, rfl⟩

variable {ps : Pattern UInt16} {m s : JsString} {o : Pattern.Occurrence UInt16}

theorem exists_piece (hps : ps ∈ sensitiveValuePattern) {p : Piece UInt16} (hp : p ∈ ps) :
    ∃ cls least most, p = piece cls least most := by
  simp only [sensitiveValuePattern, List.mem_cons, List.not_mem_nil, or_false] at hps
  rcases hps with rfl | rfl | rfl
  · simp only [bearerPattern, List.mem_append, List.mem_cons, List.not_mem_nil, or_false] at hp
    rcases hp with hp | rfl | rfl
    · exact exists_piece_of_mem_literal hp
    all_goals exact ⟨_, _, _, rfl⟩
  · simp only [jwtPattern, List.mem_append, List.mem_cons, List.not_mem_nil, or_false] at hp
    rcases hp with ((((hp | rfl) | hp) | rfl) | hp) | rfl
    all_goals first | exact exists_piece_of_mem_literal hp | exact ⟨_, _, _, rfl⟩
  · rw [hashPattern, List.mem_singleton] at hp
    exact ⟨_, _, _, hp⟩

theorem matches_of_map_fold (hps : ps ∈ sensitiveValuePattern) {m' : JsString}
    (h : Pattern.Matches ps m) (heq : m.map fold = m'.map fold) : Pattern.Matches ps m' := by
  refine h.congr (fun p hp c d hcd => ?_) heq
  obtain ⟨cls, least, most, rfl⟩ := exists_piece hps hp
  exact congrArg cls hcd

theorem bracket_not_mem (hps : ps ∈ sensitiveValuePattern) (h : Pattern.Matches ps m) :
    0x5B ∉ m ∧ 0x5D ∉ m := by
  have hcls : ∀ ps ∈ sensitiveValuePattern, ∀ p ∈ ps,
      p.cls 0x5B = false ∧ p.cls 0x5D = false := by decide
  constructor
  · intro hmem
    obtain ⟨p, hp, hc⟩ := h.exists_cls hmem
    simp [(hcls ps hps p hp).1] at hc
  · intro hmem
    obtain ⟨p, hp, hc⟩ := h.exists_cls hmem
    simp [(hcls ps hps p hp).2] at hc

theorem eight_le_length (hps : ps ∈ sensitiveValuePattern) (h : Pattern.Matches ps m) :
    8 ≤ m.length := by
  have hleast : ∀ ps ∈ sensitiveValuePattern, 8 ≤ (ps.map Piece.least).sum := by decide
  exact (hleast ps hps).trans h.length_le

theorem not_matches_concat_space (hps : ps ∈ sensitiveValuePattern) :
    ¬ Pattern.Matches ps (m ++ [0x20]) := by
  intro h
  simp only [sensitiveValuePattern, List.mem_cons, List.not_mem_nil, or_false] at hps
  rcases hps with rfl | rfl | rfl
  · rw [bearerPattern, ← List.singleton_append, ← List.append_assoc] at h
    exact absurd (h.of_concat (by decide)) (by decide)
  · exact absurd (Pattern.Matches.of_concat h (by decide)) (by decide)
  · rw [hashPattern, ← List.nil_append [_]] at h
    exact absurd (h.of_concat (by decide)) (by decide)

theorem not_suffix_concat_space (hps : ps ∈ sensitiveValuePattern) (hm : Pattern.Matches ps m) :
    ¬ m <:+ s ++ [0x20] := by
  rintro ⟨x, hx⟩
  rcases List.eq_nil_or_concat m with rfl | ⟨m, c, rfl⟩
  · simpa using eight_le_length hps hm
  · rw [List.concat_eq_append, ← List.append_assoc] at hx
    obtain ⟨-, hc⟩ := List.append_inj' hx rfl
    rw [List.concat_eq_append, hc] at hm
    exact not_matches_concat_space hps hm

/-- A match of a literal followed by a pattern begins with the literal, up to case. -/
theorem exists_of_matches_literal {word : JsString} (h : Pattern.Matches (literal word ++ ps) m) :
    ∃ a b, m = a ++ b ∧ a.map fold = word ∧ Pattern.Matches ps b := by
  induction word generalizing m with
  | nil => exact ⟨[], m, rfl, rfl, h⟩
  | cons d word ih =>
    obtain ⟨x, y, rfl, ⟨hall, hleast, hmost⟩, hy⟩ := h
    obtain ⟨a, b, rfl, rfl, hb⟩ := ih hy
    have hx : x.length = 1 := Nat.le_antisymm (hmost 1 rfl) hleast
    obtain ⟨c, rfl⟩ := List.length_eq_one_iff.mp hx
    have hc : fold c = d := by simpa [piece] using hall c List.mem_cons_self
    exact ⟨c :: a, b, rfl, by simp [hc], hb⟩

/-! ### A string after the replacement -/

def lead (group : Nat) : JsString := if group = 0 then js "Bearer " else []

/-- A replacement is a marker in brackets after its lead, and the marker holds no match. -/
theorem replacement_eq (group : Nat) (found : JsString) :
    ∃ word, replacement group found = lead group ++ 0x5B :: (word ++ [0x5D]) ∧
      ¬ Sensitive word := by
  unfold replacement lead
  split
  · exact ⟨js "REDACTED", by decide +kernel, by decide +kernel⟩
  · split
    · exact ⟨js "REDACTED_JWT", by decide +kernel, by decide +kernel⟩
    · split
      · exact ⟨js "REDACTED_HASH", by decide +kernel, by decide +kernel⟩
      · exact ⟨js "REDACTED", by decide +kernel, by decide +kernel⟩

/-- No match lies in the part before the leftmost one, even with a few code units after it. -/
theorem not_infix_before (h : Pattern.Leftmost sensitiveValuePattern s o)
    (hps : ps ∈ sensitiveValuePattern) {more : JsString} (hm : Pattern.Matches ps m)
    (hmore : more <+: o.found ++ o.after) (hlen : more.length < 8) : ¬ m <:+: o.before ++ more := by
  rintro ⟨x, y, hxy⟩
  rw [List.append_assoc] at hxy
  have hlong := eight_le_length hps hm
  rcases List.append_eq_append_iff.mp hxy with ⟨b, hb, hbm⟩ | ⟨a, -, hbm⟩
  · refine h.first x b hb ?_ ps hps m ?_ hm
    · rintro rfl
      have := congrArg List.length hbm
      simp only [List.length_append, List.nil_append] at this
      omega
    · obtain ⟨rest, hrest⟩ := hmore
      exact ⟨y ++ rest, by rw [← List.append_assoc, hbm, List.append_assoc, hrest]⟩
  · have := congrArg List.length hbm
    simp only [List.length_append] at this
    omega

/-- The lead of the replacement brings in no match: it has the word `bearer` of the match it stands
for, and no word of the pattern ends with the space after it. -/
theorem not_infix_before_lead (h : Pattern.Leftmost sensitiveValuePattern s o)
    (hps : ps ∈ sensitiveValuePattern) (hm : Pattern.Matches ps m) :
    ¬ m <:+: o.before ++ lead o.group := by
  intro hin
  rw [lead] at hin
  split at hin
  · next hgroup =>
    obtain ⟨qs, hqs, hfound⟩ := h.found
    rw [hgroup] at hqs
    obtain rfl : bearerPattern = qs := Option.some.inj hqs
    obtain ⟨a, b, hab, ha, -⟩ := exists_of_matches_literal hfound
    have hlen : a.length = 6 := by
      rw [← List.length_map (f := fold), ha]
      rfl
    rw [show js "Bearer " = js "Bearer" ++ [0x20] from rfl, ← List.append_assoc] at hin
    rcases List.infix_concat_iff.mp hin with hsuffix | hin
    · exact not_suffix_concat_space hps hm hsuffix
    · have hfold : (o.before ++ js "Bearer").map fold = (o.before ++ a).map fold := by
        rw [List.map_append, List.map_append, ha]
        rfl
      obtain ⟨m', hm', heq⟩ := exists_infix_of_map_eq hin hfold
      exact not_infix_before h hps (matches_of_map_fold hps hm heq.symm)
        (hab ▸ ⟨b ++ o.after, by simp⟩) (by omega) hm'
  · exact not_infix_before h hps hm ( List.nil_prefix) (by simp) hin

/-- A match in the string after the replacement lies after the first match. -/
theorem infix_after_of_infix (h : Pattern.Leftmost sensitiveValuePattern s o)
    (hps : ps ∈ sensitiveValuePattern) (hm : Pattern.Matches ps m)
    (hin : m <:+: o.before ++ (replacement o.group o.found ++ o.after)) : m <:+: o.after := by
  obtain ⟨word, hword, hclean⟩ := replacement_eq o.group o.found
  obtain ⟨hopen, hclose⟩ := bracket_not_mem hps hm
  rw [hword] at hin
  have hin : m <:+: (o.before ++ lead o.group) ++ 0x5B :: (word ++ 0x5D :: o.after) := by
    simpa using hin
  rcases infix_append_cons hopen hin with hin | hin
  · exact absurd hin (not_infix_before_lead h hps hm)
  · refine (infix_append_cons hclose hin).resolve_left fun hin => ?_
    exact hclean ⟨ps, hps, m, hin, hm⟩

/-- The result has a match exactly when the string has another one after its first. -/
theorem sensitive_redactString :
    Sensitive (redactString s) ↔
      ∃ o, Pattern.exec sensitiveValuePattern s = some o ∧ Sensitive o.after := by
  unfold redactString
  cases hexec : Pattern.exec sensitiveValuePattern s with
  | none => simpa using Pattern.exec_eq_none.mp hexec
  | some o =>
    constructor
    · rintro ⟨ps, hps, m, hin, hm⟩
      exact ⟨o, rfl, ps, hps, m, infix_after_of_infix (.of_exec hexec) hps hm hin, hm⟩
    · rintro ⟨o', ho', hafter⟩
      obtain rfl := Option.some.inj ho'
      exact hafter.mono ⟨o.before ++ replacement o.group o.found, [], by simp⟩

/-! ### The traversal -/

section Traversal

variable {n : Nat}

/-- From any set of visited objects that leaves enough depth, the computation returns a value with
the property and has at most added to the set. -/
def Yields {β : Type} (fuel : Nat) (act : Visiting n β) (P : β → Prop) : Prop :=
  ∀ seen : List (Fin n), seen.Nodup → n < fuel + seen.length →
    ∃ b seen', act seen = some (b, seen') ∧ seen'.Nodup ∧ seen.length ≤ seen'.length ∧ P b

namespace Yields

variable {β γ : Type} {fuel : Nat} {P : β → Prop} {Q : γ → Prop}

theorem pure {b : β} (h : P b) : Yields (n := n) fuel (pure b) P :=
  fun seen hseen _ => ⟨b, seen, rfl, hseen, le_rfl, h⟩

theorem bind {act : Visiting n β} {next : β → Visiting n γ} (h : Yields fuel act P)
    (hnext : ∀ b, P b → Yields fuel (next b) Q) : Yields fuel (act >>= next) Q := by
  intro seen hseen hfuel
  obtain ⟨b, seen', hact, hseen', hle, hb⟩ := h seen hseen hfuel
  obtain ⟨c, seen'', hnext, hseen'', hle', hc⟩ := hnext b hb seen' hseen' (by omega)
  refine ⟨c, seen'', ?_, hseen'', hle.trans hle', hc⟩
  change (act seen).bind (fun p => next p.1 p.2) = _
  rw [hact]
  exact hnext

theorem mapM {f : γ → Visiting n β} {xs : List γ} (h : ∀ x ∈ xs, Yields fuel (f x) P) :
    Yields fuel (xs.mapM f) fun bs => ∀ b ∈ bs, P b := by
  induction xs with
  | nil =>
    rw [List.mapM_nil]
    exact pure (by simp)
  | cons x xs ih =>
    rw [List.mapM_cons]
    refine (h x List.mem_cons_self).bind fun b hb => ?_
    refine (ih fun y hy => h y (List.mem_cons_of_mem x hy)).bind fun bs hbs => ?_
    exact pure (List.forall_mem_cons.mpr ⟨hb, hbs⟩)

theorem foldlM {f : β → γ → Visiting n β} {xs : List γ} {b : β} (hb : P b)
    (h : ∀ b, P b → ∀ x ∈ xs, Yields fuel (f b x) P) : Yields fuel (xs.foldlM f b) P := by
  induction xs generalizing b with
  | nil => exact pure hb
  | cons x xs ih =>
    rw [List.foldlM_cons]
    refine (h b hb x List.mem_cons_self).bind fun b' hb' => ?_
    exact ih hb' fun b hb y hy => h b hb y (List.mem_cons_of_mem x hy)

end Yields

/-- No string of the value has a match after its first one. -/
def Value.Single : Value n → Prop
  | .string s => ∀ o, Pattern.exec sensitiveValuePattern s = some o → ¬ Sensitive o.after
  | _ => True

/-- The same of every value in the object outside sensitive keys, and no key has a match. -/
def Node.Single : Node n → Prop
  | .array items => ∀ v ∈ items, v.Single
  | .object entries =>
    ∀ e ∈ entries, ¬ Sensitive e.1 ∧ (isSensitiveKey e.1 = false → e.2.Single)

theorem clean_setProperty {result : Option Tree × List (JsString × Tree)} {k : JsString}
    {v : Tree} (h : (Tree.object result.1 result.2).Clean) (hk : ¬ Sensitive k)
    (hmarked : isSensitiveKey k = true → v = .string (js "[REDACTED]")) (hv : v.Clean) :
    (Tree.object (setProperty result k v).1 (setProperty result k v).2).Clean := by
  cases h with
  | object hproto hkeys hmarks hvalues =>
    unfold setProperty
    split
    · split
      · exact .object (by simpa using hv) hkeys hmarks hvalues
      · exact .object hproto hkeys hmarks hvalues
    · refine .object hproto ?_ ?_ ?_
      · exact List.forall_mem_append.mpr ⟨hkeys, List.forall_mem_singleton.mpr hk⟩
      · exact List.forall_mem_append.mpr ⟨hmarks, List.forall_mem_singleton.mpr hmarked⟩
      · exact List.forall_mem_append.mpr ⟨hvalues, List.forall_mem_singleton.mpr hv⟩

variable {fuel : Nat}

theorem redactEntries_yields {redact : Value n → Visiting n Tree}
    {entries : List (JsString × Value n)} (h : (Node.object entries).Single)
    (hredact : ∀ v : Value n, v.Single → Yields fuel (redact v) Tree.Clean) :
    Yields fuel (redactEntries redact entries) fun result =>
      (Tree.object result.1 result.2).Clean := by
  refine .foldlM (.object (by simp) (by simp) (by simp) (by simp)) fun result hresult e he => ?_
  obtain ⟨hk, hv⟩ := h e he
  split
  · next hkey =>
    exact .pure (clean_setProperty hresult hk (fun _ => rfl) (.string (by decide +kernel)))
  · next hkey =>
    have hkey : isSensitiveKey e.1 = false := by simpa using hkey
    refine (hredact e.2 (hv hkey)).bind fun v hv => ?_
    exact .pure (clean_setProperty hresult hk (by simp [hkey]) hv)

theorem single_string_iff {s : JsString} :
    (Value.string s : Value n).Single ↔ ¬ Sensitive (redactString s) := by
  rw [sensitive_redactString, not_exists]
  simp [Value.Single]

theorem redact_string_yields {g : Graph n} {s : JsString} (hs : (Value.string s : Value n).Single) :
    Yields fuel (redact g fuel (.string s)) Tree.Clean := by
  cases fuel <;> exact .pure (.string (single_string_iff.mp hs))

theorem redactNode_yields {redact : Value n → Visiting n Tree} {node : Node n} (h : node.Single)
    (hredact : ∀ v : Value n, v.Single → Yields fuel (redact v) Tree.Clean) :
    Yields fuel (redactNode redact node) Tree.Clean := by
  cases node with
  | array items =>
    refine (Yields.mapM fun v hv => hredact v (h v hv)).bind fun items hitems => ?_
    exact .pure (Tree.Clean.array hitems)
  | object entries =>
    exact (redactEntries_yields h hredact).bind fun result hresult => .pure hresult

/-- With depth for the objects that are not visited yet the traversal returns, and what it returns
is clean. -/
theorem redact_yields {g : Graph n} (hg : ∀ r, (g r).Single) (fuel : Nat) {v : Value n}
    (hv : v.Single) : Yields fuel (redact g fuel v) Tree.Clean := by
  induction fuel generalizing v with
  | zero =>
    cases v with
    | primitive p => exact .pure (.primitive p)
    | string s => exact redact_string_yields hv
    | ref r =>
      -- a set without repetition has at most `n` objects, so some depth is left
      intro seen hseen hfuel
      have := hseen.length_le_card
      rw [Fintype.card_fin] at this
      omega
  | succ fuel ih =>
    cases v with
    | primitive p => exact .pure (.primitive p)
    | string s => exact redact_string_yields hv
    | ref r =>
      intro seen hseen hfuel
      by_cases hr : r ∈ seen
      · exact ⟨.string (js "[Circular]"), seen, if_pos hr, hseen, le_rfl,
          .string (by decide +kernel)⟩
      · obtain ⟨out, seen', hrun, hseen', hle, hout⟩ :=
          redactNode_yields (hg r) (fun v hv => ih hv) (r :: seen) (hseen.cons hr)
            (by rw [List.length_cons]; omega)
        rw [List.length_cons] at hle
        exact ⟨out, seen', (if_neg hr).trans hrun, hseen', by omega, hout⟩

end Traversal

/-- An object that refers to itself, with a token and a password. -/
def cyclicGraph : Graph 1 := fun _ =>
  .object [(js "self", .ref 0), (js "note", .string (js "use bearer abc.def here")),
    (js "Password", .string (js "hunter2"))]

end Deadbolt.Runner
