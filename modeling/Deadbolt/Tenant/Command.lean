import Deadbolt.Base.Session
import Deadbolt.Base.Table
import Deadbolt.Contracts.Json

/-!
# Idempotent commands

`withCommandTx` and `WithCommandTxDynamic` (`internal/tenant/command.go`) run a mutation once per
command scope and idempotency key. The command row is inserted before the mutation and completed
after it, in one transaction: the unique index makes a second request wait for the first, and a
committed row answers every later request.

The mutation is any program on the rest of the database, so the results here hold for every
command of the control plane.
-/

namespace Deadbolt.Tenant

open Base Contracts Program

abbrev OrganizationID := Nat
abbrev UserID := Nat
abbrev KeyID := Nat

/-- Who issues a command: `actorScope` in `internal/tenant/http.go:342-345` and
`internal/artifacts/http.go:91-115`. -/
inductive Actor
  | user (id : UserID)
  | key (id : KeyID)
  | worker (id : Nat)
  deriving DecidableEq

/-- A command scope: an actor in an organization, or the user who creates one. -/
inductive CommandScope
  | actor (organizationID : OrganizationID) (actor : Actor)
  | creator (userID : UserID)
  deriving DecidableEq

/-- `commandOrganizationID`, `command.go:113-120`: the organization that a user's
creation request gets, a hash of the user and the idempotency key. -/
class CreationHash where
  commandOrganizationID : UserID → String → OrganizationID

/-- What an operation stores of a result, and what it can replay: an endpoint decodes into the
type that it encodes. -/
class Endpoints (β : Type) where
  encode : String → β → Option Json
  decodes : String → Json → Bool
  decodes_encode : ∀ {operation b raw}, encode operation b = some raw →
    decodes operation raw = true

/-- One mutation: `Command`, `command.go:20-25`. -/
structure Command where
  scope : CommandScope
  key : String
  fingerprint : String
  operation : String
  deriving DecidableEq

/-- What identifies a command: `UNIQUE (command_scope, idempotency_key)`. -/
abbrev CommandKey := CommandScope × String

namespace Command

def id (c : Command) : CommandKey := (c.scope, c.key)

/-- The organization in whose transaction the command runs; the scope and the key determine
it. -/
def organizationID [CreationHash] (c : Command) : OrganizationID :=
  match c.scope with
  | .actor organizationID _ => organizationID
  | .creator userID => CreationHash.commandOrganizationID userID c.key

end Command

inductive CommandStatus
  | processing
  | completed
  deriving DecidableEq

/-- A row of `tenant_commands`. -/
structure CommandRow where
  organizationID : OrganizationID
  fingerprint : String
  operation : String
  status : CommandStatus
  responseCode : Int
  outcome : Json

abbrev Commands := Table CommandKey CommandRow

/-- What a command ends with when it does not commit. -/
inductive CommandError (ε : Type)
  | mutation (e : ε)
  | idempotencyConflict
  /-- `ErrCommandStorage` with the step that failed. -/
  | commandStorage (step : String)
  | noRows
  | replay
  deriving DecidableEq

/-- `replayed`, the response code (only the dynamic form returns one) and the recorded outcome. -/
structure Response where
  replayed : Bool
  responseCode : Option Int
  outcome : Option Json

/-- The response code of a command: fixed by the caller, or chosen by the mutation's result. -/
inductive ResponseForm (β : Type)
  | fixed (responseCode : Int)
  | dynamic (responseCode : β → Int)

/-- A missing or negative code is `http.StatusOK`. -/
def normalizeCode (code : Int) : Int := if code ≤ 0 then 200 else code

namespace ResponseForm

variable {β : Type} {ε : Type}

def initialCode : ResponseForm β → Int
  | fixed code => normalizeCode code
  | dynamic _ => 200

def code (form : ResponseForm β) (b : β) : Int :=
  match form with
  | fixed code => normalizeCode code
  | dynamic code => normalizeCode (code b)

/-- The code that is returned: only the dynamic form has one. -/
def returned (form : ResponseForm β) (code : Int) : Option Int :=
  match form with
  | fixed _ => none
  | dynamic _ => some code

/-- The code that an unrecorded mutation returns. -/
def unrecorded : ResponseForm β → β → Option Int
  | fixed _, _ => none
  | dynamic code, b => some (code b)

def loadError : ResponseForm β → CommandError ε
  | fixed _ => .commandStorage "load command"
  | dynamic _ => .noRows

def replayError : ResponseForm β → CommandError ε
  | fixed _ => .commandStorage "decode outcome"
  | dynamic _ => .replay

end ResponseForm

variable [CreationHash] {κ τ ε β : Type} [Endpoints β]

/-- A call of `withCommandTx` or `WithCommandTxDynamic`. Every caller passes the organization of
the command's scope. -/
structure CommandRequest (κ τ ε β : Type) where
  organizationID : OrganizationID
  command : Option Command
  operation : String
  form : ResponseForm β
  mutate : Program κ τ ε β
  inScope : ∀ c, command = some c → c.organizationID = organizationID

namespace CommandRequest

variable (r : CommandRequest κ τ ε β)

/-- The request names no operation, or the one of its command. -/
def Matches (c : Command) : Prop := r.operation = "" ∨ c.operation = r.operation

instance (c : Command) : Decidable (r.Matches c) := inferInstanceAs (Decidable (_ ∨ _))

def processingRow (c : Command) : CommandRow :=
  { organizationID := r.organizationID, fingerprint := c.fingerprint, operation := c.operation
    status := .processing, responseCode := r.form.initialCode, outcome := .obj [] }

/-- The row that row security shows to the transaction of the request. -/
def visible (c : Command) (commands : Commands) : Option CommandRow :=
  (commands.find? c.id).filter fun row => row.organizationID == r.organizationID

/-- The mutation under a claimed command, `command.go:59-74` and `:206-226`. -/
def record (c : Command) : Program (CommandKey ⊕ κ) (Commands × τ) (CommandError ε) Response := do
  Program.modify fun s => (s.1.put c.id (r.processingRow c), s.2)
  let b ← r.mutate.zoom .mutation
  match Endpoints.encode c.operation b with
  | none => .fail (.commandStorage "encode outcome")
  | some raw => do
    Program.modify fun s =>
      (s.1.modify c.id fun row =>
        { row with status := .completed, responseCode := r.form.code b, outcome := raw }, s.2)
    pure ⟨false, r.form.returned (r.form.code b), some raw⟩

/-- The answer of a recorded command, `command.go:78-97` and `:231-251`. -/
def answer (c : Command) (row : CommandRow) : Except (CommandError ε) Response :=
  if row.fingerprint ≠ c.fingerprint ∨ row.operation ≠ c.operation then .error .idempotencyConflict
  else if row.status ≠ .completed then .error (.commandStorage "command in unexpected status")
  else if Endpoints.decodes β c.operation row.outcome then
    .ok ⟨true, r.form.returned row.responseCode, some row.outcome⟩
  else .error r.form.replayError

/-- The lookup of a command that is already there. -/
def replay (c : Command) : Program (CommandKey ⊕ κ) (Commands × τ) (CommandError ε) Response := do
  let _ ← Program.claim (.inl c.id) (fun s => (r.visible c s.1).isSome) .done
  let row ← Program.read fun s : Commands × τ => r.visible c s.1
  match row with
  | none => .fail r.form.loadError
  | some row =>
    match r.answer c row with
    | .ok response => pure response
    | .error e => .fail e

/-- `withCommandTx` and `WithCommandTxDynamic`, `command.go:45-98` and
`:185-254`. The insert waits for an open transaction with the same key. -/
def withCommandTx : Program (CommandKey ⊕ κ) (Commands × τ) (CommandError ε) Response :=
  match r.command with
  | none => do
    let b ← r.mutate.zoom .mutation
    pure ⟨false, r.form.unrecorded b, none⟩
  | some c => do
    Program.require (r.Matches c) (.commandStorage "command operation mismatch")
    let inserted ← Program.claim (.inl c.id) (fun s => (s.1.find? c.id).isNone) .done
    if inserted then r.record c else r.replay c

end CommandRequest

/-! ### What one request commits -/

/-- While a command is claimed its row does not change, and a committed row never does. -/
def commandsRely : Rely CommandKey Commands where
  Allows held t t' := (∀ id ∈ held, t'.find? id = t.find? id) ∧
    ∀ id row, t.find? id = some row → t'.find? id = some row
  refl _ _ := ⟨fun _ _ => rfl, fun _ _ h => h⟩
  trans h h' := ⟨fun id hid => (h'.1 id hid).trans (h.1 id hid),
    fun id row hrow => h'.2 id row (h.2 id row hrow)⟩

namespace CommandRequest

variable (r : CommandRequest κ τ ε β)

def completedRow (c : Command) (code : Int) (raw : Json) : CommandRow :=
  { r.processingRow c with status := .completed, responseCode := code, outcome := raw }

/-- A mutation has committed together with its row. -/
def Records (c : Command) (held : Set (CommandKey ⊕ κ)) (res : Except (CommandError ε) Response)
    (s s' : Commands × τ) : Prop :=
  ∃ code raw, res = .ok ⟨false, r.form.returned code, some raw⟩ ∧
    Endpoints.decodes β c.operation raw = true ∧ .inl c.id ∈ held ∧
    ∀ id, s'.1.find? id = if id = c.id then some (r.completedRow c code raw) else s.1.find? id

/-- What a request with a command leaves: a recorded command is answered by its row, a new one is
recorded, and everything else fails without a trace. -/
structure Settled (c : Command) (held : Set (CommandKey ⊕ κ))
    (res : Except (CommandError ε) Response) (s s' : Commands × τ) : Prop where
  fresh : s.1.find? c.id = none → res.isOk = false ∨ r.Records c held res s s'
  recorded : ∀ row, s.1.find? c.id = some row → s' = s ∧
    (∀ response, res = .ok response → response.replayed = true) ∧
    (r.Matches c → row.organizationID = r.organizationID → res = r.answer c row)

/-- The postcondition of a request: on the command rows, and on the rest what the mutation is
known to leave. -/
structure Post (leaves : Set κ → β → τ → τ → Prop) (held : Set (CommandKey ⊕ κ))
    (res : Except (CommandError ε) Response) (s s' : Commands × τ) : Prop where
  command : ∀ c, r.command = some c → r.Settled c held res s s'
  unrecorded : r.command = none → s'.1 = s.1
  error : res.isOk = false → s' = s
  data : s'.2 = s.2 ∨ ∃ b, leaves (Set.preimage Sum.inr held) b s.2 s'.2

variable {r} {second : Rely κ τ} {leaves : Set κ → β → τ → τ → Prop}

/-- The end of a program is judged whenever it comes. -/
def Ends (r : CommandRequest κ τ ε β) (second : Rely κ τ) (leaves : Set κ → β → τ → τ → Prop)
    (res : Except (CommandError ε) Response) (c : Standing (CommandKey ⊕ κ) (Commands × τ)) :
    Prop :=
  ∀ s, (commandsRely.both second).Allows c.held c.committed s →
    r.Post leaves c.held res s (if res.isOk then c.pending s else s)

variable {c : Command} {held : Set (CommandKey ⊕ κ)} {s : Commands × τ}

/-- An end that commits nothing is judged by the row that it finds. -/
theorem ends_unchanged (hc : r.command = some c) {res : Except (CommandError ε) Response}
    (hfresh : s.1.find? c.id = none → res.isOk = false)
    (hreplayed : ∀ response, res = .ok response → response.replayed = true)
    (hrow : ∀ t row, commandsRely.Allows (Set.preimage Sum.inl held) s.1 t →
      t.find? c.id = some row → r.Matches c → row.organizationID = r.organizationID →
      res = r.answer c row) : r.Ends second leaves res ⟨held, id, s⟩ := by
  intro s' hs
  rw [Rely.both_allows] at hs
  have hid : (if res.isOk then id s' else s') = s' := by split <;> rfl
  rw [hid]
  refine ⟨fun c' hc' => ?_, fun hn => rfl, fun _ => rfl, .inl rfl⟩
  obtain rfl := Option.mem_unique hc hc'
  refine ⟨fun hnone => .inl (hfresh ?_), fun row hfind => ⟨rfl, hreplayed, hrow s'.1 row hs.1 hfind⟩⟩
  cases hf : s.1.find? c.id with
  | none => rfl
  | some row => exact absurd (hs.1.2 _ row hf) (by simp [hnone])

theorem replayed_of_answer {row : CommandRow} {response : Response}
    (h : r.answer c row = .ok response) : response.replayed = true := by
  unfold answer at h
  split at h
  · cases h
  · split at h
    · cases h
    · split at h
      · cases h
        rfl
      · cases h

theorem wp_replay (hc : r.command = some c) {row : CommandRow} (hs : s.1.find? c.id = some row) :
    (r.replay c).wp (commandsRely.both second) (r.Ends second leaves) ⟨held, id, s⟩ := by
  simp only [replay, bind_eq, wp_bind, wp_claim, wp_done,
    wp_read, id_eq]
  intro s1 h1 s2 h2
  have hrow2 : s2.1.find? c.id = some row := h2.1.2 _ row (h1.1.2 _ row hs)
  -- The row stays until the end, so it is the one that judges the answer.
  have hlater : ∀ {held' t row'}, commandsRely.Allows held' s2.1 t → t.find? c.id = some row' →
      row' = row := fun hallow hfind =>
    Option.mem_unique hfind (hallow.2 _ row hrow2)
  have hfresh : ∀ {P : Prop}, s2.1.find? c.id = none → P := fun hnone => by simp [hrow2] at hnone
  by_cases ho : row.organizationID = r.organizationID
  · have hvis : r.visible c s2.1 = some row := by simp [visible, hrow2, ho]
    simp only [hvis]
    cases hans : r.answer c row with
    | ok response =>
      refine ends_unchanged hc hfresh (fun _ h => ?_) fun t row' hallow hfind _ _ => ?_
      · cases h
        exact replayed_of_answer hans
      · rw [hlater hallow hfind, hans]
    | error e =>
      refine ends_unchanged hc hfresh (by simp) fun t row' hallow hfind _ _ => ?_
      rw [hlater hallow hfind, hans]
  · have hvis : r.visible c s2.1 = none := by simp [visible, hrow2, ho]
    simp only [hvis]
    refine ends_unchanged hc hfresh (by simp) fun t row' hallow hfind _ hrow' => ?_
    exact absurd (hlater hallow hfind ▸ hrow') ho

/-- The mutation alone leaves the rest of the database as stated. -/
def Mutates (r : CommandRequest κ τ ε β) (second : Rely κ τ)
    (leaves : Set κ → β → τ → τ → Prop) : Prop :=
  ∀ t, r.mutate.wp second (fun res c => ∀ b, res = .ok b →
    ∀ t, second.Allows c.held c.committed t → leaves c.held b t (c.pending t)) ⟨∅, id, t⟩

/-- A claimed command is recorded with its mutation, or nothing is. -/
theorem wp_record (hm : r.Mutates second leaves) (hc : r.command = some c)
    (hheld : .inl c.id ∈ held) (hrest : Set.preimage Sum.inr held = ∅)
    (hs : s.1.find? c.id = none) :
    (r.record c).wp (commandsRely.both second) (r.Ends second leaves) ⟨held, id, s⟩ := by
  simp only [record, bind_eq, wp_bind, wp_modify, id_eq]
  refine wp_zoom (f := fun t => t.put c.id (r.processingRow c)) (g := id)
    (hrest ▸ hm s.2) ?_
  intro res held' g s' hinl hrely hres
  have hheld' : .inl c.id ∈ held' := by
    have : c.id ∈ Set.preimage Sum.inl held' := hinl ▸ hheld
    exact this
  -- Nobody else can have recorded the command while it was claimed.
  have hnone : s'.1.find? c.id = none := (hrely.1 c.id hheld).trans hs
  have hnone' : ∀ {t}, commandsRely.Allows (Set.preimage Sum.inl held') s'.1 t →
      t.find? c.id = none := fun h => (h.1 c.id hheld').trans hnone
  have hfail : ∀ e, r.Ends second leaves (.error e) ⟨held', Prod.map (fun t => t.put c.id
      (r.processingRow c)) g, s'⟩ := by
    intro e s'' hs''
    refine ⟨fun c' hc' => ?_, fun _ => rfl, fun _ => rfl, .inl rfl⟩
    obtain rfl := Option.mem_unique hc hc'
    refine ⟨fun _ => .inl rfl, fun row hrow => ?_⟩
    simp [hnone' hs''.1] at hrow
  cases res with
  | error e => exact hfail _
  | ok b =>
    simp only [Except.mapError]
    cases hraw : Endpoints.encode c.operation b with
    | none => exact hfail _
    | some raw =>
      simp only [wp_bind, wp_modify, pure_eq, wp_done]
      intro s'' hs''
      rw [Rely.both_allows] at hs''
      have hnone'' := hnone' hs''.1
      refine ⟨fun c' hc' => ?_, fun hn => by simp [hc] at hn, by rintro ⟨⟩,
        .inr ⟨b, hres b rfl s''.2 hs''.2⟩⟩
      obtain rfl := Option.mem_unique hc hc'
      refine ⟨fun _ => .inr ?_, fun row hrow => by simp [hnone''] at hrow⟩
      refine ⟨r.form.code b, raw, rfl, Endpoints.decodes_encode hraw, hheld', fun id => ?_⟩
      change ((s''.1.put c.id (r.processingRow c)).modify c.id _).find? id = _
      rw [Table.find?_modify, Table.find?_put hnone'']
      by_cases hid : id = c.id
      · simp [hid, completedRow]
      · simp [hid]

/-- A request meets its postcondition from every committed state. -/
theorem wp_withCommandTx (hm : r.Mutates second leaves) (s : Commands × τ) :
    r.withCommandTx.wp (commandsRely.both second) (r.Ends second leaves) ⟨∅, id, s⟩ := by
  unfold withCommandTx
  cases hc : r.command with
  | none =>
    simp only [bind_eq, wp_bind, pure_eq]
    refine wp_zoom (f := id) (g := id) (hm s.2) ?_
    intro res held g s' _ _ hres
    cases res with
    | error e =>
      intro s'' _
      exact ⟨fun c hn => by simp [hc] at hn, fun _ => rfl, fun _ => rfl, .inl rfl⟩
    | ok b =>
      intro s'' hs''
      exact ⟨fun c hn => by simp [hc] at hn, fun _ => rfl, by rintro ⟨⟩,
        .inr ⟨b, hres b rfl s''.2 hs''.2⟩⟩
  | some c =>
    simp only [bind_eq, wp_bind, wp_require, wp_claim,
      wp_done, id_eq]
    refine ⟨fun hmatch s1 hs1 => ?_, fun hmatch => ?_⟩
    · obtain hfind | ⟨row, hfind⟩ := Option.eq_none_or_eq_some (s1.1.find? c.id)
      · simp only [hfind, Option.isNone_none, if_true]
        exact wp_record hm hc (Set.mem_insert _ _) (by ext k; simp) hfind
      · simp only [hfind, Option.isNone_some, Bool.false_eq_true, if_false]
        exact wp_replay hc hfind
    · exact ends_unchanged hc (fun _ => rfl) (by simp) fun _ _ _ _ hm _ => absurd hm hmatch

theorem replay_writes (r : CommandRequest κ τ ε β) (c : Command) :
    (r.replay c).Writes fun s s' => s' = s := by
  refine .bind (fun _ => trivial) fun _ => .bind (writes_read _ _) fun row => ?_
  split
  · trivial
  · split <;> trivial

theorem run_withCommandTx {s' : Commands × τ} {response : Response}
    (h : r.withCommandTx.run s = .ok (response, s')) :
    s' = s ∨ ∃ b, r.mutate.run s.2 = .ok (b, s'.2) := by
  have hzoom : ∀ {t t' : Commands × τ} {b : β}, (r.mutate.zoom CommandError.mutation :
      Program (CommandKey ⊕ κ) (Commands × τ) (CommandError ε) β).run t = .ok (b, t') →
      r.mutate.run t.2 = .ok (b, t'.2) := by
    intro t t' b hb
    rw [run_zoom] at hb
    split at hb
    · next a t2 hrun =>
      cases hb
      exact hrun
    · cases hb
  unfold withCommandTx at h
  split at h
  · obtain ⟨b, t, hrun, hdone⟩ := run_bind_ok.mp h
    cases hdone
    exact .inr ⟨b, hzoom hrun⟩
  · next c hc =>
    obtain ⟨_, t, hreq, h⟩ := run_bind_ok.mp h
    obtain ⟨-, heq⟩ := run_require_ok.mp hreq
    cases heq
    obtain ⟨inserted, t, hclaim, h⟩ := run_bind_ok.mp h
    cases hclaim
    split at h
    · obtain ⟨_, t1, hput, h⟩ := run_bind_ok.mp h
      cases hput
      obtain ⟨b, t2, hrun, h⟩ := run_bind_ok.mp h
      have hmut := hzoom hrun
      refine .inr ⟨b, ?_⟩
      split at h
      · cases h
      · obtain ⟨_, t3, hmod, h⟩ := run_bind_ok.mp h
        cases hmod
        cases h
        exact hmut
    · exact .inl ((r.replay_writes c).run (fun _ => rfl) (fun h h' => h'.trans h) h)

end CommandRequest

/-! ### Every interleaving -/

variable {r : CommandRequest κ τ ε β} {held : Set (CommandKey ⊕ κ)}
  {res : Except (CommandError ε) Response} {s s' : Commands × τ} {c : Command}
  {fin : List (CommandRequest κ τ ε β × Except (CommandError ε) Response)}

/-- What a request commits is within the rely of a session that claims other commands. -/
theorem CommandRequest.Post.rely {leaves : Set κ → β → τ → τ → Prop} {held' : Set (CommandKey ⊕ κ)}
    (h : r.Post leaves held' res s s') (hd : Disjoint held held') :
    commandsRely.Allows (Set.preimage Sum.inl held) s.1 s'.1 := by
  cases hc : r.command with
  | none =>
    rw [h.unrecorded hc]
    exact commandsRely.refl _ _
  | some c =>
    have hset := h.command c hc
    obtain hnone | ⟨row, hrow⟩ := Option.eq_none_or_eq_some (s.1.find? c.id)
    · obtain herr | ⟨code, raw, _, _, hheld, hfind⟩ := hset.fresh hnone
      · rw [h.error herr]
        exact commandsRely.refl _ _
      · refine ⟨fun id hid => ?_, fun id row hrow => ?_⟩
        · have hne : id ≠ c.id := by
            rintro rfl
            exact Set.disjoint_left.mp hd hid hheld
          rw [hfind id, if_neg hne]
        · have hne : id ≠ c.id := by
            rintro rfl
            simp [hnone] at hrow
          rw [hfind id, if_neg hne, hrow]
    · rw [(hset.recorded row hrow).1]
      exact commandsRely.refl _ _

/-- The discipline of commands with arbitrary mutations. -/
def commandDiscipline : Discipline (CommandRequest.withCommandTx (κ := κ) (τ := τ) (ε := ε) (β := β))
    where
  inv _ := True
  rely := commandsRely.both (Rely.any κ τ)
  post r held res s s' := r.Post (fun _ _ _ _ => True) held res s s'
  meets _ s _ := CommandRequest.wp_withCommandTx
    (fun _ => wp_mono (fun _ _ _ _ _ _ _ => trivial) (wp_trivial _ _ _)) s
  keeps _ _ := trivial
  apart _ hd hpost := ⟨hpost.rely hd, trivial⟩

theorem CommandRequest.run_post {response : Response}
    (h : r.withCommandTx.run s = .ok (response, s')) :
    ∃ held, r.Post (fun _ _ _ _ => True) held (.ok response) s s' := by
  obtain ⟨held, f, rfl, hends⟩ := run_of_wp (commandDiscipline.meets r s trivial) h
  exact ⟨held, hends s (commandDiscipline.rely.refl _ _)⟩

/-- A request of a command has committed its mutation. -/
def CommandRequest.commits (id : CommandKey)
    (e : CommandRequest κ τ ε β × Except (CommandError ε) Response) : Bool :=
  decide (e.1.command.map Command.id = some id) &&
    match e.2 with
    | .ok response => !response.replayed
    | .error _ => false

/-- The command rows are the commands whose mutation has committed, each with its outcome. -/
structure CommandsLog (s : Commands × τ)
    (fin : List (CommandRequest κ τ ε β × Except (CommandError ε) Response)) : Prop where
  once : ∀ id, fin.countP (CommandRequest.commits id) ≤ 1
  free : ∀ id, s.1.find? id = none → fin.countP (CommandRequest.commits id) = 0
  row : ∀ r response c, (r, .ok response) ∈ fin → response.replayed = false → r.command = some c →
    ∃ code raw, response = ⟨false, r.form.returned code, some raw⟩ ∧
      s.1.find? c.id = some (r.completedRow c code raw)
  sound : ∀ (c : Command) row, s.1.find? c.id = some row → row.status = .completed ∧
    row.organizationID = c.organizationID ∧ Endpoints.decodes β row.operation row.outcome = true

theorem Command.organizationID_eq_of_id {c' : Command} (h : c.id = c'.id) :
    c.organizationID = c'.organizationID := by
  obtain ⟨hscope, hkey⟩ : c.scope = c'.scope ∧ c.key = c'.key := by simpa [Command.id] using h
  simp only [Command.organizationID, hscope, hkey]

/-- A committed row of the same command is answered by the row that its mutation left. -/
theorem CommandRequest.answer_completedRow {r0 : CommandRequest κ τ ε β} {c0 : Command} {code : Int}
    {raw : Json} (hdec : Endpoints.decodes β c0.operation raw = true) :
    r.answer c (r0.completedRow c0 code raw) =
      if c0.fingerprint = c.fingerprint ∧ c0.operation = c.operation then
        .ok ⟨true, r.form.returned code, some raw⟩
      else .error .idempotencyConflict := by
  unfold answer
  by_cases hsame : c0.fingerprint = c.fingerprint ∧ c0.operation = c.operation
  · rw [hsame.2] at hdec
    simp [completedRow, processingRow, hsame, hdec]
  · rw [if_neg hsame, if_pos]
    exact not_and_or.mp hsame

omit [Endpoints β] in
theorem CommandRequest.commits_error {id : CommandKey} (h : res.isOk = false) :
    commits id (r, res) = false := by
  cases res with
  | ok _ => cases h
  | error e => simp [commits]

omit [Endpoints β] in
theorem CommandRequest.commits_replayed {id : CommandKey}
    (h : ∀ response, res = .ok response → response.replayed = true) :
    commits id (r, res) = false := by
  cases res with
  | ok response => simp [commits, h response rfl]
  | error e => simp [commits]

theorem CommandsLog.append_unchanged (h : CommandsLog s fin) (hs : s'.1 = s.1)
    (hno : ∀ id, CommandRequest.commits id (r, res) = false) :
    CommandsLog s' (fin ++ [(r, res)]) := by
  refine ⟨fun id => ?_, fun id hid => ?_, fun r' response c hmem hrep hc => ?_, ?_⟩
  · simpa [List.countP_append, hno id] using h.once id
  · rw [hs] at hid
    simpa [List.countP_append, hno id] using h.free id hid
  · rw [hs]
    rcases List.mem_append.mp hmem with hmem | hmem
    · exact h.row r' response c hmem hrep hc
    · obtain ⟨rfl, rfl⟩ : r' = r ∧ .ok response = res := by simpa using hmem
      simpa [CommandRequest.commits, hc, hrep] using hno c.id
  · rw [hs]
    exact h.sound

theorem CommandsLog.append_records (h : CommandsLog s fin) (hc : r.command = some c)
    (hnone : s.1.find? c.id = none) (hrec : r.Records c held res s s') :
    CommandsLog s' (fin ++ [(r, res)]) := by
  obtain ⟨code, raw, rfl, hdec, -, hfind⟩ := hrec
  have hcommits : ∀ id, CommandRequest.commits id
      (r, .ok ⟨false, r.form.returned code, some raw⟩) = decide (c.id = id) := by
    simp [CommandRequest.commits, hc]
  refine ⟨fun id => ?_, fun id hid => ?_, fun r' response c' hmem hrep hc' => ?_, fun c' row hrow => ?_⟩
  · rw [List.countP_append, List.countP_singleton, hcommits]
    by_cases hid : c.id = id
    · have hzero := h.free c.id hnone
      simp [← hid, hzero]
    · simpa [hid] using h.once id
  · have hne : id ≠ c.id := by
      rintro rfl
      simp [hfind] at hid
    rw [hfind, if_neg hne] at hid
    rw [List.countP_append, List.countP_singleton, hcommits]
    simpa [Ne.symm hne] using h.free id hid
  · rcases List.mem_append.mp hmem with hmem | hmem
    · obtain ⟨code', raw', hresp, hrow⟩ := h.row r' response c' hmem hrep hc'
      have hne : c'.id ≠ c.id := by
        intro he
        rw [he, hnone] at hrow
        cases hrow
      exact ⟨code', raw', hresp, by rw [hfind, if_neg hne, hrow]⟩
    · obtain ⟨rfl, rfl⟩ : r' = r ∧ response = ⟨false, r.form.returned code, some raw⟩ := by
        simpa using hmem
      obtain rfl := Option.mem_unique hc hc'
      exact ⟨code, raw, rfl, by rw [hfind, if_pos rfl]⟩
  · rw [hfind] at hrow
    by_cases hid : c'.id = c.id
    · rw [if_pos hid] at hrow
      cases hrow
      refine ⟨rfl, ?_, hdec⟩
      exact (r.inScope c hc).symm.trans (Command.organizationID_eq_of_id hid.symm)
    · rw [if_neg hid] at hrow
      exact h.sound c' row hrow

theorem CommandsLog.append (h : CommandsLog s fin) {leaves : Set κ → β → τ → τ → Prop}
    (hpost : r.Post leaves held res s s') : CommandsLog s' (fin ++ [(r, res)]) := by
  cases hc : r.command with
  | none =>
    refine h.append_unchanged (hpost.unrecorded hc) fun id => ?_
    simp [CommandRequest.commits, hc]
  | some c =>
    have hset := hpost.command c hc
    obtain hnone | ⟨row, hrow⟩ := Option.eq_none_or_eq_some (s.1.find? c.id)
    · obtain herr | hrec := hset.fresh hnone
      · exact h.append_unchanged (by rw [hpost.error herr])
          fun id => CommandRequest.commits_error herr
      · exact h.append_records hc hnone hrec
    · obtain ⟨hs, hrep, -⟩ := hset.recorded row hrow
      exact h.append_unchanged (by rw [hs]) fun id => CommandRequest.commits_replayed hrep

variable [DecidableEq κ]

def commandSystem : System (Pool (CommandRequest κ τ ε β) (CommandKey ⊕ κ) (Commands × τ)
    (CommandError ε) Response) (SessionStep (CommandRequest κ τ ε β)) :=
  Pool.system CommandRequest.withCommandTx

/-- The log after every interleaving that starts without commands. -/
theorem commandsLog_exec (t : τ) (as : List (SessionStep (CommandRequest κ τ ε β))) :
    CommandsLog (commandSystem.exec (Pool.idle (Table.empty, t)) as).committed
      (commandSystem.exec (Pool.idle (Table.empty, t)) as).finished := by
  refine commandDiscipline.invariant (fun _ hlog hpost => hlog.append hpost) trivial ?_ as
  refine ⟨by simp, by simp, by simp, fun c row hrow => ?_⟩
  simp [Table.find?, Table.empty] at hrow

/-- A request that ends under the key of a recorded command changes nothing: it returns the recorded
outcome if operation and fingerprint agree, and a conflict otherwise. -/
theorem command_repeated (t : τ) (as : List (SessionStep (CommandRequest κ τ ε β)))
    {a : SessionStep (CommandRequest κ τ ε β)} {r0 : CommandRequest κ τ ε β} {response0 : Response}
    {c0 : Command}
    (hfin : (commandSystem.step (commandSystem.exec (Pool.idle (Table.empty, t)) as) a).finished =
      (commandSystem.exec (Pool.idle (Table.empty, t)) as).finished ++ [(r, res)])
    (hmem : (r0, .ok response0) ∈ (commandSystem.exec (Pool.idle (Table.empty, t)) as).finished)
    (hrep : response0.replayed = false) (hc0 : r0.command = some c0) (hc : r.command = some c)
    (hid : c0.id = c.id) (hmatch : r.Matches c) :
    (commandSystem.step (commandSystem.exec (Pool.idle (Table.empty, t)) as) a).committed =
        (commandSystem.exec (Pool.idle (Table.empty, t)) as).committed ∧
      if c0.fingerprint = c.fingerprint ∧ c0.operation = c.operation then
        ∃ code, response0 = ⟨false, r0.form.returned code, response0.outcome⟩ ∧
          res = .ok ⟨true, r.form.returned code, response0.outcome⟩
      else res = .error .idempotencyConflict := by
  have hlog := commandsLog_exec t as
  have hholds : commandDiscipline.Holds (commandSystem.exec (Pool.idle (Table.empty, t)) as) :=
    Discipline.holds_exec (s := (Table.empty, t)) trivial as
  obtain ⟨held, hpost⟩ := hholds.post hfin
  obtain ⟨code, raw, hresp, hrow⟩ := hlog.row r0 response0 c0 hmem hrep hc0
  rw [hid] at hrow
  obtain ⟨-, horg, hdec⟩ := hlog.sound c _ hrow
  obtain ⟨hsame, -, hans⟩ := (hpost.command c hc).recorded _ hrow
  refine ⟨hsame, ?_⟩
  have hdec0 : Endpoints.decodes β c0.operation raw = true := hdec
  rw [hans hmatch (horg.trans (r.inScope c hc)), CommandRequest.answer_completedRow hdec0]
  split
  · exact ⟨code, by rw [hresp], by rw [hresp]⟩
  · rfl

/-- In every interleaving a mutation commits at most once per command scope and key. A request
that ends later under the same key changes nothing: it returns the recorded outcome if operation
and fingerprint agree, and a conflict otherwise. A request that fails leaves nothing behind, and
one that is left alone ends. -/
theorem commands_recorded_once (t : τ) (as : List (SessionStep (CommandRequest κ τ ε β))) :
    let P := commandSystem.exec (Pool.idle (Table.empty, t)) as
    (∀ id, P.finished.countP (CommandRequest.commits id) ≤ 1) ∧
    (∀ a r res, (commandSystem.step P a).finished = P.finished ++ [(r, res)] →
      (res.isOk = false → (commandSystem.step P a).committed = P.committed) ∧
      ∀ r0 response0 c0 c, (r0, .ok response0) ∈ P.finished → response0.replayed = false →
        r0.command = some c0 → r.command = some c → c0.id = c.id → r.Matches c →
        (commandSystem.step P a).committed = P.committed ∧
        if c0.fingerprint = c.fingerprint ∧ c0.operation = c.operation then
          ∃ code, response0 = ⟨false, r0.form.returned code, response0.outcome⟩ ∧
            res = .ok ⟨true, r.form.returned code, response0.outcome⟩
        else res = .error .idempotencyConflict) ∧
    ∀ i r, P.sessions i = none → (∀ k, P.owner k = none) →
      ∃ n res, (commandSystem.exec P (.start i r :: List.replicate n (.advance i))).finished =
        P.finished ++ [(r, res)] := by
  intro P
  have hlog : CommandsLog P.committed P.finished := commandsLog_exec t as
  have hholds : commandDiscipline.Holds P := Discipline.holds_exec (s := (Table.empty, t)) trivial as
  refine ⟨hlog.once, fun a r res hfin => ?_, fun i r hi hfree => ?_⟩
  · obtain ⟨held, hpost⟩ := hholds.post hfin
    exact ⟨hpost.error, fun r0 response0 c0 c hmem hrep hc0 hc hid hmatch =>
      command_repeated t as hfin hmem hrep hc0 hc hid hmatch⟩
  · obtain ⟨n, -, hfin, -, -⟩ := Pool.exec_alone hi hfree r
    exact ⟨n, _, hfin⟩

end Deadbolt.Tenant
