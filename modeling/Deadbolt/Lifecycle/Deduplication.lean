import Deadbolt.Lifecycle.Creation

/-!
# Idempotent run creation

An idempotency identity is an environment with the hash of a key. Every run has the record of its
identity, every record is of a run, and a record stays as it was written. Whatever calls race, the
calls of one identity are therefore answered from one record.
-/

namespace Deadbolt.Execution

open Base Contracts

variable [Platform]

/-! ### Records and runs -/

def Run.keyHash (r : Run) : String := Platform.canonicalDigest (.str r.idempotencyKey)

variable {r : Run} {w w' : World} {id : RunID} {held : Set CreationLock}
  {res : Except CreateRunError CreationResult}

theorem Run.keyHash_of_pinned {r' : Run} (h : r'.pinned = r.pinned) : r'.keyHash = r.keyHash := by
  have hkey : r'.idempotencyKey = r.idempotencyKey := congrArg (fun p => p.2.2.2.2.2.1) h
  rw [Run.keyHash, hkey, Run.keyHash]

/-- Every run has its record, and every record its run. -/
structure World.Registered (w : World) : Prop where
  record : ∀ id r, w.db.runs.find? id = some r →
    ∃ rec, w.db.record? r.environmentID r.keyHash = some rec ∧ rec.runID = id
  run : ∀ env keyHash rec, w.db.record? env keyHash = some rec →
    ∃ r, w.db.runs.find? rec.runID = some r ∧ r.environmentID = env ∧ r.keyHash = keyHash

omit [Platform] in
def World.Recalls (w w' : World) : Prop := ∀ env keyHash rec,
  w.db.record? env keyHash = some rec → w'.db.record? env keyHash = some rec

theorem World.Registered.unique (hw : w.Registered) {id' : RunID} {r' : Run}
    (hr : w.db.runs.find? id = some r) (hr' : w.db.runs.find? id' = some r')
    (henv : r.environmentID = r'.environmentID) (hkey : r.keyHash = r'.keyHash) : id = id' := by
  obtain ⟨rec, hrec, rfl⟩ := hw.record id r hr
  obtain ⟨rec', hrec', rfl⟩ := hw.record id' r' hr'
  rw [← henv, ← hkey, hrec] at hrec'
  rw [Option.some.inj hrec']

omit [Platform] in
theorem Db.record?_insertRow {db : Db} {call : CreateRunCall} {sys sys' : Sys}
    (hnone : db.record? call.req.environmentID call.keyHash = none) (env : EnvironmentID)
    (keyHash : String) :
    (Statements.insertRow call id r sys sys' db).record? env keyHash =
      if call.req.environmentID = env ∧ call.keyHash = keyHash then
        some ⟨call.req.environmentID, call.keyHash, call.requestHash, id⟩
      else db.record? env keyHash := by
  unfold Db.record? at hnone ⊢
  rw [Statements.insertRow, List.find?_append]
  split
  · next h =>
    obtain ⟨rfl, rfl⟩ := h
    rw [hnone]
    simp
  · next h => simp [h]

theorem Inserts.registered {call : CreateRunCall} (h : Inserts call id held w w')
    (hw : w.Registered)
    (hkey : call.keyHash = Platform.canonicalDigest (.str call.req.idempotencyKey))
    (hnone : w.db.record? call.req.environmentID call.keyHash = none) :
    w'.Registered ∧ w.Recalls w' ∧ w'.db.record? call.req.environmentID call.keyHash =
      some ⟨call.req.environmentID, call.keyHash, call.requestHash, id⟩ := by
  obtain ⟨now, createdAt, r, sys, sys', -, hborn, -, -, rfl⟩ := h.row
  have hfind (id' : RunID) : (w.inserted call now id r sys sys').db.runs.find? id' =
      if id' = id then some r else w.db.runs.find? id' := Table.find?_put h.free r id'
  have hnone' : (w.admitted call.req.environmentID now).db.record? call.req.environmentID
      call.keyHash = none := hnone
  have hrecord (env : EnvironmentID) (keyHash : String) :
      (w.inserted call now id r sys sys').db.record? env keyHash =
        if call.req.environmentID = env ∧ call.keyHash = keyHash then
          some ⟨call.req.environmentID, call.keyHash, call.requestHash, id⟩
        else w.db.record? env keyHash := Db.record?_insertRow hnone' env keyHash
  have hhash : r.keyHash = call.keyHash := by rw [Run.keyHash, hborn.idempotencyKey, hkey]
  have hrecalls : w.Recalls (w.inserted call now id r sys sys') := by
    intro env keyHash rec hrec
    rw [hrecord, if_neg, hrec]
    rintro ⟨rfl, rfl⟩
    rw [hnone] at hrec
    cases hrec
  refine ⟨⟨fun id' r' hr' => ?_, fun env keyHash rec hrec => ?_⟩, hrecalls, ?_⟩
  · rw [hfind] at hr'
    split at hr'
    · next he =>
      obtain rfl := Option.some.inj hr'
      exact ⟨_, (hrecord _ _).trans (if_pos ⟨hborn.environmentID.symm, hhash.symm⟩), he.symm⟩
    · obtain ⟨rec, hrec, hid⟩ := hw.record id' r' hr'
      exact ⟨rec, hrecalls _ _ _ hrec, hid⟩
  · rw [hrecord] at hrec
    split at hrec
    · next he =>
      obtain rfl := Option.some.inj hrec
      exact ⟨r, (hfind id).trans (if_pos rfl), hborn.environmentID.trans he.1, hhash.trans he.2⟩
    · obtain ⟨r', hr', hrest⟩ := hw.run env keyHash rec hrec
      refine ⟨r', (hfind _).trans (Eq.trans (if_neg fun he => ?_) hr'), hrest⟩
      rw [he, h.free] at hr'
      cases hr'
  · exact (hrecord _ _).trans (if_pos ⟨rfl, rfl⟩)

/-- An operation beside creation keeps every run under its identity. -/
theorem World.Registered.beside (hw : w.Registered) (hs : w.Sound) (o : Operation) :
    (w.beside o).Registered ∧ w.Recalls (w.beside o) := by
  have hrecord (env : EnvironmentID) (keyHash : String) :
      (w.beside o).db.record? env keyHash = w.db.record? env keyHash := by
    simp only [Db.record?, (w.beside_alike o).records]
  refine ⟨⟨fun id r' hr' => ?_, fun env keyHash rec hrec => ?_⟩, fun env keyHash rec hrec => ?_⟩
  · obtain ⟨r, hr, hpin, -⟩ := World.beside_run hs o hr'
    rw [hrecord, Run.environmentID_of_pinned hpin, Run.keyHash_of_pinned hpin]
    exact hw.record id r hr
  · rw [hrecord] at hrec
    obtain ⟨r, hr, henv, hkey⟩ := hw.run env keyHash rec hrec
    obtain ⟨r', hr', hop⟩ := (World.beside_operates hs o).1.kept _ r hr
    exact ⟨r', hr', (Run.environmentID_of_pinned hop.pinned).trans henv,
      (Run.keyHash_of_pinned hop.pinned).trans hkey⟩
  · rw [hrecord, hrec]

/-! ### The end of a call -/

/-- How a call of `CreateRun` ends. -/
structure CreateRunRequest.Ends (req : CreateRunRequest)
    (res : Except CreateRunError CreationResult) (w w' : World) : Prop where
  failed : ∀ e, res = .error e → w' = w
  known : req.refusal = none → ∀ rec, w.db.record? req.environmentID req.keyHash = some rec →
    res = if rec.requestHash = req.requestHash then .ok (.run rec.runID true)
      else .error (.transaction .idempotencyConflict)
  recorded : ∀ id replay, res = .ok (.run id replay) →
    ∃ rec, w'.db.record? req.environmentID req.keyHash = some rec ∧ rec.runID = id ∧
      rec.requestHash = req.requestHash

theorem createRun_ends {req : CreateRunRequest} {skipped : Nat} (hw : w.Registered)
    (h : (ScheduledRequest.request (.createRun req skipped)).Post held res w w') :
    req.Ends res w w' ∧ w'.Registered ∧ w.Recalls w' := by
  have hsame : w.Registered ∧ w.Recalls w := ⟨hw, fun _ _ _ h => h⟩
  simp only [ScheduledRequest.Post] at h
  cases hrefusal : req.refusal with
  | some e =>
    rw [hrefusal] at h
    obtain ⟨rfl, rfl⟩ := h
    exact ⟨⟨fun _ _ => rfl, fun hn => absurd (hrefusal.symm.trans hn) (by simp), by simp⟩, hsame⟩
  | none =>
    rw [hrefusal] at h
    obtain ⟨txres, written, ⟨-, hended⟩, h⟩ := h
    cases hrec : w.db.record? req.environmentID req.keyHash with
    | some rec =>
      have hrec' : w.db.record? (req.call skipped).req.environmentID (req.call skipped).keyHash =
        some rec := hrec
      rw [hrec'] at hended
      obtain ⟨rfl, rfl⟩ := hended
      by_cases hhash : rec.requestHash = req.requestHash
      · have hcall : rec.requestHash = (req.call skipped).requestHash := hhash
        rw [if_pos hcall] at h
        obtain ⟨rfl, rfl⟩ := h
        refine ⟨⟨by simp, fun _ rec' hrec' => ?_, fun id replay he => ?_⟩, hsame⟩
        · obtain rfl := Option.mem_unique hrec hrec'
          rw [if_pos hhash]
        · cases he
          exact ⟨rec, hrec, rfl, hhash⟩
      · have hcall : ¬rec.requestHash = (req.call skipped).requestHash := hhash
        rw [if_neg hcall] at h
        obtain ⟨rfl, rfl⟩ := h
        refine ⟨⟨fun _ _ => rfl, fun _ rec' hrec' => ?_, by simp⟩, hsame⟩
        obtain rfl := Option.mem_unique hrec hrec'
        rw [if_neg hhash]
    | none =>
      have hrec' : w.db.record? (req.call skipped).req.environmentID (req.call skipped).keyHash =
        none := hrec
      rw [hrec'] at hended
      have hknown (P : Prop) (rec : IdempotencyRecord)
          (hk : w.db.record? req.environmentID req.keyHash = some rec) : P := by
        rw [hrec] at hk
        cases hk
      rcases txres with e | ⟨id, replay⟩
      · obtain ⟨rfl, rfl⟩ := h
        exact ⟨⟨fun _ _ => rfl, fun _ rec hk => hknown _ rec hk, by simp⟩, hsame⟩
      · obtain ⟨rfl, rfl⟩ := h
        obtain ⟨hreg, hrecalls, hnew⟩ := hended.2.registered hw rfl hrec
        refine ⟨⟨by simp, fun _ rec hk => hknown _ rec hk, fun id' replay' he => ?_⟩, hreg, hrecalls⟩
        cases he
        exact ⟨_, hnew, rfl, rfl⟩

theorem post_registered {r : CreationRequest} (hw : w.Registered) (hs : w.Sound)
    (h : (ScheduledRequest.request r).Post held res w w') : w'.Registered ∧ w.Recalls w' := by
  match r with
  | .createRun req skipped => exact (createRun_ends hw h).2
  | .operate o =>
    obtain ⟨-, rfl⟩ := h
    exact hw.beside hs o
  | .provision env maxConcurrency =>
    have hsame (v : World) (hr : v.db.runs = w.db.runs) (hd : v.db.records = w.db.records) :
        v.Registered ∧ w.Recalls v := by
      have hrecord : v.db.record? = w.db.record? := by
        funext env keyHash
        simp only [Db.record?, hd]
      exact ⟨⟨by rw [hr, hrecord]; exact hw.record, by rw [hr, hrecord]; exact hw.run⟩,
        by unfold World.Recalls; rw [hrecord]; exact fun _ _ _ h => h⟩
    simp only [ScheduledRequest.Post] at h
    split at h
    · obtain ⟨-, -, now, rfl⟩ := h
      exact hsame _ rfl rfl
    · obtain rfl := h
      exact hsame _ rfl rfl

/-! ### Every interleaving -/

def requests : Discipline CreationRequest.program := creation.comap ScheduledRequest.request

/-- The runs are registered, and every answered call has the record of its run. -/
structure World.Answers (w : World)
    (fin : List (CreationRequest × Except CreateRunError CreationResult)) : Prop where
  registered : w.Registered
  recorded : ∀ req skipped id replay, (.createRun req skipped, .ok (.run id replay)) ∈ fin →
    ∃ rec, w.db.record? req.environmentID req.keyHash = some rec ∧ rec.runID = id ∧
      rec.requestHash = req.requestHash

theorem World.Answers.post {fin : List (CreationRequest × Except CreateRunError CreationResult)}
    {r : CreationRequest} (h : w.Answers fin) (hw : w.Timely)
    (hpost : (ScheduledRequest.request r).Post held res w w') : w'.Answers (fin ++ [(r, res)]) := by
  obtain ⟨hreg, hrecalls⟩ := post_registered h.registered hw.sound hpost
  refine ⟨hreg, fun req skipped id replay hmem => ?_⟩
  rcases List.mem_append.mp hmem with hmem | hmem
  · obtain ⟨rec, hrec, hrest⟩ := h.recorded req skipped id replay hmem
    exact ⟨rec, hrecalls _ _ _ hrec, hrest⟩
  · obtain ⟨rfl, rfl⟩ := Prod.mk.inj (List.mem_singleton.mp hmem)
    exact (createRun_ends h.registered hpost).1.recorded id replay rfl

/-- However calls interleave with each other and with the other operations: an idempotency
identity has at most one run; a successful call returns the run of its identity; a call that fails
or is lost leaves the database as it was; and a call that passes the checks before its transaction
and ends after a successful call with the same key returns the same run for the same request, and
fails with a conflict for another one. -/
theorem createRun_idempotent (fleet : Fleet) (as : List (SessionStep CreationRequest))
    (a : SessionStep CreationRequest) :
    let S := Pool.system CreationRequest.program
    let P := S.exec (Pool.idle (World.initial fleet)) as
    let P' := S.step P a
    (∀ id id' r r', P.committed.db.runs.find? id = some r →
      P.committed.db.runs.find? id' = some r' → r.environmentID = r'.environmentID →
      r.keyHash = r'.keyHash → id = id') ∧
    (∀ req skipped id replay, (.createRun req skipped, .ok (.run id replay)) ∈ P.finished →
      ∃ r, P.committed.db.runs.find? id = some r ∧ r.environmentID = req.environmentID ∧
        r.keyHash = req.keyHash) ∧
    (P'.finished = P.finished → P'.committed = P.committed) ∧
    ∀ req skipped res, P'.finished = P.finished ++ [(.createRun req skipped, res)] →
      (∀ e, res = .error e → P'.committed = P.committed) ∧
      ∀ req0 skipped0 id replay,
        (.createRun req0 skipped0, .ok (.run id replay)) ∈ P.finished →
        req.environmentID = req0.environmentID → req.idempotencyKey = req0.idempotencyKey →
        req.refusal = none →
        res = if req.requestHash = req0.requestHash then .ok (.run id true)
          else .error (.transaction .idempotencyConflict) := by
  intro S P P'
  have hold : requests.Holds P := Discipline.holds_exec (World.timely_initial fleet) as
  have hans : P.committed.Answers P.finished := by
    refine requests.invariant (fun hw h hpost => World.Answers.post h hw hpost)
      (World.timely_initial fleet) ⟨⟨fun _ _ h => (nomatch h), fun _ _ _ h => (nomatch h)⟩, ?_⟩ as
    exact fun _ _ _ _ h => (nomatch h)
  refine ⟨fun id id' r r' => hans.registered.unique, fun req skipped id replay hmem => ?_,
    fun hfin => ?_, fun req skipped res hfin => ?_⟩
  · obtain ⟨rec, hrec, rfl, -⟩ := hans.recorded req skipped id replay hmem
    exact hans.registered.run _ _ rec hrec
  · obtain ⟨hc, -⟩ | ⟨r, held, res, -, hend⟩ := (hold.step a).2
    · exact hc
    · rw [hfin] at hend
      simp at hend
  · obtain ⟨held, hpost⟩ := hold.post hfin
    have hends := (createRun_ends hans.registered hpost).1
    refine ⟨hends.failed, fun req0 skipped0 id replay hmem henv hkey hrefusal => ?_⟩
    obtain ⟨rec, hrec, rfl, hhash⟩ := hans.recorded req0 skipped0 id replay hmem
    have hidentity : req.keyHash = req0.keyHash := by
      rw [CreateRunRequest.keyHash, hkey, CreateRunRequest.keyHash]
    rw [← henv, ← hidentity] at hrec
    rw [hends.known hrefusal rec hrec, hhash]
    simp only [eq_comm]

namespace Sample

/-- Sizes and digests of requests by their input. -/
@[reducible] def sized : Platform :=
  { platform with
    canonicalSize := fun j =>
      match j with
      | .str s => s.length + 2
      | _ => 2
    canonicalDigest := fun j =>
      match j with
      | .str s => s
      | .obj (_ :: (_, .str _) :: _) => "text"
      | _ => "object" }

/-- The request of `request` with a text as its input. -/
def textRequest (text : String) : CreateRunRequest := { request with input := .str text }

omit [Platform] in
theorem run_textRequest {text : String} (h : maxInlinePayloadBytes ≤ text.length) (w : World) :
    (@CreationRequest.program sized (.createRun (textRequest text) 0)).run w =
      .error .payloadTooLarge := by
  have hrefusal : @CreateRunRequest.refusal sized (textRequest text) =
      some .payloadTooLarge := by
    have hkey : (textRequest text).idempotencyKey ≠ "" := by
      change "k" ≠ ""
      decide
    have hcheck : (textRequest text).payload.check 0 = true := by
      change Json.check (.obj [("workflow", .str "w"), ("input", .str text)]) 0 = true
      simp [Json.check, Json.checkMembers, Json.checkMember, maxDepth]
    have hsize : maxInlinePayloadBytes < text.length + 2 := by omega
    simp only [CreateRunRequest.refusal, hkey, hcheck, if_false]
    exact if_pos hsize
  simp only [CreationRequest.program, Statements.createRun, hrefusal, Program.run_fail]

omit [Platform] in
theorem requestHash_textRequest (text : String) :
    @CreateRunRequest.requestHash sized (textRequest text) ≠
      @CreateRunRequest.requestHash sized request := by
  change "text" ≠ "object"
  decide

/-- A request with the key of `request` and an input above the limit. -/
def oversized : CreateRunRequest :=
  textRequest (String.ofList (List.replicate maxInlinePayloadBytes 'a'))

omit [Platform] in
theorem exec_textRequest {text : String} (h : maxInlinePayloadBytes ≤ text.length) :
    ∃ as, ((Pool.system (@CreationRequest.program sized)).exec
      (Pool.idle (World.initial (single "safe" none))) as).finished =
        [(.createRun request 0, .ok (.run 0 false)),
          (.createRun (textRequest text) 0, .error .payloadTooLarge)] := by
  obtain ⟨as, has⟩ := Pool.exists_exec_respond (@CreationRequest.program sized)
    [.createRun request 0, .createRun (textRequest text) 0]
    (World.initial (single "safe" none), [])
  refine ⟨as, (congrArg Pool.finished has).trans ?_⟩
  have hcreate : ((@CreationRequest.program sized (.createRun request 0)).run
      (World.initial (single "safe" none))).map Prod.fst = .ok (.run 0 false) := by decide +kernel
  simp only [Pool.quiet, List.foldl_cons, List.foldl_nil, Pool.respond_snd, run_textRequest h,
    hcreate]
  rfl

end Sample

omit [Platform] in
/-- A request above the size limit is refused as such, also when its key has a run of another
request. -/
theorem oversized_no_conflict :
    (∃ as, ((Pool.system (@CreationRequest.program Sample.sized)).exec
      (Pool.idle (World.initial (Sample.single "safe" none))) as).finished =
        [(.createRun Sample.request 0, .ok (.run 0 false)),
          (.createRun Sample.oversized 0, .error .payloadTooLarge)]) ∧
    Sample.oversized.environmentID = Sample.request.environmentID ∧
    Sample.oversized.idempotencyKey = Sample.request.idempotencyKey ∧
    @CreateRunRequest.requestHash Sample.sized Sample.oversized ≠
      @CreateRunRequest.requestHash Sample.sized Sample.request := by
  refine ⟨Sample.exec_textRequest ?_, rfl, rfl, Sample.requestHash_textRequest _⟩
  rw [String.length_ofList, List.length_replicate]

end Deadbolt.Execution
