import Deadbolt.Auth.Sessions

/-!
# Rotation and logout of one session

A request validates its session, and rotates or revokes it later in a transaction that does not
look at what has become of it. If nothing revokes the session in between, every session has at most
one successor, none comes from a revoked session, and a session that was logged out has none.
-/

namespace Deadbolt.Auth

open Base

/-! ### What a write does to the rows -/

def Revoked (db : SessionTable) (id : SessionID) : Prop :=
  ∃ s, db.find? id = some s ∧ s.revokedAt.isSome = true

def Live (db : SessionTable) (id : SessionID) : Prop :=
  ∃ s, db.find? id = some s ∧ s.revokedAt = none

variable {id : SessionID}

theorem Live.not_revoked {db : SessionTable} (h : Live db id) : ¬ Revoked db id := by
  obtain ⟨s, hs, hlive⟩ := h
  rintro ⟨s', hs', hrevoked⟩
  obtain rfl := Option.mem_unique hs hs'
  simp [hlive] at hrevoked

theorem issue_revoke_if (c : Prop) [Decidable c] (clock : Int) (reason : String) (s : Session) :
    (if c then s.revoke clock reason else s).issue = s.issue := by
  unfold Session.revoke
  split
  · split <;> rfl
  · rfl

/-- Rows stay, with what they were issued as; revoked rows stay revoked, and only sessions of the
list become revoked. -/
structure Keeps (db db' : SessionTable) (hit : List SessionID) : Prop where
  row : ∀ id s, db.find? id = some s → ∃ s', db'.find? id = some s' ∧ s'.issue = s.issue
  revoked : ∀ id, Revoked db id → Revoked db' id
  live : ∀ id, Live db id → id ∉ hit → Live db' id

namespace Keeps

variable {db db' : SessionTable} {hit : List SessionID}

theorem refl (db : SessionTable) : Keeps db db [] :=
  ⟨fun _ s hs => ⟨s, hs, rfl⟩, fun _ h => h, fun _ h _ => h⟩

/-- An update that keeps what rows were issued as and their revocations. -/
theorem mapRows {f : SessionID → Session → Session} (hissue : ∀ id s, (f id s).issue = s.issue)
    (hrevoked : ∀ id s, s.revokedAt.isSome = true → (f id s).revokedAt.isSome = true)
    (hlive : ∀ id s, db.find? id = some s → s.revokedAt = none → id ∉ hit →
      (f id s).revokedAt = none) : Keeps db (db.mapRows f) hit := by
  refine ⟨fun id s hs => ⟨f id s, ?_, hissue id s⟩, ?_, ?_⟩
  · rw [Table.find?_mapRows, hs, Option.map_some]
  · rintro id ⟨s, hs, hr⟩
    exact ⟨f id s, by rw [Table.find?_mapRows, hs, Option.map_some], hrevoked id s hr⟩
  · rintro id ⟨s, hs, hl⟩ hid
    exact ⟨f id s, by rw [Table.find?_mapRows, hs, Option.map_some], hlive id s hs hl hid⟩

theorem revoke (db : SessionTable) (id : SessionID) (clock : Int) (reason : String) :
    Keeps db (db.modify id (Session.revoke clock reason)) [id] := by
  refine mapRows (fun k s => issue_revoke_if ..) (fun k s hs => ?_) fun k s _ hs hk => ?_
  · simp [Session.revoke, hs]
  · rw [if_neg (by simpa using hk)]
    exact hs

theorem touch (db : SessionTable) (now idleTimeout : Int)
    (answer : Except SessionError (SessionID × Session)) :
    Keeps db (Auth.touch db now idleTimeout answer) [] := by
  cases answer with
  | error e => exact .refl db
  | ok row =>
    simp only [Auth.touch, Table.modify]
    refine mapRows (fun k s => ?_) (fun k s hs => ?_) fun k s _ hs _ => ?_
    all_goals split <;> first | rfl | exact hs

theorem insertSession {id : SessionID} {s : Session}
    (h : Auth.insertSession db id s = some db') : Keeps db db' [] := by
  unfold Auth.insertSession at h
  split at h
  · cases h
  · exact ⟨fun k r hr => ⟨r, Table.find?_of_insert? h hr, rfl⟩,
      fun k ⟨r, hr, hrev⟩ => ⟨r, Table.find?_of_insert? h hr, hrev⟩,
      fun k ⟨r, hr, hlive⟩ _ => ⟨r, Table.find?_of_insert? h hr, hlive⟩⟩

theorem trans {db'' : SessionTable} {more : List SessionID} (h : Keeps db db' hit)
    (h' : Keeps db' db'' more) : Keeps db db'' (hit ++ more) := by
  refine ⟨fun id s hs => ?_, fun id hr => h'.revoked id (h.revoked id hr), fun id hl hid => ?_⟩
  · obtain ⟨s', hs', he⟩ := h.row id s hs
    obtain ⟨s'', hs'', he'⟩ := h'.row id s' hs'
    exact ⟨s'', hs'', he'.trans he⟩
  · rw [List.mem_append, not_or] at hid
    exact h'.live id (h.live id hl hid.1) hid.2

end Keeps

theorem revoked_modify {db : SessionTable} (h : Live db id) (clock : Int) (reason : String) :
    Revoked (db.modify id (Session.revoke clock reason)) id := by
  obtain ⟨s, hs, hlive⟩ := h
  refine ⟨s.revoke clock reason, ?_, ?_⟩
  · rw [Table.find?_modify_of_some hs, if_pos rfl]
  · simp [Session.revoke, hlive]

theorem AuthWorld.isRevoked_eq_false {w : AuthWorld} :
    w.isRevoked id = false ↔ Live w.sessions id := by
  unfold isRevoked Live
  cases w.sessions.find? id <;> simp

/-! ### The condition -/

/-- Nothing has revoked the session of the request since it was validated, when the request rotates
or logs it out. -/
def AuthWorld.Undisturbed (w : AuthWorld) : AuthStep → Prop
  | .switchOrg i _ _ _ _ | .logout i _ =>
    ∀ c ∈ w.contexts[i]?, c.session ∉ w.revocations.drop c.mark
  | _ => True

instance (w : AuthWorld) (e : AuthStep) : Decidable (w.Undisturbed e) := by
  cases e <;> unfold AuthWorld.Undisturbed <;> infer_instance

/-- The session comes from the other by rotations. -/
def Derived (db : SessionTable) : SessionID → SessionID → Prop :=
  Relation.TransGen fun p id => ∃ s, db.find? id = some s ∧ s.issue.parent = some p

/-! ### The invariant -/

namespace AuthWorld

structure Sound (w : AuthWorld) : Prop where
  /-- The session of a request is live unless it was revoked since the validation. -/
  contexts : ∀ c ∈ w.contexts, c.mark ≤ w.revocations.length ∧
    (c.session ∉ w.revocations.drop c.mark → Live w.sessions c.session)
  olds : (w.successions.map Succession.old).Nodup
  successions : ∀ x ∈ w.successions, x.oldRevoked = false ∧ Revoked w.sessions x.old
  parents : ∀ id s p, w.sessions.find? id = some s → s.issue.parent = some p →
    ∃ x ∈ w.successions, x.old = p ∧ x.new = id
  logouts : ∀ id ∈ w.logouts, Revoked w.sessions id ∧ ∀ x ∈ w.successions, x.old ≠ id

theorem sound_empty : empty.Sound where
  contexts := by simp [empty]
  olds := by simp [empty]
  successions := by simp [empty]
  parents id s p hs := by simp [empty, Table.find?, Table.empty] at hs
  logouts := by simp [empty]

variable {w : AuthWorld}

variable {db : SessionTable}

/-- Requests stay well marked when every session that a write revokes is recorded. -/
theorem Sound.contexts_of_keeps (h : w.Sound) (hit more : List SessionID)
    (hkeeps : Keeps w.sessions db hit) (hmore : ∀ id ∈ hit, Live w.sessions id → id ∈ more)
    {c : Context} (hc : ∃ c' ∈ w.contexts, c'.session = c.session ∧ c'.mark = c.mark) :
    c.mark ≤ (w.revocations ++ more).length ∧
      (c.session ∉ (w.revocations ++ more).drop c.mark → Live db c.session) := by
  obtain ⟨c', hc', hsession, hmark⟩ := hc
  obtain ⟨hle, hlive⟩ := h.contexts c' hc'
  rw [hsession, hmark] at *
  refine ⟨by rw [List.length_append]; omega, fun hid => ?_⟩
  rw [List.drop_append_of_le_length hle, List.mem_append, not_or] at hid
  have hl := hlive hid.1
  exact hkeeps.live _ hl fun hhit => hid.2 (hmore _ hhit hl)

theorem mem_finish {i : Nat} {c : Context} (h : c ∈ w.finish i) :
    ∃ c' ∈ w.contexts, c'.session = c.session ∧ c'.mark = c.mark := by
  obtain ⟨j, hj⟩ := List.mem_iff_getElem?.mp h
  rw [finish, List.getElem?_modify] at hj
  obtain ⟨c', hc', rfl⟩ := Option.map_eq_some_iff.mp hj
  refine ⟨c', List.mem_of_getElem? hc', ?_⟩
  split <;> exact ⟨rfl, rfl⟩

theorem Sound.of_keeps (h : w.Sound) (hit more : List SessionID) (hkeeps : Keeps w.sessions db hit)
    (hmore : ∀ id ∈ hit, Live w.sessions id → id ∈ more)
    (hnew : ∀ id s p, db.find? id = some s → s.issue.parent = some p →
      ∃ s', w.sessions.find? id = some s' ∧ s'.issue.parent = some p) :
    ({ w with sessions := db, revocations := w.revocations ++ more }).Sound where
  contexts c hc := h.contexts_of_keeps _ _ hkeeps hmore ⟨c, hc, rfl, rfl⟩
  olds := h.olds
  successions x hx := ⟨(h.successions x hx).1, hkeeps.revoked _ (h.successions x hx).2⟩
  parents id s p hs hp := by
    obtain ⟨s', hs', hp'⟩ := hnew id s p hs hp
    exact h.parents id s' p hs' hp'
  logouts id hid := ⟨hkeeps.revoked _ (h.logouts id hid).1, (h.logouts id hid).2⟩

theorem parent_of_mapRows {f : SessionID → Session → Session}
    (hissue : ∀ id s, (f id s).issue = s.issue) (id : SessionID) (s : Session) (p : SessionID)
    (hs : (db.mapRows f).find? id = some s) (hp : s.issue.parent = some p) :
    ∃ s', db.find? id = some s' ∧ s'.issue.parent = some p := by
  rw [Table.find?_mapRows] at hs
  obtain ⟨s', hs', rfl⟩ := Option.map_eq_some_iff.mp hs
  exact ⟨s', hs', by rwa [hissue] at hp⟩

theorem of_find_insertSession {db' : SessionTable} {id id' : SessionID} {s s' : Session}
    (h : insertSession db id s = some db') (hs : db'.find? id' = some s') :
    id' = id ∧ s' = s ∨ db.find? id' = some s' := by
  unfold insertSession at h
  split at h
  · cases h
  · rw [Table.find?_insert? h] at hs
    split at hs
    · next hid => exact .inl ⟨hid, (Option.some.inj hs).symm⟩
    · exact .inr hs

theorem Sound.insert (h : w.Sound) {id : SessionID} {s : Session}
    (hi : insertSession w.sessions id s = some db) (hs : s.issue.parent = none) :
    ({ w with sessions := db }).Sound := by
  have hsound := h.of_keeps _ [] (Keeps.insertSession hi) (by simp)
    fun id' s' p hs' hp => by
      rcases of_find_insertSession hi hs' with ⟨-, rfl⟩ | hs'
      · simp [hs] at hp
      · exact ⟨s', hs', hp⟩
  simpa using hsound

theorem issue_touch {now idleTimeout : Int} {answer : Except SessionError (SessionID × Session)}
    (id : SessionID) (s : Session) (p : SessionID)
    (hs : (touch db now idleTimeout answer).find? id = some s) (hp : s.issue.parent = some p) :
    ∃ s', db.find? id = some s' ∧ s'.issue.parent = some p := by
  cases answer with
  | error e => exact ⟨s, hs, hp⟩
  | ok row => exact parent_of_mapRows (fun k s => by split <;> rfl) id s p hs hp

theorem Sound.touch (h : w.Sound) (now idleTimeout : Int)
    (answer : Except SessionError (SessionID × Session)) :
    ({ w with sessions := Auth.touch w.sessions now idleTimeout answer }).Sound := by
  have hsound := h.of_keeps _ [] (Keeps.touch w.sessions now idleTimeout answer) (by simp)
    issue_touch
  simpa using hsound

theorem Sound.authenticate [Digest] (h : w.Sound) (cookie : Text) (now idleTimeout : Int) :
    (w.authenticate cookie now idleTimeout).Sound := by
  have hsound := h.touch now idleTimeout (validateSession w.sessions cookie now idleTimeout)
  unfold AuthWorld.authenticate
  cases hv : validateSession w.sessions cookie now idleTimeout with
  | error e => rwa [hv] at hsound
  | ok row =>
    rw [hv] at hsound
    obtain ⟨hcontexts, holds, hsuccessions, hparents, hlogouts⟩ := hsound
    refine ⟨fun c hc => ?_, holds, hsuccessions, hparents, hlogouts⟩
    rcases List.mem_append.mp hc with hc | hc
    · exact hcontexts c hc
    · rw [List.mem_singleton.mp hc]
      obtain ⟨s, hs, -, hlive, -⟩ := of_validateSession hv
      exact ⟨le_rfl, fun _ => (Keeps.touch _ _ _ _).live _ ⟨s, hs, hlive⟩ (by simp)⟩

theorem Sound.recover (h : w.Sound) (incidentAt clock : Int) : (w.recover incidentAt clock).Sound := by
  refine h.of_keeps ((w.sessions.rows.filter fun row =>
    row.2.revokedAt.isNone && decide (row.2.createdAt ≤ incidentAt)).map Prod.fst) _ ?_
    (fun _ hid _ => hid) (parent_of_mapRows fun k s => issue_revoke_if ..)
  refine .mapRows (fun k s => issue_revoke_if ..) (fun k s hs => ?_) fun k s hs hlive hk => ?_
  · simp [Session.revoke, hs]
  · rw [if_neg]
    · exact hlive
    · intro hhit
      exact hk (List.mem_map.mpr ⟨(k, s), List.mem_filter.mpr
        ⟨(w.sessions.find?_eq_some_iff k s).mp hs, hhit⟩, rfl⟩)

theorem Sound.logout (h : w.Sound) (i : Nat) (clock : Int)
    (hquiet : w.Undisturbed (.logout i clock)) : (w.logout i clock).Sound := by
  unfold AuthWorld.logout
  split
  · exact h
  · next c hc =>
    split
    · exact h
    · have hlive := (h.contexts c (List.mem_of_getElem? hc)).2 (hquiet c hc)
      have hkeeps := Keeps.revoke w.sessions c.session clock "LOGOUT"
      rw [isRevoked_eq_false.mpr hlive]
      refine ⟨fun c' hc' => ?_, h.olds, fun x hx => ?_, fun id s p hs hp => ?_, fun id hid => ?_⟩
      · exact h.contexts_of_keeps _ _ hkeeps (fun _ hid _ => hid) (mem_finish hc')
      · exact ⟨(h.successions x hx).1, hkeeps.revoked _ (h.successions x hx).2⟩
      · obtain ⟨s', hs', hp'⟩ := parent_of_mapRows (fun k s => issue_revoke_if ..) id s p hs hp
        exact h.parents id s' p hs' hp'
      · rcases List.mem_append.mp hid with hid | hid
        · exact ⟨hkeeps.revoked _ (h.logouts id hid).1, (h.logouts id hid).2⟩
        · -- the session is live, so no rotation has taken it yet
          rw [List.mem_singleton.mp hid]
          exact ⟨revoked_modify hlive _ _, fun x hx he =>
            hlive.not_revoked (he ▸ (h.successions x hx).2)⟩

theorem Sound.switchOrg [Digest] (h : w.Sound) (i : Nat) (member : Bool) (org : OrganizationID)
    (clock : Int) (fresh : Fresh) (hquiet : w.Undisturbed (.switchOrg i member org clock fresh)) :
    (w.switchOrg i member org clock fresh).Sound := by
  have hfinish : ({ w with contexts := w.finish i }).Sound := by
    refine ⟨fun c hc => ?_, h.olds, h.successions, h.parents, h.logouts⟩
    simpa using h.contexts_of_keeps _ [] (.refl w.sessions) (by simp) (mem_finish hc)
  unfold AuthWorld.switchOrg
  split
  · exact h
  · next c hc =>
    split
    · exact h
    · split
      · split
        · exact hfinish
        · next db hrotate =>
          have hlive := (h.contexts c (List.mem_of_getElem? hc)).2 (hquiet c hc)
          have hrevoke := Keeps.revoke w.sessions c.session clock "ROTATED"
          have hinsert := Keeps.insertSession hrotate
          have hkeeps := hrevoke.trans hinsert
          rw [isRevoked_eq_false.mpr hlive]
          refine ⟨fun c' hc' => ?_, ?_, fun x hx => ?_, fun id s p hs hp => ?_, fun id hid => ?_⟩
          · exact h.contexts_of_keeps _ _ hkeeps (fun _ hid _ => by simpa using hid) (mem_finish hc')
          · rw [List.map_append, List.nodup_append]
            refine ⟨h.olds, by simp, fun a ha b hb hab => ?_⟩
            obtain ⟨x, hx, rfl⟩ := List.mem_map.mp ha
            obtain rfl : b = c.session := by simpa using hb
            exact hlive.not_revoked (hab ▸ (h.successions x hx).2)
          · rcases List.mem_append.mp hx with hx | hx
            · exact ⟨(h.successions x hx).1, hkeeps.revoked _ (h.successions x hx).2⟩
            · rw [List.mem_singleton.mp hx]
              exact ⟨rfl, hinsert.revoked _ (revoked_modify hlive _ _)⟩
          · rcases of_find_insertSession hrotate hs with ⟨rfl, rfl⟩ | hs
            · obtain rfl : c.session = p := Option.some.inj hp
              exact ⟨_, List.mem_append_right _ List.mem_cons_self, rfl, rfl⟩
            · obtain ⟨s', hs', hp'⟩ := parent_of_mapRows (fun k s => issue_revoke_if ..) id s p hs hp
              obtain ⟨x, hx, hx'⟩ := h.parents id s' p hs' hp'
              exact ⟨x, List.mem_append_left _ hx, hx'⟩
          · refine ⟨hkeeps.revoked _ (h.logouts id hid).1, fun x hx => ?_⟩
            rcases List.mem_append.mp hx with hx | hx
            · exact (h.logouts id hid).2 x hx
            · rw [List.mem_singleton.mp hx]
              rintro rfl
              exact hlive.not_revoked (h.logouts _ hid).1
      · exact hfinish

theorem Sound.step [Digest] (h : w.Sound) (e : AuthStep) (hquiet : w.Undisturbed e) : (w.step e).Sound := by
  cases e with
  | login fresh userID org =>
    simp only [AuthWorld.step, createSession]
    cases hi : insertSession w.sessions fresh.id _ with
    | none => exact h
    | some db => exact h.insert hi rfl
  | cliLogin fresh userID org =>
    simp only [AuthWorld.step, createCLISession]
    cases hi : insertSession w.sessions fresh.id _ with
    | none => exact h
    | some db => exact h.insert hi rfl
  | authenticate cookie now idleTimeout => exact h.authenticate cookie now idleTimeout
  | bearer token now idleTimeout => exact h.touch now idleTimeout _
  | switchOrg i member org clock fresh => exact h.switchOrg i member org clock fresh hquiet
  | logout i clock => exact h.logout i clock hquiet
  | recover incidentAt clock => exact h.recover incidentAt clock

end AuthWorld

/-! ### Sessions and their successors -/

/-- If no session is revoked between the validation of a request and the switch or logout of that
request: a session has at most one successor, no successor was made from a revoked session, and no
live session derives from one that was logged out. -/
theorem rotation_safe [Digest] (es : List AuthStep)
    (hquiet : authService.Along AuthWorld.Undisturbed .empty es) :
    (∀ a b p sa sb, (authService.exec .empty es).sessions.find? a = some sa →
        (authService.exec .empty es).sessions.find? b = some sb →
        sa.issue.parent = some p → sb.issue.parent = some p → a = b) ∧
      (∀ x ∈ (authService.exec .empty es).successions, x.oldRevoked = false) ∧
      ∀ id ∈ (authService.exec .empty es).logouts, ∀ b,
        Derived (authService.exec .empty es).sessions id b →
          ¬ Live (authService.exec .empty es).sessions b := by
  have h : (authService.exec .empty es).Sound :=
    System.invariant authService (fun _ e hs hq => hs.step e hq) AuthWorld.sound_empty hquiet
  generalize authService.exec .empty es = w at h
  refine ⟨fun a b p sa sb ha hb hpa hpb => ?_, fun x hx => (h.successions x hx).1, ?_⟩
  · obtain ⟨x, hx, hxold, rfl⟩ := h.parents a sa p ha hpa
    obtain ⟨y, hy, hyold, rfl⟩ := h.parents b sb p hb hpb
    rw [List.inj_on_of_nodup_map h.olds hx hy (hxold.trans hyold.symm)]
  · intro id hid b hderived
    obtain ⟨c, ⟨s, hs, hp⟩, -⟩ := Relation.TransGen.head'_iff.mp hderived
    obtain ⟨x, hx, hxold, -⟩ := h.parents c s id hs hp
    exact absurd hxold ((h.logouts id hid).2 x hx)

namespace Sample

def twoRequests : List AuthStep :=
  [.login (fresh 1) 7 none, .authenticate (cookie 1) 1 100, .authenticate (cookie 1) 2 100]

def inTurn : List AuthStep :=
  [.login (fresh 1) 7 none, .authenticate (cookie 1) 1 100, .switchOrg 0 true 9 3 (fresh 2),
    .authenticate (cookie 2) 4 100, .logout 1 5]

def twoSwitches : AuthWorld :=
  serve (twoRequests ++ [.switchOrg 0 true 9 3 (fresh 2), .switchOrg 1 true 9 4 (fresh 3)])

def lateSwitch : AuthWorld :=
  serve (twoRequests ++ [.logout 0 3, .switchOrg 1 true 9 4 (fresh 2)])

def successor (n : Nat) : Session := @newSession digest (fresh n) 7 (some 9) .dashboard (some 1)

end Sample

theorem rotation_safe_in_turn :
    (Sample.serve Sample.inTurn).successions = [⟨1, 2, false⟩] ∧
      (Sample.serve Sample.inTurn).logouts = [2] ∧
      ∀ b, Derived (Sample.serve Sample.inTurn).sessions 2 b →
        ¬ Live (Sample.serve Sample.inTurn).sessions b :=
  ⟨by decide +kernel, by decide +kernel,
    (@rotation_safe Sample.digest Sample.inTurn (by decide +kernel)).2.2 2 (by decide +kernel)⟩

/-- Two switches of one session make two successors, the second from a revoked session; and a switch
that was validated before a logout makes a live session derived from the one that was logged out. -/
theorem concurrent_switches_fork :
    Sample.twoSwitches.successions = [⟨1, 2, false⟩, ⟨1, 3, true⟩] ∧
      Sample.twoSwitches.sessions.find? 2 = some (Sample.successor 2) ∧
      Sample.twoSwitches.sessions.find? 3 = some (Sample.successor 3) ∧
      (Sample.successor 2).issue.parent = some 1 ∧ (Sample.successor 3).issue.parent = some 1 ∧
      Sample.lateSwitch.logouts = [1] ∧ Derived Sample.lateSwitch.sessions 1 2 ∧
      Live Sample.lateSwitch.sessions 2 := by
  have hlate : Sample.lateSwitch.sessions.find? 2 = some (Sample.successor 2) := by decide +kernel
  exact ⟨by decide +kernel, by decide +kernel, by decide +kernel, rfl, rfl, by decide +kernel,
    .single ⟨_, hlate, rfl⟩, _, hlate, rfl⟩

/-! ### Revoked sessions -/

theorem AuthWorld.revoked_step [Digest] {w : AuthWorld} (h : Revoked w.sessions id) (e : AuthStep) :
    Revoked (w.step e).sessions id := by
  cases e with
  | login fresh userID org =>
    simp only [step, createSession]
    cases hi : insertSession w.sessions fresh.id _ with
    | none => exact h
    | some db => exact (Keeps.insertSession hi).revoked id h
  | cliLogin fresh userID org =>
    simp only [step, createCLISession]
    cases hi : insertSession w.sessions fresh.id _ with
    | none => exact h
    | some db => exact (Keeps.insertSession hi).revoked id h
  | authenticate => exact (Keeps.touch ..).revoked id h
  | bearer => exact (Keeps.touch ..).revoked id h
  | switchOrg i member org clock fresh =>
    simp only [step, switchOrg]
    repeat' split
    all_goals first | exact h | exact ((Keeps.revoke ..).trans (.insertSession ‹_›)).revoked id h
  | logout i clock =>
    simp only [step, logout]
    repeat' split
    all_goals first | exact h | exact (Keeps.revoke ..).revoked id h
  | recover incidentAt clock =>
    obtain ⟨s, hs, hr⟩ := h
    exact ⟨s, by simp [step, recover, hs, Option.isSome_iff_ne_none.mp hr], hr⟩

/-- A revoked session stays revoked and is never accepted again, whatever requests follow. -/
theorem revoked_session_refused [Digest] (w : AuthWorld) (es : List AuthStep)
    (h : Revoked w.sessions id) : Revoked (authService.exec w es).sessions id ∧
      ∀ token now idle s,
        validateSession (authService.exec w es).sessions token now idle ≠ .ok (id, s) ∧
        validateCLISession (authService.exec w es).sessions token now idle ≠ .ok (id, s) := by
  have hr : Revoked (authService.exec w es).sessions id :=
    authService.invariant_of_step (I := fun w => Revoked w.sessions id)
      (fun _ e h => AuthWorld.revoked_step h e) h es
  have hdead token now idle s :
      validateSession (authService.exec w es).sessions token now idle ≠ .ok (id, s) := by
    intro hv
    obtain ⟨s, hs, -, hlive, -⟩ := of_validateSession hv
    exact Live.not_revoked ⟨s, hs, hlive⟩ hr
  refine ⟨hr, fun token now idle s => ⟨hdead token now idle s, fun hv => ?_⟩⟩
  obtain ⟨raw, -, hv⟩ := of_validateCLISession hv
  exact hdead raw now idle s hv

theorem revoked_session_refused_logout :
    Revoked (Sample.serve Sample.inTurn).sessions 2 ∧
      ∀ s, @validateSession Sample.digest (Sample.serve Sample.inTurn).sessions (Sample.cookie 2) 6 100
        ≠ .ok (2, s) := by
  have h : Revoked (Sample.serve Sample.inTurn).sessions 2 :=
    (Option.any_eq_true (fun s : Session => s.revokedAt.isSome) _).mp (by decide +kernel)
  exact ⟨h, fun s => ((@revoked_session_refused 2 Sample.digest _ [] h).2 _ 6 100 s).1⟩

end Deadbolt.Auth
