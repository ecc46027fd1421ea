import Deadbolt.Base.System
import Deadbolt.Base.Table
import Deadbolt.Base.Text

/-!
# Sessions of people

`internal/auth/session.go`, the session middleware and the handlers for logout and organization
switches of `bff.go`, and `RequireAuth` of `internal/tenant/http.go`. Dashboard and
CLI sessions are rows of one table, found by the hash of the token without its prefix. A request
authenticates first and writes later, in a transaction of its own.
-/

namespace Deadbolt.Auth

open Base

/-! ### Tokens -/

abbrev Text := List Char

abbrev SessionID := Nat
abbrev UserID := Nat
abbrev OrganizationID := Nat

class Digest where
  hashToken : Text → Text

abbrev Random := Vector UInt8 32

def hexEncode (bytes : List UInt8) : Text :=
  bytes.flatMap fun b => [Nat.digitChar (b.toNat / 16), Nat.digitChar (b.toNat % 16)]

/-- `GenerateRandomToken`, `session.go:58-64`. -/
def generateRandomToken (random : Random) : Text := hexEncode random.toList

def cliPrefix : Text := "dbcli_".toList

/-! ### The store -/

/-- The credential a session was issued as. -/
inductive SessionKind where
  | dashboard
  | cli
  deriving DecidableEq

/-- How a session came about, which the row does not say: its raw token, the credential, and the
session it was rotated from. -/
structure Issue where
  kind : SessionKind
  raw : Text
  parent : Option SessionID
  deriving DecidableEq

/-- A row of `auth_sessions`, by its id. -/
structure Session where
  tokenHash : Text
  userID : UserID
  activeOrganizationID : Option OrganizationID
  csrfTokenHash : Text
  idleExpiresAt : Int
  absoluteExpiresAt : Int
  revokedAt : Option Int
  revocationReason : Option String
  createdAt : Int
  issue : Issue
  deriving DecidableEq

abbrev SessionTable := Table SessionID Session

/-- The errors of `ValidateSession`. -/
inductive SessionError where
  | notFound
  | revoked
  | expired
  | idleTimeout
  deriving DecidableEq

/-- What a new session is made from: its id, the two random tokens, the time and the two
timeouts. -/
structure Fresh where
  id : SessionID
  random : Random
  csrf : Random
  now : Int
  idleTimeout : Int
  absoluteTimeout : Int

section Store

variable [Digest]

/-- The row that `CreateSession` and `RotateSession` insert. -/
def newSession (fresh : Fresh) (userID : UserID) (org : Option OrganizationID) (kind : SessionKind)
    (parent : Option SessionID) : Session where
  tokenHash := Digest.hashToken (generateRandomToken fresh.random)
  userID := userID
  activeOrganizationID := org
  csrfTokenHash := Digest.hashToken (generateRandomToken fresh.csrf)
  idleExpiresAt := fresh.now + fresh.idleTimeout
  absoluteExpiresAt := fresh.now + fresh.absoluteTimeout
  revokedAt := none
  revocationReason := none
  createdAt := fresh.now
  issue := ⟨kind, generateRandomToken fresh.random, parent⟩

/-- `INSERT INTO auth_sessions`: ids and token hashes are unique. -/
def insertSession (db : SessionTable) (id : SessionID) (s : Session) : Option SessionTable :=
  if db.any (fun row => row.tokenHash == s.tokenHash) then none else db.insert? id s

/-- `CreateSession`, `session.go:167-212`, with the cookie value it returns. -/
def createSession (db : SessionTable) (fresh : Fresh) (userID : UserID)
    (org : Option OrganizationID) : Option (SessionTable × Text) :=
  (insertSession db fresh.id (newSession fresh userID org .dashboard none)).map
    fun db' => (db', generateRandomToken fresh.random)

/-- `CreateCLISession`, `session.go:217-223`, with the bearer token it returns. -/
def createCLISession (db : SessionTable) (fresh : Fresh) (userID : UserID)
    (org : Option OrganizationID) : Option (SessionTable × Text) :=
  (insertSession db fresh.id (newSession fresh userID org .cli none)).map
    fun db' => (db', cliPrefix ++ generateRandomToken fresh.random)

/-- `ValidateSession`, `session.go:233-286`, up to its write. -/
def validateSession (db : SessionTable) (raw : Text) (now idleTimeout : Int) :
    Except SessionError (SessionID × Session) :=
  if raw = [] then .error .notFound
  else
    match db.rows.find? fun row => row.2.tokenHash == Digest.hashToken raw with
    | none => .error .notFound
    | some (id, s) =>
      if s.revokedAt.isSome then .error .revoked
      else if s.absoluteExpiresAt < now then .error .expired
      else if s.idleExpiresAt < now then .error .idleTimeout
      else .ok (id, { s with idleExpiresAt := now + idleTimeout })

/-- `ValidateCLISession`, `session.go:225-230`. -/
def validateCLISession (db : SessionTable) (token : Text) (now idleTimeout : Int) :
    Except SessionError (SessionID × Session) :=
  if cliPrefix.isPrefixOf token then
    validateSession db (token.drop cliPrefix.length) now idleTimeout
  else .error .notFound

/-- The write of `ValidateSession`: the idle expiry of an accepted session moves on. -/
def touch (db : SessionTable) (now idleTimeout : Int) :
    Except SessionError (SessionID × Session) → SessionTable
  | .error _ => db
  | .ok (id, _) => db.modify id fun s => { s with idleExpiresAt := now + idleTimeout }

/-- `UPDATE … SET revoked_at, revocation_reason WHERE id AND revoked_at IS NULL`. -/
def Session.revoke (clock : Int) (reason : String) (s : Session) : Session :=
  if s.revokedAt.isSome then s
  else { s with revokedAt := some clock, revocationReason := some reason }

/-- `RotateSession`, `session.go:289-357`: the number of revoked rows is not
looked at. -/
def rotateSession (db : SessionTable) (old : SessionID) (userID : UserID)
    (org : Option OrganizationID) (clock : Int) (fresh : Fresh) : Option SessionTable :=
  insertSession (db.modify old (Session.revoke clock "ROTATED")) fresh.id
    (newSession fresh userID org .dashboard (some old))

/-- `RevokeSession`, `session.go:360-370`. -/
def revokeSession (db : SessionTable) (id : SessionID) (clock : Int) (reason : String) :
    SessionTable :=
  db.modify id (Session.revoke clock reason)

/-- `ValidateCSRFToken`, `session.go:373-379`. -/
def validateCSRFToken (s : Session) (raw : Text) : Bool :=
  raw ≠ [] && Digest.hashToken raw == s.csrfTokenHash

/-! ### `RequireAuth` of the API -/

/-- The parts of a request that `RequireAuth` reads; a missing header is empty. -/
structure AuthRequest where
  method : String
  authorization : Text
  cookie : Text
  origin : Text
  referer : Text
  csrfToken : Text

inductive Identity where
  | human (userID : UserID) (org : Option OrganizationID)
  | machine (keyID : Nat)
  deriving DecidableEq

def bearerPrefix : Text := "Bearer ".toList

def checkMutation (isOriginAllowed : Text → Bool) (req : AuthRequest) (s : Session) :
    Except String Unit :=
  let method := Text.toUpper req.method
  if method = "GET" ∨ method = "HEAD" ∨ method = "OPTIONS" then .ok ()
  else
    let origin := if req.origin = [] then req.referer else req.origin
    if origin = [] ∨ isOriginAllowed origin = false then .error "ORIGIN_FORBIDDEN"
    else if validateCSRFToken s req.csrfToken = false then .error "CSRF_VALIDATION_FAILED"
    else .ok ()

/-- `RequireAuth`, `http.go:189-299`, with the caller it puts into the context. The
API keys are a parameter. -/
def requireAuth (isOriginAllowed : Text → Bool) (authenticateAPIKey : Text → Except String Nat)
    (db : SessionTable) (req : AuthRequest) (now idleTimeout : Int) : Except String Identity :=
  if bearerPrefix.isPrefixOf req.authorization then
    let rawKey := req.authorization.drop bearerPrefix.length
    if cliPrefix.isPrefixOf rawKey then
      match validateCLISession db rawKey now idleTimeout with
      | .error _ => .error "UNAUTHENTICATED"
      | .ok (_, s) => .ok (.human s.userID s.activeOrganizationID)
    else (authenticateAPIKey rawKey).map Identity.machine
  else
    match validateSession db req.cookie now idleTimeout with
    | .error _ => .error "UNAUTHENTICATED"
    | .ok (_, s) => do
      checkMutation isOriginAllowed req s
      return .human s.userID s.activeOrganizationID

end Store

/-! ### The service -/

/-- A request behind the session middleware: the session in its context, and how many revocations
had been committed when it was validated. -/
structure Context where
  session : SessionID
  userID : UserID
  mark : Nat
  done : Bool
  deriving DecidableEq

/-- A rotation: the two sessions, and whether the old one was revoked before it. -/
structure Succession where
  old : SessionID
  new : SessionID
  oldRevoked : Bool
  deriving DecidableEq

/-- The table, the requests in progress, and what has been committed so far: the sessions that were
revoked, in order, the logouts and the rotations. -/
structure AuthWorld where
  sessions : SessionTable
  contexts : List Context
  revocations : List SessionID
  logouts : List SessionID
  successions : List Succession

/-- What can happen next, with what the surroundings choose. -/
inductive AuthStep where
  /-- A dashboard login. -/
  | login (fresh : Fresh) (userID : UserID) (org : Option OrganizationID)
  /-- A login of the CLI. -/
  | cliLogin (fresh : Fresh) (userID : UserID) (org : Option OrganizationID)
  /-- The session middleware of a dashboard request. -/
  | authenticate (cookie : Text) (now idleTimeout : Int)
  /-- A bearer request of the CLI. -/
  | bearer (token : Text) (now idleTimeout : Int)
  /-- `HandleSwitchOrg` of a request in progress, after its membership check. -/
  | switchOrg (i : Nat) (member : Bool) (org : OrganizationID) (clock : Int) (fresh : Fresh)
  /-- `HandleLogout` of a request in progress. -/
  | logout (i : Nat) (clock : Int)
  /-- Disaster recovery revokes the sessions created up to the incident. -/
  | recover (incidentAt clock : Int)

namespace AuthWorld

def empty : AuthWorld := ⟨.empty, [], [], [], []⟩

def isRevoked (w : AuthWorld) (id : SessionID) : Bool :=
  (w.sessions.find? id).all fun s => s.revokedAt.isSome

def finish (w : AuthWorld) (i : Nat) : List Context :=
  w.contexts.modify i fun c => { c with done := true }

variable [Digest]

/-- `RequireAuth` of `bff.go:529-570`. -/
def authenticate (w : AuthWorld) (cookie : Text) (now idleTimeout : Int) : AuthWorld :=
  let answer := validateSession w.sessions cookie now idleTimeout
  { w with
    sessions := touch w.sessions now idleTimeout answer
    contexts :=
      match answer with
      | .error _ => w.contexts
      | .ok (id, s) => w.contexts ++ [⟨id, s.userID, w.revocations.length, false⟩] }

/-- `HandleSwitchOrg`, `bff.go:453-526`, with the session of its context. -/
def switchOrg (w : AuthWorld) (i : Nat) (member : Bool) (org : OrganizationID) (clock : Int)
    (fresh : Fresh) : AuthWorld :=
  match w.contexts[i]? with
  | none => w
  | some c =>
    if c.done then w
    else if member then
      match rotateSession w.sessions c.session c.userID (some org) clock fresh with
      | none => { w with contexts := w.finish i }
      | some db =>
        { w with
          sessions := db
          contexts := w.finish i
          revocations :=
            if w.isRevoked c.session then w.revocations else w.revocations ++ [c.session]
          successions := w.successions ++ [⟨c.session, fresh.id, w.isRevoked c.session⟩] }
    else { w with contexts := w.finish i }

/-- `HandleLogout`, `bff.go:384-409`. -/
def logout (w : AuthWorld) (i : Nat) (clock : Int) : AuthWorld :=
  match w.contexts[i]? with
  | none => w
  | some c =>
    if c.done then w
    else
      { w with
        sessions := revokeSession w.sessions c.session clock "LOGOUT"
        contexts := w.finish i
        revocations :=
          if w.isRevoked c.session then w.revocations else w.revocations ++ [c.session]
        logouts := w.logouts ++ [c.session] }

/-- The revocation of a disaster recovery, `internal/recovery/recovery.go:212-219`. -/
def recover (w : AuthWorld) (incidentAt clock : Int) : AuthWorld :=
  let hit (s : Session) : Bool := s.revokedAt.isNone && decide (s.createdAt ≤ incidentAt)
  { w with
    sessions := w.sessions.mapRows fun _ s =>
      if hit s then s.revoke clock "DISASTER_RECOVERY_REVOCATION" else s
    revocations := w.revocations ++ (w.sessions.rows.filter fun row => hit row.2).map Prod.fst }

def step (w : AuthWorld) : AuthStep → AuthWorld
  | .login fresh userID org =>
    match createSession w.sessions fresh userID org with
    | none => w
    | some (db, _) => { w with sessions := db }
  | .cliLogin fresh userID org =>
    match createCLISession w.sessions fresh userID org with
    | none => w
    | some (db, _) => { w with sessions := db }
  | .authenticate cookie now idleTimeout => w.authenticate cookie now idleTimeout
  | .bearer token now idleTimeout =>
    { w with
      sessions := touch w.sessions now idleTimeout
        (validateCLISession w.sessions token now idleTimeout) }
  | .switchOrg i member org clock fresh => w.switchOrg i member org clock fresh
  | .logout i clock => w.logout i clock
  | .recover incidentAt clock => w.recover incidentAt clock

end AuthWorld

def authService [Digest] : System AuthWorld AuthStep := ⟨AuthWorld.step⟩

/-! ### What a validation says -/

section

variable [Digest] {db : SessionTable}

theorem of_validateSession {raw : Text} {now idleTimeout : Int} {id : SessionID} {s' : Session}
    (h : validateSession db raw now idleTimeout = .ok (id, s')) :
    ∃ s, db.find? id = some s ∧ s.tokenHash = Digest.hashToken raw ∧ s.revokedAt = none ∧
      now ≤ s.absoluteExpiresAt ∧ now ≤ s.idleExpiresAt ∧
      s' = { s with idleExpiresAt := now + idleTimeout } := by
  unfold validateSession at h
  split at h
  · cases h
  · split at h
    · cases h
    · next id' s hfind =>
      split at h
      · cases h
      · split at h
        · cases h
        · split at h
          · cases h
          · next hrevoked habsolute hidle =>
            obtain ⟨rfl, rfl⟩ := Prod.mk.inj (Except.ok.inj h)
            refine ⟨s, (db.find?_eq_some_iff _ _).mpr (List.mem_of_find?_eq_some hfind), ?_, ?_, ?_,
              ?_, rfl⟩
            · simpa using List.find?_some hfind
            · simpa using hrevoked
            · exact not_lt.mp habsolute
            · exact not_lt.mp hidle

theorem of_validateCLISession {token : Text} {now idleTimeout : Int} {id : SessionID}
    {s' : Session} (h : validateCLISession db token now idleTimeout = .ok (id, s')) :
    ∃ raw, token = cliPrefix ++ raw ∧ validateSession db raw now idleTimeout = .ok (id, s') := by
  unfold validateCLISession at h
  split at h
  · next hprefix =>
    obtain ⟨raw, rfl⟩ := List.isPrefixOf_iff_prefix.mp hprefix
    exact ⟨raw, rfl, by simpa using h⟩
  · cases h

end

/-! ### Rows keep their token -/

/-- The hash of a row is the hash of the token the session was issued with. -/
def Session.Issued [Digest] (s : Session) : Prop := s.tokenHash = Digest.hashToken s.issue.raw

section

variable [Digest]

variable {db : SessionTable}

theorem all_issued_insertSession {db' : SessionTable} {id : SessionID} {s : Session}
    (h : db.All fun _ s => s.Issued) (hs : s.Issued) (hi : insertSession db id s = some db') :
    db'.All fun _ s => s.Issued := by
  unfold insertSession at hi
  split at hi
  · cases hi
  · exact h.insert? hi hs

theorem issued_newSession (fresh : Fresh) (userID : UserID) (org : Option OrganizationID)
    (kind : SessionKind) (parent : Option SessionID) :
    (newSession fresh userID org kind parent).Issued := rfl

theorem issued_revoke {s : Session} (h : s.Issued) (clock : Int) (reason : String) :
    (s.revoke clock reason).Issued := by
  unfold Session.revoke
  split <;> exact h

theorem all_issued_modify (h : db.All fun _ s => s.Issued) (id : SessionID) {f : Session → Session}
    (hf : ∀ s : Session, s.Issued → (f s).Issued) : (db.modify id f).All fun _ s => s.Issued := by
  refine h.mapRows _ fun k s hs => ?_
  split
  · exact hf s hs
  · exact hs

theorem all_issued_touch (h : db.All fun _ s => s.Issued) (now idleTimeout : Int)
    (answer : Except SessionError (SessionID × Session)) :
    (touch db now idleTimeout answer).All fun _ s => s.Issued := by
  cases answer with
  | error e => exact h
  | ok row => exact all_issued_modify h row.1 fun _ hs => hs

theorem all_issued_step {w : AuthWorld} (h : w.sessions.All fun _ s => s.Issued) (e : AuthStep) :
    (w.step e).sessions.All fun _ s => s.Issued := by
  cases e with
  | login fresh userID org =>
    simp only [AuthWorld.step, createSession]
    cases hi : insertSession w.sessions fresh.id _ with
    | none => exact h
    | some db => exact all_issued_insertSession h (issued_newSession ..) hi
  | cliLogin fresh userID org =>
    simp only [AuthWorld.step, createCLISession]
    cases hi : insertSession w.sessions fresh.id _ with
    | none => exact h
    | some db => exact all_issued_insertSession h (issued_newSession ..) hi
  | authenticate cookie now idleTimeout => exact all_issued_touch h _ _ _
  | bearer token now idleTimeout => exact all_issued_touch h _ _ _
  | switchOrg i member org clock fresh =>
    simp only [AuthWorld.step, AuthWorld.switchOrg]
    split
    · exact h
    · next c hc =>
      split
      · exact h
      · split
        · split
          · exact h
          · next db hrotate =>
            exact all_issued_insertSession
              (all_issued_modify h c.session fun _ hs => issued_revoke hs _ _)
              (issued_newSession ..) hrotate
        · exact h
  | logout i clock =>
    simp only [AuthWorld.step, AuthWorld.logout]
    split
    · exact h
    · split
      · exact h
      · exact all_issued_modify h _ fun _ hs => issued_revoke hs _ _
  | recover incidentAt clock =>
    simp only [AuthWorld.step, AuthWorld.recover]
    refine h.mapRows _ fun k s hs => ?_
    split
    · exact issued_revoke hs _ _
    · exact hs

end

/-! ### The two credentials -/

/-- With a hash without collisions: a bearer token other than the prefix and the cookie value opens
no session of a dashboard login or switch, and a cookie value other than the bearer token without
its prefix opens no session of a CLI login. -/
theorem credentials_apart [Digest] (hhash : Function.Injective (Digest.hashToken))
    (es : List AuthStep) (id : SessionID) (s : Session)
    (hs : (authService.exec .empty es).sessions.find? id = some s) (now idleTimeout : Int)
    (s' : Session) :
    (s.issue.kind = .dashboard → ∀ token, token ≠ cliPrefix ++ s.issue.raw →
      validateCLISession (authService.exec .empty es).sessions token now idleTimeout ≠
        .ok (id, s')) ∧
      (s.issue.kind = .cli → ∀ cookie, cookie ≠ s.issue.raw →
        validateSession (authService.exec .empty es).sessions cookie now idleTimeout ≠
          .ok (id, s')) := by
  have hissued : (authService.exec .empty es).sessions.All fun _ s => s.Issued :=
    System.invariant_of_step (I := fun w : AuthWorld => w.sessions.All fun _ s => s.Issued)
      authService (fun _ e h => all_issued_step h e) (by simp [AuthWorld.empty, Table.All, Table.empty])
      es
  have hraw : ∀ raw, validateSession (authService.exec .empty es).sessions raw now idleTimeout =
      .ok (id, s') → raw = s.issue.raw := by
    intro raw hok
    obtain ⟨row, hrow, hhashed, -⟩ := of_validateSession hok
    obtain rfl := Option.mem_unique hs hrow
    exact hhash (hhashed.symm.trans ((Table.all_iff_find? _ _).mp hissued id s hs))
  refine ⟨fun _ token htoken hok => ?_, fun _ cookie hcookie hok => hcookie (hraw cookie hok)⟩
  obtain ⟨raw, rfl, hvalid⟩ := of_validateCLISession hok
  exact htoken (by rw [hraw raw hvalid])

namespace Sample

@[reducible] def digest : Digest := ⟨fun s => s⟩

def fresh (n : Nat) : Fresh :=
  ⟨n, Vector.replicate 32 (UInt8.ofNat n), Vector.replicate 32 (UInt8.ofNat (n + 128)), 0, 100, 1000⟩

def cookie (n : Nat) : Text := generateRandomToken (fresh n).random

def serve (es : List AuthStep) : AuthWorld := (@authService digest).exec .empty es

def row : Session := @newSession digest (fresh 1) 7 none .dashboard none

end Sample

/-- A dashboard login and a CLI login: the token of the CLI does not open the dashboard session. -/
theorem credentials_apart_logins :
    (Sample.serve [.login (Sample.fresh 1) 7 none, .cliLogin (Sample.fresh 2) 7 none]).sessions.find? 1
        = some Sample.row ∧
      @validateCLISession Sample.digest
        (Sample.serve [.login (Sample.fresh 1) 7 none, .cliLogin (Sample.fresh 2) 7 none]).sessions
        (cliPrefix ++ Sample.cookie 2) 5 100 ≠ .ok (1, Sample.row) := by
  have hrow : (Sample.serve [.login (Sample.fresh 1) 7 none,
      .cliLogin (Sample.fresh 2) 7 none]).sessions.find? 1 = some Sample.row := by decide +kernel
  refine ⟨hrow, ?_⟩
  exact (@credentials_apart Sample.digest (fun _ _ h => h) _ 1 Sample.row hrow 5 100 Sample.row).1
    rfl _ (by decide +kernel)

/-- The cookie value of a dashboard session with the prefix of the CLI is accepted as a bearer token
of that session, and a `POST` with it passes without an origin and a CSRF token, which the cookie
itself does not; and the token of a CLI session without its prefix is accepted as a cookie. -/
theorem cookie_opens_bearer_path :
    @validateCLISession Sample.digest (Sample.serve [.login (Sample.fresh 1) 7 none]).sessions
        (cliPrefix ++ Sample.cookie 1) 5 100 = .ok (1, { Sample.row with idleExpiresAt := 105 }) ∧
      Sample.row.issue.kind = .dashboard ∧
      @requireAuth Sample.digest (fun _ => false) (fun _ => .error "UNAUTHENTICATED")
        (Sample.serve [.login (Sample.fresh 1) 7 none]).sessions
        ⟨"POST", bearerPrefix ++ cliPrefix ++ Sample.cookie 1, [], [], [], []⟩ 5 100 =
          .ok (.human 7 none) ∧
      @requireAuth Sample.digest (fun _ => false) (fun _ => .error "UNAUTHENTICATED")
        (Sample.serve [.login (Sample.fresh 1) 7 none]).sessions
        ⟨"POST", [], Sample.cookie 1, [], [], []⟩ 5 100 = .error "ORIGIN_FORBIDDEN" ∧
      (@createCLISession Sample.digest .empty (Sample.fresh 2) 7 none).map Prod.snd =
        some (cliPrefix ++ Sample.cookie 2) ∧
      (@validateSession Sample.digest (Sample.serve [.cliLogin (Sample.fresh 2) 7 none]).sessions
        (Sample.cookie 2) 5 100).map (fun a => a.2.issue.kind) = .ok .cli := by
  decide +kernel

end Deadbolt.Auth
