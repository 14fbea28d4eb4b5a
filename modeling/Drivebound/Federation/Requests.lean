import Drivebound.Account.Access
import Drivebound.Core.History
import Drivebound.Core.Rows
import Mathlib

/-! Google as a way to sign in and to reauthenticate: `google_reauthentication_start`, `google_callback` and the
transactions of `consume_google_mfa_transaction` in `api/v1/auth.py`, as sessions of one database under READ
COMMITTED. What Google says of the code of a callback is on the label of the step. -/
namespace Drivebound.Federation
open Sessions

/-- What the second factor completes. -/
inductive Mode where
  | login | reauthenticate
  deriving DecidableEq, Repr

inductive Purpose where
  | googleReauth
  /-- `google_mfa_login` and `google_mfa_reauth`. -/
  | googleMfa (mode : Mode)
  deriving DecidableEq, Repr

structure User where
  id : UUID
  email : String
  emailVerified : Bool
  disabled : Bool
  /-- What a code is checked against, where `totp_enabled_at` is set. -/
  factor : Option String
  deriving DecidableEq, Repr

structure ExternalIdentity where
  userId : UUID
  subject : String
  deriving DecidableEq, Repr

structure AuthSession where
  id : UUID
  userId : UUID
  expiresAt : Timestamp
  revokedAt : Option Timestamp
  reauthenticatedAt : Option Timestamp
  deriving DecidableEq, Repr

structure AccountToken where
  id : UUID
  userId : UUID
  sessionId : Option UUID
  purpose : Purpose
  tokenHash : String
  expiresAt : Timestamp
  usedAt : Option Timestamp
  deriving DecidableEq, Repr

structure Database where
  users : List User
  identities : List ExternalIdentity
  sessions : List AuthSession
  tokens : List AccountToken
  /-- The identifier that is drawn next; none is drawn twice. -/
  nextId : UUID
  deriving DecidableEq, Repr

structure Functions where
  tokenDigest : String → String
  /-- `opaque_token`, for the row with the identifier. -/
  opaqueToken : UUID → String
  /-- `verify_second_factor`, with what the next code is checked against. -/
  verifySecondFactor : String → String → Timestamp → Option String
  /-- `reject_suppressed_account` raises. -/
  suppressed : UUID → Bool

structure Settings where
  googleAuthEnabled : Bool
  refreshSessionDays : Nat

/-- A verified id token, with `int(claims["auth_time"])` where there is one. -/
structure Claims where
  nonce : Option String
  emailVerified : Bool
  authTime : Option Int
  subject : String
  /-- Stripped and in lower case. -/
  email : String
  deriving DecidableEq, Repr

/-- What the browser brings to the callback. -/
structure Presented where
  code : Option String
  state : Option String
  error : Bool
  stateCookie : Option String
  nonceCookie : Option String
  deriving DecidableEq, Repr

/-- A callback that Google has vouched for. -/
structure Vouch where
  state : String
  nonce : Option String
  claims : Claims
  asked : Timestamp
  deriving DecidableEq, Repr

/-- When a session and the request it had made were found to be in force. -/
structure Examined where
  session : Timestamp
  request : Timestamp
  deriving DecidableEq, Repr

/-- Whom a sign-in is for. -/
inductive Target where
  | known (user : User)
  | adopted (user : User)
  | new
  deriving DecidableEq, Repr

inductive LockKey where
  | user (id : UUID)
  | session (id : UUID)
  | token (tokenHash : String)
  deriving DecidableEq, Repr

/-- A transaction that waits for the second factor, as its cookie presents it. -/
structure Presenting where
  mode : Mode
  tokenHash : String
  code : String
  asked : Timestamp
  deriving DecidableEq, Repr

inductive Answer where
  | redirected (target : String)
  /-- The cookie of a transaction is set. -/
  | secondFactor (token : String)
  | done
  | refused (reason : String)
  deriving DecidableEq, Repr

inductive Phase where
  | idle
  | answered (answer : Answer)
  | authenticating (userId sessionId : UUID)
  | authenticated (userId sessionId : UUID)
  | starting (userId sessionId : UUID)
  | exchanging (state : String) (nonce : Option String)
  | vouched (vouch : Vouch)
  | claimed (vouch : Vouch) (token : AccountToken)
  | claimedUser (vouch : Vouch) (token : AccountToken)
  | claimedSession (vouch : Vouch) (token : AccountToken) (user : Option User)
  | claimedToken (vouch : Vouch) (token : AccountToken) (user : Option User) (current : Option AuthSession)
      (examined : Timestamp)
  | reclaimed (vouch : Vouch) (token : AccountToken) (user : User) (current : AuthSession) (examined : Examined)
  | seeking (vouch : Vouch)
  | known (vouch : Vouch) (userId : UUID)
  | knownUser (vouch : Vouch) (userId : UUID)
  | searching (vouch : Vouch)
  | found (vouch : Vouch) (userId : UUID)
  | foundUser (vouch : Vouch) (userId : UUID)
  | entering (vouch : Vouch) (target : Target)
  | presenting (presenting : Presenting)
  | bound (presenting : Presenting) (userId : UUID) (sessionId : Option UUID)
  | boundUser (presenting : Presenting) (userId : UUID) (sessionId : Option UUID)
  | boundSession (presenting : Presenting) (userId : UUID) (sessionId : Option UUID) (user : Option User)
  | boundToken (presenting : Presenting) (userId : UUID) (sessionId : Option UUID) (user : Option User)
      (session : Option AuthSession)
  | proving (presenting : Presenting) (token : AccountToken) (user : User) (secret : String)
      (session : Option AuthSession)
  /-- The code was right, and the next one is checked against `secret`. -/
  | proved (presenting : Presenting) (token : AccountToken) (user : User) (secret : String)
      (session : Option AuthSession) (checked : Timestamp)
  | spending (token : AccountToken) (reason : String)
  /-- Another transaction has locked a row. -/
  | holding (key : LockKey)
  deriving DecidableEq, Repr

/-- What other transactions do to a row that they have locked. -/
inductive Alteration where
  | user (change : User → User)
  /-- The rows that refer to the user go with it. -/
  | delete
  /-- A sign-in by other means. -/
  | signIn (expiresAt : Timestamp)
  | session (change : AuthSession → AuthSession)
  | spend (now : Timestamp)
  | register (user : User)

inductive Action where
  /-- `google_reauthentication_start` behind `current_auth`. -/
  | start (userId sessionId : UUID) (now : Timestamp)
  | callback (presented : Presented)
  /-- The exchange of the code, and the verification of the id token. -/
  | google (answer : Option Claims) (now : Timestamp)
  | complete (mode : Mode) (raw code : String) (now : Timestamp)
  | proceed (now : Timestamp)
  | commit (now : Timestamp)
  /-- Any exception that nothing catches, and a crash. -/
  | fail
  | hold (key : LockKey)
  | alter (change : Alteration)

abbrev Step := Outcome Database Phase LockKey

/-! ### Rows -/

namespace Database
variable (db : Database)

def user? (id : UUID) : Option User := db.users.find? (·.id = id)

def session? (id : UUID) : Option AuthSession := db.sessions.find? (·.id = id)

/-- The condition under which a session is current. -/
def activeSession? (userId : UUID) (now : Timestamp) (id : UUID) : Option AuthSession :=
  (db.session? id).filter fun row => row.userId = userId && row.revokedAt.isNone && now < row.expiresAt

def token? (tokenHash : String) (purpose : Purpose) : Option AccountToken :=
  db.tokens.find? fun row => row.tokenHash = tokenHash && row.purpose = purpose

/-- The row of a token is still there. -/
def finds (token : AccountToken) : Bool :=
  db.tokens.any fun row => row.id = token.id && row.tokenHash = token.tokenHash && row.purpose = token.purpose

def setUser (id : UUID) (change : User → User) : Database :=
  { db with users := Rows.updateKey (·.id) id (fun row => { change row with id := row.id }) db.users }

def setSession (id : UUID) (change : AuthSession → AuthSession) : Database :=
  let changed (row : AuthSession) : AuthSession := { change row with id := row.id, userId := row.userId }
  { db with sessions := Rows.updateKey (·.id) id changed db.sessions }

def useTokens (chosen : AccountToken → Bool) (now : Timestamp) : Database :=
  { db with tokens := db.tokens.map fun row => if chosen row then { row with usedAt := some now } else row }

def addUser (user : User) : Database :=
  { db with users := db.users ++ [{ user with id := db.nextId }], nextId := db.nextId + 1 }

def addSession (userId : UUID) (expiresAt : Timestamp) (reauthenticatedAt : Option Timestamp) : Database :=
  { db with
    sessions := db.sessions ++ [⟨db.nextId, userId, expiresAt, none, reauthenticatedAt⟩]
    nextId := db.nextId + 1 }

def addToken (userId : UUID) (sessionId : Option UUID) (purpose : Purpose) (tokenHash : String)
    (expiresAt : Timestamp) : Database :=
  { db with
    tokens := db.tokens ++ [⟨db.nextId, userId, sessionId, purpose, tokenHash, expiresAt, none⟩]
    nextId := db.nextId + 1 }

def addIdentity (userId : UUID) (subject : String) : Database :=
  { db with identities := db.identities ++ [⟨userId, subject⟩] }

def deleteUser (id : UUID) : Database :=
  { db with
    users := db.users.filter (·.id ≠ id)
    identities := db.identities.filter (·.userId ≠ id)
    sessions := db.sessions.filter (·.userId ≠ id)
    tokens := db.tokens.filter (·.userId ≠ id) }

def alter (key : LockKey) (change : Alteration) : Database :=
  match key, change with
  | .user id, .user change => db.setUser id change
  | .user id, .delete => db.deleteUser id
  | .user id, .signIn expiresAt => if (db.user? id).isSome then db.addSession id expiresAt none else db
  | .session id, .session change => db.setSession id change
  | .token tokenHash, .spend now => db.useTokens (·.tokenHash = tokenHash) now
  | _, .register user => db.addUser user
  | _, _ => db

end Database

/-! ### Commits -/

/-- What a session or a sign-in was granted for. The transaction of a code, and the session it is bound to, are examined
when the request comes in; the code is checked later. -/
inductive Grounds where
  | google (vouch : Vouch) (examined : Option Examined)
  | factor (token : UUID) (code : String) (examined checked : Timestamp)
  deriving DecidableEq, Repr

/-- What a commit is noted as, with the rows that it finds. -/
inductive Event where
  | started (userId sessionId : UUID) (state : String) (at_ : Timestamp)
  | linked (user : Option User) (vouch : Vouch)
  | deferred (token : UUID) (mode : Mode) (userId : UUID) (sessionId : Option UUID) (vouch : Vouch)
      (examined : Option Examined) (at_ : Timestamp)
  | reauthenticated (user : Option User) (session : Option AuthSession) (grounds : Grounds)
  | signedIn (user : Option User) (session : UUID) (grounds : Grounds)
  | spent (token : UUID)
  deriving DecidableEq, Repr

structure Settled where
  db : Database
  answer : Answer
  events : List Event

section Model
variable (functions : Functions) (settings : Settings) (db : Database)

/-- `create_account_token`: a newer transaction supersedes the older ones of its purpose. -/
def createAccountToken (userId : UUID) (sessionId : Option UUID) (purpose : Purpose) (now : Timestamp) : Database :=
  { db with
    tokens := Account.createAccountToken
      (fun row => row.userId = userId && row.purpose = purpose && row.usedAt.isNone)
      (fun row => { row with usedAt := some now })
      ⟨db.nextId, userId, sessionId, purpose, functions.tokenDigest (functions.opaqueToken db.nextId), now + 300,
        none⟩ db.tokens
    nextId := db.nextId + 1 }

/-- The transaction that waits for the second factor. -/
def awaitFactor (userId : UUID) (sessionId : Option UUID) (mode : Mode) (vouch : Vouch) (examined : Option Examined)
    (now : Timestamp) (before : List Event) : Settled where
  db := createAccountToken functions db userId sessionId (.googleMfa mode) now
  answer := .secondFactor (functions.opaqueToken db.nextId)
  events := before ++ [.deferred db.nextId mode userId sessionId vouch examined now]

/-- `issue_session`, for the user whose row was found. -/
def issueSession (userId : UUID) (row : Option User) (grounds : Grounds) (reauthenticatedAt : Option Timestamp)
    (now : Timestamp) (before : List Event) : Except String Settled :=
  if functions.suppressed userId then .error "Account is unavailable"
  else .ok {
    db := db.addSession userId (now + settings.refreshSessionDays * 86400) reauthenticatedAt
    answer := .done
    events := before ++ [.signedIn row db.nextId grounds] }

def settleStart (userId sessionId : UUID) (now : Timestamp) : Except String Settled :=
  if (db.user? userId).isSome && (db.session? sessionId).isSome then
    let state := "reauth." ++ functions.opaqueToken db.nextId
    .ok {
      db := db.addToken userId (some sessionId) .googleReauth (functions.tokenDigest state) (now + 600)
      answer := .redirected state
      events := [.started userId sessionId state now] }
  else .error "database"

/-- The end of a reauthentication. -/
def settleReclaimed (vouch : Vouch) (token : AccountToken) (user : User) (current : AuthSession) (examined : Examined)
    (now : Timestamp) : Settled :=
  let used := db.useTokens (·.id = token.id) now
  match user.factor with
  | some _ => awaitFactor functions used user.id (some current.id) .reauthenticate vouch (some examined) now []
  | none => {
      db := used.setSession current.id fun row => { row with reauthenticatedAt := some now }
      answer := .redirected "reauthenticated=google"
      events := [.reauthenticated (db.user? user.id) (db.session? current.id) (.google vouch (some examined))] }

/-- The user of a sign-in, with the link to its Google account. -/
def link (vouch : Vouch) : Target → Except String (Database × User × List Event)
  | .known user => .ok (db, user, [])
  | .adopted user =>
    if db.identities.any (·.subject = vouch.claims.subject) then .error "database"
    else
      let verified := db.setUser user.id fun row => { row with emailVerified := true }
      .ok (verified.addIdentity user.id vouch.claims.subject, user, [.linked (db.user? user.id) vouch])
  | .new =>
    let user : User := ⟨db.nextId, vouch.claims.email, true, false, none⟩
    if db.identities.any (·.subject = vouch.claims.subject) || db.users.any (·.email = vouch.claims.email) then
      .error "database"
    else .ok ((db.addUser user).addIdentity user.id vouch.claims.subject, user, [.linked (some user) vouch])

/-- The end of a sign-in. -/
def settleEntering (vouch : Vouch) (target : Target) (now : Timestamp) : Except String Settled := do
  let (linked, user, events) ← link db vouch target
  match user.factor with
  | some _ => return awaitFactor functions linked user.id none .login vouch none now events
  | none => issueSession functions settings linked user.id (linked.user? user.id) (.google vouch none) none now events

/-- The end of a transaction whose code was right. -/
def settleProved (presenting : Presenting) (token : AccountToken) (user : User) (secret : String)
    (session : Option AuthSession) (checked now : Timestamp) : Except String Settled :=
  let used := (db.useTokens (·.id = token.id) now).setUser user.id fun row => { row with factor := some secret }
  let grounds : Grounds := .factor token.id presenting.code presenting.asked checked
  match presenting.mode, session with
  | .login, _ => issueSession functions settings used user.id (db.user? user.id) grounds (some now) now []
  | .reauthenticate, some session => .ok {
      db := used.setSession session.id fun row => { row with reauthenticatedAt := some now }
      answer := .done
      events := [.reauthenticated (db.user? user.id) (db.session? session.id) grounds] }
  | .reauthenticate, none => .ok ⟨used, .refused "google_mfa_transaction_invalid", [.spent token.id]⟩

def settle (now : Timestamp) : Phase → Option (Except String Settled)
  | .starting userId sessionId => some (settleStart functions db userId sessionId now)
  | .reclaimed vouch token user current examined =>
    some (.ok (settleReclaimed functions db vouch token user current examined now))
  | .entering vouch target => some (settleEntering functions settings db vouch target now)
  | .proved presenting token user secret session checked =>
    some (settleProved functions settings db presenting token user secret session checked now)
  | .spending token reason => some (.ok ⟨db.useTokens (·.id = token.id) now, .refused reason, [.spent token.id]⟩)
  | _ => none

/-! ### Requests -/

def refuse (reason : String) : Step := .finish db (.answered (.refused reason))

/-- `state.startswith("reauth.")` -/
def isReauthentication (state : String) : Bool := "reauth.".toList.isPrefixOf state.toList

/-- `require_fresh_google_authentication` -/
def requireFreshGoogleAuthentication (claims : Claims) (now : Timestamp) : Bool :=
  claims.authTime.any fun authenticatedAt => (now : Int) - 300 ≤ authenticatedAt && authenticatedAt ≤ (now : Int) + 60

/-- The callback up to the exchange of its code. -/
def enterCallback (presented : Presented) : Step :=
  if presented.error then refuse db "cancelled"
  else
    match presented.code.filter (· ≠ ""), presented.state.filter (· ≠ "") with
    | some _, some state =>
      if settings.googleAuthEnabled && state = presented.stateCookie.getD "" then
        .stay db (.exchanging state presented.nonceCookie)
      else refuse db "failed"
    | _, _ => refuse db "failed"

def receiveClaims (state : String) (nonce : Option String) (now : Timestamp) : Option Claims → Step
  | none => refuse db "failed"
  | some claims =>
    if claims.nonce ≠ nonce || !claims.emailVerified then refuse db "failed"
    else if isReauthentication state && !requireFreshGoogleAuthentication claims now then refuse db "failed"
    else .stay db (.vouched ⟨state, nonce, claims, now⟩)

/-- The token's own attributes are as the first, unlocked SELECT has loaded them. -/
def checkClaim (vouch : Vouch) (token : AccountToken) (user : Option User) (current : Option AuthSession)
    (examined now : Timestamp) : Step :=
  if !db.finds token then refuse db "google_reauth_expired"
  else if token.usedAt.isSome || token.expiresAt ≤ now then refuse db "google_reauth_expired"
  else if !(db.identities.any fun row => row.subject = vouch.claims.subject && row.userId = token.userId) then
    refuse db "google_reauth_failed"
  else
    match current, user with
    | none, _ => refuse db "google_reauth_expired"
    | some _, none => refuse db "google_reauth_failed"
    | some current, some user =>
      if user.disabled then refuse db "google_reauth_failed"
      else .stay db (.reclaimed vouch token user current ⟨examined, now⟩)

/-- `consume_google_mfa_transaction` behind its locks. -/
def consume (presenting : Presenting) (sessionId : Option UUID) (user : Option User) (session : Option AuthSession) :
    Step :=
  match db.token? presenting.tokenHash (.googleMfa presenting.mode) with
  | none => refuse db "google_mfa_transaction_invalid"
  | some token =>
    let spend : Step := .stay db (.spending token "google_mfa_transaction_invalid")
    if token.usedAt.isSome then refuse db "google_mfa_transaction_invalid"
    else if token.expiresAt ≤ presenting.asked then spend
    else
      match user with
      | none => spend
      | some user =>
        match user.factor with
        | none => spend
        | some secret =>
          if user.disabled || (sessionId.isSome && session.isNone) then spend
          else .stay db (.proving presenting token user secret session)

def proceed (now : Timestamp) : Phase → Option Step
  | .authenticating userId sessionId =>
    if (db.user? userId).any (!·.disabled) then some (.stay db (.authenticated userId sessionId))
    else some (refuse db "Account is unavailable")
  | .authenticated userId sessionId =>
    if !settings.googleAuthEnabled then some (refuse db "Google sign-in is not configured")
    else if db.identities.any (·.userId = userId) then some (.stay db (.starting userId sessionId))
    else some (refuse db "google_not_linked")
  | .vouched vouch =>
    match db.token? (functions.tokenDigest vouch.state) .googleReauth with
    | some token => some (.stay db (.claimed vouch token))
    | none =>
      if isReauthentication vouch.state then some (refuse db "google_reauth_expired")
      else some (.stay db (.seeking vouch))
  | .claimed vouch token => some (.lock (.user token.userId) (.claimedUser vouch token))
  | .claimedUser vouch token =>
    match token.sessionId with
    | some id => some (.lock (.session id) (.claimedSession vouch token (db.user? token.userId)))
    | none => some (.stay db (.claimedSession vouch token (db.user? token.userId)))
  | .claimedSession vouch token user =>
    some (.lock (.token token.tokenHash)
      (.claimedToken vouch token user (token.sessionId.bind (db.activeSession? token.userId now)) now))
  | .claimedToken vouch token user current examined => some (checkClaim db vouch token user current examined now)
  | .seeking vouch =>
    match db.identities.find? (·.subject = vouch.claims.subject) with
    | some identity => some (.stay db (.known vouch identity.userId))
    | none => some (.stay db (.searching vouch))
  | .known vouch userId => some (.lock (.user userId) (.knownUser vouch userId))
  | .knownUser vouch userId =>
    match db.user? userId with
    | none => some (.stay db (.searching vouch))
    | some user =>
      if user.disabled then some (refuse db "unavailable") else some (.stay db (.entering vouch (.known user)))
  | .searching vouch =>
    match db.users.find? (·.email = vouch.claims.email) with
    | some user => some (.stay db (.found vouch user.id))
    | none => some (.stay db (.entering vouch .new))
  | .found vouch userId => some (.lock (.user userId) (.foundUser vouch userId))
  | .foundUser vouch userId =>
    match (db.user? userId).filter (·.email = vouch.claims.email) with
    | none => some (.stay db (.entering vouch .new))
    | some user =>
      if user.disabled then some (refuse db "unavailable") else some (.stay db (.entering vouch (.adopted user)))
  | .presenting presenting =>
    match db.token? presenting.tokenHash (.googleMfa presenting.mode) with
    | none => some (refuse db "google_mfa_transaction_invalid")
    | some token => some (.stay db (.bound presenting token.userId token.sessionId))
  | .bound presenting userId sessionId => some (.lock (.user userId) (.boundUser presenting userId sessionId))
  | .boundUser presenting userId sessionId =>
    match sessionId with
    | some id => some (.lock (.session id) (.boundSession presenting userId sessionId (db.user? userId)))
    | none => some (.stay db (.boundSession presenting userId sessionId (db.user? userId)))
  | .boundSession presenting userId sessionId user =>
    some (.lock (.token presenting.tokenHash)
      (.boundToken presenting userId sessionId user (sessionId.bind (db.activeSession? userId presenting.asked))))
  | .boundToken presenting _ sessionId user session => some (consume db presenting sessionId user session)
  | .proving presenting token user secret session =>
    match functions.verifySecondFactor secret presenting.code now with
    | none => some (.stay db (.spending token "google_mfa_code_invalid"))
    | some next => some (.stay db (.proved presenting token user next session now))
  | _ => none

/-- One action of a session. -/
def program : Phase → Action → Option Step
  | .idle, .start userId sessionId now | .answered _, .start userId sessionId now =>
    if functions.suppressed userId then some (refuse db "Account is unavailable")
    else if (db.activeSession? userId now sessionId).isSome then some (.stay db (.authenticating userId sessionId))
    else some (refuse db "Session is no longer valid")
  | .idle, .callback presented | .answered _, .callback presented => some (enterCallback settings db presented)
  | .idle, .complete mode raw code now | .answered _, .complete mode raw code now =>
    if raw = "" then some (refuse db "google_mfa_transaction_invalid")
    else some (.stay db (.presenting ⟨mode, functions.tokenDigest raw, code, now⟩))
  | .exchanging state nonce, .google answer now => some (receiveClaims db state nonce now answer)
  | phase, .proceed now => proceed functions settings db now phase
  | phase, .commit now =>
    (settle functions settings db now phase).map fun
      | .ok settled => .finish settled.db (.answered settled.answer)
      | .error reason => refuse db reason
  | .idle, .hold key | .answered _, .hold key => some (.lock key (.holding key))
  | .holding key, .alter change => some (.finish (db.alter key change) .idle)
  | _, .fail => some (.finish db .idle)
  | _, _ => none

/-- What a step adds to the notes. -/
def note (db : Database) (phase : Phase) (action : Action) (events : List Event) : List Event :=
  match action with
  | .commit now =>
    match settle functions settings db now phase with
    | some (.ok settled) => events ++ settled.events
    | _ => events
  | _ => events

end Model

abbrev Recorded := Store (Database × List Event) Phase LockKey Nat

def recordedStep (functions : Functions) (settings : Settings) : Recorded → Nat × Action → Option Recorded :=
  Store.step (recorded (program functions settings) (note functions settings))

end Drivebound.Federation
