import Drivebound.Auth.Database
import Drivebound.Core.Sharing

/-! The endpoints of `api/v1/auth.py` as sessions of one database under READ COMMITTED. An
endpoint behind `current_auth` has loaded its user before it waits for the row's lock, and
the locking SELECT returns that instance; `confirm_mfa` and `verify_second_factor` have it
populated anew. The other endpoints load their user behind the lock. -/
namespace Drivebound.Auth
open Attributes Sessions
open Erasure (User PasswordHash)

inductive Request where
  | changePassword (currentPassword otp : Option String)
  | reauthenticatePassword (password : String) (otp : Option String)
  | setupMfa
  | confirmMfa (code : String)
  | disableMfa (password code : Option String)
  | revokeSession (target : UUID)
  | passwordLogin (password : String) (otp : Option String) (setBrowserCookies : Bool)
  | verifyEmail
  | resetPassword
  | completeGoogleMfa (code : String)
  deriving DecidableEq, Repr

/-- A request that has locked the row of `owner`. -/
structure Flow where
  request : Request
  owner : UUID
  user : Instance
  session : Option AuthSession
  token : Option AccountToken
  deriving DecidableEq, Repr

inductive Phase where
  | idle
  | authenticated (request : Request) (user : User) (session : AuthSession)
  | presented (request : Request) (tokenHash : String) (owner : UUID)
  | redeeming (request : Request) (tokenHash : String) (owner : UUID)
  | locked (flow : Flow)
  /-- The password has been accepted, the second factor comes next. -/
  | proving (flow : Flow)
  | rejected (owner : UUID) (token : Option AccountToken)
  | approved (flow : Flow) (factor : Factor) (revoking : List UUID)
  | issuing (user : User) (purpose : Purpose)
  | refreshing (session : AuthSession)
  | closing (session : UUID)
  deriving DecidableEq, Repr

inductive LockKey where
  | user (id : UUID)
  | session (id : UUID)
  deriving DecidableEq, Repr

/-- What a commit draws at random or reads off a clock, hashed where it is stored hashed. -/
structure Values where
  now : Timestamp
  sessionId : UUID
  refreshTokenHash : String
  passwordDigest : String
  secretEncrypted : String
  codeHashes : List String
  deriving DecidableEq, Repr

inductive Action where
  | authenticate (userId sessionId : UUID) (now : Timestamp) (request : Request)
  | login (email password : String) (otp : Option String) (setBrowserCookies : Bool)
  | register (id : UUID) (email passwordDigest tokenHash : String) (now : Timestamp)
  | requestToken (email : String) (purpose : Purpose)
  | presentToken (raw : String) (request : Request)
  | refresh (raw : String) (now : Timestamp)
  | logout (raw : String)
  | selectSession
  | lockUser
  | redeem (now : Timestamp)
  | check (now : Timestamp)
  | prove (now : Timestamp)
  | lockSession (id : UUID)
  | issue (tokenHash : String) (now : Timestamp)
  | commit (values : Values)
  /-- Any exception that ends the request, a failed commit included, and a crash. -/
  | stop
  deriving DecidableEq, Repr

/-- The endpoints with a dependency on `current_auth`. -/
def Request.authenticated : Request → Bool
  | .changePassword .. | .reauthenticatePassword .. | .setupMfa | .confirmMfa _ | .disableMfa ..
  | .revokeSession _ => true
  | .passwordLogin .. | .verifyEmail | .resetPassword | .completeGoogleMfa _ => false

/-- `require_recent_auth` instead of `current_auth`. -/
def Request.requiresRecentAuth : Request → Bool
  | .setupMfa | .confirmMfa _ | .revokeSession _ => true
  | _ => false

/-- The purpose of the token that an endpoint redeems. -/
def Request.purpose : Request → Option Purpose
  | .verifyEmail => some .verifyEmail
  | .resetPassword => some .passwordReset
  | .completeGoogleMfa _ => some .googleMfaLogin
  | _ => none

/-- The password that is compared with the hash; an empty one is none, but for a login
and a reauthentication. -/
def Request.password : Request → Option String
  | .changePassword currentPassword _ => currentPassword.filter (· ≠ "")
  | .disableMfa password _ => password.filter (· ≠ "")
  | .reauthenticatePassword password _ | .passwordLogin password _ _ => some password
  | _ => none

def Request.code : Request → Option String
  | .changePassword _ otp | .reauthenticatePassword _ otp | .passwordLogin _ otp _ => otp
  | .disableMfa _ code => code
  | .completeGoogleMfa code => some code
  | _ => none

/-- The sessions that a request revokes. -/
def Flow.revokes (flow : Flow) (row : AuthSession) : Bool :=
  match flow.request with
  | .resetPassword => row.userId = flow.owner
  | .changePassword .. => row.userId = flow.owner ∧ flow.session.all (·.id ≠ row.id)
  | _ => false

/-- The attributes that a request assigns to its user. -/
def Flow.assign (flow : Flow) (factor : Factor) (values : Values) : User :=
  let current := flow.user.current
  match flow.request with
  | .changePassword .. | .resetPassword => { current with
      passwordHash := .digest values.passwordDigest
      passwordEnabled := true
      passwordSetAt := some values.now }
  | .setupMfa => { current with
      pendingTotpSecretEncrypted := some values.secretEncrypted
      pendingTotpExpiresAt := some (values.now + 600)
      pendingTotpSessionId := flow.session.map (·.id) }
  | .confirmMfa _ => { current with
      totpSecretEncrypted := current.pendingTotpSecretEncrypted
      pendingTotpSecretEncrypted := none
      pendingTotpExpiresAt := none
      pendingTotpSessionId := none
      totpEnabledAt := some values.now
      totpLastUsedStep := match factor with
        | .totp step => some step
        | _ => none }
  | .disableMfa .. => { current with
      totpEnabledAt := none
      totpSecretEncrypted := none
      totpLastUsedStep := none
      pendingTotpSecretEncrypted := none
      pendingTotpExpiresAt := none
      pendingTotpSessionId := none }
  | .passwordLogin .. =>
    if current.passwordEnabled = true then current
    else { current with passwordEnabled := true, passwordSetAt := some values.now }
  | .verifyEmail => { current with emailVerifiedAt := some values.now }
  | .reauthenticatePassword .. | .completeGoogleMfa _ | .revokeSession _ => current

/-- The row that `issue_session` adds. -/
def newSession (settings : Settings) (user : UUID) (values : Values) (setBrowserCookies : Bool) :
    AuthSession where
  id := values.sessionId
  userId := user
  refreshTokenHash := values.refreshTokenHash
  expiresAt := values.now +
    (if setBrowserCookies then settings.refreshSessionDays * 86400 else settings.accessTokenMinutes * 60)
  revokedAt := none
  reauthenticatedAt := some values.now

/-- `current.reauthenticated_at = now`. -/
def reauthenticate (db : Database) (session : Option AuthSession) (now : Timestamp) : Database :=
  match session with
  | none => db
  | some loaded => db.setSession loaded.id fun row => { row with
      reauthenticatedAt := flush loaded.reauthenticatedAt (some now) row.reauthenticatedAt }

def insertSession (db : Database) (session : AuthSession) : Database :=
  { db with sessions := db.sessions ++ [session] }

def concludeSessions (settings : Settings) (db : Database) (flow : Flow) (values : Values) : Database :=
  match flow.request with
  | .changePassword .. =>
    (reauthenticate db flow.session values.now).revokeSessions flow.revokes values.now
  | .resetPassword => db.revokeSessions flow.revokes values.now
  | .reauthenticatePassword .. | .confirmMfa _ | .disableMfa .. =>
    reauthenticate db flow.session values.now
  | .passwordLogin _ _ setBrowserCookies =>
    insertSession db (newSession settings flow.owner values setBrowserCookies)
  | .completeGoogleMfa _ => insertSession db (newSession settings flow.owner values true)
  | .setupMfa | .verifyEmail | .revokeSession _ => db

/-- The code that has been accepted is used, and a new enrolment replaces them all. -/
def concludeCodes (db : Database) (flow : Flow) (factor : Factor) (values : Values) : Database :=
  let spent := match factor with
    | .recovery codeHash => db.useCodes (·.codeHash = codeHash) values.now
    | _ => db
  match flow.request with
  | .disableMfa .. => spent.useCodes (·.userId = flow.owner) values.now
  | .confirmMfa _ =>
    let replaced := spent.useCodes (·.userId = flow.owner) values.now
    { replaced with recoveryCodes := replaced.recoveryCodes ++ values.codeHashes.map (⟨flow.owner, ·, none⟩) }
  | _ => spent

/-- `token.used_at = now`. -/
def useToken (db : Database) (token : Option AccountToken) (now : Timestamp) : Database :=
  match token with
  | none => db
  | some token => db.useTokens (·.tokenHash = token.tokenHash) now

def concludeTokens (db : Database) (flow : Flow) (values : Values) : Database :=
  let spent := useToken db flow.token values.now
  match flow.request with
  | .resetPassword =>
    spent.useTokens (fun row => row.userId = flow.owner ∧ row.purpose = .passwordReset) values.now
  | _ => spent

/-- What an approved request leaves. -/
def conclude (settings : Settings) (db : Database) (flow : Flow) (factor : Factor) (values : Values) :
    Database :=
  let users := db.setUser flow.owner (User.flush flow.user.loaded (flow.assign factor values))
  concludeTokens (concludeCodes (concludeSessions settings users flow values) flow factor values) flow values

/-- What the flushes of a request write, the one of its commit last. `confirm_mfa` has assigned the secret, and not
yet the time of the enrolment, when the UPDATE of the recovery codes flushes the row. -/
def Flow.flushes (flow : Flow) (factor : Factor) (values : Values) : List User :=
  let assigned := flow.assign factor values
  match flow.request with
  | .confirmMfa _ =>
    let current := flow.user.current
    [{ assigned with totpEnabledAt := current.totpEnabledAt, totpLastUsedStep := current.totpLastUsedStep }, assigned]
  | _ => [assigned]

/-- The constraints that a commit and the flushes before it can break: a session's key and
refresh token, the recovery codes and the CHECKs of the user's row. -/
def Admitted (db : Database) (flow : Flow) (factor : Factor) (values : Values) : Prop :=
  (∀ row ∈ db.user? flow.owner, ∀ flushed ∈ flow.flushes factor values,
    (User.flush flow.user.loaded flushed row).Complete) ∧
  (∀ row ∈ db.sessions, row.id ≠ values.sessionId ∧ row.refreshTokenHash ≠ values.refreshTokenHash) ∧
  values.codeHashes.Nodup ∧ ∀ row ∈ db.recoveryCodes, row.codeHash ∉ values.codeHashes

instance (db : Database) (flow : Flow) (factor : Factor) (values : Values) :
    Decidable (Admitted db flow factor values) :=
  have : Decidable (∀ row ∈ db.user? flow.owner, ∀ flushed ∈ flow.flushes factor values,
      (User.flush flow.user.loaded flushed row).Complete) := Option.decidableForallMem ..
  inferInstanceAs (Decidable (_ ∧ _))

/-- What a transaction commits, as far as the tables are concerned. -/
inductive Event where
  | registered (user : User) (tokenHash : String) (now : Timestamp)
  | issued (user : UUID) (purpose : Purpose) (tokenHash : String) (now : Timestamp)
  | concluded (flow : Flow) (factor : Factor) (values : Values)
  | declined (owner : UUID) (token : Option AccountToken) (now : Timestamp)
  | refreshed (session : AuthSession) (refreshTokenHash : String)
  | closed (session : UUID) (now : Timestamp)
  deriving DecidableEq, Repr

abbrev Step := Outcome Database Phase LockKey

/-- The password check in front of `verify_second_factor`. -/
def checkPassword (crypto : Crypto) (db : Database) (flow : Flow) : Step :=
  if flow.request.password.any (crypto.verifyPassword · flow.user.current.passwordHash) then
    .stay db (.proving flow)
  else .stay db (.rejected flow.owner flow.token)

/-- An account without a password is asked for a recent authentication. -/
def checkRecentAuth (settings : Settings) (db : Database) (flow : Flow) (now : Timestamp) : Step :=
  if flow.session.any (sessionHasRecentAuth settings · now) then
    .stay db (.approved flow .notRequired [])
  else .finish db .idle

/-- `confirm_mfa`: the code is one of the pending secret, set up by the same session. -/
def checkConfirmation (crypto : Crypto) (db : Database) (flow : Flow) (code : String)
    (now : Timestamp) : Step :=
  let user := flow.user.current
  match user.pendingTotpSecretEncrypted.bind (matchingTotpStep crypto · code (now / 30)) with
  | none => .stay db (.rejected flow.owner flow.token)
  | some step =>
    if user.pendingTotpExpiresAt.any (now < ·) ∧
        user.pendingTotpSessionId = flow.session.map (·.id) then
      .stay db (.approved flow (.totp step) [])
    else .stay db (.rejected flow.owner flow.token)

/-- What an endpoint asks for behind the lock of its user. -/
def check (crypto : Crypto) (settings : Settings) (db : Database) (flow : Flow) (now : Timestamp) :
    Option Step :=
  let user := flow.user.current
  match flow.request with
  | .changePassword .. | .disableMfa .. =>
    if user.passwordEnabled = true then some (checkPassword crypto db flow)
    else some (checkRecentAuth settings db flow now)
  | .reauthenticatePassword .. =>
    if user.passwordEnabled = true then some (checkPassword crypto db flow)
    else some (.finish db .idle)
  | .setupMfa => some (.stay db (.approved flow .notRequired []))
  | .confirmMfa code => some (checkConfirmation crypto db flow code now)
  | .passwordLogin .. =>
    if user.disabledAt.isSome then some (.stay db (.rejected flow.owner flow.token))
    else if user.emailVerifiedAt = none ∧ flow.request.password.any
        (crypto.verifyPassword · user.passwordHash) then some (.finish db .idle)
    else some (checkPassword crypto db flow)
  | _ => none

/-- `consume_google_mfa_transaction`: a token that cannot be used any more is used up. -/
def redeemGoogle (db : Database) (request : Request) (token : AccountToken) (now : Timestamp)
    (owner : UUID) : Step :=
  match db.user? owner with
  | none => .stay db (.rejected owner (some token))
  | some row =>
    if token.expiresAt ≤ now ∨ row.disabledAt.isSome ∨ row.totpEnabledAt = none then
      .stay db (.rejected owner (some token))
    else .stay db (.proving ⟨request, owner, .fresh row, none, some token⟩)

/-- The SELECT of a token behind the lock of its user. -/
def redeem (db : Database) (request : Request) (tokenHash : String) (owner : UUID) (now : Timestamp) :
    Step :=
  match db.tokens.find? (fun row => row.tokenHash = tokenHash ∧ request.purpose = some row.purpose ∧
      row.usedAt = none) with
  | none => .finish db .idle
  | some token =>
    match request with
    | .completeGoogleMfa _ => redeemGoogle db request token now owner
    | _ =>
      match db.user? token.userId with
      | none => .finish db .idle
      | some row =>
        if token.expiresAt ≤ now then .finish db .idle
        else .stay db (.approved ⟨request, owner, .fresh row, none, some token⟩ .notRequired [])

/-- Who is sent a link: `resend_verification`, `forgot_password`, and a Google sign-in to an
account with a second factor. -/
def mayIssue (user : User) : Purpose → Bool
  | .verifyEmail => user.emailVerifiedAt.isNone
  | .passwordReset => user.disabledAt.isNone
  | .googleMfaLogin => user.disabledAt.isNone && user.totpEnabledAt.isSome

/-- The row that `register` adds. -/
def newUser (id : UUID) (email passwordDigest : String) (now : Timestamp) : User where
  id
  email
  passwordHash := .digest passwordDigest
  passwordEnabled := true
  passwordSetAt := some now
  displayName := none
  onboardingCompletedAt := none
  emailVerifiedAt := none
  totpSecretEncrypted := none
  totpEnabledAt := none
  totpLastUsedStep := none
  pendingTotpSecretEncrypted := none
  pendingTotpExpiresAt := none
  pendingTotpSessionId := none
  mediaKeyEncrypted := none
  mediaKeyVersion := 1
  disabledAt := none

def insertUser (db : Database) (user : User) : Database := { db with users := db.users ++ [user] }

def Event.apply (settings : Settings) (db : Database) : Event → Database
  | .registered user tokenHash now =>
    createAccountToken (insertUser db user) user.id .verifyEmail tokenHash now
  | .issued user purpose tokenHash now => createAccountToken db user purpose tokenHash now
  | .concluded flow factor values => conclude settings db flow factor values
  | .declined _ token now => useToken db token now
  | .refreshed session refreshTokenHash =>
    db.setSession session.id fun row => { row with refreshTokenHash }
  | .closed session now => db.setSession session fun row => { row with revokedAt := some now }

/-- What a step commits; `none` where it commits nothing or a constraint rolls it back. -/
def eventOf (db : Database) (phase : Phase) : Action → Option Event
  | .register id email passwordDigest tokenHash now =>
    match phase with
    | .idle =>
      if db.users.any (fun row => row.email = email ∨ row.id = id) ∨
          db.tokens.any (·.tokenHash = tokenHash) then none
      else some (.registered (newUser id email passwordDigest now) tokenHash now)
    | _ => none
  | .issue tokenHash now =>
    match phase with
    | .issuing user purpose =>
      if mayIssue user purpose = false ∨ db.tokens.any (·.tokenHash = tokenHash) then none
      else some (.issued user.id purpose tokenHash now)
    | _ => none
  | .commit values =>
    match phase with
    | .approved flow factor _ =>
      if Admitted db flow factor values then some (.concluded flow factor values) else none
    | .rejected owner token => some (.declined owner token values.now)
    | .refreshing session =>
      if (db.user? session.userId).all (·.disabledAt.isSome) ∨
          db.sessions.any (·.refreshTokenHash = values.refreshTokenHash) then none
      else some (.refreshed session values.refreshTokenHash)
    | .closing session => some (.closed session values.now)
    | _ => none
  | _ => none

/-- The end of a transaction. -/
def settle (settings : Settings) (db : Database) (phase : Phase) (action : Action) : Step :=
  .finish ((eventOf db phase action).elim db (Event.apply settings db)) .idle

/-- The locking SELECT of an endpoint behind `current_auth`. -/
def lockInstance (request : Request) (user row : User) : Instance :=
  match request with
  | .confirmMfa _ => .fresh row
  | _ => .fresh user

def program (crypto : Crypto) (settings : Settings) (db : Database) (phase : Phase) :
    Action → Option Step
  | .authenticate userId sessionId now request =>
    match phase, db.user? userId, db.session? sessionId with
    | .idle, some user, some session =>
      if request.authenticated = true ∧ session.userId = userId ∧ session.revokedAt = none ∧
          now < session.expiresAt ∧ user.disabledAt = none ∧
          (request.requiresRecentAuth = true → sessionHasRecentAuth settings session now = true) then
        some (.stay db (.authenticated request user session))
      else none
    | _, _, _ => none
  | .login email password otp setBrowserCookies =>
    match phase with
    | .idle =>
      match db.users.find? (·.email = email) with
      | none => some (.finish db .idle)
      | some row =>
        some (.lock (.user row.id)
          (.locked ⟨.passwordLogin password otp setBrowserCookies, row.id, .fresh row, none, none⟩))
    | _ => none
  | .register id email passwordDigest tokenHash now =>
    match phase with
    | .idle => some (settle settings db phase (.register id email passwordDigest tokenHash now))
    | _ => none
  | .requestToken email purpose =>
    match phase with
    | .idle =>
      match db.users.find? (·.email = email) with
      | none => some (.finish db .idle)
      | some row => some (.lock (.user row.id) (.issuing row purpose))
    | _ => none
  | .presentToken raw request =>
    match phase with
    | .idle =>
      match db.tokens.find? (fun row => row.tokenHash = crypto.tokenDigest raw ∧
          request.purpose = some row.purpose) with
      | none => some (.finish db .idle)
      | some token => some (.stay db (.presented request token.tokenHash token.userId))
    | _ => none
  | .refresh raw now =>
    match phase with
    | .idle =>
      match db.sessions.find? (fun row => row.refreshTokenHash = crypto.tokenDigest raw ∧
          row.revokedAt = none ∧ now < row.expiresAt) with
      | none => some (.finish db .idle)
      | some row => some (.lock (.session row.id) (.refreshing row))
    | _ => none
  | .logout raw =>
    match phase with
    | .idle =>
      match db.sessions.find? (·.refreshTokenHash = crypto.tokenDigest raw) with
      | none => some (.finish db .idle)
      | some row => some (.lock (.session row.id) (.closing row.id))
    | _ => none
  | .selectSession =>
    match phase with
    | .authenticated request user _ =>
      match request with
      | .revokeSession target =>
        match db.sessions.find? (fun row => row.id = target ∧ row.userId = user.id) with
        | none => some (.finish db .idle)
        | some row => some (.lock (.session row.id) (.closing row.id))
      | _ => none
    | _ => none
  | .lockUser =>
    match phase with
    | .authenticated request user session =>
      match db.user? user.id with
      | none => some (.finish db .idle)
      | some row =>
        some (.lock (.user user.id)
          (.locked ⟨request, user.id, lockInstance request user row, some session, none⟩))
    | .presented request tokenHash owner =>
      match db.user? owner with
      | none => some (.finish db .idle)
      | some _ => some (.lock (.user owner) (.redeeming request tokenHash owner))
    | _ => none
  | .redeem now =>
    match phase with
    | .redeeming request tokenHash owner => some (redeem db request tokenHash owner now)
    | _ => none
  | .check now =>
    match phase with
    | .locked flow => check crypto settings db flow now
    | _ => none
  | .prove now =>
    match phase with
    | .proving flow =>
      match verifySecondFactor crypto db flow.user flow.request.code (now / 30) with
      | none => some (.stay db (.rejected flow.owner flow.token))
      | some (user, factor) => some (.stay db (.approved { flow with user } factor []))
    | _ => none
  | .lockSession id =>
    match phase with
    | .approved flow factor revoking => some (.lock (.session id) (.approved flow factor (id :: revoking)))
    | _ => none
  | .issue tokenHash now =>
    match phase with
    | .issuing _ _ => some (settle settings db phase (.issue tokenHash now))
    | _ => none
  | .commit values =>
    match phase with
    | .approved flow _ revoking =>
      if ∀ row ∈ db.sessions, flow.revokes row = true → row.revokedAt = none → row.id ∈ revoking then
        some (settle settings db phase (.commit values))
      else none
    | .rejected .. | .refreshing _ | .closing _ => some (settle settings db phase (.commit values))
    | _ => none
  | .stop => some (.finish db .idle)

abbrev Service := Store Database Phase LockKey Nat

def start (db : Database) : Service := Store.idle db .idle

def step (crypto : Crypto) (settings : Settings) : Service → Nat × Action → Option Service :=
  Store.step (program crypto settings)

/-- The locks that a program point relies on. -/
def Phase.Holds : Phase → LockKey → Prop
  | .locked flow, k | .proving flow, k => k = .user flow.owner
  | .approved flow _ revoking, k => k = .user flow.owner ∨ ∃ id ∈ revoking, k = .session id
  | .redeeming _ _ owner, k | .rejected owner _, k => k = .user owner
  | .issuing user _, k => k = .user user.id
  | .refreshing session, k => k = .session session.id
  | .closing session, k => k = .session session
  | _, _ => False

def locks : Locks Phase LockKey := ⟨Phase.Holds, fun _ _ => False⟩

/-- What a step leaves in the database. -/
inductive Written (settings : Settings) (db : Database) : Phase → Option Event → Database → Prop where
  | nothing (phase) : Written settings db phase none db
  | registered (id email passwordDigest tokenHash now)
      (user : ∀ row ∈ db.users, row.id ≠ id) (token : ∀ row ∈ db.tokens, row.tokenHash ≠ tokenHash) :
    Written settings db .idle (some (.registered (newUser id email passwordDigest now) tokenHash now))
      (createAccountToken (insertUser db (newUser id email passwordDigest now)) id .verifyEmail tokenHash now)
  | issued (user purpose tokenHash now) (token : ∀ row ∈ db.tokens, row.tokenHash ≠ tokenHash) :
    Written settings db (.issuing user purpose) (some (.issued user.id purpose tokenHash now))
      (createAccountToken db user.id purpose tokenHash now)
  | concluded (flow factor revoking values) (admitted : Admitted db flow factor values)
      (covered : ∀ row ∈ db.sessions, flow.revokes row = true → row.revokedAt = none → row.id ∈ revoking) :
    Written settings db (.approved flow factor revoking) (some (.concluded flow factor values))
      (conclude settings db flow factor values)
  | declined (owner token now) :
    Written settings db (.rejected owner token) (some (.declined owner token now)) (useToken db token now)
  | refreshed (session refreshTokenHash)
      (fresh : ∀ row ∈ db.sessions, row.refreshTokenHash ≠ refreshTokenHash) :
    Written settings db (.refreshing session) (some (.refreshed session refreshTokenHash))
      (db.setSession session.id fun row => { row with refreshTokenHash })
  | closed (session now) :
    Written settings db (.closing session) (some (.closed session now))
      (db.setSession session fun row => { row with revokedAt := some now })

/-- The instance of a fresh token flow. -/
def Flow.redeemed (request : Request) (owner : UUID) (row : User) (token : AccountToken) : Flow :=
  ⟨request, owner, .fresh row, none, some token⟩

/-- Where a step leads, and what it has found. -/
inductive Arrives (crypto : Crypto) (settings : Settings) (db : Database) :
    Phase → Action → Phase → Prop where
  | idle (phase action) : Arrives crypto settings db phase action .idle
  | authenticated (userId sessionId now request user session)
      (kind : request.authenticated = true) (found : db.user? userId = some user)
      (current : db.session? sessionId = some session) (owner : session.userId = userId)
      (live : session.revokedAt = none) :
    Arrives crypto settings db .idle (.authenticate userId sessionId now request)
      (.authenticated request user session)
  | login (email password otp setBrowserCookies row) (member : row ∈ db.users) :
    Arrives crypto settings db .idle (.login email password otp setBrowserCookies)
      (.locked ⟨.passwordLogin password otp setBrowserCookies, row.id, .fresh row, none, none⟩)
  | issuing (email purpose row) (member : row ∈ db.users) :
    Arrives crypto settings db .idle (.requestToken email purpose) (.issuing row purpose)
  | presented (raw request token) (member : token ∈ db.tokens)
      (purpose : request.purpose = some token.purpose) :
    Arrives crypto settings db .idle (.presentToken raw request)
      (.presented request token.tokenHash token.userId)
  | refreshing (row raw now) (member : row ∈ db.sessions) (live : row.revokedAt = none) :
    Arrives crypto settings db .idle (.refresh raw now) (.refreshing row)
  | closing (phase action row) (member : row ∈ db.sessions) (quiet : eventOf db phase action = none) :
    Arrives crypto settings db phase action (.closing row.id)
  | redeeming (request tokenHash owner) :
    Arrives crypto settings db (.presented request tokenHash owner) .lockUser
      (.redeeming request tokenHash owner)
  | locked (request user session row) (found : db.user? user.id = some row) :
    Arrives crypto settings db (.authenticated request user session) .lockUser
      (.locked ⟨request, user.id, lockInstance request user row, some session, none⟩)
  | redeemed (request owner token row now) (member : token ∈ db.tokens)
      (purpose : request.purpose = some token.purpose) (unused : token.usedAt = none)
      (found : db.user? token.userId = some row) (lifetime : now < token.expiresAt) :
    Arrives crypto settings db (.redeeming request token.tokenHash owner) (.redeem now)
      (.approved (.redeemed request owner row token) .notRequired [])
  | transacted (request owner token row now) (member : token ∈ db.tokens)
      (purpose : request.purpose = some token.purpose) (unused : token.usedAt = none)
      (found : db.user? owner = some row) (lifetime : now < token.expiresAt)
      (enrolled : row.totpEnabledAt ≠ none) :
    Arrives crypto settings db (.redeeming request token.tokenHash owner) (.redeem now)
      (.proving (.redeemed request owner row token))
  | burned (request owner token now) (member : token ∈ db.tokens) (unused : token.usedAt = none) :
    Arrives crypto settings db (.redeeming request token.tokenHash owner) (.redeem now)
      (.rejected owner (some token))
  | rejected (flow now) :
    Arrives crypto settings db (.locked flow) (.check now) (.rejected flow.owner flow.token)
  | passed (flow now)
      (enabled : flow.request.authenticated = true → flow.user.current.passwordEnabled = true)
      (password : flow.request.password.any (crypto.verifyPassword · flow.user.current.passwordHash) = true) :
    Arrives crypto settings db (.locked flow) (.check now) (.proving flow)
  | recent (flow now) (password : flow.user.current.passwordEnabled = false)
      (recent : flow.session.any (sessionHasRecentAuth settings · now) = true)
      (kind : flow.request.requiresRecentAuth = false) :
    Arrives crypto settings db (.locked flow) (.check now) (.approved flow .notRequired [])
  | setup (flow now) (kind : flow.request = .setupMfa) :
    Arrives crypto settings db (.locked flow) (.check now) (.approved flow .notRequired [])
  | confirmed (flow now code step) (kind : flow.request = .confirmMfa code) :
    Arrives crypto settings db (.locked flow) (.check now) (.approved flow (.totp step) [])
  | proved (flow now user factor)
      (proof : verifySecondFactor crypto db flow.user flow.request.code (now / 30) = some (user, factor)) :
    Arrives crypto settings db (.proving flow) (.prove now) (.approved { flow with user } factor [])
  | unproved (flow now) :
    Arrives crypto settings db (.proving flow) (.prove now) (.rejected flow.owner flow.token)
  | revoking (flow factor revoking id) :
    Arrives crypto settings db (.approved flow factor revoking) (.lockSession id)
      (.approved flow factor (id :: revoking))

variable {crypto : Crypto} {settings : Settings} {db db' : Database} {phase : Phase} {action : Action}
  {outcome : Step} {flow : Flow} {now : Timestamp}

theorem any_absent {α β : Type} [DecidableEq β] {rows : List α} {key : α → β} {k : β}
    (absent : ¬ rows.any (fun row => key row = k) = true) : ∀ row ∈ rows, key row ≠ k := by
  intro row member same
  exact absent (List.any_eq_true.mpr ⟨row, member, decide_eq_true same⟩)

theorem checkPassword_result : (checkPassword crypto db flow).result db = db := by
  unfold checkPassword
  split <;> rfl

theorem checkRecentAuth_result : (checkRecentAuth settings db flow now).result db = db := by
  unfold checkRecentAuth
  split <;> rfl

theorem checkConfirmation_result {code : String} :
    (checkConfirmation crypto db flow code now).result db = db := by
  simp only [checkConfirmation]
  split
  · rfl
  · split <;> rfl

theorem check_result (checked : check crypto settings db flow now = some outcome) :
    outcome.result db = db := by
  simp only [check] at checked
  split at checked
  · split at checked
    · cases checked
      exact checkPassword_result
    · cases checked
      exact checkRecentAuth_result
  · split at checked
    · cases checked
      exact checkPassword_result
    · cases checked
      exact checkRecentAuth_result
  · split at checked
    · cases checked
      exact checkPassword_result
    · cases checked
      rfl
  · cases checked
    rfl
  · cases checked
    exact checkConfirmation_result
  · split_ifs at checked
    · cases checked
      rfl
    · cases checked
      rfl
    · cases checked
      exact checkPassword_result
  · contradiction

theorem redeem_result {request : Request} {tokenHash : String} {owner : UUID} :
    (redeem db request tokenHash owner now).result db = db := by
  unfold redeem
  split
  · rfl
  · split
    · unfold redeemGoogle
      split
      · rfl
      · split <;> rfl
    · split
      · rfl
      · split <;> rfl

theorem settle_written (waits : ∀ flow factor revoking, phase = .approved flow factor revoking →
      ∀ row ∈ db.sessions, flow.revokes row = true → row.revokedAt = none → row.id ∈ revoking) :
    Written settings db phase (eventOf db phase action) ((settle settings db phase action).result db) := by
  unfold settle
  cases committed : eventOf db phase action with
  | none => exact .nothing phase
  | some event =>
    cases action with
    | register id email passwordDigest tokenHash now =>
      simp only [eventOf] at committed
      split at committed
      · split at committed
        · contradiction
        · rename_i unique
          cases committed
          refine .registered _ _ _ _ _ (fun row member same => unique (.inl ?_))
            fun row member same => unique (.inr ?_)
          · exact List.any_eq_true.mpr ⟨row, member, decide_eq_true (.inr same)⟩
          · exact List.any_eq_true.mpr ⟨row, member, decide_eq_true same⟩
      · contradiction
    | issue tokenHash now =>
      simp only [eventOf] at committed
      split at committed
      · split at committed
        · contradiction
        · rename_i permitted
          cases committed
          exact .issued _ _ _ _ (any_absent fun taken => permitted (.inr taken))
      · contradiction
    | commit values =>
      simp only [eventOf] at committed
      split at committed
      · split at committed
        · rename_i admitted
          cases committed
          exact .concluded _ _ _ _ admitted (waits _ _ _ rfl)
        · contradiction
      · cases committed
        exact .declined ..
      · split at committed
        · contradiction
        · rename_i permitted
          cases committed
          exact .refreshed _ _ (any_absent fun taken => permitted (.inr taken))
      · cases committed
        exact .closed ..
      · contradiction
    | _ => contradiction

theorem program_written (chosen : program crypto settings db phase action = some outcome) :
    Written settings db phase (eventOf db phase action) (outcome.result db) := by
  cases action with
  | authenticate userId sessionId now request =>
    simp only [program] at chosen
    split at chosen
    · split_ifs at chosen
      cases chosen
      exact .nothing _
    · contradiction
  | login email password otp setBrowserCookies | requestToken email purpose | presentToken raw request
  | refresh raw now | logout raw =>
    simp only [program] at chosen
    split at chosen
    · split at chosen <;> (cases chosen; exact .nothing _)
    · contradiction
  | selectSession =>
    simp only [program] at chosen
    split at chosen
    · split at chosen
      · split at chosen <;> (cases chosen; exact .nothing _)
      · contradiction
    · contradiction
  | lockUser =>
    simp only [program] at chosen
    split at chosen
    · split at chosen <;> (cases chosen; exact .nothing _)
    · split at chosen <;> (cases chosen; exact .nothing _)
    · contradiction
  | redeem now =>
    cases phase with
    | redeeming request tokenHash owner =>
      cases chosen
      rw [redeem_result]
      exact .nothing _
    | _ => contradiction
  | check now =>
    cases phase with
    | locked flow =>
      rw [check_result chosen]
      exact .nothing _
    | _ => contradiction
  | prove now =>
    simp only [program] at chosen
    split at chosen
    · split at chosen <;> (cases chosen; exact .nothing _)
    · contradiction
  | lockSession id =>
    cases phase <;> cases chosen
    exact .nothing _
  | register id email passwordDigest tokenHash now | issue tokenHash now =>
    simp only [program] at chosen
    split at chosen
    · obtain rfl := Option.some.inj chosen
      exact settle_written fun _ _ _ never => nomatch never
    · contradiction
  | commit values =>
    simp only [program] at chosen
    split at chosen
    · split at chosen
      · rename_i covered
        obtain rfl := Option.some.inj chosen
        apply settle_written
        rintro _ _ _ ⟨⟩
        exact covered
      · contradiction
    · obtain rfl := Option.some.inj chosen
      exact settle_written fun _ _ _ never => nomatch never
    · obtain rfl := Option.some.inj chosen
      exact settle_written fun _ _ _ never => nomatch never
    · obtain rfl := Option.some.inj chosen
      exact settle_written fun _ _ _ never => nomatch never
    · contradiction
  | stop =>
    cases chosen
    exact .nothing _

theorem checkPassword_arrives
    (enabled : flow.request.authenticated = true → flow.user.current.passwordEnabled = true) :
    Arrives crypto settings db (.locked flow) (.check now) (checkPassword crypto db flow).arrival := by
  unfold checkPassword
  split
  · rename_i accepted
    exact .passed _ _ enabled accepted
  · exact .rejected ..

theorem checkRecentAuth_arrives (password : ¬ flow.user.current.passwordEnabled = true)
    (kind : flow.request.requiresRecentAuth = false) :
    Arrives crypto settings db (.locked flow) (.check now) (checkRecentAuth settings db flow now).arrival := by
  unfold checkRecentAuth
  split
  · rename_i recent
    exact .recent _ _ (eq_false_of_ne_true password) recent kind
  · exact .idle ..

theorem checkConfirmation_arrives {code : String} (kind : flow.request = .confirmMfa code) :
    Arrives crypto settings db (.locked flow) (.check now)
      (checkConfirmation crypto db flow code now).arrival := by
  simp only [checkConfirmation]
  split
  · exact .rejected ..
  · split
    · exact .confirmed _ _ _ _ kind
    · exact .rejected ..

theorem check_arrives (checked : check crypto settings db flow now = some outcome) :
    Arrives crypto settings db (.locked flow) (.check now) outcome.arrival := by
  simp only [check] at checked
  split at checked
  · rename_i kind
    have recent : flow.request.requiresRecentAuth = false := by rw [kind]; rfl
    split at checked
    · rename_i enabled
      cases checked
      exact checkPassword_arrives fun _ => enabled
    · rename_i disabled
      cases checked
      exact checkRecentAuth_arrives disabled recent
  · rename_i kind
    have recent : flow.request.requiresRecentAuth = false := by rw [kind]; rfl
    split at checked
    · rename_i enabled
      cases checked
      exact checkPassword_arrives fun _ => enabled
    · rename_i disabled
      cases checked
      exact checkRecentAuth_arrives disabled recent
  · split at checked
    · rename_i enabled
      cases checked
      exact checkPassword_arrives fun _ => enabled
    · cases checked
      exact .idle ..
  · rename_i kind
    cases checked
    exact .setup _ _ kind
  · rename_i kind
    cases checked
    exact checkConfirmation_arrives kind
  · rename_i kind
    have login : flow.request.authenticated = true → flow.user.current.passwordEnabled = true := by
      rw [kind]
      nofun
    split_ifs at checked
    · cases checked
      exact .rejected ..
    · cases checked
      exact .idle ..
    · cases checked
      exact checkPassword_arrives login
  · contradiction

theorem redeem_arrives {request : Request} {tokenHash : String} {owner : UUID} :
    Arrives crypto settings db (.redeeming request tokenHash owner) (.redeem now)
      (redeem db request tokenHash owner now).arrival := by
  unfold redeem
  split
  · exact .idle ..
  · rename_i token found
    have member := List.mem_of_find?_eq_some found
    have matched := List.find?_some found
    simp only [decide_eq_true_eq] at matched
    obtain ⟨rfl, purpose, unused⟩ := matched
    split
    · unfold redeemGoogle
      split
      · exact .burned _ _ _ _ member unused
      · rename_i row user
        split
        · exact .burned _ _ _ _ member unused
        · rename_i usable
          refine .transacted _ _ _ _ _ member purpose unused user ?_ fun unset => usable (.inr (.inr unset))
          exact Nat.lt_of_not_le fun expired => usable (.inl expired)
    · split
      · exact .idle ..
      · rename_i row user
        split
        · exact .idle ..
        · rename_i valid
          exact .redeemed _ _ _ _ _ member purpose unused user (Nat.lt_of_not_le valid)

theorem program_arrives (chosen : program crypto settings db phase action = some outcome) :
    Arrives crypto settings db phase action outcome.arrival := by
  cases action with
  | authenticate userId sessionId now request =>
    simp only [program] at chosen
    split at chosen
    · rename_i user session found current
      split_ifs at chosen with admitted
      cases chosen
      obtain ⟨kind, owner, live, _⟩ := admitted
      exact .authenticated _ _ _ _ _ _ kind found current owner live
    · contradiction
  | login email password otp setBrowserCookies =>
    simp only [program] at chosen
    split at chosen
    · split at chosen
      · cases chosen
        exact .idle ..
      · rename_i row found
        cases chosen
        exact .login _ _ _ _ _ (List.mem_of_find?_eq_some found)
    · contradiction
  | requestToken email purpose =>
    simp only [program] at chosen
    split at chosen
    · split at chosen
      · cases chosen
        exact .idle ..
      · rename_i row found
        cases chosen
        exact .issuing _ _ _ (List.mem_of_find?_eq_some found)
    · contradiction
  | presentToken raw request =>
    simp only [program] at chosen
    split at chosen
    · split at chosen
      · cases chosen
        exact .idle ..
      · rename_i token found
        cases chosen
        have matched := List.find?_some found
        simp only [decide_eq_true_eq] at matched
        exact .presented _ _ _ (List.mem_of_find?_eq_some found) matched.2
    · contradiction
  | refresh raw now =>
    simp only [program] at chosen
    split at chosen
    · split at chosen
      · cases chosen
        exact .idle ..
      · rename_i row found
        cases chosen
        have matched := List.find?_some found
        simp only [decide_eq_true_eq] at matched
        exact .refreshing _ _ _ (List.mem_of_find?_eq_some found) matched.2.1
    · contradiction
  | logout raw =>
    simp only [program] at chosen
    split at chosen
    · split at chosen
      · cases chosen
        exact .idle ..
      · rename_i row found
        cases chosen
        exact .closing _ _ _ (List.mem_of_find?_eq_some found) rfl
    · contradiction
  | selectSession =>
    simp only [program] at chosen
    split at chosen
    · split at chosen
      · split at chosen
        · cases chosen
          exact .idle ..
        · rename_i row found
          cases chosen
          exact .closing _ _ _ (List.mem_of_find?_eq_some found) rfl
      · contradiction
    · contradiction
  | lockUser =>
    simp only [program] at chosen
    split at chosen
    · split at chosen
      · cases chosen
        exact .idle ..
      · rename_i row found
        cases chosen
        exact .locked _ _ _ _ found
    · split at chosen
      · cases chosen
        exact .idle ..
      · cases chosen
        exact .redeeming ..
    · contradiction
  | redeem now =>
    cases phase with
    | redeeming request tokenHash owner =>
      cases chosen
      exact redeem_arrives
    | _ => contradiction
  | check now =>
    cases phase with
    | locked flow => exact check_arrives chosen
    | _ => contradiction
  | prove now =>
    simp only [program] at chosen
    split at chosen
    · split at chosen
      · cases chosen
        exact .unproved ..
      · rename_i user factor proof
        cases chosen
        exact .proved _ _ _ _ proof
    · contradiction
  | lockSession id =>
    cases phase with
    | approved flow factor revoking =>
      cases chosen
      exact .revoking ..
    | _ => contradiction
  | register id email passwordDigest tokenHash now | issue tokenHash now =>
    simp only [program] at chosen
    split at chosen
    · obtain rfl := Option.some.inj chosen
      exact .idle ..
    · contradiction
  | commit values =>
    simp only [program] at chosen
    split at chosen
    · split at chosen
      · obtain rfl := Option.some.inj chosen
        exact .idle ..
      · contradiction
    · obtain rfl := Option.some.inj chosen
      exact .idle ..
    · obtain rfl := Option.some.inj chosen
      exact .idle ..
    · obtain rfl := Option.some.inj chosen
      exact .idle ..
    · contradiction
  | stop =>
    cases chosen
    exact .idle ..

/-- A step that commits ends its transaction. -/
theorem arrives_settled {next : Phase} (arrives : Arrives crypto settings db phase action next) :
    eventOf db phase action = none ∨ next = .idle := by
  cases arrives with
  | idle => exact .inr rfl
  | closing phase action row member quiet => exact .inl quiet
  | _ => exact .inl rfl

theorem program_settled (chosen : program crypto settings db phase action = some outcome) :
    outcome.result db = db ∨ outcome.arrival = .idle := by
  rcases arrives_settled (program_arrives chosen) with quiet | ended
  · have written := program_written chosen
    rw [quiet] at written
    generalize outcome.result db = db' at written ⊢
    cases written
    exact .inl rfl
  · exact .inr ended

theorem keeps_stay {next : Phase} (kept : ∀ k, next.Holds k → phase.Holds k) :
    locks.Keeps phase (.stay db' next : Step) :=
  ⟨kept, fun _ never => never⟩

theorem keeps_lock {key : LockKey} {next : Phase} (kept : ∀ k, next.Holds k → k = key ∨ phase.Holds k) :
    locks.Keeps phase (.lock key next : Step) :=
  ⟨kept, fun _ never => never⟩

theorem keeps_finish : locks.Keeps phase (.finish db' .idle : Step) :=
  ⟨fun _ never => never, fun _ never => never⟩

/-- A request that goes on to a point of its user's lock keeps it. -/
theorem keeps_owner {next : Phase} {owner : UUID} (holds : phase.Holds (.user owner))
    (relies : ∀ k, next.Holds k → k = .user owner) : locks.Keeps phase (.stay db' next : Step) :=
  keeps_stay fun k held => relies k held ▸ holds

theorem approved_holds {factor : Factor} {k : LockKey} (held : (Phase.approved flow factor []).Holds k) :
    k = .user flow.owner := by
  rcases held with owned | ⟨_, never, _⟩
  · exact owned
  · contradiction

theorem checkPassword_keeps : locks.Keeps (.locked flow) (checkPassword crypto db flow) := by
  unfold checkPassword
  split <;> exact keeps_owner rfl fun k held => held

theorem checkRecentAuth_keeps : locks.Keeps (.locked flow) (checkRecentAuth settings db flow now) := by
  unfold checkRecentAuth
  split
  · exact keeps_owner rfl fun k held => approved_holds held
  · exact keeps_finish

theorem checkConfirmation_keeps {code : String} :
    locks.Keeps (.locked flow) (checkConfirmation crypto db flow code now) := by
  simp only [checkConfirmation]
  split
  · exact keeps_owner rfl fun k held => held
  · split
    · exact keeps_owner rfl fun k held => approved_holds held
    · exact keeps_owner rfl fun k held => held

theorem check_keeps (checked : check crypto settings db flow now = some outcome) :
    locks.Keeps (.locked flow) outcome := by
  simp only [check] at checked
  split at checked
  · split at checked
    · cases checked
      exact checkPassword_keeps
    · cases checked
      exact checkRecentAuth_keeps
  · split at checked
    · cases checked
      exact checkPassword_keeps
    · cases checked
      exact checkRecentAuth_keeps
  · split at checked
    · cases checked
      exact checkPassword_keeps
    · cases checked
      exact keeps_finish
  · cases checked
    exact keeps_owner rfl fun k held => approved_holds held
  · cases checked
    exact checkConfirmation_keeps
  · split_ifs at checked
    · cases checked
      exact keeps_owner rfl fun k held => held
    · cases checked
      exact keeps_finish
    · cases checked
      exact checkPassword_keeps
  · contradiction

theorem redeem_keeps {request : Request} {tokenHash : String} {owner : UUID} :
    locks.Keeps (.redeeming request tokenHash owner) (redeem db request tokenHash owner now) := by
  unfold redeem
  split
  · exact keeps_finish
  · split
    · unfold redeemGoogle
      split
      · exact keeps_owner rfl fun k held => held
      · split <;> exact keeps_owner rfl fun k held => held
    · split
      · exact keeps_finish
      · split
        · exact keeps_finish
        · exact keeps_owner rfl fun k held => approved_holds held

theorem program_keeps (chosen : program crypto settings db phase action = some outcome) :
    locks.Keeps phase outcome := by
  cases action with
  | authenticate userId sessionId now request =>
    simp only [program] at chosen
    split at chosen
    · split_ifs at chosen
      cases chosen
      exact keeps_stay fun k held => held
    · contradiction
  | login email password otp setBrowserCookies | requestToken email purpose | refresh raw now
  | logout raw =>
    simp only [program] at chosen
    split at chosen
    · split at chosen
      · cases chosen
        exact keeps_finish
      · cases chosen
        exact keeps_lock fun k held => .inl held
    · contradiction
  | presentToken raw request =>
    simp only [program] at chosen
    split at chosen
    · split at chosen
      · cases chosen
        exact keeps_finish
      · cases chosen
        exact keeps_stay fun k held => held
    · contradiction
  | selectSession =>
    simp only [program] at chosen
    split at chosen
    · split at chosen
      · split at chosen
        · cases chosen
          exact keeps_finish
        · cases chosen
          exact keeps_lock fun k held => .inl held
      · contradiction
    · contradiction
  | lockUser =>
    simp only [program] at chosen
    split at chosen
    · split at chosen
      · cases chosen
        exact keeps_finish
      · cases chosen
        exact keeps_lock fun k held => .inl held
    · split at chosen
      · cases chosen
        exact keeps_finish
      · cases chosen
        exact keeps_lock fun k held => .inl held
    · contradiction
  | redeem now =>
    cases phase with
    | redeeming request tokenHash owner =>
      cases chosen
      exact redeem_keeps
    | _ => contradiction
  | check now =>
    cases phase with
    | locked flow => exact check_keeps chosen
    | _ => contradiction
  | prove now =>
    simp only [program] at chosen
    split at chosen
    · split at chosen
      · cases chosen
        exact keeps_owner rfl fun k held => held
      · rename_i user factor _
        cases chosen
        exact keeps_owner rfl fun k held => @approved_holds _ factor k held
    · contradiction
  | lockSession id =>
    cases phase with
    | approved flow factor revoking =>
      cases chosen
      apply keeps_lock
      rintro k (owned | ⟨other, member, rfl⟩)
      · exact .inr (.inl owned)
      · rcases List.mem_cons.mp member with rfl | before
        · exact .inl rfl
        · exact .inr (.inr ⟨other, before, rfl⟩)
    | _ => contradiction
  | register id email passwordDigest tokenHash now | issue tokenHash now =>
    simp only [program] at chosen
    split at chosen
    · obtain rfl := Option.some.inj chosen
      exact keeps_finish
    · contradiction
  | commit values =>
    simp only [program] at chosen
    split at chosen
    · split at chosen
      · obtain rfl := Option.some.inj chosen
        exact keeps_finish
      · contradiction
    · obtain rfl := Option.some.inj chosen
      exact keeps_finish
    · obtain rfl := Option.some.inj chosen
      exact keeps_finish
    · obtain rfl := Option.some.inj chosen
      exact keeps_finish
    · contradiction
  | stop =>
    cases chosen
    exact keeps_finish

end Drivebound.Auth
