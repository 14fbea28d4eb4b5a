import Drivebound.Core.Sharing
import Drivebound.Passkeys.Database

/-! The endpoints of `api/v1/passkeys.py` as sessions of one database under READ
COMMITTED. What a request has flushed is in its program point until the request commits;
an exception that no endpoint catches (a rate limit, a suppressed account, a lost
connection, a crash) rolls it back at any point. -/
namespace Drivebound.Passkeys
open Attributes Sessions

/-- The endpoints behind `current_auth` that lock the row of their user. -/
inductive Endpoint (Document : Type) where
  | registrationOptions
  | registrationVerify (challengeId : UUID) (document : Document) (name : String)
  | deletePasskey (passkeyId : UUID)
  | reauthenticationOptions
  | reauthenticationVerify (challengeId : UUID) (document : Document)

/-- A request that has something verified that an authenticator has signed. -/
inductive Attempt (Document : Type) where
  /-- `candidate` was loaded before the row of its user was locked. -/
  | signIn (document : Document) (parsed : ParsedCredential) (candidate : PasskeyCredential)
      (user : Option User)
  /-- A login whose assertion cannot be parsed or names no credential. -/
  | malformed
  | register (user : User) (session : AuthSession) (document : Document) (name : String)
  | reauthenticate (user : User) (session : AuthSession) (document : Document)

inductive Verdict where
  /-- `consume_challenge` has raised. -/
  | refused
  | rejected
  | duplicate
  | limit
  | signIn (user : User) (stored : PasskeyCredential) (verified : VerifiedAuthentication)
  | register (credential : PasskeyCredential)
  | reauthenticate (session : AuthSession) (stored : PasskeyCredential)
      (verified : VerifiedAuthentication)
  deriving DecidableEq, Repr

inductive SignInMethod where
  | password | google
  deriving DecidableEq, Repr

inductive Phase (Document : Type) where
  | idle
  /-- The instances that `current_auth` has loaded; no row is locked. -/
  | authenticated (user : User) (session : AuthSession) (endpoint : Endpoint Document)
  /-- The locking SELECT has returned the instance that was loaded before. -/
  | locked (user : User) (session : AuthSession) (endpoint : Endpoint Document)
  | issuing (binding : Binding)
  | cleaning (binding : Binding) (now : Timestamp) (pending deleted : List UUID)
  | candidate (challengeId : UUID) (document : Document) (parsed : ParsedCredential)
      (credential : PasskeyCredential)
  | attempting (attempt : Attempt Document) (challengeId : UUID)
  | consumed (attempt : Attempt Document) (challenge : WebAuthnChallenge) (usedAt : Timestamp)
  | verified (attempt : Attempt Document) (challenge : WebAuthnChallenge) (usedAt : Timestamp)
      (registration : VerifiedRegistration)
  | counted (attempt : Attempt Document) (challenge : WebAuthnChallenge) (usedAt : Timestamp)
      (registration : VerifiedRegistration)
  | inserting (attempt : Attempt Document) (challenge : WebAuthnChallenge) (usedAt : Timestamp)
      (credential : PasskeyCredential)
  | concluding (attempt : Attempt Document) (spent : Option (WebAuthnChallenge × Timestamp))
      (verdict : Verdict)
  | removing (user : User) (passkeyId : UUID)
  | removable (user : User) (passkeyId : UUID)
  | granting (user : UUID) (method : SignInMethod)

/-- Locked rows and entries of unique indexes. -/
inductive LockKey where
  | user (id : UUID)
  | challenge (id : UUID)
  | passkey (id : UUID)
  | credentialId (bytes : Bytes)
  deriving DecidableEq, Repr

inductive Action (Document : Type) where
  /-- The e-mail address as the endpoint has normalized it. -/
  | loginOptions (email : Option String)
  | loginVerify (challengeId : UUID) (document : Document)
  | authenticate (userId sessionId : UUID) (now : Timestamp) (endpoint : Endpoint Document)
  | lockUser
  | begin
  | cleanup (now : Timestamp)
  | deleteChallenge
  /-- The values that are drawn at random, and the clock of the database. -/
  | issue (id : UUID) (challenge : Bytes) (createdAt : Timestamp)
  | consume (now : Timestamp)
  | examine
  | count
  | insert (id : UUID)
  | flush
  | commit (now : Timestamp) (sessionId : UUID)
  /-- Another request enables a password or links a Google identity. -/
  | grant (user : UUID) (method : SignInMethod)
  | stop

variable {Document : Type}

/-- `require_recent_auth` instead of `current_auth`. -/
def Endpoint.requiresRecentAuth : Endpoint Document → Bool
  | .registrationOptions | .registrationVerify .. | .deletePasskey _ => true
  | .reauthenticationOptions | .reauthenticationVerify .. => false

def Attempt.purpose : Attempt Document → Purpose
  | .signIn .. | .malformed => .passkeyAuthentication
  | .register .. => .passkeyRegistration
  | .reauthenticate .. => .passkeyReauthentication

/-- The user whose row the request has locked. -/
def Attempt.owner : Attempt Document → Option UUID
  | .signIn _ _ candidate _ => some candidate.userId
  | .malformed => none
  | .register user .. | .reauthenticate user .. => some user.id

/-- The arguments `user_id` and `session_id` of `consume_challenge`. -/
def Attempt.userId : Attempt Document → Option UUID
  | .signIn .. | .malformed => none
  | .register user .. | .reauthenticate user .. => some user.id

def Attempt.sessionId : Attempt Document → Option UUID
  | .signIn .. | .malformed => none
  | .register _ session .. | .reauthenticate _ session _ => some session.id

def loginBinding (db : Database) : Option String → Binding
  | none => ⟨.passkeyAuthentication, none, none, true⟩
  | some email =>
    let candidate := db.users.find? (·.email = email)
    let user := candidate.filter fun row => row.disabledAt.isNone && row.emailVerifiedAt.isSome
    ⟨.passkeyAuthentication, user.map (·.id), none, false⟩

section Verdicts

variable (webauthn : WebAuthn Document)

/-- The checks of `passkey_login_verify` behind its locks. -/
def signInVerdict (document : Document) (parsed : ParsedCredential) (stored : PasskeyCredential)
    (user : Option User) (challenge : WebAuthnChallenge) : Verdict :=
  if challenge.userId.isSome = true ∧ challenge.userId ≠ some stored.userId then .rejected
  else if challenge.userId = none ∧ challenge.discoverable = false then .rejected
  else if userHandleMatches parsed stored.userId challenge.discoverable = false then .rejected
  else
    match user, verifyAssertion webauthn document stored challenge with
    | some user, some verified =>
      if user.disabledAt.isSome ∨ user.emailVerifiedAt.isNone then .rejected
      else .signIn user stored verified
    | _, _ => .rejected

/-- The checks of `passkey_reauthentication_verify` on the credential that it has locked. -/
def reauthenticationVerdict (document : Document) (parsed : ParsedCredential)
    (stored : PasskeyCredential) (user : User) (session : AuthSession)
    (challenge : WebAuthnChallenge) : Verdict :=
  if stored.userId ≠ user.id then .rejected
  else if userHandleMatches parsed user.id false = false then .rejected
  else
    match verifyAssertion webauthn document stored challenge with
    | none => .rejected
    | some verified => .reauthenticate session stored verified

end Verdicts

def newCredential (user : User) (name : String) (registration : VerifiedRegistration) (id : UUID) :
    PasskeyCredential where
  id
  userId := user.id
  credentialId := registration.credentialId
  publicKey := registration.credentialPublicKey
  signCount := registration.signCount
  name := name.trimAscii.toString
  deviceType := registration.credentialDeviceType
  backedUp := registration.credentialBackedUp
  lastUsedAt := none

/-- The row that `issue_session` adds. -/
def newSession (settings : Settings) (user : User) (id : UUID) (now : Timestamp) : AuthSession where
  id
  userId := user.id
  expiresAt := now + settings.refreshSessionDays * 86400
  revokedAt := none
  reauthenticatedAt := some now

def Database.insertSession (db : Database) (session : AuthSession) : Database :=
  { db with sessions := db.sessions ++ [session] }

def Database.insertCredential (db : Database) (credential : PasskeyCredential) : Database :=
  { db with credentials := db.credentials ++ [credential] }

def Database.removeCredential (db : Database) (id : UUID) : Database :=
  { db with credentials := db.credentials.filter (·.id ≠ id) }

/-- `current.reauthenticated_at` is assigned. -/
def Database.reauthenticate (db : Database) (session : AuthSession) (now : Timestamp) : Database :=
  { db with
    sessions := Rows.updateKey (·.id) session.id (fun row => { row with
      reauthenticatedAt := flush session.reauthenticatedAt (some now) row.reauthenticatedAt }) db.sessions }

/-- The consumption that a request has flushed. -/
def spendChallenge (db : Database) : Option (WebAuthnChallenge × Timestamp) → Database
  | none => db
  | some (challenge, usedAt) => spend db challenge.id usedAt

/-- What a request that verifies adds to it. -/
def applyVerdict (settings : Settings) (db : Database) (verdict : Verdict) (now : Timestamp)
    (sessionId : UUID) : Database :=
  match verdict with
  | .refused | .rejected | .duplicate | .limit => db
  | .signIn user stored verified =>
    (touchCredential db stored verified now).insertSession (newSession settings user sessionId now)
  | .register credential => db.insertCredential credential
  | .reauthenticate session stored verified => (touchCredential db stored verified now).reauthenticate session now

def conclude (settings : Settings) (db : Database) (spent : Option (WebAuthnChallenge × Timestamp))
    (verdict : Verdict) (now : Timestamp) (sessionId : UUID) : Database :=
  applyVerdict settings (spendChallenge db spent) verdict now sessionId

def grantMethod (db : Database) (user : UUID) : SignInMethod → Database
  | .password =>
    { db with users := Rows.updateKey (·.id) user (fun row => { row with passwordEnabled := true }) db.users }
  | .google => { db with identities := db.identities ++ [⟨user, "google"⟩] }

abbrev Step (Document : Type) := Outcome Database (Phase Document) LockKey

/-- The first statements behind the lock of the user. -/
def begin (db : Database) (user : User) (session : AuthSession) : Endpoint Document → Step Document
  | .registrationOptions =>
    if maxPasskeysPerAccount ≤ (db.credentialsOf user.id).length then .finish db .idle
    else .stay db (.issuing ⟨.passkeyRegistration, some user.id, some session.id, false⟩)
  | .reauthenticationOptions =>
    if db.credentialsOf user.id = [] then .finish db .idle
    else .stay db (.issuing ⟨.passkeyReauthentication, some user.id, some session.id, false⟩)
  | .registrationVerify challengeId document name =>
    .stay db (.attempting (.register user session document name) challengeId)
  | .reauthenticationVerify challengeId document =>
    .stay db (.attempting (.reauthenticate user session document) challengeId)
  | .deletePasskey passkeyId =>
    match db.credentials.find? (fun row => row.id = passkeyId ∧ row.userId = user.id) with
    | none => .finish db .idle
    | some _ => .lock (.passkey passkeyId) (.removing user passkeyId)

/-- `consume_challenge`: the SELECT locks the row that it returns. -/
def consume (db : Database) (attempt : Attempt Document) (challengeId : UUID) (now : Timestamp) :
    Step Document :=
  match (db.challenge? challengeId).filter (·.purpose = attempt.purpose) with
  | none => .stay db (.concluding attempt none .refused)
  | some row =>
    .lock (.challenge challengeId)
      (if Acceptable row attempt.userId attempt.sessionId now then .consumed attempt row now
      else .concluding attempt none .refused)

/-- What is done with the consumed challenge. -/
def examine (webauthn : WebAuthn Document) (db : Database) (attempt : Attempt Document)
    (challenge : WebAuthnChallenge) (usedAt : Timestamp) : Step Document :=
  let concluding := Phase.concluding attempt (some (challenge, usedAt))
  match attempt with
  | .malformed => .stay db (concluding .rejected)
  | .signIn document parsed candidate user =>
    match db.credentials.find? (fun row => row.id = candidate.id ∧
        row.credentialId = parsed.rawId ∧ row.userId = candidate.userId) with
    | none => .stay db (concluding .rejected)
    | some _ =>
      .lock (.passkey candidate.id)
        (concluding (signInVerdict webauthn document parsed candidate user challenge))
  | .register _ _ document _ =>
    match verifyRegistration webauthn document challenge with
    | none => .stay db (concluding .rejected)
    | some registration => .stay db (.verified attempt challenge usedAt registration)
  | .reauthenticate user session document =>
    match parseAssertionCredential webauthn document with
    | none => .stay db (concluding .rejected)
    | some parsed =>
      match db.credentials.find? (·.credentialId = parsed.rawId) with
      | none => .stay db (concluding .rejected)
      | some stored =>
        .lock (.passkey stored.id)
          (concluding (reauthenticationVerdict webauthn document parsed stored user session challenge))

/-- The checks of `passkey_registration_verify` that precede the insertion. -/
def countRegistration (db : Database) (attempt : Attempt Document) (user : User)
    (challenge : WebAuthnChallenge) (usedAt : Timestamp) (registration : VerifiedRegistration) :
    Phase Document :=
  if db.credentials.any (·.credentialId = registration.credentialId) then
    .concluding attempt (some (challenge, usedAt)) .duplicate
  else if maxPasskeysPerAccount ≤ (db.credentialsOf user.id).length then
    .concluding attempt (some (challenge, usedAt)) .limit
  else .counted attempt challenge usedAt registration

/-- `delete_passkey`: the account needs another passkey or another way to sign in. -/
def countRemoval (settings : Settings) (db : Database) (user : User) (passkeyId : UUID) :
    Step Document :=
  if (db.credentialsOf user.id).all (·.id = passkeyId) ∧ user.passwordEnabled = false ∧
      (settings.googleAuthEnabled && db.hasGoogleIdentity user.id) = false then .finish db .idle
  else .stay db (.removable user passkeyId)

def program (webauthn : WebAuthn Document) (settings : Settings) (db : Database)
    (phase : Phase Document) : Action Document → Option (Step Document)
  | .loginOptions email =>
    match phase with
    | .idle => some (.stay db (.issuing (loginBinding db email)))
    | _ => none
  | .loginVerify challengeId document =>
    match phase with
    | .idle =>
      match parseAssertionCredential webauthn document with
      | none => some (.stay db (.attempting .malformed challengeId))
      | some parsed =>
        match db.credentials.find? (·.credentialId = parsed.rawId) with
        | none => some (.stay db (.attempting .malformed challengeId))
        | some credential => some (.stay db (.candidate challengeId document parsed credential))
    | _ => none
  | .authenticate userId sessionId now endpoint =>
    match phase, db.user? userId, db.session? sessionId with
    | .idle, some user, some session =>
      if session.userId = userId ∧ session.revokedAt = none ∧ now < session.expiresAt ∧
          user.disabledAt = none ∧
          (endpoint.requiresRecentAuth = true → sessionHasRecentAuth settings session now = true) then
        some (.stay db (.authenticated user session endpoint))
      else none
    | _, _, _ => none
  | .lockUser =>
    match phase with
    | .authenticated user session endpoint =>
      match db.user? user.id with
      | none => some (.finish db .idle)
      | some _ => some (.lock (.user user.id) (.locked user session endpoint))
    | .candidate challengeId document parsed credential =>
      some (.lock (.user credential.userId)
        (.attempting (.signIn document parsed credential (db.user? credential.userId)) challengeId))
    | _ => none
  | .begin =>
    match phase with
    | .locked user session endpoint => some (begin db user session endpoint)
    | _ => none
  | .cleanup now =>
    match phase with
    | .issuing binding => some (.stay db (.cleaning binding now (cleanupIds db now) []))
    | _ => none
  | .deleteChallenge =>
    match phase with
    | .cleaning binding now (id :: pending) deleted =>
      some (.lock (.challenge id) (.cleaning binding now pending (id :: deleted)))
    | _ => none
  | .issue id challenge createdAt =>
    match phase with
    | .cleaning binding now [] deleted =>
      if (db.challenges.filter (·.id ∉ deleted)).any fun row => row.id = id ∨ row.challenge = challenge then
        some (.finish db .idle)
      else
        some (.finish (createChallenge db deleted binding now
          (newChallenge settings binding now id challenge createdAt)) .idle)
    | _ => none
  | .consume now =>
    match phase with
    | .attempting attempt challengeId => some (consume db attempt challengeId now)
    | _ => none
  | .examine =>
    match phase with
    | .consumed attempt challenge usedAt => some (examine webauthn db attempt challenge usedAt)
    | _ => none
  | .count =>
    match phase with
    | .verified attempt challenge usedAt registration =>
      match attempt with
      | .register user _ _ _ =>
        some (.stay db (countRegistration db attempt user challenge usedAt registration))
      | _ => none
    | .removing user passkeyId => some (countRemoval settings db user passkeyId)
    | _ => none
  | .insert id =>
    match phase with
    | .counted attempt challenge usedAt registration =>
      match attempt with
      | .register user _ _ name =>
        some (.lock (.passkey id)
          (if db.credentials.any (·.id = id) then .concluding attempt (some (challenge, usedAt)) .duplicate
          else .inserting attempt challenge usedAt (newCredential user name registration id)))
      | _ => none
    | _ => none
  | .flush =>
    match phase with
    | .inserting attempt challenge usedAt credential =>
      some (.lock (.credentialId credential.credentialId)
        (.concluding attempt (some (challenge, usedAt))
          (if db.credentials.any (·.credentialId = credential.credentialId) then .duplicate
          else .register credential)))
    | _ => none
  | .commit now sessionId =>
    match phase with
    | .concluding _ spent verdict =>
      match verdict with
      | .signIn .. =>
        if db.sessions.any (·.id = sessionId) then some (.finish db .idle)
        else some (.finish (conclude settings db spent verdict now sessionId) .idle)
      | _ => some (.finish (conclude settings db spent verdict now sessionId) .idle)
    | .removable _ passkeyId => some (.finish (db.removeCredential passkeyId) .idle)
    | .granting user method => some (.finish (grantMethod db user method) .idle)
    | _ => none
  | .grant user method =>
    match phase with
    | .idle => some (.lock (.user user) (.granting user method))
    | _ => none
  | .stop => some (.finish db .idle)

abbrev Service (Document : Type) := Store Database (Phase Document) LockKey Nat

def start (db : Database) : Service Document := Store.idle db .idle

def step (webauthn : WebAuthn Document) (settings : Settings) :
    Service Document → Nat × Action Document → Option (Service Document) :=
  Store.step (program webauthn settings)

def Attempt.Locks (attempt : Attempt Document) (k : LockKey) : Prop :=
  ∃ user, attempt.owner = some user ∧ k = .user user

/-- The options endpoints behind `current_auth` lock their user, the public one does not. -/
def Binding.Locks (binding : Binding) (k : LockKey) : Prop :=
  binding.sessionId.isSome = true ∧ ∃ user, binding.userId = some user ∧ k = .user user

def Verdict.Locks : Verdict → LockKey → Prop
  | .signIn _ stored _, k | .reauthenticate _ stored _, k => k = .passkey stored.id
  | .register credential, k => k = .passkey credential.id ∨ k = .credentialId credential.credentialId
  | _, _ => False

/-- The locks that a program point relies on. -/
def Phase.Holds : Phase Document → LockKey → Prop
  | .locked user _ _, k => k = .user user.id
  | .granting user _, k => k = .user user
  | .issuing binding, k => binding.Locks k
  | .cleaning binding _ _ deleted, k => binding.Locks k ∨ ∃ id ∈ deleted, k = .challenge id
  | .attempting attempt _, k => attempt.Locks k
  | .consumed attempt challenge _, k | .verified attempt challenge _ _, k
  | .counted attempt challenge _ _, k => attempt.Locks k ∨ k = .challenge challenge.id
  | .inserting attempt challenge _ credential, k =>
    attempt.Locks k ∨ k = .challenge challenge.id ∨ k = .passkey credential.id
  | .concluding attempt spent verdict, k =>
    attempt.Locks k ∨ (∃ challenge ∈ spent, k = .challenge challenge.1.id) ∨ verdict.Locks k
  | .removing user passkeyId, k | .removable user passkeyId, k =>
    k = .user user.id ∨ k = .passkey passkeyId
  | _, _ => False

def locks : Locks (Phase Document) LockKey := ⟨Phase.Holds, fun _ _ => False⟩

/-- The challenge that a step issues. -/
def issuedBy (settings : Settings) (db : Database) (phase : Phase Document) (action : Action Document) :
    Option WebAuthnChallenge :=
  match action, phase with
  | .issue id challenge createdAt, .cleaning binding now [] deleted =>
    if (db.challenges.filter (·.id ∉ deleted)).any fun row => row.id = id ∨ row.challenge = challenge then
      none
    else some (newChallenge settings binding now id challenge createdAt)
  | _, _ => none

/-- A verification that a step concludes and commits, with the challenge it has consumed. -/
structure Conclusion (Document : Type) where
  attempt : Attempt Document
  challenge : WebAuthnChallenge
  usedAt : Timestamp
  verdict : Verdict

def concludedBy (db : Database) (phase : Phase Document) (action : Action Document) :
    Option (Conclusion Document) :=
  match action, phase with
  | .commit _ sessionId, .concluding attempt (some (challenge, usedAt)) verdict =>
    match verdict with
    | .signIn .. =>
      if db.sessions.any (·.id = sessionId) then none else some ⟨attempt, challenge, usedAt, verdict⟩
    | _ => some ⟨attempt, challenge, usedAt, verdict⟩
  | _, _ => none

/-- What a step leaves in the database. -/
inductive Written (settings : Settings) (db : Database) :
    Phase Document → Action Document → Database → Prop where
  | nothing (phase action) (issues : issuedBy settings db phase action = none)
      (concludes : concludedBy db phase action = none) : Written settings db phase action db
  | issued (binding now deleted id challenge createdAt)
      (fresh : ∀ row ∈ db.challenges, row.id ∉ deleted → row.id ≠ id)
      (issues : issuedBy settings db (.cleaning binding now [] deleted : Phase Document)
        (.issue id challenge createdAt) = some (newChallenge settings binding now id challenge createdAt)) :
    Written settings db (.cleaning binding now [] deleted) (.issue id challenge createdAt)
      (createChallenge db deleted binding now (newChallenge settings binding now id challenge createdAt))
  | concluded (attempt spent verdict now sessionId)
      (concludes : ∀ challenge ∈ spent,
        concludedBy db (Phase.concluding attempt spent verdict) (.commit now sessionId) =
          some ⟨attempt, challenge.1, challenge.2, verdict⟩) :
    Written settings db (.concluding attempt spent verdict) (.commit now sessionId)
      (conclude settings db spent verdict now sessionId)
  | removed (user passkeyId now sessionId) :
    Written settings db (.removable user passkeyId) (.commit now sessionId) (db.removeCredential passkeyId)
  | granted (user method now sessionId) :
    Written settings db (.granting user method) (.commit now sessionId) (grantMethod db user method)

variable {webauthn : WebAuthn Document} {settings : Settings} {db : Database}
  {phase : Phase Document} {action : Action Document} {outcome : Step Document}

theorem begin_result {user : User} {session : AuthSession} {endpoint : Endpoint Document} :
    (begin db user session endpoint).result db = db := by
  cases endpoint with
  | registrationVerify challengeId document name | reauthenticationVerify challengeId document => rfl
  | _ =>
    simp only [begin]
    split <;> rfl

theorem consume_result {attempt : Attempt Document} {challengeId : UUID} {now : Timestamp} :
    (consume db attempt challengeId now).result db = db := by
  unfold consume
  split <;> rfl

theorem examine_result {attempt : Attempt Document} {challenge : WebAuthnChallenge}
    {usedAt : Timestamp} : (examine webauthn db attempt challenge usedAt).result db = db := by
  unfold examine
  cases attempt with
  | malformed => rfl
  | signIn document parsed candidate user =>
    dsimp only
    split <;> rfl
  | register user session document name =>
    dsimp only
    split <;> rfl
  | reauthenticate user session document =>
    dsimp only
    split
    · rfl
    · split <;> rfl

theorem countRemoval_result {user : User} {passkeyId : UUID} :
    (countRemoval settings db user passkeyId : Step Document).result db = db := by
  unfold countRemoval
  split <;> rfl

theorem program_written (chosen : program webauthn settings db phase action = some outcome) :
    Written settings db phase action (outcome.result db) := by
  cases action with
  | loginOptions email =>
    cases phase <;> cases chosen
    exact .nothing _ _ rfl rfl
  | loginVerify challengeId document =>
    simp only [program] at chosen
    split at chosen
    · split at chosen
      · cases chosen
        exact .nothing _ _ rfl rfl
      · split at chosen <;> (cases chosen; exact .nothing _ _ rfl rfl)
    · contradiction
  | authenticate userId sessionId now endpoint =>
    simp only [program] at chosen
    split at chosen
    · split_ifs at chosen
      cases chosen
      exact .nothing _ _ rfl rfl
    · contradiction
  | lockUser =>
    simp only [program] at chosen
    split at chosen
    · split at chosen <;> (cases chosen; exact .nothing _ _ rfl rfl)
    · cases chosen
      exact .nothing _ _ rfl rfl
    · contradiction
  | begin =>
    cases phase with
    | locked user session endpoint =>
      cases chosen
      rw [begin_result]
      exact .nothing _ _ rfl rfl
    | _ => contradiction
  | cleanup now =>
    cases phase <;> cases chosen
    exact .nothing _ _ rfl rfl
  | deleteChallenge =>
    simp only [program] at chosen
    split at chosen
    · cases chosen
      exact .nothing _ _ rfl rfl
    · contradiction
  | issue id challenge createdAt =>
    simp only [program] at chosen
    split at chosen
    · split at chosen
      · rename_i clash
        cases chosen
        exact .nothing _ _ (if_pos clash) rfl
      · rename_i unique
        cases chosen
        refine .issued _ _ _ _ _ _ (fun row member kept same => unique ?_) (if_neg unique)
        rw [List.any_eq_true]
        exact ⟨row, List.mem_filter.mpr ⟨member, decide_eq_true kept⟩, decide_eq_true (.inl same)⟩
    · contradiction
  | consume now =>
    cases phase with
    | attempting attempt challengeId =>
      cases chosen
      rw [consume_result]
      exact .nothing _ _ rfl rfl
    | _ => contradiction
  | examine =>
    cases phase with
    | consumed attempt challenge usedAt =>
      cases chosen
      rw [examine_result]
      exact .nothing _ _ rfl rfl
    | _ => contradiction
  | count =>
    simp only [program] at chosen
    split at chosen
    · split at chosen
      · cases chosen
        exact .nothing _ _ rfl rfl
      · contradiction
    · cases chosen
      rw [countRemoval_result]
      exact .nothing _ _ rfl rfl
    · contradiction
  | insert id =>
    simp only [program] at chosen
    split at chosen
    · split at chosen
      · cases chosen
        exact .nothing _ _ rfl rfl
      · contradiction
    · contradiction
  | flush =>
    cases phase <;> cases chosen
    exact .nothing _ _ rfl rfl
  | commit now sessionId =>
    simp only [program] at chosen
    split at chosen
    · rename_i spent verdict
      split at chosen
      · split at chosen
        · rename_i clash
          cases chosen
          refine .nothing _ _ rfl ?_
          cases spent with
          | none => rfl
          | some challenge => exact if_pos clash
        · rename_i fresh
          cases chosen
          refine .concluded _ _ _ _ _ ?_
          rintro challenge ⟨⟩
          exact if_neg fresh
      · rename_i other
        cases chosen
        refine .concluded _ _ _ _ _ ?_
        rintro challenge ⟨⟩
        cases verdict with
        | signIn user stored verified => exact absurd rfl (other user stored verified)
        | _ => rfl
    · cases chosen
      exact .removed ..
    · cases chosen
      exact .granted ..
    · contradiction
  | grant user method =>
    cases phase <;> cases chosen
    exact .nothing _ _ rfl rfl
  | stop =>
    cases chosen
    exact .nothing _ _ rfl rfl

@[simp] theorem locks_exclusive : (@locks Document).exclusive = Phase.Holds := rfl

@[simp] theorem locks_shared (k : LockKey) : ¬ (@locks Document).shared phase k := id

theorem keeps_stay {db' : Database} {next : Phase Document}
    (kept : ∀ k, next.Holds k → phase.Holds k) : locks.Keeps phase (.stay db' next : Step Document) :=
  ⟨kept, fun _ never => never⟩

theorem keeps_lock {key : LockKey} {next : Phase Document}
    (kept : ∀ k, next.Holds k → k = key ∨ phase.Holds k) :
    locks.Keeps phase (.lock key next : Step Document) :=
  ⟨kept, fun _ never => never⟩

theorem keeps_finish {db' : Database} : locks.Keeps phase (.finish db' .idle : Step Document) :=
  ⟨fun _ never => never, fun _ never => never⟩

theorem begin_keeps {user : User} {session : AuthSession} {endpoint : Endpoint Document} :
    locks.Keeps (.locked user session endpoint) (begin db user session endpoint) := by
  cases endpoint with
  | registrationOptions | reauthenticationOptions =>
    simp only [begin]
    split
    · exact keeps_finish
    · apply keeps_stay
      rintro k ⟨_, owner, same, rfl⟩
      cases same
      rfl
  | registrationVerify challengeId document name | reauthenticationVerify challengeId document =>
    apply keeps_stay
    rintro k ⟨owner, same, rfl⟩
    cases same
    rfl
  | deletePasskey passkeyId =>
    simp only [begin]
    split
    · exact keeps_finish
    · apply keeps_lock
      rintro k (rfl | rfl)
      · exact .inr rfl
      · exact .inl rfl

theorem consume_keeps {attempt : Attempt Document} {challengeId : UUID} {now : Timestamp} :
    locks.Keeps (.attempting attempt challengeId) (consume db attempt challengeId now) := by
  unfold consume
  split
  · apply keeps_stay
    rintro k (owned | ⟨_, never, _⟩ | never)
    · exact owned
    · contradiction
    · contradiction
  · rename_i row found
    obtain ⟨there, _⟩ := Option.filter_eq_some_iff.mp found
    have same : row.id = challengeId := (Rows.find?_key there).2
    apply keeps_lock
    intro k held
    split at held
    · rcases held with owned | rfl
      · exact .inr owned
      · exact .inl (by rw [same])
    · rcases held with owned | ⟨_, never, _⟩ | never
      · exact .inr owned
      · contradiction
      · contradiction

/-- A verdict relies on the credential that was locked for it. -/
theorem signInVerdict_locks {document : Document} {parsed : ParsedCredential}
    {stored : PasskeyCredential} {user : Option User} {challenge : WebAuthnChallenge} {k : LockKey}
    (relies : (signInVerdict webauthn document parsed stored user challenge).Locks k) :
    k = .passkey stored.id := by
  unfold signInVerdict at relies
  split_ifs at relies
  · contradiction
  · contradiction
  · contradiction
  · split at relies
    · split_ifs at relies
      · contradiction
      · exact relies
    · contradiction

theorem reauthenticationVerdict_locks {document : Document} {parsed : ParsedCredential}
    {stored : PasskeyCredential} {user : User} {session : AuthSession}
    {challenge : WebAuthnChallenge} {k : LockKey}
    (relies : (reauthenticationVerdict webauthn document parsed stored user session challenge).Locks k) :
    k = .passkey stored.id := by
  unfold reauthenticationVerdict at relies
  split_ifs at relies
  · contradiction
  · contradiction
  · split at relies
    · contradiction
    · exact relies

theorem concluding_holds {attempt : Attempt Document} {challenge : WebAuthnChallenge}
    {usedAt : Timestamp} {verdict : Verdict} {k : LockKey}
    (held : (Phase.concluding attempt (some (challenge, usedAt)) verdict).Holds k) :
    (attempt.Locks k ∨ k = .challenge challenge.id) ∨ verdict.Locks k := by
  rcases held with owned | ⟨_, same, rfl⟩ | relies
  · exact .inl (.inl owned)
  · cases same
    exact .inl (.inr rfl)
  · exact .inr relies

theorem examine_keeps {attempt : Attempt Document} {challenge : WebAuthnChallenge} {usedAt : Timestamp} :
    locks.Keeps (.consumed attempt challenge usedAt) (examine webauthn db attempt challenge usedAt) := by
  have rejects : locks.Keeps (.consumed attempt challenge usedAt)
      (.stay db (.concluding attempt (some (challenge, usedAt)) .rejected) : Step Document) := by
    apply keeps_stay
    intro k held
    exact (concluding_holds held).resolve_right id
  unfold examine
  cases attempt with
  | malformed => exact rejects
  | signIn document parsed candidate user =>
    dsimp only
    split
    · exact rejects
    · apply keeps_lock
      intro k held
      exact (concluding_holds held).symm.imp_left signInVerdict_locks
  | register user session document name =>
    dsimp only
    split
    · exact rejects
    · exact keeps_stay fun k held => held
  | reauthenticate user session document =>
    dsimp only
    split
    · exact rejects
    · split
      · exact rejects
      · apply keeps_lock
        intro k held
        exact (concluding_holds held).symm.imp_left reauthenticationVerdict_locks

theorem program_keeps (chosen : program webauthn settings db phase action = some outcome) :
    locks.Keeps phase outcome := by
  cases action with
  | loginOptions email =>
    cases phase with
    | idle =>
      cases chosen
      apply keeps_stay
      rintro k ⟨bound, _⟩
      cases email <;> contradiction
    | _ => contradiction
  | loginVerify challengeId document =>
    have malformed : locks.Keeps .idle (.stay db (.attempting .malformed challengeId) : Step Document) := by
      apply keeps_stay
      rintro k ⟨_, never, _⟩
      contradiction
    simp only [program] at chosen
    split at chosen
    · split at chosen
      · cases chosen
        exact malformed
      · split at chosen
        · cases chosen
          exact malformed
        · cases chosen
          exact keeps_stay fun k held => held
    · contradiction
  | authenticate userId sessionId now endpoint =>
    simp only [program] at chosen
    split at chosen
    · split_ifs at chosen
      cases chosen
      exact keeps_stay fun k held => held
    · contradiction
  | lockUser =>
    simp only [program] at chosen
    split at chosen
    · split at chosen
      · cases chosen
        exact keeps_finish
      · cases chosen
        exact keeps_lock fun k held => .inl held
    · cases chosen
      apply keeps_lock
      rintro k ⟨owner, same, rfl⟩
      cases same
      exact .inl rfl
    · contradiction
  | begin =>
    cases phase with
    | locked user session endpoint =>
      cases chosen
      exact begin_keeps
    | _ => contradiction
  | cleanup now =>
    cases phase with
    | issuing binding =>
      cases chosen
      apply keeps_stay
      rintro k (owned | ⟨_, never, _⟩)
      · exact owned
      · contradiction
    | _ => contradiction
  | deleteChallenge =>
    simp only [program] at chosen
    split at chosen
    · cases chosen
      apply keeps_lock
      rintro k (owned | ⟨id, member, rfl⟩)
      · exact .inr (.inl owned)
      · rcases List.mem_cons.mp member with rfl | before
        · exact .inl rfl
        · exact .inr (.inr ⟨id, before, rfl⟩)
    · contradiction
  | issue id challenge createdAt =>
    simp only [program] at chosen
    split at chosen
    · split at chosen <;> (cases chosen; exact keeps_finish)
    · contradiction
  | consume now =>
    cases phase with
    | attempting attempt challengeId =>
      cases chosen
      exact consume_keeps
    | _ => contradiction
  | examine =>
    cases phase with
    | consumed attempt challenge usedAt =>
      cases chosen
      exact examine_keeps
    | _ => contradiction
  | count =>
    simp only [program] at chosen
    split at chosen
    · split at chosen
      · cases chosen
        apply keeps_stay
        intro k held
        unfold countRegistration at held
        split_ifs at held
        · exact (concluding_holds held).resolve_right id
        · exact (concluding_holds held).resolve_right id
        · exact held
      · contradiction
    · cases chosen
      unfold countRemoval
      split
      · exact keeps_finish
      · exact keeps_stay fun k held => held
    · contradiction
  | insert id =>
    simp only [program] at chosen
    split at chosen
    · split at chosen
      · cases chosen
        apply keeps_lock
        intro k held
        split at held
        · exact .inr ((concluding_holds held).resolve_right fun never => never)
        · rcases held with owned | spent | rfl
          · exact .inr (.inl owned)
          · exact .inr (.inr spent)
          · exact .inl rfl
      · contradiction
    · contradiction
  | flush =>
    cases phase with
    | inserting attempt challenge usedAt credential =>
      cases chosen
      apply keeps_lock
      intro k held
      rcases concluding_holds held with (owned | spent) | relies
      · exact .inr (.inl owned)
      · exact .inr (.inr (.inl spent))
      · split at relies
        · contradiction
        · rcases relies with rfl | rfl
          · exact .inr (.inr (.inr rfl))
          · exact .inl rfl
    | _ => contradiction
  | commit now sessionId =>
    simp only [program] at chosen
    split at chosen
    · split at chosen
      · split at chosen <;> (cases chosen; exact keeps_finish)
      · cases chosen
        exact keeps_finish
    · cases chosen
      exact keeps_finish
    · cases chosen
      exact keeps_finish
    · contradiction
  | grant user method =>
    cases phase with
    | idle =>
      cases chosen
      exact keeps_lock fun k held => .inl held
    | _ => contradiction
  | stop =>
    cases chosen
    exact keeps_finish

end Drivebound.Passkeys
