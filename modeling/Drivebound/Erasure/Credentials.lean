import Drivebound.Core.Sessions
import Drivebound.Erasure.Database

/-! The requests that write the account's row: `delete_account`, the replay of a
suppression marker, `change_password`, `setup_mfa`, `confirm_mfa`, `disable_mfa` and
the part of `persist_managed_asset` that initializes the media key. Each of them has
loaded the row before it waits for the row's lock; the locking SELECT returns the same
instance unrefreshed, unless it is told to populate it anew. -/
namespace Drivebound.Erasure
open Sessions

inductive Endpoint where
  | deleteAccount | replayMarker | changePassword | setupMfa | confirmMfa | disableMfa | storeUpload
  deriving DecidableEq, Repr

/-- An instance of the account's row in a session, with the `AuthSession` of the request. -/
structure Instance where
  loaded : User
  current : User
  session : UUID
  deriving DecidableEq, Repr

inductive Phase where
  | idle
  | authenticated (endpoint : Endpoint) (user : Instance)
  | locked (endpoint : Endpoint) (user : Instance)
  /-- The locking SELECT has returned its instance. -/
  | selected (endpoint : Endpoint) (user : Instance)
  /-- The request has been confirmed with a password and a second factor. -/
  | confirmed (endpoint : Endpoint) (user : Instance)
  deriving DecidableEq, Repr

inductive LockKey where
  | user (id : UUID)
  deriving DecidableEq, Repr

/-- What the requests draw at random, read off a clock or are given. -/
structure Values where
  now : Timestamp
  passwordDigest : String
  secret : String
  step : Option Nat
  mediaKey : String
  deletion : DeletionRequest
  deriving DecidableEq, Repr

inductive Action where
  | authenticate (endpoint : Endpoint) (user session : UUID)
  | lockUser
  | select
  /-- Passwords, recent authentication, rate limits and confirmations that are accepted. -/
  | verify (step : Option Nat)
  | commit (values : Values)
  /-- Any refusal or exception, a failed commit included, and a crash. -/
  | refuse
  deriving DecidableEq, Repr

def Endpoint.needsSecondFactor : Endpoint → Bool
  | .deleteAccount | .changePassword | .disableMfa => true
  | _ => false

/-- `verify_second_factor` with a code that is accepted: as a step, or from the recovery codes. -/
def verifySecondFactor (stored : Option User) (user : Instance) (step : Option Nat) :
    Option Instance :=
  user.current.verifySecondFactor stored user fun row _ =>
    some { user with
      loaded := row
      current := { row with totpLastUsedStep := step <|> row.totpLastUsedStep } }

/-- The checks between the lock and the assignments. -/
def verify (db : Database) (endpoint : Endpoint) (user : Instance) (step : Option Nat) :
    Option Instance :=
  if endpoint.needsSecondFactor = true ∧ user.current.passwordEnabled = true then
    verifySecondFactor (db.user? user.current.id) user step
  else some user

/-- The locking SELECT: `confirm_mfa` has its row populated anew, an upload asks for an
account that is not disabled. -/
def selectUser (db : Database) (endpoint : Endpoint) (user : Instance) : Option Instance :=
  match endpoint, db.user? user.current.id with
  | _, none => none
  | .confirmMfa, some row => some { user with loaded := row, current := row }
  | .storeUpload, some row => if row.disabledAt.isSome then none else some user
  | _, some _ => some user

/-- The attributes that an endpoint assigns; `none` where it refuses. -/
def assign (endpoint : Endpoint) (user : Instance) (values : Values) : Option User :=
  let current := user.current
  match endpoint with
  | .changePassword => some { current with
      passwordHash := .digest values.passwordDigest
      passwordEnabled := true
      passwordSetAt := some values.now }
  | .setupMfa => some { current with
      pendingTotpSecretEncrypted := some values.secret
      pendingTotpExpiresAt := some (values.now + 600)
      pendingTotpSessionId := some user.session }
  | .confirmMfa =>
    if current.pendingTotpSecretEncrypted.isSome ∧
        current.pendingTotpExpiresAt.any (values.now < ·) ∧
        current.pendingTotpSessionId = some user.session then
      some { current with
        totpSecretEncrypted := current.pendingTotpSecretEncrypted
        pendingTotpSecretEncrypted := none
        pendingTotpExpiresAt := none
        pendingTotpSessionId := none
        totpEnabledAt := some values.now
        totpLastUsedStep := values.step }
    else none
  | .disableMfa => some { current with
      totpEnabledAt := none
      totpSecretEncrypted := none
      totpLastUsedStep := none
      pendingTotpSecretEncrypted := none
      pendingTotpExpiresAt := none
      pendingTotpSessionId := none }
  | .storeUpload =>
    if current.mediaKeyEncrypted.isNone then
      some { current with mediaKeyEncrypted := some values.mediaKey, mediaKeyVersion := 1 }
    else none
  | .deleteAccount | .replayMarker => none

/-- The requests that also write the row of their `AuthSession`. -/
def Endpoint.touchesSession : Endpoint → Bool
  | .changePassword | .confirmMfa | .disableMfa => true
  | _ => false

def Database.hasSession (db : Database) (session user : UUID) : Bool :=
  db.credentials.any (· = ⟨.authSession, session, user⟩)

abbrev Step := Outcome Database Phase LockKey

/-- Flush and commit. An `UPDATE` of a deleted `AuthSession` and a row that breaks a
CHECK constraint roll the transaction back. -/
def commitUser (db : Database) (endpoint : Endpoint) (user : Instance) (values : Values) :
    Database :=
  match assign endpoint user values, db.user? user.current.id with
  | some assigned, some row =>
    if endpoint.touchesSession = true ∧ db.hasSession user.session user.current.id = false then db
    else if (User.flush user.loaded assigned row).Complete then
      db.setUser user.current.id (User.flush user.loaded assigned)
    else db
  | _, _ => db

def commitDeletion (db : Database) (user : Instance) (values : Values) : Option Database :=
  if db.jobs.any (·.id = values.deletion.jobId) then none
  else some (prepareAccountDeletion db user.loaded user.current values.deletion)

def program (db : Database) (phase : Phase) : Action → Option Step
  | .authenticate endpoint id session =>
    match phase, db.user? id with
    | .idle, some row =>
      if endpoint = .replayMarker then
        some (.stay db (.authenticated endpoint ⟨row, row, session⟩))
      else if row.disabledAt.isNone ∧ db.credentials.any (fun credential =>
          credential.id = session ∧ credential.userId = id) then
        some (.stay db (.authenticated endpoint ⟨row, row, session⟩))
      else none
    | _, _ => none
  | .lockUser =>
    match phase with
    | .authenticated endpoint user => some (.lock (.user user.current.id) (.locked endpoint user))
    | _ => none
  | .select =>
    match phase with
    | .locked endpoint user =>
      match selectUser db endpoint user with
      | some selected => some (.stay db (.selected endpoint selected))
      | none => some (.finish db .idle)
    | _ => none
  | .verify step =>
    match phase with
    | .selected endpoint user =>
      match verify db endpoint user step with
      | some confirmed => some (.stay db (.confirmed endpoint confirmed))
      | none => some (.finish db .idle)
    | _ => none
  | .commit values =>
    match phase with
    | .confirmed .deleteAccount user | .confirmed .replayMarker user =>
      (commitDeletion db user values).map (.finish · .idle)
    | .confirmed endpoint user => some (.finish (commitUser db endpoint user values) .idle)
    | _ => none
  | .refuse => some (.finish db .idle)

abbrev Requests := Store Database Phase LockKey Nat

abbrev step : Requests → Nat × Action → Option Requests := Store.step program

end Drivebound.Erasure
