import Drivebound.Account.Access
import Drivebound.Core.Rows
import Drivebound.Erasure.Database

/-! The tables of `models/auth.py` that the endpoints of `api/v1/auth.py` sign in with, and
the functions on them: `verify_second_factor`, `create_account_token` and what a session is
issued, rotated and revoked by. Hashing, TOTP and encryption are parameters. -/
namespace Drivebound.Auth
open Attributes
open Erasure (User PasswordHash)

inductive Purpose where
  | verifyEmail | passwordReset | googleMfaLogin
  deriving DecidableEq, Repr

structure AuthSession where
  id : UUID
  userId : UUID
  refreshTokenHash : String
  expiresAt : Timestamp
  revokedAt : Option Timestamp
  reauthenticatedAt : Option Timestamp
  deriving DecidableEq, Repr

structure AccountToken where
  userId : UUID
  purpose : Purpose
  tokenHash : String
  expiresAt : Timestamp
  usedAt : Option Timestamp
  deriving DecidableEq, Repr

structure MfaRecoveryCode where
  userId : UUID
  codeHash : String
  usedAt : Option Timestamp
  deriving DecidableEq, Repr

structure Database where
  users : List User
  sessions : List AuthSession
  tokens : List AccountToken
  recoveryCodes : List MfaRecoveryCode
  deriving DecidableEq, Repr

structure Settings where
  accessTokenMinutes : Nat
  refreshSessionDays : Nat
  recentAuthMinutes : Nat
  deriving DecidableEq, Repr

/-- `verify_password`, `token_digest`, and `pyotp.TOTP(decrypt_secret(secret)).at` by step. -/
structure Crypto where
  verifyPassword : String → PasswordHash → Bool
  tokenDigest : String → String
  totpAt : String → Nat → String

/-- A row of `users` in a session: as it was loaded and as it is assigned to. -/
structure Instance where
  loaded : User
  current : User
  deriving DecidableEq, Repr

def Instance.fresh (row : User) : Instance := ⟨row, row⟩

namespace Database

def user? (db : Database) (id : UUID) : Option User := db.users.find? (·.id = id)

def session? (db : Database) (id : UUID) : Option AuthSession := db.sessions.find? (·.id = id)

def setUser (db : Database) (id : UUID) (change : User → User) : Database :=
  { db with users := Rows.updateKey (·.id) id change db.users }

def setSession (db : Database) (id : UUID) (change : AuthSession → AuthSession) : Database :=
  { db with sessions := Rows.updateKey (·.id) id change db.sessions }

/-- `UPDATE auth_sessions SET revoked_at`, where it is not set yet. -/
def revokeSessions (db : Database) (chosen : AuthSession → Bool) (now : Timestamp) : Database :=
  { db with
    sessions := db.sessions.map fun row =>
      if chosen row = true ∧ row.revokedAt = none then { row with revokedAt := some now } else row }

/-- `UPDATE account_tokens SET used_at`, where it is not set yet. -/
def useTokens (db : Database) (chosen : AccountToken → Bool) (now : Timestamp) : Database :=
  { db with
    tokens := db.tokens.map fun row =>
      if chosen row = true ∧ row.usedAt = none then { row with usedAt := some now } else row }

/-- `UPDATE mfa_recovery_codes SET used_at`. -/
def useCodes (db : Database) (chosen : MfaRecoveryCode → Bool) (now : Timestamp) : Database :=
  { db with
    recoveryCodes := db.recoveryCodes.map fun row =>
      if chosen row = true then { row with usedAt := some now } else row }

end Database

/-- What a second factor was proved with. -/
inductive Factor where
  /-- The instance shows no second factor. -/
  | notRequired
  | totp (step : Nat)
  | recovery (codeHash : String)
  deriving DecidableEq, Repr

/-- `code.replace("-", "").replace(" ", "").upper()`. -/
def normalizeCode (code : String) : String :=
  String.ofList ((code.toList.filter fun c => c ≠ '-' ∧ c ≠ ' ').map Char.toUpper)

def isDigits (code : String) : Bool := code ≠ "" && code.toList.all Char.isDigit

def matchingTotpStep (crypto : Crypto) (secret code : String) (currentStep : Nat) : Option Nat :=
  [currentStep - 1, currentStep, currentStep + 1].find? fun step => crypto.totpAt secret step = code

/-- The row that `verify_second_factor` has locked and loaded anew. -/
def proveFactor (crypto : Crypto) (db : Database) (row : User) (secret code : String)
    (currentStep : Nat) : Option (Instance × Factor) :=
  let normalized := normalizeCode code
  let matchedStep :=
    if isDigits normalized then matchingTotpStep crypto secret normalized currentStep else none
  match matchedStep with
  | some step =>
    if row.totpLastUsedStep.any (step ≤ ·) then none
    else some (⟨row, { row with totpLastUsedStep := some step }⟩, .totp step)
  | none =>
    (db.recoveryCodes.find? fun recovery => recovery.userId = row.id ∧
        recovery.codeHash = crypto.tokenDigest normalized ∧ recovery.usedAt = none).map
      fun recovery => (.fresh row, .recovery recovery.codeHash)

/-- `verify_second_factor`; an empty code is none. -/
def verifySecondFactor (crypto : Crypto) (db : Database) (user : Instance) (code : Option String)
    (currentStep : Nat) : Option (Instance × Factor) :=
  user.current.verifySecondFactor (db.user? user.current.id) (user, .notRequired) fun row secret =>
    match code with
    | none => none
    | some code => if code = "" then none else proveFactor crypto db row secret code currentStep

def sessionHasRecentAuth (settings : Settings) (session : AuthSession) (now : Timestamp) : Bool :=
  Account.sessionHasRecentAuth settings.recentAuthMinutes session.reauthenticatedAt now

def Purpose.lifetime : Purpose → Nat
  | .verifyEmail => 24 * 3600
  | .passwordReset => 30 * 60
  | .googleMfaLogin => 5 * 60

/-- `create_account_token`: a newer link supersedes the older ones of its purpose. -/
def createAccountToken (db : Database) (user : UUID) (purpose : Purpose) (tokenHash : String)
    (now : Timestamp) : Database :=
  { db with
    tokens := Account.createAccountToken
      (fun row => row.userId = user ∧ row.purpose = purpose ∧ row.usedAt = none)
      (fun row => { row with usedAt := some now })
      ⟨user, purpose, tokenHash, now + purpose.lifetime, none⟩ db.tokens }

theorem createAccountToken_tokens (db : Database) (user : UUID) (purpose : Purpose) (tokenHash : String)
    (now : Timestamp) :
    (createAccountToken db user purpose tokenHash now).tokens =
      (db.useTokens (fun row => row.userId = user ∧ row.purpose = purpose) now).tokens ++
        [⟨user, purpose, tokenHash, now + purpose.lifetime, none⟩] := by
  refine congrArg (· ++ [_]) (List.map_congr_left fun row _ => ?_)
  simp only [decide_eq_true_eq, and_assoc]

end Drivebound.Auth
