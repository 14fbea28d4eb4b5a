import Drivebound.Account.Access
import Drivebound.Core.Attributes
import Drivebound.Core.Rows
import Mathlib

/-! The tables of `models/auth.py` that the WebAuthn ceremonies read and write, and the
functions of `services/passkeys.py` on them. The functions of the `webauthn` package that
parse and verify what an authenticator has signed are parameters. -/
namespace Drivebound.Passkeys
open Attributes

abbrev Bytes := List UInt8

inductive Purpose where
  | passkeyRegistration | passkeyAuthentication | passkeyReauthentication
  deriving DecidableEq, Repr

structure User where
  id : UUID
  email : String
  emailVerifiedAt : Option Timestamp
  disabledAt : Option Timestamp
  passwordEnabled : Bool
  deriving DecidableEq, Repr

structure AuthSession where
  id : UUID
  userId : UUID
  expiresAt : Timestamp
  revokedAt : Option Timestamp
  reauthenticatedAt : Option Timestamp
  deriving DecidableEq, Repr

structure ExternalIdentity where
  userId : UUID
  provider : String
  deriving DecidableEq, Repr

inductive DeviceType where
  | singleDevice | multiDevice
  deriving DecidableEq, Repr

structure PasskeyCredential where
  id : UUID
  userId : UUID
  credentialId : Bytes
  publicKey : Bytes
  signCount : Nat
  name : String
  deviceType : DeviceType
  backedUp : Bool
  lastUsedAt : Option Timestamp
  deriving DecidableEq, Repr

structure WebAuthnChallenge where
  id : UUID
  userId : Option UUID
  sessionId : Option UUID
  purpose : Purpose
  challenge : Bytes
  discoverable : Bool
  expiresAt : Timestamp
  usedAt : Option Timestamp
  createdAt : Timestamp
  deriving DecidableEq, Repr

structure Database where
  users : List User
  sessions : List AuthSession
  identities : List ExternalIdentity
  credentials : List PasskeyCredential
  challenges : List WebAuthnChallenge
  deriving DecidableEq, Repr

structure Settings where
  googleAuthEnabled : Bool
  webauthnChallengeMinutes : Nat
  recentAuthMinutes : Nat
  refreshSessionDays : Nat
  deriving DecidableEq, Repr

/-- An assertion as `parse_authentication_credential_json` returns it. -/
structure ParsedCredential where
  id : String
  rawId : Bytes
  userHandle : Option Bytes
  deriving DecidableEq, Repr

structure VerifiedRegistration where
  credentialId : Bytes
  credentialPublicKey : Bytes
  signCount : Nat
  credentialDeviceType : DeviceType
  credentialBackedUp : Bool
  deriving DecidableEq, Repr

structure VerifiedAuthentication where
  newSignCount : Nat
  credentialDeviceType : DeviceType
  credentialBackedUp : Bool
  deriving DecidableEq, Repr

/-- The `webauthn` package; `none` is an exception that the endpoints catch. -/
structure WebAuthn (Document : Type) where
  parseAuthenticationCredential : Document → Option ParsedCredential
  parseRegistrationCredential : Document → Option ParsedCredential
  verifyRegistrationResponse : Document → Bytes → Option VerifiedRegistration
  verifyAuthenticationResponse : Document → Bytes → Bytes → Nat → Option VerifiedAuthentication

def maxPasskeysPerAccount : Nat := 10

def maxChallengeCleanup : Nat := 100

namespace Database

def user? (db : Database) (id : UUID) : Option User := db.users.find? (·.id = id)

def session? (db : Database) (id : UUID) : Option AuthSession := db.sessions.find? (·.id = id)

def challenge? (db : Database) (id : UUID) : Option WebAuthnChallenge :=
  db.challenges.find? (·.id = id)

def credentialsOf (db : Database) (user : UUID) : List PasskeyCredential :=
  db.credentials.filter (·.userId = user)

def hasGoogleIdentity (db : Database) (user : UUID) : Bool :=
  db.identities.any fun identity => identity.userId = user ∧ identity.provider = "google"

end Database

/-- `urlsafe_b64encode` without its padding. -/
def urlsafeB64 : Bytes → List Char
  | a :: b :: c :: rest =>
    digit (a.toNat / 4) :: digit (a.toNat % 4 * 16 + b.toNat / 16) ::
      digit (b.toNat % 16 * 4 + c.toNat / 64) :: digit (c.toNat % 64) :: urlsafeB64 rest
  | [a, b] => [digit (a.toNat / 4), digit (a.toNat % 4 * 16 + b.toNat / 16), digit (b.toNat % 16 * 4)]
  | [a] => [digit (a.toNat / 4), digit (a.toNat % 4 * 16)]
  | [] => []
where
  digit (n : Nat) : Char :=
    "ABCDEFGHIJKLMNOPQRSTUVWXYZabcdefghijklmnopqrstuvwxyz0123456789-_".toList.getD n '_'

def credentialIdMatches (parsed : ParsedCredential) : Bool :=
  parsed.id.toList == urlsafeB64 parsed.rawId

/-- `UUID.bytes`: sixteen bytes, the most significant one first. -/
def uuidBytes (id : UUID) : Bytes :=
  (List.range 16).map fun i => UInt8.ofNat (id / 256 ^ (15 - i))

def userHandleMatches (parsed : ParsedCredential) (user : UUID) (required : Bool) : Bool :=
  match parsed.userHandle with
  | none => !required
  | some handle => handle == uuidBytes user

section Library

variable {Document : Type} (webauthn : WebAuthn Document)

def parseAssertionCredential (document : Document) : Option ParsedCredential :=
  (webauthn.parseAuthenticationCredential document).filter credentialIdMatches

def verifyRegistration (document : Document) (challenge : WebAuthnChallenge) :
    Option VerifiedRegistration :=
  ((webauthn.parseRegistrationCredential document).filter credentialIdMatches).bind fun _ =>
    webauthn.verifyRegistrationResponse document challenge.challenge

def verifyAssertion (document : Document) (stored : PasskeyCredential)
    (challenge : WebAuthnChallenge) : Option VerifiedAuthentication :=
  webauthn.verifyAuthenticationResponse document challenge.challenge stored.publicKey stored.signCount

end Library

/-- The arguments of `create_challenge`. -/
structure Binding where
  purpose : Purpose
  userId : Option UUID
  sessionId : Option UUID
  discoverable : Bool
  deriving DecidableEq, Repr

/-- The rows that `cleanup_challenges` deletes: expired for an hour, or used and a day old. -/
def cleanupIds (db : Database) (now : Timestamp) : List UUID :=
  let stale := db.challenges.filter fun row =>
    row.expiresAt + 3600 < now ∨ (row.usedAt.isSome = true ∧ row.createdAt + 86400 < now)
  ((stale.insertionSort fun a b => a.createdAt ≤ b.createdAt).take maxChallengeCleanup).map (·.id)

/-- Of a protected type only the challenge issued last stays usable for its session. -/
def supersede (binding : Binding) (now : Timestamp) (row : WebAuthnChallenge) : WebAuthnChallenge :=
  if binding.sessionId.isSome = true ∧ row.sessionId = binding.sessionId ∧
      row.purpose = binding.purpose ∧ row.usedAt = none then
    { row with usedAt := some now }
  else row

def newChallenge (settings : Settings) (binding : Binding) (now : Timestamp) (id : UUID)
    (challenge : Bytes) (createdAt : Timestamp) : WebAuthnChallenge where
  id
  userId := binding.userId
  sessionId := binding.sessionId
  purpose := binding.purpose
  challenge
  discoverable := binding.discoverable
  expiresAt := now + settings.webauthnChallengeMinutes * 60
  usedAt := none
  createdAt

/-- What `create_challenge` has done when its transaction is committed. -/
def createChallenge (db : Database) (deleted : List UUID) (binding : Binding) (now : Timestamp)
    (row : WebAuthnChallenge) : Database :=
  { db with
    challenges := ((db.challenges.filter (·.id ∉ deleted)).map (supersede binding now)) ++ [row] }

/-- The checks of `consume_challenge` on the row that it has locked. -/
def Acceptable (row : WebAuthnChallenge) (user session : Option UUID) (now : Timestamp) : Prop :=
  row.usedAt = none ∧ now < row.expiresAt ∧ (user.isSome = true → row.userId = user) ∧
    (session.isSome = true → row.sessionId = session)

instance (row : WebAuthnChallenge) (user session : Option UUID) (now : Timestamp) :
    Decidable (Acceptable row user session now) := inferInstanceAs (Decidable (_ ∧ _))

/-- The challenge is used up. -/
def spend (db : Database) (id : UUID) (now : Timestamp) : Database :=
  { db with challenges := Rows.updateKey (·.id) id (fun row => { row with usedAt := some now }) db.challenges }

/-- A verified assertion is noted in the credential, as far as it differs from the instance. -/
def touchCredential (db : Database) (loaded : PasskeyCredential) (verified : VerifiedAuthentication)
    (now : Timestamp) : Database :=
  { db with
    credentials := Rows.updateKey (·.id) loaded.id (fun row => { row with
      signCount := flush loaded.signCount verified.newSignCount row.signCount
      deviceType := flush loaded.deviceType verified.credentialDeviceType row.deviceType
      backedUp := flush loaded.backedUp verified.credentialBackedUp row.backedUp
      lastUsedAt := flush loaded.lastUsedAt (some now) row.lastUsedAt }) db.credentials }

def sessionHasRecentAuth (settings : Settings) (session : AuthSession) (now : Timestamp) : Bool :=
  Account.sessionHasRecentAuth settings.recentAuthMinutes session.reauthenticatedAt now

end Drivebound.Passkeys
