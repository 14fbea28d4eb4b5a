import Drivebound.Catalog
import Drivebound.Core.Attributes

/-! The tables that `prepare_account_deletion` of `services/account_deletion.py` reads
and writes, and the function itself. The account's row is an instance of the session
that calls it: its attributes are assigned and written back on commit, whereas the
other tables are changed by statements that see what is committed. -/
namespace Drivebound.Erasure
open Attributes

/-- What `hash_password_async` returns, or the unusable value of a deleted account. -/
inductive PasswordHash where
  | digest (value : String)
  /-- `!deleted!` and a random token. -/
  | destroyed (token : String)
  deriving DecidableEq, Repr

structure User where
  id : UUID
  email : String
  passwordHash : PasswordHash
  passwordEnabled : Bool
  passwordSetAt : Option Timestamp
  displayName : Option String
  onboardingCompletedAt : Option Timestamp
  emailVerifiedAt : Option Timestamp
  totpSecretEncrypted : Option String
  totpEnabledAt : Option Timestamp
  totpLastUsedStep : Option Nat
  pendingTotpSecretEncrypted : Option String
  pendingTotpExpiresAt : Option Timestamp
  pendingTotpSessionId : Option UUID
  mediaKeyEncrypted : Option String
  mediaKeyVersion : Nat
  disabledAt : Option Timestamp
  deriving DecidableEq, Repr

/-- `verify_second_factor`: whether a factor is asked for is read off the instance, what proves
it is compared with the row, which is locked and loaded anew. -/
def User.verifySecondFactor {α : Type*} (user : User) (stored : Option User) (unasked : α)
    (prove : User → String → Option α) : Option α :=
  if user.totpEnabledAt = none ∧ user.totpSecretEncrypted = none then some unasked
  else if user.totpEnabledAt = none ∨ user.totpSecretEncrypted = none then none
  else
    match stored with
    | none => none
    | some row =>
      match row.totpEnabledAt, row.totpSecretEncrypted with
      | some _, some secret => prove row secret
      | _, _ => none

theorem User.verifySecondFactor_some {α : Type*} {user : User} {stored : Option User} {unasked result : α}
    {prove : User → String → Option α}
    (proof : user.verifySecondFactor stored unasked prove = some result) :
    user.totpEnabledAt = none ∧ result = unasked ∨
      ∃ row secret, stored = some row ∧ row.totpEnabledAt ≠ none ∧
        row.totpSecretEncrypted = some secret ∧ prove row secret = some result := by
  unfold verifySecondFactor at proof
  split at proof
  · rename_i unset
    exact .inl ⟨unset.1, (Option.some.inj proof).symm⟩
  · split at proof
    · contradiction
    · split at proof
      · contradiction
      · rename_i row
        split at proof
        · rename_i enabledAt secret enabled present
          refine .inr ⟨row, secret, rfl, ?_, present, proof⟩
          rw [enabled]
          exact Option.some_ne_none enabledAt
        · contradiction

/-- The `UPDATE` of a row by an instance that was loaded as `loaded` and assigned to. -/
def User.flush (loaded assigned stored : User) : User where
  id := stored.id
  email := Attributes.flush loaded.email assigned.email stored.email
  passwordHash := Attributes.flush loaded.passwordHash assigned.passwordHash stored.passwordHash
  passwordEnabled :=
    Attributes.flush loaded.passwordEnabled assigned.passwordEnabled stored.passwordEnabled
  passwordSetAt := Attributes.flush loaded.passwordSetAt assigned.passwordSetAt stored.passwordSetAt
  displayName := Attributes.flush loaded.displayName assigned.displayName stored.displayName
  onboardingCompletedAt := Attributes.flush loaded.onboardingCompletedAt
    assigned.onboardingCompletedAt stored.onboardingCompletedAt
  emailVerifiedAt :=
    Attributes.flush loaded.emailVerifiedAt assigned.emailVerifiedAt stored.emailVerifiedAt
  totpSecretEncrypted := Attributes.flush loaded.totpSecretEncrypted
    assigned.totpSecretEncrypted stored.totpSecretEncrypted
  totpEnabledAt := Attributes.flush loaded.totpEnabledAt assigned.totpEnabledAt stored.totpEnabledAt
  totpLastUsedStep :=
    Attributes.flush loaded.totpLastUsedStep assigned.totpLastUsedStep stored.totpLastUsedStep
  pendingTotpSecretEncrypted := Attributes.flush loaded.pendingTotpSecretEncrypted
    assigned.pendingTotpSecretEncrypted stored.pendingTotpSecretEncrypted
  pendingTotpExpiresAt := Attributes.flush loaded.pendingTotpExpiresAt
    assigned.pendingTotpExpiresAt stored.pendingTotpExpiresAt
  pendingTotpSessionId := Attributes.flush loaded.pendingTotpSessionId
    assigned.pendingTotpSessionId stored.pendingTotpSessionId
  mediaKeyEncrypted :=
    Attributes.flush loaded.mediaKeyEncrypted assigned.mediaKeyEncrypted stored.mediaKeyEncrypted
  mediaKeyVersion :=
    Attributes.flush loaded.mediaKeyVersion assigned.mediaKeyVersion stored.mediaKeyVersion
  disabledAt := Attributes.flush loaded.disabledAt assigned.disabledAt stored.disabledAt

@[simp] theorem User.flush_id (loaded assigned stored : User) :
    (User.flush loaded assigned stored).id = stored.id := rfl

/-- An instance that still shows the stored row is written back as it is. -/
theorem User.flush_stored (stored assigned : User) (same : assigned.id = stored.id) :
    User.flush stored assigned stored = assigned := by
  simp only [User.flush, Attributes.flush_fresh, ← same]

/-- `ck_users_pending_totp_complete` and `ck_users_totp_complete`. -/
def User.Complete (user : User) : Prop :=
  (user.pendingTotpSecretEncrypted.isSome = user.pendingTotpExpiresAt.isSome ∧
    user.pendingTotpExpiresAt.isSome = user.pendingTotpSessionId.isSome) ∧
  user.totpSecretEncrypted.isSome = user.totpEnabledAt.isSome

instance : DecidablePred User.Complete := fun _ => inferInstanceAs (Decidable (_ ∧ _))

/-- The tables with one row for each way to sign in or to act as an account. -/
inductive CredentialTable where
  | accountToken | webAuthnChallenge | passkeyCredential | mfaRecoveryCode | externalIdentity
  | device | nodePairingCode | pairedNode | authSession
  deriving DecidableEq, Repr

structure Credential where
  table : CredentialTable
  id : UUID
  userId : UUID
  deriving DecidableEq, Repr

structure ShareLink where
  id : UUID
  userId : UUID
  deriving DecidableEq, Repr

structure Album where
  id : UUID
  userId : UUID
  deriving DecidableEq, Repr

structure AlbumInvite where
  albumId : UUID
  email : String
  invitedBy : UUID
  deriving DecidableEq, Repr

structure AlbumMember where
  albumId : UUID
  userId : UUID
  deriving DecidableEq, Repr

structure AuditEvent where
  userId : Option UUID
  eventType : String
  ipAddress : Option String
  userAgent : Option String
  detail : Option String
  deriving DecidableEq, Repr

inductive JobStatus where
  | pending | queued | running | retry | manualReview | completed
  deriving DecidableEq, Repr

structure AccountDeletionJob where
  id : UUID
  subjectId : Option UUID
  status : JobStatus
  requestedAt : Timestamp
  notBefore : Timestamp
  nextAttemptAt : Timestamp
  deriving DecidableEq, Repr

structure Database where
  users : List User
  credentials : List Credential
  shareLinks : List ShareLink
  albums : List Album
  albumInvites : List AlbumInvite
  albumMembers : List AlbumMember
  auditEvents : List AuditEvent
  assets : List Asset
  jobs : List AccountDeletionJob
  deriving DecidableEq, Repr

namespace Database

def user? (db : Database) (id : UUID) : Option User := db.users.find? (·.id = id)

def job? (db : Database) (subject : UUID) : Option AccountDeletionJob :=
  db.jobs.find? (·.subjectId = some subject)

def setUser (db : Database) (id : UUID) (change : User → User) : Database :=
  { db with users := db.users.map fun user => if user.id = id then change user else user }

/-- Public and collaboration capabilities; deleting an album deletes its invites and
members with it. -/
def revokeSharing (db : Database) (subject : UUID) (email : String) : Database :=
  let owned (album : UUID) : Bool := db.albums.any fun row => row.id = album ∧ row.userId = subject
  { db with
    shareLinks := db.shareLinks.filter (·.userId ≠ subject)
    albums := db.albums.filter (·.userId ≠ subject)
    albumInvites := db.albumInvites.filter fun invite => !owned invite.albumId &&
      invite.invitedBy ≠ subject && invite.email.toLower ≠ email.toLower
    albumMembers := db.albumMembers.filter fun member => !owned member.albumId &&
      member.userId ≠ subject }

def revokeCredentials (db : Database) (subject : UUID) : Database :=
  { db with credentials := db.credentials.filter (·.userId ≠ subject) }

/-- Event types stay, network fingerprints and details do not. -/
def redactAudit (db : Database) (subject : UUID) (detail : String) : Database :=
  { db with auditEvents := db.auditEvents.map (fun event =>
      if event.userId = some subject then
        { event with ipAddress := none, userAgent := none, detail := none }
      else event) ++ [⟨some subject, "account_deletion_requested", none, none, some detail⟩] }

def purgeAssets (db : Database) (subject : UUID) (now : Timestamp) : Database :=
  { db with assets := purgeWithAccount subject now db.assets }

def addJob (db : Database) (job : AccountDeletionJob) : Database :=
  { db with jobs := db.jobs ++ [job] }

end Database

/-- The attributes that the lockout assigns. -/
def User.erased (user : User) (email : String) (now : Timestamp) (token : String) : User :=
  { user with
    disabledAt := some now
    email
    passwordHash := .destroyed token
    passwordEnabled := false
    passwordSetAt := none
    displayName := none
    onboardingCompletedAt := none
    emailVerifiedAt := none
    totpSecretEncrypted := none
    totpEnabledAt := none
    totpLastUsedStep := none
    pendingTotpSecretEncrypted := none
    pendingTotpExpiresAt := none
    pendingTotpSessionId := none
    mediaKeyEncrypted := none
    mediaKeyVersion := user.mediaKeyVersion + 1 }

/-- `deleted-{user.id.hex}@invalid.drivebound`. -/
def deletedEmail (id : UUID) : String :=
  "deleted-" ++ String.ofList ((Nat.toDigits 16 id).leftpad 32 '0') ++ "@invalid.drivebound"

/-- What a deletion request brings with it: the time, the ids and random values drawn
for it, and `account_deletion_quiescence_seconds`. -/
structure DeletionRequest where
  requestedAt : Timestamp
  jobId : UUID
  token : String
  quiescence : Nat
  deriving DecidableEq, Repr

def DeletionRequest.job (request : DeletionRequest) (subject : UUID) : AccountDeletionJob :=
  { id := request.jobId, subjectId := some subject, status := .pending
    requestedAt := request.requestedAt
    notBefore := request.requestedAt + request.quiescence
    nextAttemptAt := request.requestedAt }

def auditDetail (job : UUID) : String :=
  "\x7b\"job_id\": \"" ++ toString job ++ "\", \"credentials_destroyed\": true\x7d"

/-- `prepare_account_deletion` with the flush of the session: `loaded` is what the
instance of the account's row showed when it was loaded, `current` what it shows now. -/
def prepareAccountDeletion (db : Database) (loaded current : User) (request : DeletionRequest) :
    Database :=
  match db.job? current.id with
  | some _ => db
  | none =>
    let job := request.job current.id
    let erased := current.erased (deletedEmail current.id) request.requestedAt request.token
    (((((db.addJob job).revokeSharing current.id current.email).revokeCredentials
      current.id).redactAudit current.id (auditDetail job.id)).setUser current.id
      (User.flush loaded erased)).purgeAssets current.id request.requestedAt

/-- `None` in every secret column, an unusable password and `disabled_at` set. -/
structure LockedOut (user : User) : Prop where
  disabled : user.disabledAt.isSome = true
  password : ∃ token, user.passwordHash = .destroyed token
  mediaKey : user.mediaKeyEncrypted = none
  totp : user.totpSecretEncrypted = none
  pendingTotp : user.pendingTotpSecretEncrypted = none

/-- Every secret that is stored was also loaded, so that erasing it changes it. -/
def Shows (loaded stored : User) : Prop :=
  (stored.mediaKeyEncrypted = none ∨ loaded.mediaKeyEncrypted ≠ none) ∧
  (stored.totpSecretEncrypted = none ∨ loaded.totpSecretEncrypted ≠ none) ∧
  (stored.pendingTotpSecretEncrypted = none ∨ loaded.pendingTotpSecretEncrypted ≠ none)

instance (loaded stored : User) : Decidable (Shows loaded stored) :=
  inferInstanceAs (Decidable (_ ∧ _))

theorem Shows.refl (user : User) : Shows user user :=
  ⟨Classical.em _, Classical.em _, Classical.em _⟩

/-- Erasing a column through an instance empties it exactly if it was empty or the
instance showed a value. -/
theorem flush_none_iff {α : Type*} [DecidableEq α] {loaded stored : Option α} :
    flush loaded none stored = none ↔ stored = none ∨ loaded ≠ none := by
  rw [flush_eq_iff, or_comm, ne_comm]

/-- The erased row of an account whose loaded row was enabled is locked out exactly if
the instance shows every stored secret. -/
theorem lockedOut_iff {loaded current stored : User} {email token : String} {now : Timestamp}
    (enabled : loaded.disabledAt = none) (usable : ∃ value, loaded.passwordHash = .digest value) :
    LockedOut (User.flush loaded (current.erased email now token) stored) ↔ Shows loaded stored := by
  obtain ⟨value, digest⟩ := usable
  constructor
  · intro locked
    exact ⟨flush_none_iff.mp locked.mediaKey, flush_none_iff.mp locked.totp,
      flush_none_iff.mp locked.pendingTotp⟩
  · rintro ⟨mediaKey, totp, pendingTotp⟩
    constructor
    · have written : Attributes.flush loaded.disabledAt (some now) stored.disabledAt = some now :=
        flush_of_ne (by rw [enabled]; exact nofun)
      exact congrArg Option.isSome written
    · exact ⟨token, flush_of_ne (by rw [digest]; exact nofun)⟩
    · exact flush_none_iff.mpr mediaKey
    · exact flush_none_iff.mpr totp
    · exact flush_none_iff.mpr pendingTotp

end Drivebound.Erasure
