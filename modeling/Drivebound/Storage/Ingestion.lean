import Drivebound.Core.Run
import Drivebound.Core.Sessions
import Drivebound.Catalog

/-! `persist_managed_asset` of `app/services/ingestion.py`, with the publication
functions of `app/services/storage.py`, as a program of small steps: every
session can fail, crash or be overtaken between two of them. The account row is
locked first; its attributes are those of the instance the endpoint loaded,
where it has loaded one. Encryption is symbolic: a sealed file opens under the
key it was sealed with and under no other. -/
namespace Drivebound.Storage
open Sessions

abbrev Key := Nat
abbrev Bytes := List UInt8

/-- A regular file below the storage roots. -/
inductive Stored where
  | plain (bytes : Bytes)
  | sealed (key : Key) (bytes : Bytes)
  deriving DecidableEq, Repr

/-- What a reader with the account's key gets under the asset's `encryption_version`. -/
def Stored.read (key : Option Key) : Nat → Stored → Option Bytes
  | 0, .plain bytes => some bytes
  | _ + 1, .sealed other bytes => if key = some other then some bytes else none
  | _, _ => none

structure UserRow where
  disabled : Bool
  mediaKey : Option Key
  deriving DecidableEq, Repr

/-- The digest of a byte string and of a stored file. -/
structure Hashes where
  sha256 : Bytes → String
  sha256File : Stored → String

/-- The arguments of one call, and the setting `media_encryption_enabled`. -/
structure Request where
  userId : UUID
  stage : UUID
  filename : Option String
  logicalId : Option UUID
  forceNewVersion : Bool
  encrypted : Bool
  deriving DecidableEq, Repr

/-- A call with the staged bytes, from which its caller has computed checksum and size. -/
structure Job where
  request : Request
  content : Bytes
  deriving DecidableEq, Repr

inductive LockKey where
  /-- The row lock of an account. -/
  | user (id : UUID)
  /-- `ingestion_lock_key` -/
  | content (userId : UUID) (checksum : String)
  /-- `storage_path_lock_key` -/
  | path (path : String)
  deriving DecidableEq, Repr

/-- The database, the storage and the history of the keys. -/
structure Vault where
  users : UUID → UserRow
  assets : List Asset
  files : String → Option Stored
  staged : UUID → Option Bytes
  /-- History: the keys that were written to an account. -/
  keyWrites : List (UUID × Key)
  /-- History: the ciphertexts that were put in place for an account. -/
  published : List (UUID × Key)

inductive Phase where
  | idle
  /-- The endpoint has started; `cached` is the key attribute of its account
  instance, where it loaded one. -/
  | entered (job : Job) (cached : Option (Option Key))
  | locked (job : Job) (key : Option Key)
  /-- The new key is committed, which has released the locks. -/
  | keyed (job : Job) (key : Key)
  | contentLocked (job : Job) (key : Option Key)
  | deduplicated (job : Job) (key : Option Key)
  | publishing (job : Job) (key : Option Key)
  /-- The final path was created; `copied` bytes are in it. -/
  | copying (job : Job) (key : Option Key) (copied : Nat)
  | placed (job : Job) (key : Option Key)
  | consumed (job : Job) (key : Option Key)
  /-- The call has returned this asset for its upload. -/
  | returned (job : Job) (asset : UUID)
  | disabling (userId : UUID)
  deriving DecidableEq, Repr

inductive Action where
  | begin (request : Request) (loaded : Bool)
  | lockUser
  | initializeKey (key : Key)
  | lockContent
  | findExisting
  | lockPath
  | publish
  | copy (count : Nat)
  | sync
  | consume
  | insert (id : UUID) (logicalId : UUID)
  | conflict
  | fail
  | crash
  | lockForDisable (userId : UUID)
  | disable
  deriving DecidableEq, Repr

/-- `original_path_for`, below `settings.originals_path`. -/
def originalPathFor (checksum : String) (userId : Option UUID) : String :=
  let tail := String.ofList (checksum.toList.take 2) ++ "/" ++ checksum
  match userId with
  | some userId => toString userId ++ "/" ++ tail
  | none => tail

namespace Job

def checksum (hashes : Hashes) (job : Job) : String := hashes.sha256 job.content

def finalPath (hashes : Hashes) (job : Job) : String :=
  originalPathFor (job.checksum hashes) (if job.request.encrypted then some job.request.userId else none)

def encryptionVersion (job : Job) : Nat := if job.request.encrypted then 1 else 0

end Job

namespace Vault

def user (v : Vault) (job : Job) : UserRow := v.users job.request.userId

def setUser (v : Vault) (id : UUID) (row : UserRow) : Vault :=
  { v with users := Function.update v.users id row }

/-- `initialize_user_media_key` and its commit. -/
def writeKey (v : Vault) (id : UUID) (key : Key) : Vault :=
  { v.setUser id { v.users id with mediaKey := some key } with
    keyWrites := v.keyWrites ++ [(id, key)] }

/-- `staged_path.unlink(missing_ok=True)` -/
def discard (v : Vault) (stage : UUID) : Vault :=
  { v with staged := Function.update v.staged stage none }

def place (v : Vault) (path : String) (file : Option Stored) : Vault :=
  { v with files := Function.update v.files path file }

/-- An active asset of the account with this checksum. -/
def existing (hashes : Hashes) (v : Vault) (job : Job) : Option Asset :=
  v.assets.find? fun asset =>
    asset.userId = job.request.userId ∧ asset.checksum = job.checksum hashes ∧
      asset.lifecycleState = .active

/-- The version of the new row: the next one of a given history. -/
def nextVersion (v : Vault) (job : Job) : Nat :=
  match job.request.logicalId with
  | none => 1
  | some logicalId =>
    ((v.assets.filter fun asset =>
      asset.userId = job.request.userId ∧ asset.logicalId = logicalId).map
        Asset.version).foldr max 0 + 1

end Vault

/-- `encrypted_plaintext_checksum(final_path, key, file_size) == checksum` -/
def authenticates (hashes : Hashes) (job : Job) (key : Key) : Stored → Bool
  | .plain _ => false
  | .sealed other bytes =>
    other == key && bytes.length == job.content.length &&
      hashes.sha256 bytes == job.checksum hashes

def newAsset (hashes : Hashes) (v : Vault) (job : Job) (id : UUID) (logicalId : UUID) : Asset where
  id := id
  userId := job.request.userId
  logicalId := job.request.logicalId.getD logicalId
  version := v.nextVersion job
  lifecycleState := .active
  supersededAt := none
  trashedAt := none
  purgeAfter := none
  deletedBy := none
  originalPath := job.finalPath hashes
  checksum := job.checksum hashes
  storageChecksum := ((v.files (job.finalPath hashes)).map hashes.sha256File).getD ""
  encryptionVersion := job.encryptionVersion
  fileSize := job.content.length
  thumbnailPath := none
  previewPath := none
  storageSource := .managed
  originalFilename := job.request.filename

abbrev Result := Option (Outcome Vault Phase LockKey)

/-- `SELECT ... WHERE disabled_at IS NULL FOR UPDATE`: a missing or disabled
account discards the staged bytes and raises. -/
def lockUser (v : Vault) (job : Job) (key : Option Key) :
    Outcome Vault Phase LockKey :=
  if (v.user job).disabled then .finish (v.discard job.request.stage) .idle
  else .lock (.user job.request.userId) (.locked job key)

/-- `commit_encrypted_original` and the check of an adopted ciphertext. -/
def publishEncrypted (hashes : Hashes) (v : Vault) (job : Job) (key : Option Key) :
    Outcome Vault Phase LockKey :=
  match key with
  | none => .finish v .idle
  | some key =>
    match v.files (job.finalPath hashes) with
    | none =>
      let v := v.place (job.finalPath hashes) (some (.sealed key job.content))
      .stay { v with published := v.published ++ [(job.request.userId, key)] }
        (.placed job (some key))
    | some file =>
      if authenticates hashes job key file then .stay v (.placed job (some key))
      else .finish v .idle

/-- The exclusive creation in `commit_original`: an existing file is adopted. -/
def publishPlain (hashes : Hashes) (v : Vault) (job : Job) (key : Option Key) :
    Outcome Vault Phase LockKey :=
  match v.files (job.finalPath hashes) with
  | none => .stay (v.place (job.finalPath hashes) (some (.plain []))) (.copying job key 0)
  | some _ => .stay v (.placed job key)

def program (hashes : Hashes) (v : Vault) (phase : Phase) : Action → Result
  | .begin request loaded =>
    match phase, v.staged request.stage with
    | .idle, some content =>
      let cached := if loaded then some (v.users request.userId).mediaKey else none
      some (.stay v (.entered ⟨request, content⟩ cached))
    | _, _ => none
  | .lockUser =>
    match phase with
    | .entered job cached => some (lockUser v job (cached.getD (v.user job).mediaKey))
    | .keyed job key => some (lockUser v job (some key))
    | _ => none
  | .initializeKey key =>
    match phase with
    | .locked job none =>
      if job.request.encrypted then
        some (.finish (v.writeKey job.request.userId key) (.keyed job key))
      else none
    | _ => none
  | .lockContent =>
    match phase with
    | .locked job key =>
      if job.request.encrypted ∧ key.isNone then none
      else if job.request.forceNewVersion then some (.stay v (.deduplicated job key))
      else some (.lock (.content job.request.userId (job.checksum hashes)) (.contentLocked job key))
    | _ => none
  | .findExisting =>
    match phase with
    | .contentLocked job key =>
      match v.existing hashes job with
      | some asset => some (.finish (v.discard job.request.stage) (.returned job asset.id))
      | none => some (.stay v (.deduplicated job key))
    | _ => none
  | .lockPath =>
    match phase with
    | .deduplicated job key => some (.lock (.path (job.finalPath hashes)) (.publishing job key))
    | _ => none
  | .publish =>
    match phase with
    | .publishing job key =>
      match v.staged job.request.stage with
      | none => some (.finish v .idle)
      | some _ =>
        if job.request.encrypted then some (publishEncrypted hashes v job key)
        else some (publishPlain hashes v job key)
    | _ => none
  | .copy count =>
    match phase with
    | .copying job key copied =>
      let v := v.place (job.finalPath hashes) (some (.plain (job.content.take (copied + count))))
      some (.stay v (.copying job key (copied + count)))
    | _ => none
  | .sync =>
    match phase with
    | .copying job key copied =>
      if job.content.length ≤ copied then some (.stay v (.placed job key)) else none
    | _ => none
  | .consume =>
    match phase with
    | .placed job key => some (.stay (v.discard job.request.stage) (.consumed job key))
    | _ => none
  | .insert id logicalId =>
    match phase with
    | .consumed job _ =>
      match insertRow Asset.id v.assets (newAsset hashes v job id logicalId) with
      | .ok assets => some (.finish { v with assets } (.returned job id))
      | .error _ => none
    | _ => none
  | .conflict =>
    -- An `IntegrityError` of the commit: the transaction is rolled back first.
    match phase with
    | .consumed job _ =>
      if job.request.forceNewVersion then some (.finish v .idle)
      else
        match v.existing hashes job with
        | some asset => some (.finish v (.returned job asset.id))
        | none => some (.finish v .idle)
    | _ => none
  | .fail =>
    match phase with
    | .idle | .returned .. => none
    | .copying job _ _ => some (.finish (v.place (job.finalPath hashes) none) .idle)
    | _ => some (.finish v .idle)
  | .crash => some (.finish v .idle)
  | .lockForDisable userId =>
    match phase with
    | .idle => some (.lock (.user userId) (.disabling userId))
    | _ => none
  | .disable =>
    match phase with
    | .disabling userId =>
      some (.finish (v.setUser userId { v.users userId with disabled := true }) .idle)
    | _ => none

variable {τ : Type} [DecidableEq τ]

/-- Concurrent calls, each of them a session. -/
abbrev Ingestions (τ : Type) := Store Vault Phase LockKey τ

abbrev step (hashes : Hashes) (s : Ingestions τ) (label : τ × Action) : Option (Ingestions τ) :=
  s.step (program hashes) label

/-- The locks a program point relies on. -/
def Holding (hashes : Hashes) : Phase → LockKey → Prop
  | .locked job _, k | .contentLocked job _, k | .deduplicated job _, k =>
    k = .user job.request.userId
  | .publishing job _, k | .copying job _ _, k | .placed job _, k | .consumed job _, k =>
    k = .user job.request.userId ∨ k = .path (job.finalPath hashes)
  | .disabling userId, k => k = .user userId
  | .idle, _ | .entered _ _, _ | .keyed _ _, _ | .returned _ _, _ => False

end Drivebound.Storage
