import Drivebound.Catalog
import Drivebound.Core.Rows
import Drivebound.Core.Sharing

/-! The PATCH of `api/v1/uploads.py` that finalizes an upload, as sessions of one database
under READ COMMITTED. It authenticates with its device, whose row the flush of `last_seen_at`
locks until the first commit; the device is looked up once more after the asset was
committed, possibly in the cache of the session, and its counters are written without a lock
since they were read. `digest` is the SHA-256 of what a session uploads. -/
namespace Drivebound.Devices
open Sessions

structure Device where
  id : UUID
  userId : UUID
  tokenHash : String
  lastBackupAt : Option Timestamp
  filesBackedUp : Nat
  bytesBackedUp : Nat
  deriving DecidableEq, Repr

structure UploadSession where
  id : UUID
  userId : UUID
  deviceId : Option UUID
  totalSize : Nat
  offset : Nat
  expectedChecksum : Option String
  status : UploadStatus
  expiresAt : Timestamp
  deriving DecidableEq, Repr

/-- A row of `assets`; only active ones are deduplicated against. -/
structure Asset where
  id : UUID
  userId : UUID
  checksum : String
  active : Bool
  deriving DecidableEq, Repr

/-- `staged` are the upload sessions whose staged file is there, `accounts` the enabled ones. -/
structure Database where
  accounts : List UUID
  devices : List Device
  uploads : List UploadSession
  staged : List UUID
  assets : List Asset
  deriving DecidableEq, Repr

structure Patch where
  uploadId : UUID
  uploadOffset : Nat
  deriving DecidableEq, Repr

inductive Credential where
  | deviceToken (tokenHash : String)
  | account (userId : UUID)
  deriving DecidableEq, Repr

inductive Phase where
  | idle
  /-- The device is the instance that `upload_principal` has loaded. -/
  | authenticated (userId : UUID) (device : Option Device) (patch : Patch)
  | seen (userId : UUID) (device : Option Device) (patch : Patch)
  | shared (userId : UUID) (device : Option Device) (patch : Patch)
  | locked (userId : UUID) (device : Option Device) (patch : Patch)
  | stored (device : Option Device) (upload : UploadSession)
  | rejected (upload : UploadSession)
  | hashed (device : Option Device) (upload : UploadSession)
  | owning (device : Option Device) (upload : UploadSession)
  | published (device : Option Device) (upload : UploadSession)
  | persisted (device : Option Device) (upload : UploadSession) (duplicate : Bool)
  /-- The device is the one whose counters are written. -/
  | counting (device : Option Device) (upload : UploadSession) (duplicate : Bool)
  | flushed (device : Option Device) (upload : UploadSession) (duplicate : Bool)
  | completing (device : Option Device) (upload : UploadSession) (duplicate : Bool)
  deriving DecidableEq, Repr

inductive LockKey where
  | device (id : UUID)
  | user (id : UUID)
  | upload (id : UUID)
  deriving DecidableEq, Repr

inductive Action where
  | receive (credential : Credential) (patch : Patch)
  | flushSeen
  | shareOwner
  | lockUpload
  /-- The body has so many bytes. -/
  | append (written : Nat) (now : Timestamp)
  | hash
  | unlinkRejected
  | lockOwner
  /-- The first upload of an account commits its key and locks the row anew. -/
  | initializeKey
  | publish
  | persist (asset : UUID)
  /-- `cached` says that the instance of `upload_principal` is still there. -/
  | loadDevice (cached : Bool)
  | flushDevice
  | flushUpload
  | complete (now : Timestamp)
  /-- Any other exception, a crash included. -/
  | stop
  deriving DecidableEq, Repr

namespace Database

def device? (db : Database) (id : UUID) : Option Device := db.devices.find? (·.id = id)

def upload? (db : Database) (id : UUID) : Option UploadSession := db.uploads.find? (·.id = id)

def setUpload (db : Database) (id : UUID) (change : UploadSession → UploadSession) : Database :=
  { db with uploads := Rows.updateKey (·.id) id change db.uploads }

def unlink (db : Database) (id : UUID) : Database := { db with staged := db.staged.filter (· ≠ id) }

def existing (db : Database) (userId : UUID) (checksum : String) : Option Asset :=
  db.assets.find? fun asset => asset.userId = userId ∧ asset.checksum = checksum ∧ asset.active = true

/-- The `UPDATE` of the counters: they are set to what the instance has. -/
def countDevice (db : Database) (device : Device) (upload : UploadSession) (duplicate : Bool)
    (now : Timestamp) : Database :=
  { db with
    devices := Rows.updateKey (·.id) device.id (fun row =>
      if duplicate = true then { row with lastBackupAt := some now }
      else
        { row with
          lastBackupAt := some now
          filesBackedUp := device.filesBackedUp + 1
          bytesBackedUp := device.bytesBackedUp + upload.totalSize }) db.devices }

/-- The last commit of a finalizing PATCH. -/
def complete (db : Database) (device : Option Device) (upload : UploadSession) (duplicate : Bool)
    (now : Timestamp) : Database :=
  (device.elim db fun device => db.countDevice device upload duplicate now).setUpload upload.id
    fun row => { row with status := .complete }

end Database

abbrev Step := Outcome Database Phase LockKey

/-- What the request ends with, without a commit. -/
def rollback (db : Database) : Step := .finish db .idle

/-- `append_upload` on the locked row, up to the commit of the new offset. -/
def append (db : Database) (userId : UUID) (device : Option Device) (patch : Patch) (written : Nat)
    (now : Timestamp) : Step :=
  match (db.upload? patch.uploadId).filter (·.userId = userId) with
  | none => rollback db
  | some upload =>
    if upload.status ≠ .active then rollback db
    else if upload.expiresAt < now then
      .finish (db.setUpload upload.id fun row => { row with status := .expired }) .idle
    else if patch.uploadOffset ≠ upload.offset ∨ upload.id ∉ db.staged then rollback db
    else if upload.offset < upload.totalSize then
      if written = 0 ∨ upload.totalSize < upload.offset + written then rollback db
      else
        let loaded := { upload with offset := upload.offset + written }
        .finish (db.setUpload upload.id fun row => { row with offset := loaded.offset })
          (if loaded.offset < loaded.totalSize then .idle else .stored device loaded)
    else .stay db (.stored device upload)

def hash (digest : UUID → String) (db : Database) (device : Option Device) (upload : UploadSession) : Step :=
  if upload.id ∉ db.staged then rollback db
  else if upload.expectedChecksum.any (· ≠ digest upload.id) = true then
    .finish (db.setUpload upload.id fun row => { row with status := .failed }) (.rejected upload)
  else .stay db (.hashed device upload)

/-- `persist_managed_asset` behind the lock of the owner, up to the insertion. -/
def publish (digest : UUID → String) (db : Database) (device : Option Device) (upload : UploadSession) : Step :=
  match db.existing upload.userId (digest upload.id) with
  | some _ => .stay (db.unlink upload.id) (.persisted device upload true)
  | none =>
    if upload.id ∈ db.staged then .stay (db.unlink upload.id) (.published device upload) else rollback db

def persist (digest : UUID → String) (db : Database) (device : Option Device) (upload : UploadSession)
    (asset : UUID) : Step :=
  if db.assets.any (·.id = asset) = true then rollback db
  else
    .finish { db with assets := db.assets ++ [⟨asset, upload.userId, digest upload.id, true⟩] }
      (.persisted device upload false)

/-- `session.get(Device, upload.device_id)`. -/
def loadDevice (db : Database) (cached : Bool) (device : Option Device) (upload : UploadSession) :
    Option Device :=
  upload.deviceId.bind fun id =>
    if cached = true ∧ device.any (·.id = id) = true then device else db.device? id

/-- A lock on a row that the commit writes, if it writes one. -/
def lockDevice (db : Database) (device : Option Device) (next : Phase) : Step :=
  match device with
  | none => .stay db next
  | some device => .lock (.device device.id) next

def program (digest : UUID → String) (db : Database) (phase : Phase) : Action → Option Step
  | .receive credential patch =>
    match phase with
    | .idle =>
      match credential with
      | .account userId => some (.stay db (.authenticated userId none patch))
      | .deviceToken tokenHash =>
        match db.devices.find? (·.tokenHash = tokenHash) with
        | none => some (rollback db)
        | some device =>
          if device.userId ∈ db.accounts then some (.stay db (.authenticated device.userId (some device) patch))
          else some (rollback db)
    | _ => none
  | .flushSeen =>
    match phase with
    | .authenticated userId device patch => some (lockDevice db device (.seen userId device patch))
    | _ => none
  | .shareOwner =>
    match phase with
    | .seen userId device patch =>
      if userId ∈ db.accounts then some (.share (.user userId) (.shared userId device patch))
      else some (rollback db)
    | _ => none
  | .lockUpload =>
    match phase with
    | .shared userId device patch => some (.lock (.upload patch.uploadId) (.locked userId device patch))
    | _ => none
  | .append written now =>
    match phase with
    | .locked userId device patch => some (append db userId device patch written now)
    | _ => none
  | .hash =>
    match phase with
    | .stored device upload => some (hash digest db device upload)
    | _ => none
  | .unlinkRejected =>
    match phase with
    | .rejected upload => some (.finish (db.unlink upload.id) .idle)
    | _ => none
  | .lockOwner =>
    match phase with
    | .hashed device upload =>
      if upload.userId ∈ db.accounts then some (.lock (.user upload.userId) (.owning device upload))
      else some (.finish (db.unlink upload.id) .idle)
    | _ => none
  | .initializeKey =>
    match phase with
    | .owning device upload => some (.finish db (.hashed device upload))
    | _ => none
  | .publish =>
    match phase with
    | .owning device upload => some (publish digest db device upload)
    | _ => none
  | .persist asset =>
    match phase with
    | .published device upload => some (persist digest db device upload asset)
    | _ => none
  | .loadDevice cached =>
    match phase with
    | .persisted device upload duplicate =>
      some (.stay db (.counting (loadDevice db cached device upload) upload duplicate))
    | _ => none
  | .flushDevice =>
    match phase with
    | .counting device upload duplicate => some (lockDevice db device (.flushed device upload duplicate))
    | _ => none
  | .flushUpload =>
    match phase with
    | .flushed device upload duplicate =>
      some (.lock (.upload upload.id) (.completing device upload duplicate))
    | _ => none
  | .complete now =>
    match phase with
    | .completing device upload duplicate => some (.finish (db.complete device upload duplicate now) .idle)
    | _ => none
  | .stop => some (rollback db)

abbrev Service := Store Database Phase LockKey Nat

def start (db : Database) : Service := Store.idle db .idle

def step (digest : UUID → String) : Service → Nat × Action → Option Service :=
  Store.step (program digest)

end Drivebound.Devices
