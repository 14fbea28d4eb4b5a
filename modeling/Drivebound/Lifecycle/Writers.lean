import Drivebound.Core.Attributes
import Drivebound.Core.Rows
import Drivebound.Core.Sharing
import Drivebound.Sync.Service
import Drivebound.Uploads.Session

/-! The requests that write assets and upload sessions of an account, next to its
deletion: `create_upload`, `append_upload`, `persist_managed_asset`, `apply_operations`,
`resolve_conflict`, and `trash_asset`, `restore_asset_from_trash` and `rollback_asset` of
`services/lifecycle.py` with their endpoints. All but the trash endpoint first lock the
row of the user, shared or for an update, and ask for `disabled_at` to be null; the rows
that they lock behind it are loaded anew, so their transaction is one step. -/
namespace Drivebound.Lifecycle
open Attributes Sessions
open Sync (Choice FreshIds SyncConflict SyncDb SyncItem SyncOperation SyncOperationInput SyncRoot)
open Uploads (UploadSession)

structure User where
  id : UUID
  disabledAt : Option Timestamp
  /-- `media_key_encrypted` is not null. -/
  hasMediaKey : Bool
  deriving DecidableEq, Repr

structure Database where
  users : List User
  /-- `storage_policy`, with the default where a user has none. -/
  retentionDays : UUID → Nat
  assets : List Asset
  uploads : List UploadSession
  roots : List SyncRoot
  items : List SyncItem
  operations : List SyncOperation
  conflicts : List SyncConflict

namespace Database

def user? (db : Database) (id : UUID) : Option User := db.users.find? (·.id = id)

/-- A row with `disabled_at` null. -/
def Enabled (db : Database) (id : UUID) : Prop := ∃ user ∈ db.user? id, user.disabledAt = none

def Deleted (db : Database) (id : UUID) : Prop := ∃ user ∈ db.user? id, user.disabledAt ≠ none

instance (db : Database) (id : UUID) : Decidable (db.Enabled id) :=
  inferInstanceAs (Decidable (∃ user ∈ db.user? id, _))

instance (db : Database) (id : UUID) : Decidable (db.Deleted id) :=
  inferInstanceAs (Decidable (∃ user ∈ db.user? id, _))

def asset? (db : Database) (id : UUID) : Option Asset := db.assets.find? (·.id = id)

def setUser (db : Database) (id : UUID) (change : User → User) : Database :=
  { db with users := Rows.updateKey User.id id change db.users }

def updateAsset (db : Database) (id : UUID) (change : Asset → Asset) : Database :=
  { db with assets := db.assets.map fun asset => if asset.id = id then change asset else asset }

def updateUpload (db : Database) (id : UUID) (change : UploadSession → UploadSession) : Database :=
  { db with uploads := Rows.updateKey UploadSession.id id change db.uploads }

/-- What a transaction on a root sees. -/
def view (db : Database) (root : SyncRoot) : SyncDb where
  root := root
  userAvailable := db.Enabled root.userId
  retentionDays := db.retentionDays root.userId
  assets := db.assets
  items := db.items
  operations := db.operations
  conflicts := db.conflicts

/-- The commit of a transaction on a root. -/
def put (db : Database) (after : SyncDb) : Database :=
  { db with
    roots := Rows.updateKey SyncRoot.id after.root.id (fun _ => after.root) db.roots
    assets := after.assets
    items := after.items
    operations := after.operations
    conflicts := after.conflicts }

/-- An active asset of the user with the checksum. -/
def hasContent (db : Database) (user : UUID) (checksum : String) : Bool :=
  db.assets.any fun asset =>
    asset.userId = user ∧ asset.checksum = checksum ∧ asset.lifecycleState = .active

end Database

/-- A request that is fenced by the row of its user, with what its endpoint has loaded
before the lock. -/
inductive Writer where
  | createUpload (upload : UploadSession)
  | appendUpload (id : UUID) (bytes : Nat) (stored : Asset)
  /-- `persist_managed_asset`, where it is called for an upload with the upload's id. -/
  | persist (stored : Asset) (logicalId : Option UUID) (forceNewVersion : Bool)
    (upload : Option UUID)
  | push (root : UUID) (cursor : Nat) (clientId : String)
    (inputs : List (SyncOperationInput × FreshIds))
  | resolve (conflict : SyncConflict) (choice : Choice)
  | restore (asset : UUID)
  | rollback (asset version : UUID)
  deriving DecidableEq, Repr

/-- `with_for_update()`, whereas the others lock with `read=True`. -/
def Writer.exclusive : Writer → Bool
  | .persist _ _ _ _ => true
  | _ => false

inductive Phase where
  | idle
  | loaded (user : UUID) (writer : Writer)
  | locked (user : UUID) (writer : Writer)
  /-- The row of the user is locked and not disabled. -/
  | fenced (user : UUID) (writer : Writer)
  /-- The asset is stored; the upload session is marked complete. -/
  | finishing (upload : UUID)
  /-- `move_to_trash` and `delete_asset` with the asset that they have loaded. -/
  | trashing (asset : Asset)
  | trashLocked (asset : Asset)
  /-- `prepare_account_deletion` while its `UPDATE` of the assets locks their rows. -/
  | deleting (user : UUID) (locked : List UUID)
  deriving DecidableEq, Repr

inductive LockKey where
  | user (id : UUID)
  | asset (id : UUID)
  deriving DecidableEq, Repr

inductive Action where
  /-- `current_user` and the loads before the first lock. -/
  | authenticate (user : UUID) (writer : Writer)
  | loadTrash (user asset : UUID)
  | lockUser
  | checkUser
  | initializeKey
  | commit (fresh : FreshIds) (now : Timestamp)
  | finish
  | lockAsset (id : UUID)
  | trash (now : Timestamp)
  | delete (user : UUID)
  | disable (now : Timestamp)
  /-- Any refusal or exception, a failed commit included, and a crash. -/
  | stop
  deriving DecidableEq, Repr

/-- The flush of the columns that `trash_asset` assigns. -/
def flushTrash (loaded assigned stored : Asset) : Asset :=
  { stored with
    lifecycleState := flush loaded.lifecycleState assigned.lifecycleState stored.lifecycleState
    trashedAt := flush loaded.trashedAt assigned.trashedAt stored.trashedAt
    purgeAfter := flush loaded.purgeAfter assigned.purgeAfter stored.purgeAfter
    deletedBy := flush loaded.deletedBy assigned.deletedBy stored.deletedBy }

/-- `trash_asset` on the instance of its endpoint, which the locking select returns as it
is, and the commit; `none` is a `ValueError`. -/
def trashAsset (db : Database) (asset : Asset) (now : Timestamp) : Option Database :=
  match db.asset? asset.id with
  | none => none
  | some _ =>
    match asset.trashes (db.retentionDays asset.userId) with
    | .error _ => none
    | .ok false => some db
    | .ok true =>
      some (db.updateAsset asset.id
        (flushTrash asset (asset.trash (db.retentionDays asset.userId) "web" now)))

theorem trashAsset_some {db after : Database} {asset : Asset} {now : Timestamp}
    (trashed : trashAsset db asset now = some after) :
    asset.lifecycleState = .trashed ∧ after = db ∨
      asset.lifecycleState = .active ∧ (∃ row, db.asset? asset.id = some row) ∧
        1 ≤ db.retentionDays asset.userId ∧
        after = db.updateAsset asset.id
          (flushTrash asset (asset.trash (db.retentionDays asset.userId) "web" now)) := by
  unfold trashAsset at trashed
  split at trashed
  · contradiction
  · rename_i row found
    split at trashed
    · contradiction
    · rename_i already
      exact .inl ⟨Asset.trashes_false_iff.mp already, (Option.some.inj trashed).symm⟩
    · rename_i passes
      obtain ⟨active, retention⟩ := Asset.trashes_iff.mp passes
      exact .inr ⟨active, ⟨row, found⟩, retention, (Option.some.inj trashed).symm⟩

/-- On an instance as its row is stored, the endpoint writes what a delete of the sync journal does. -/
theorem trashAsset_current {db : Database} {root : SyncRoot} {asset : Asset} (now : Timestamp)
    (unique : (db.assets.map Asset.id).Nodup) (stored : asset ∈ db.assets)
    (owner : asset.userId = root.userId) :
    trashAsset db asset now =
      (Sync.trashAsset (db.view root) asset.id "web" now).toOption.map fun after =>
        { db with assets := after.assets } := by
  have found : db.asset? asset.id = some asset :=
    (Rows.find?_key_iff unique).mpr ⟨stored, rfl⟩
  have located : (db.view root).assets.find? (fun row => row.id = asset.id) = some asset := found
  have retention : (db.view root).retentionDays = db.retentionDays asset.userId := by
    rw [owner]
    rfl
  unfold trashAsset Sync.trashAsset
  rw [located, retention, found]
  cases passes : asset.trashes (db.retentionDays asset.userId) with
  | error message => simp [passes, Sync.raised, Except.toOption]
  | ok writes =>
    cases writes with
    | false => simp [passes, Except.toOption, Database.view]
    | true =>
      simp only [passes, Except.toOption, Option.map_some, Option.some.injEq]
      refine congrArg (fun assets => { db with assets }) (List.map_congr_left fun row there => ?_)
      split
      · rename_i same
        cases List.inj_on_of_nodup_map unique there stored same
        simp only [flushTrash, flush_fresh]
        rfl
      · rfl

def restoreAssetFromTrash (db : Database) (user id : UUID) : Option Database :=
  match db.assets.find? fun asset => asset.id = id ∧ asset.userId = user with
  | none => none
  | some asset =>
    if asset.lifecycleState ≠ .trashed then none
    else if db.assets.any (fun revision => revision.userId = user ∧
        revision.logicalId = asset.logicalId ∧ revision.lifecycleState = .active ∧
        revision.id ≠ asset.id) then none
    else some (db.updateAsset id fun asset =>
      { asset with
        lifecycleState := .active, trashedAt := none, purgeAfter := none, deletedBy := none })

/-- Another active revision of the item of `target`. -/
def previousRevision (user : UUID) (target revision : Asset) : Bool :=
  revision.userId = user ∧ revision.logicalId = target.logicalId ∧ revision.id ≠ target.id ∧
    revision.lifecycleState = .active

def supersedeRevisions (user : UUID) (target : Asset) (now : Timestamp) (assets : List Asset) :
    List Asset :=
  assets.map fun revision =>
    if previousRevision user target revision = true then revision.supersede now else revision

def rollbackAsset (db : Database) (user currentId targetId : UUID) (now : Timestamp) :
    Option Database :=
  match db.assets.find? (fun asset => asset.id = currentId ∧ asset.userId = user),
      db.assets.find? (fun asset => asset.id = targetId ∧ asset.userId = user) with
  | some current, some target =>
    if current.logicalId ≠ target.logicalId then none
    else if current.lifecycleState ≠ .active then none
    else if target.lifecycleState ≠ .active ∧ target.lifecycleState ≠ .superseded then none
    else if target.lifecycleState = .active ∧
        db.assets.any (previousRevision user target) = false then some db
    else
      some ({ db with assets := supersedeRevisions user target now db.assets }.updateAsset targetId
        fun asset =>
          { asset with
            lifecycleState := .active, supersededAt := none, trashedAt := none, purgeAfter := none
            deletedBy := none })
  | _, _ => none

/-- The row that `persist_managed_asset` adds, if it adds one; an `IntegrityError` is rolled back. -/
def persistManagedAsset (db : Database) (user : UUID) (stored : Asset) (logicalId : Option UUID)
    (forceNewVersion : Bool) : Option Database :=
  if forceNewVersion = false ∧ db.hasContent user stored.checksum = true then some db
  else
    let asset := { stored with
      userId := user
      logicalId := logicalId.getD stored.logicalId
      version := match logicalId with
        | none => 1
        | some item => ((db.assets.filter fun asset =>
            asset.userId = user ∧ asset.logicalId = item).map Asset.version).foldr max 0 + 1
      lifecycleState := .active
      supersededAt := none
      trashedAt := none
      purgeAfter := none
      deletedBy := none }
    (insertRow Asset.id db.assets asset).toOption.map fun assets => { db with assets }

/-- The rows that `create_upload` writes: none where the content is there already. -/
def createUpload (db : Database) (user : UUID) (upload : UploadSession) : Option Database :=
  if upload.expectedChecksum.any (db.hasContent user ·) then some db
  else
    (insertRow UploadSession.id db.uploads (.opened upload.id user upload.totalSize upload.expectedChecksum
      upload.expiresAt)).toOption.map fun uploads => { db with uploads }

/-- The bytes of a chunk are counted, and the upload goes on to its finalization when
they are the last. -/
def appendUpload (db : Database) (user id : UUID) (bytes : Nat) (stored : Asset) (now : Timestamp) :
    Option (Database × Phase) :=
  match db.uploads.find? fun upload => upload.id = id ∧ upload.userId = user with
  | none => none
  | some upload =>
    if upload.status ≠ .active then none
    else if upload.expiresAt < now then
      some (db.updateUpload id fun upload => { upload with status := .expired }, .idle)
    else if upload.totalSize < upload.offset + bytes then none
    else
      let after := db.updateUpload id fun upload => { upload with offset := upload.offset + bytes }
      if upload.offset + bytes < upload.totalSize then some (after, .idle)
      else some (after, .loaded user (.persist stored none false (some id)))

variable (mediaEncryptionEnabled : Bool)

/-- The transaction behind the fence; `none` rolls it back. -/
def Writer.commit (db : Database) (user : UUID) (fresh : FreshIds) (now : Timestamp) :
    Writer → Option (Database × Phase)
  | .createUpload upload => (Lifecycle.createUpload db user upload).map (·, .idle)
  | .appendUpload id bytes stored => Lifecycle.appendUpload db user id bytes stored now
  | .persist stored logicalId forceNewVersion upload =>
    if mediaEncryptionEnabled = true ∧ (db.user? user).any (!·.hasMediaKey) = true then none
    else
      (persistManagedAsset db user stored logicalId forceNewVersion).map fun after =>
        (after, match upload with
          | some id => .finishing id
          | none => .idle)
  | .push root cursor clientId inputs =>
    match db.roots.find? fun row => row.id = root ∧ row.userId = user with
    | none => none
    | some root =>
      (Sync.applyOperations (db.view root) cursor clientId inputs now).toOption.map fun batch =>
        (db.put batch.db, .idle)
  | .resolve conflict choice =>
    match db.roots.find? fun row => row.id = conflict.rootId ∧ row.userId = user with
    | none => none
    | some root =>
      (Sync.resolveConflict (db.view root) conflict choice fresh now).toOption.map fun after =>
        (db.put after, .idle)
  | .restore asset => (restoreAssetFromTrash db user asset).map (·, .idle)
  | .rollback asset version => (rollbackAsset db user asset version now).map (·, .idle)

/-- What the endpoint of a writer has loaded fits the database it was loaded from. -/
def Writer.loads (db : Database) (user : UUID) : Writer → Bool
  | .push root cursor _ _ =>
    db.roots.any fun row => row.id = root ∧ row.userId = user ∧ row.cursor = cursor
  | .resolve conflict _ => db.conflicts.any (· = conflict) &&
    db.roots.any fun row => row.id = conflict.rootId ∧ row.userId = user
  | _ => true

/-- The rows of the account as its deletion leaves them. -/
def prepareAccountDeletion (db : Database) (user : UUID) (now : Timestamp) : Database :=
  { db.setUser user fun row => { row with disabledAt := some now } with
    assets := purgeWithAccount user now db.assets }

abbrev Step := Outcome Database Phase LockKey

def program (db : Database) (phase : Phase) : Action → Option Step
  | .authenticate user writer =>
    match phase with
    | .idle =>
      if db.Enabled user ∧ writer.loads db user then some (.stay db (.loaded user writer)) else none
    | _ => none
  | .loadTrash user id =>
    match phase with
    | .idle =>
      if db.Enabled user then
        (db.assets.find? fun asset => asset.id = id ∧ asset.userId = user ∧
          asset.lifecycleState = .active).map fun asset => .stay db (.trashing asset)
      else none
    | _ => none
  | .lockUser =>
    match phase with
    | .loaded user writer =>
      if writer.exclusive then some (.lock (.user user) (.locked user writer))
      else some (.share (.user user) (.locked user writer))
    | _ => none
  | .checkUser =>
    match phase with
    | .locked user writer =>
      if db.Enabled user then some (.stay db (.fenced user writer)) else some (.finish db .idle)
    | _ => none
  | .initializeKey =>
    match phase with
    | .fenced user (.persist stored logicalId forceNewVersion upload) =>
      some (.finish (db.setUser user fun row => { row with hasMediaKey := true })
        (.loaded user (.persist stored logicalId forceNewVersion upload)))
    | _ => none
  | .commit fresh now =>
    match phase with
    | .fenced user writer =>
      match writer.commit mediaEncryptionEnabled db user fresh now with
      | some (after, next) => some (.finish after next)
      | none => some (.finish db .idle)
    | _ => none
  | .finish =>
    match phase with
    | .finishing id =>
      some (.finish (db.updateUpload id fun upload => { upload with status := .complete }) .idle)
    | _ => none
  | .lockAsset id =>
    match phase with
    | .trashing asset => if asset.id = id then some (.lock (.asset id) (.trashLocked asset)) else none
    | .deleting user locked => some (.lock (.asset id) (.deleting user (id :: locked)))
    | _ => none
  | .trash now =>
    match phase with
    | .trashLocked asset =>
      match trashAsset db asset now with
      | some after => some (.finish after .idle)
      | none => some (.finish db .idle)
    | _ => none
  | .delete user =>
    match phase with
    | .idle => some (.lock (.user user) (.deleting user []))
    | _ => none
  | .disable now =>
    match phase with
    | .deleting user locked =>
      -- An account that has its job already is left as it is.
      if ¬ db.Enabled user then some (.finish db .idle)
      else if db.assets.all fun asset => asset.userId ≠ user ∨ asset.id ∈ locked then
        some (.finish (prepareAccountDeletion db user now) .idle)
      else none
    | _ => none
  | .stop => some (.finish db .idle)

abbrev Writers := Store Database Phase LockKey Nat

abbrev step : Writers → Nat × Action → Option Writers := Store.step (program mediaEncryptionEnabled)

def start (db : Database) : Writers := Store.idle db .idle

end Drivebound.Lifecycle
