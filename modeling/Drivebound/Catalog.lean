import Mathlib.Data.List.Basic

/-! Catalog rows of `app/models`, with the columns that modelled code reads,
writes or copies, and what the services assign to the row of an asset. Rows of
one table are a list; the primary key is checked when a row is inserted. -/
namespace Drivebound

abbrev UUID := Nat

/-- A timezone-aware instant, in seconds. -/
abbrev Timestamp := Nat

/-- The first twelve digits of `uuid.hex`. -/
def UUID.hexPrefix (id : UUID) : String :=
  String.ofList (((Nat.toDigits 16 id).leftpad 32 '0').take 12)

/-- `ck_assets_lifecycle_state`. -/
inductive LifecycleState where
  | active | superseded | trashed | purging
  deriving DecidableEq, Repr

inductive StorageSource where
  | managed | external
  deriving DecidableEq, Repr

structure Asset where
  id : UUID
  userId : UUID
  logicalId : UUID
  version : Nat
  lifecycleState : LifecycleState
  supersededAt : Option Timestamp
  trashedAt : Option Timestamp
  purgeAfter : Option Timestamp
  deletedBy : Option String
  originalPath : String
  checksum : String
  storageChecksum : String
  encryptionVersion : Nat
  fileSize : Nat
  thumbnailPath : Option String
  previewPath : Option String
  storageSource : StorageSource
  originalFilename : Option String
  deriving DecidableEq, Repr

structure AssetReplica where
  id : UUID
  assetId : UUID
  driveId : Option UUID
  path : String
  metadataPath : Option String
  deriving DecidableEq, Repr

inductive UploadStatus where
  | active | complete | expired | failed
  deriving DecidableEq, Repr

/-- What a service function raises. Only a `ValueError` is caught by the
endpoints; everything else ends the request and rolls its transaction back. -/
inductive Failure where
  | valueError (message : String)
  | integrityError
  deriving DecidableEq, Repr

/-- `session.add` and flush: a second row under one primary key is refused. -/
def insertRow (key : α → UUID) (rows : List α) (row : α) : Except Failure (List α) :=
  if rows.any (key · == key row) then .error .integrityError else .ok (rows ++ [row])

theorem insertRow_ok {key : α → UUID} {rows result : List α} {row : α}
    (inserted : insertRow key rows row = .ok result) :
    result = rows ++ [row] ∧ ∀ r ∈ rows, key r ≠ key row := by
  unfold insertRow at inserted
  split at inserted
  · contradiction
  · rename_i fresh
    cases inserted
    refine ⟨rfl, fun r member same => fresh ?_⟩
    simpa using ⟨r, member, same⟩

/-- The columns that `trash_asset` assigns. -/
def Asset.trash (asset : Asset) (retentionDays : Nat) (actor : String) (now : Timestamp) : Asset :=
  { asset with
    lifecycleState := .trashed
    trashedAt := some now
    purgeAfter := some (now + retentionDays * 86400)
    deletedBy := some (String.ofList (actor.toList.take 128)) }

/-- The checks of `trash_asset` on the instance it holds; nothing is assigned to one in trash. -/
def Asset.trashes (asset : Asset) (retentionDays : Nat) : Except String Bool :=
  if asset.lifecycleState = .trashed then .ok false
  else if asset.lifecycleState ≠ .active then
    .error "Only the active revision can be moved to trash"
  else if retentionDays < 1 then .error "Retention must be at least one day"
  else .ok true

theorem Asset.trashes_iff {asset : Asset} {retentionDays : Nat} :
    asset.trashes retentionDays = .ok true ↔ asset.lifecycleState = .active ∧ 1 ≤ retentionDays := by
  unfold trashes
  split_ifs with trashed active short
  · simp [trashed]
  · simp [active]
  · simp only [false_iff, not_and]
    omega
  · simp only [true_iff]
    exact ⟨not_not.mp active, Nat.not_lt.mp short⟩

theorem Asset.trashes_false_iff {asset : Asset} {retentionDays : Nat} :
    asset.trashes retentionDays = .ok false ↔ asset.lifecycleState = .trashed := by
  unfold trashes
  split_ifs with trashed
  · simp [trashed]
  · simp [trashed]
  · simp [trashed]
  · simp [trashed]

/-- What a revision is assigned when another one takes its place. -/
def Asset.supersede (asset : Asset) (now : Timestamp) : Asset :=
  { asset with lifecycleState := .superseded, supersededAt := some now }

/-- The assets of an account as `prepare_account_deletion` leaves them. -/
def purgeWithAccount (user : UUID) (now : Timestamp) (assets : List Asset) : List Asset :=
  assets.map fun asset =>
    if asset.userId = user then
      { asset with
        lifecycleState := .purging
        trashedAt := asset.trashedAt <|> some now
        purgeAfter := some now
        deletedBy := some "account-deletion" }
    else asset

theorem purgeWithAccount_ids (user : UUID) (now : Timestamp) (assets : List Asset) :
    (purgeWithAccount user now assets).map Asset.id = assets.map Asset.id := by
  rw [purgeWithAccount, List.map_map]
  apply List.map_congr_left
  intro asset _
  simp only [Function.comp_apply]
  split <;> rfl

/-- What `safely_purge_asset` asks of the row that it has locked. -/
def IsPurgeDue (now : Timestamp) (asset : Asset) : Prop :=
  (asset.lifecycleState = .trashed ∨ asset.lifecycleState = .purging) ∧
    ∃ due ∈ asset.purgeAfter, due ≤ now

instance (now : Timestamp) : DecidablePred (IsPurgeDue now) := fun asset =>
  inferInstanceAs (Decidable (_ ∧ ∃ due ∈ asset.purgeAfter, _))

end Drivebound
