import Drivebound.Catalog
import Mathlib

/-! The rows of `app/models/sync.py`, the input schema of `app/schemas/sync.py`
and the transaction's view of them. One root is in focus; the journal, the items
and the assets of the other roots and accounts stand beside it in the same
tables. -/
namespace Drivebound.Sync

inductive OperationKind where
  | upsert | move | delete
  deriving DecidableEq, Repr

inductive OperationStatus where
  | applied | conflict | rejected
  deriving DecidableEq, Repr

inductive ConflictKind where
  | deleteVsChange | concurrentChange | invalidTransition
  deriving DecidableEq, Repr

/-- `status` of a conflict; `unresolved` is the source's `open`. -/
inductive ConflictStatus where
  | unresolved | resolved
  deriving DecidableEq, Repr

/-- `SyncConflictResolution.choice`. -/
inductive Choice where
  | keepLocal | keepRemote
  deriving DecidableEq, Repr

structure SyncRoot where
  id : UUID
  userId : UUID
  cursor : Nat
  /-- `status == "active"` -/
  active : Bool
  lastSeenAt : Option Timestamp
  deriving DecidableEq, Repr

structure SyncItem where
  id : UUID
  rootId : UUID
  logicalId : UUID
  assetId : Option UUID
  relativePath : String
  revision : String
  deletedAt : Option Timestamp
  deriving DecidableEq, Repr

/-- The JSON payload of an operation; an absent key and a null are read alike. -/
structure Payload where
  relativePath : Option String := none
  assetId : Option UUID := none
  originalUrl : Option String := none
  filename : Option String := none
  checksum : Option String := none
  requestedKind : Option OperationKind := none
  deleted : Bool := false
  deriving DecidableEq, Repr

structure SyncOperation where
  id : UUID
  rootId : UUID
  cursor : Nat
  clientId : String
  clientSequence : Nat
  operationId : UUID
  kind : OperationKind
  logicalId : UUID
  baseRevision : Option String
  revision : Option String
  payload : Payload
  status : OperationStatus
  deriving DecidableEq, Repr

structure SyncConflict where
  id : UUID
  rootId : UUID
  logicalId : UUID
  localOperationId : UUID
  conflictingOperationId : Option UUID
  kind : ConflictKind
  expectedRevision : Option String
  actualRevision : Option String
  status : ConflictStatus
  resolution : Option Choice
  resolvedAt : Option Timestamp
  deriving DecidableEq, Repr

structure SyncOperationInput where
  operationId : UUID
  clientSequence : Nat
  kind : OperationKind
  logicalId : UUID
  baseRevision : Option String
  relativePath : Option String
  assetId : Option UUID
  deriving DecidableEq, Repr

def stripSlashes (value : List Char) : List Char :=
  ((value.dropWhile (· == '/')).reverse.dropWhile (· == '/')).reverse

/-- `SyncOperationInput.relative_path_only`; `none` is its `ValueError`. -/
def relativePathOnly (value : String) : Option String :=
  let normalized := stripSlashes (value.toList.map fun c => if c = '\\' then '/' else c)
  if normalized = [] ∨ "../".toList <+: normalized ∨ "/../".toList <:+: normalized then none
  else some (String.ofList normalized)

/-- `SyncOperationInput` without its other checks, which change nothing. -/
def parse (input : SyncOperationInput) : Option SyncOperationInput :=
  match input.relativePath with
  | none => some input
  | some path => (relativePathOnly path).map fun path => { input with relativePath := some path }

/-- An input as the schema has accepted it. -/
def Parsed (input : SyncOperationInput) : Prop :=
  ∀ path ∈ input.relativePath, relativePathOnly path = some path

instance : DecidablePred Parsed := fun input =>
  inferInstanceAs (Decidable (∀ path ∈ input.relativePath, relativePathOnly path = some path))

theorem Parsed.parse {input : SyncOperationInput} (parsed : Parsed input) :
    Sync.parse input = some input := by
  obtain ⟨_, _, _, _, _, path, _⟩ := input
  cases path with
  | none => rfl
  | some value => simp only [Sync.parse, parsed value rfl, Option.map_some]

/-- The identifiers drawn by `uuid.uuid4()` while one input is processed. -/
structure FreshIds where
  operation : UUID
  item : UUID
  asset : UUID
  conflict : UUID
  deriving DecidableEq, Repr

/-- What a transaction on one root sees. `userAvailable` is a users row with
`disabled_at` null; `retentionDays` is the owner's storage policy. -/
structure SyncDb where
  root : SyncRoot
  userAvailable : Bool
  retentionDays : Nat
  assets : List Asset
  items : List SyncItem
  operations : List SyncOperation
  conflicts : List SyncConflict
  deriving DecidableEq, Repr

def nextRevision (cursor : Nat) (operationId : UUID) : String :=
  "r" ++ toString cursor ++ "-" ++ operationId.hexPrefix

def operationPayload (input : SyncOperationInput) (asset : Option Asset) : Payload :=
  match asset with
  | none => { relativePath := input.relativePath }
  | some asset =>
    { relativePath := input.relativePath
      assetId := some asset.id
      originalUrl := some ("/api/v1/assets/" ++ toString asset.id ++ "/original")
      filename := asset.originalFilename
      checksum := some asset.checksum }

namespace SyncDb

/-- `SyncItem.root_id == root.id, SyncItem.logical_id == logical_id`. -/
def item? (db : SyncDb) (logicalId : UUID) : Option SyncItem :=
  db.items.find? fun item => item.rootId = db.root.id ∧ item.logicalId = logicalId

/-- An active asset of the root's owner, selected for update by its id. -/
def activeAsset? (db : SyncDb) (id : UUID) : Option Asset :=
  db.assets.find? fun asset =>
    asset.id = id ∧ asset.userId = db.root.userId ∧ asset.lifecycleState = .active

/-- The owner's active revision of a logical item. -/
def activeRevision? (db : SyncDb) (logicalId : UUID) : Option Asset :=
  db.assets.find? fun asset =>
    asset.userId = db.root.userId ∧ asset.logicalId = logicalId ∧ asset.lifecycleState = .active

/-- `coalesce(max(Asset.version), 0)` over the revisions of a logical item. -/
def highestVersion (db : SyncDb) (logicalId : UUID) : Nat :=
  ((db.assets.filter fun asset =>
    asset.userId = db.root.userId ∧ asset.logicalId = logicalId).map Asset.version).foldr max 0

def conflict? (db : SyncDb) (id : UUID) : Option SyncConflict :=
  db.conflicts.find? fun conflict => conflict.id = id

/-- `SyncOperation.id == id, SyncOperation.root_id == root.id`. -/
def operation? (db : SyncDb) (id : UUID) : Option SyncOperation :=
  db.operations.find? fun operation => operation.id = id ∧ operation.rootId = db.root.id

def updateAsset (db : SyncDb) (id : UUID) (change : Asset → Asset) : SyncDb :=
  { db with assets := db.assets.map fun asset => if asset.id = id then change asset else asset }

def updateItem (db : SyncDb) (id : UUID) (change : SyncItem → SyncItem) : SyncDb :=
  { db with items := db.items.map fun item => if item.id = id then change item else item }

def updateOperation (db : SyncDb) (id : UUID) (change : SyncOperation → SyncOperation) : SyncDb :=
  { db with
    operations := db.operations.map fun operation =>
      if operation.id = id then change operation else operation }

def updateConflict (db : SyncDb) (id : UUID) (change : SyncConflict → SyncConflict) : SyncDb :=
  { db with
    conflicts := db.conflicts.map fun conflict =>
      if conflict.id = id then change conflict else conflict }

/-- The applied operation of a logical item with the greatest cursor. -/
def lastApplied? (db : SyncDb) (logicalId : UUID) : Option SyncOperation :=
  (db.operations.filter fun operation =>
    operation.rootId = db.root.id ∧ operation.logicalId = logicalId ∧
      operation.status = .applied).foldl
    (fun best operation =>
      match best with
      | none => some operation
      | some current => if current.cursor < operation.cursor then some operation else some current)
    none

/-- The page of `pull_operations` after a cursor; the client leaves `limit` at its default. -/
def page (db : SyncDb) (cursor : Nat) (limit : Nat := 500) : List SyncOperation :=
  ((db.operations.filter fun operation =>
    operation.rootId = db.root.id ∧ cursor < operation.cursor).insertionSort
      fun a b => a.cursor ≤ b.cursor).take limit

/-- The open conflicts that a pull and a push answer with. -/
def openConflicts (db : SyncDb) : List UUID :=
  (db.conflicts.filter fun conflict =>
    conflict.rootId = db.root.id ∧ conflict.status = .unresolved).map SyncConflict.id

end SyncDb

end Drivebound.Sync
