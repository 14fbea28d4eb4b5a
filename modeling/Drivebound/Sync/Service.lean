import Drivebound.Sync.Journal

/-! `app/services/sync.py`: applying operations of a pushed batch and resolving a
conflict. A `ValueError` keeps the transaction's changes made before it, so it
carries the working copy; the caller goes on with it or rolls back. The root and
the conflict are instances the endpoint loaded before the locking `SELECT`: what
they had cached is an argument here. -/
namespace Drivebound.Sync

structure Raised where
  failure : Failure
  db : SyncDb
  deriving DecidableEq, Repr

def raised (db : SyncDb) (message : String) : Except Raised α :=
  .error ⟨.valueError message, db⟩

/-- A flush of one inserted row. -/
def flush (db : SyncDb) (inserted : Except Failure (List α)) (change : List α → SyncDb) :
    Except Raised SyncDb :=
  match inserted with
  | .ok rows => .ok (change rows)
  | .error failure => .error ⟨failure, db⟩

/-- `clone_asset_revision`: the identity columns are reset, the rest is copied. -/
def cloneAssetRevision (source : Asset) (logicalId : UUID) (version : Nat) (id : UUID) :
    Except Failure Asset :=
  if source.lifecycleState = .active ∨ source.lifecycleState = .superseded then
    .ok { source with
      id, logicalId, version
      lifecycleState := .active
      supersededAt := none
      trashedAt := none
      purgeAfter := none
      deletedBy := none }
  else .error (.valueError "An asset being deleted cannot be cloned or reactivated")

/-- `trash_asset` with the policy's retention, for an asset row locked by its id. -/
def trashAsset (db : SyncDb) (id : UUID) (actor : String) (now : Timestamp) :
    Except Raised SyncDb :=
  match db.assets.find? (fun asset => asset.id = id) with
  | none => raised db "This asset no longer exists"
  | some asset =>
    match asset.trashes db.retentionDays with
    | .error message => raised db message
    | .ok false => .ok db
    | .ok true => .ok (db.updateAsset id fun asset => asset.trash db.retentionDays actor now)

/-- `clone_asset_revision` and `session.add`. -/
def addClone (db : SyncDb) (asset : Asset) (logicalId : UUID) (version : Nat) (id : UUID) :
    Except Raised (SyncDb × Asset) := do
  let revision ← (cloneAssetRevision asset logicalId version id).mapError fun failure =>
    (⟨failure, db⟩ : Raised)
  let db ← flush db (insertRow Asset.id db.assets revision) fun assets => { db with assets }
  .ok (db, revision)

/-- The revision an upsert publishes: the uploaded asset itself, attached to the
logical item, or a clone of it where its row already belongs to another history. -/
def upsertRevision (db : SyncDb) (input : SyncOperationInput) (item : Option SyncItem)
    (asset : Asset) (activeTarget : Option Asset) (version : Nat) (fresh : FreshIds) :
    Except Raised (SyncDb × Asset) :=
  if asset.logicalId ≠ input.logicalId then
    let referencedElsewhere := db.items.any fun other =>
      other.assetId = some asset.id ∧
        (other.rootId ≠ db.root.id ∨ other.logicalId ≠ input.logicalId)
    let hasHistory := db.assets.any fun other =>
      other.userId = db.root.userId ∧ other.logicalId = asset.logicalId ∧ other.id ≠ asset.id
    if referencedElsewhere ∨ hasHistory then
      addClone db asset input.logicalId version fresh.asset
    else
      let attach (asset : Asset) : Asset := { asset with logicalId := input.logicalId, version }
      .ok (db.updateAsset asset.id attach, attach asset)
  else if item.any (fun item => item.assetId ≠ some asset.id) ∧
      activeTarget.all (fun target => target.id ≠ asset.id) then
    addClone db asset input.logicalId version fresh.asset
  else .ok (db, asset)

/-- The first flush of an upsert: another active revision of the item is superseded. -/
def supersedePrevious (db : SyncDb) (activeTarget : Option Asset) (asset : Asset) (now : Timestamp) :
    SyncDb :=
  match activeTarget with
  | some target =>
    if target.id ≠ asset.id then db.updateAsset target.id fun target => target.supersede now
    else db
  | none => db

theorem supersedePrevious_cases (db : SyncDb) (activeTarget : Option Asset) (asset : Asset) (now : Timestamp) :
    supersedePrevious db activeTarget asset now = db ∨
      ∃ target ∈ activeTarget, target.id ≠ asset.id ∧ supersedePrevious db activeTarget asset now =
        db.updateAsset target.id fun target => target.supersede now := by
  cases activeTarget with
  | none => exact .inl rfl
  | some target =>
    by_cases same : target.id = asset.id
    · exact .inl (if_neg (not_not.mpr same))
    · exact .inr ⟨target, rfl, same, if_pos same⟩

theorem supersedePrevious_rest (db : SyncDb) (activeTarget : Option Asset) (asset : Asset) (now : Timestamp) :
    supersedePrevious db activeTarget asset now =
      { db with assets := (supersedePrevious db activeTarget asset now).assets } := by
  rcases supersedePrevious_cases db activeTarget asset now with same | ⟨target, _, _, written⟩
  · rw [same]
  · rw [written]
    rfl

def applyUpsert (db : SyncDb) (operation : SyncOperation) (input : SyncOperationInput)
    (item : Option SyncItem) (fresh : FreshIds) (now : Timestamp) :
    Except Raised (SyncDb × SyncOperation) :=
  match input.assetId, input.relativePath with
  | some assetId, some relativePath =>
    match db.activeAsset? assetId with
    | none => raised db "The uploaded asset is unavailable"
    | some asset => do
      let version := db.highestVersion input.logicalId + 1
      let activeTarget := db.activeRevision? input.logicalId
      let db := supersedePrevious db activeTarget asset now
      let (db, asset) ← upsertRevision db input item asset activeTarget version fresh
      let db := db.updateAsset asset.id fun asset =>
        { asset with
          lifecycleState := .active, supersededAt := none, trashedAt := none, purgeAfter := none }
      let revision := operation.revision.getD ""
      let db ← match item with
        | none =>
          flush db (insertRow SyncItem.id db.items
            { id := fresh.item, rootId := db.root.id, logicalId := input.logicalId
              assetId := some asset.id, relativePath, revision, deletedAt := none })
            fun items => { db with items }
        | some item =>
          .ok (db.updateItem item.id fun item =>
            { item with assetId := some asset.id, relativePath, revision, deletedAt := none })
      .ok (db, { operation with payload := operationPayload input (some asset) })
  | _, _ => raised db "An upsert needs an uploaded asset and relative path"

def applyMove (db : SyncDb) (operation : SyncOperation) (input : SyncOperationInput)
    (item : Option SyncItem) : Except Raised (SyncDb × SyncOperation) :=
  match item, input.relativePath with
  | some item, some relativePath =>
    if item.deletedAt.isSome then
      raised db "A move needs an existing, live sync item and relative path"
    else
      let moved (asset : Option Asset) : Except Raised (SyncDb × SyncOperation) :=
        .ok (db.updateItem item.id fun item =>
            { item with relativePath, revision := operation.revision.getD "" },
          { operation with payload := operationPayload input asset })
      match item.assetId with
      | none => moved none
      | some assetId =>
        match db.activeAsset? assetId with
        | none => raised db "The synchronized asset is being deleted"
        | some asset => moved (some asset)
  | _, _ => raised db "A move needs an existing, live sync item and relative path"

def applyDelete (db : SyncDb) (operation : SyncOperation) (input : SyncOperationInput)
    (item : Option SyncItem) (fresh : FreshIds) (now : Timestamp) :
    Except Raised (SyncDb × SyncOperation) := do
  let revision := operation.revision.getD ""
  let payload (relativePath : String) : Payload :=
    { relativePath := some relativePath, deleted := true }
  match item with
  | none =>
    -- A tombstone for an unknown item is inserted without `deleted_at`.
    let relativePath := input.relativePath.getD ""
    let db ← flush db (insertRow SyncItem.id db.items
      { id := fresh.item, rootId := db.root.id, logicalId := input.logicalId, assetId := none
        relativePath, revision, deletedAt := none }) fun items => { db with items }
    .ok (db, { operation with payload := payload relativePath })
  | some item =>
    let db ← match item.assetId with
      | none => .ok db
      | some assetId =>
        match db.activeAsset? assetId with
        | none => raised db "The synchronized asset is being deleted"
        | some asset => trashAsset db asset.id ("sync:" ++ operation.clientId) now
    .ok (db.updateItem item.id fun item => { item with deletedAt := some now, revision },
      { operation with payload := payload item.relativePath })

/-- `_apply_item_operation`. -/
def applyItemOperation (db : SyncDb) (operation : SyncOperation) (input : SyncOperationInput)
    (item : Option SyncItem) (fresh : FreshIds) (now : Timestamp) :
    Except Raised (SyncDb × SyncOperation) :=
  match input.kind with
  | .upsert => applyUpsert db operation input item fresh now
  | .move => applyMove db operation input item
  | .delete => applyDelete db operation input item fresh now

/-- The state of the loop of `apply_operations`: the root instance's cursor
attribute, the transaction's tables and the two lists it returns. -/
structure Batch where
  cursor : Nat
  db : SyncDb
  operations : List SyncOperation
  conflicts : List SyncConflict
  deriving DecidableEq, Repr

/-- The conflict of a base revision that is not the item's current one. -/
def baseConflict (input : SyncOperationInput) (item : Option SyncItem) : Option ConflictKind :=
  match item with
  | none => none
  | some item =>
    if input.baseRevision = some item.revision then none
    else if input.kind = .delete ∨ item.deletedAt.isSome then some .deleteVsChange
    else some .concurrentChange

/-- An earlier operation with the same operation id (on any root), else one of
this client with the same sequence number. -/
def duplicate? (db : SyncDb) (clientId : String) (input : SyncOperationInput) :
    Option SyncOperation :=
  (db.operations.find? fun operation => operation.operationId = input.operationId).or
    (db.operations.find? fun operation =>
      operation.rootId = db.root.id ∧ operation.clientId = clientId ∧
        operation.clientSequence = input.clientSequence)

def newOperation (b : Batch) (clientId : String) (input : SyncOperationInput)
    (fresh : FreshIds) : SyncOperation where
  id := fresh.operation
  rootId := b.db.root.id
  cursor := b.cursor + 1
  clientId := clientId
  clientSequence := input.clientSequence
  operationId := input.operationId
  kind := input.kind
  logicalId := input.logicalId
  baseRevision := input.baseRevision
  revision := some (nextRevision (b.cursor + 1) input.operationId)
  payload := {}
  status := .applied

/-- The new operation takes the next cursor and is inserted. -/
def recordOperation (b : Batch) (db : SyncDb) (operation : SyncOperation) :
    Except Failure Batch := do
  let operations ← insertRow SyncOperation.id db.operations operation
  .ok { b with
    cursor := operation.cursor
    db := { db with operations }
    operations := b.operations ++ [operation] }

def recordConflict (b : Batch) (db : SyncDb) (operation : SyncOperation)
    (input : SyncOperationInput) (item : Option SyncItem) (fresh : FreshIds)
    (kind : ConflictKind) : Except Failure Batch := do
  let conflict : SyncConflict :=
    { id := fresh.conflict, rootId := db.root.id, logicalId := input.logicalId
      localOperationId := operation.id
      conflictingOperationId := (db.lastApplied? input.logicalId).map SyncOperation.id
      kind, expectedRevision := input.baseRevision
      actualRevision := item.map SyncItem.revision
      status := .unresolved, resolution := none, resolvedAt := none }
  let conflicts ← insertRow SyncConflict.id db.conflicts conflict
  let b ← recordOperation b { db with conflicts }
    { operation with
      status := .conflict
      payload :=
        { relativePath := input.relativePath, assetId := input.assetId
          requestedKind := some input.kind } }
  .ok { b with conflicts := b.conflicts ++ [conflict] }

/-- One iteration of the loop of `apply_operations`. -/
def applyOne (clientId : String) (now : Timestamp) (b : Batch)
    (entry : SyncOperationInput × FreshIds) : Except Failure Batch :=
  let (input, fresh) := entry
  match duplicate? b.db clientId input with
  | some duplicate => .ok { b with operations := b.operations ++ [duplicate] }
  | none =>
    let item := b.db.item? input.logicalId
    let operation := newOperation b clientId input fresh
    match baseConflict input item with
    | some kind => recordConflict b b.db operation input item fresh kind
    | none =>
      match applyItemOperation b.db operation input item fresh now with
      | .ok (db, operation) => recordOperation b db operation
      | .error ⟨.valueError _, db⟩ =>
        recordConflict b db operation input item fresh .invalidTransition
      | .error ⟨.integrityError, _⟩ => .error .integrityError

def applyAll (clientId : String) (now : Timestamp) :
    Batch → List (SyncOperationInput × FreshIds) → Except Failure Batch
  | b, [] => .ok b
  | b, entry :: rest => do applyAll clientId now (← applyOne clientId now b entry) rest

/-- The flush of a loaded instance writes the columns whose value was changed. -/
def writeColumn [DecidableEq α] (loaded assigned stored : α) : α :=
  if assigned = loaded then stored else assigned

/-- `apply_operations` up to its flush. `loaded` is the cursor attribute of the
root instance, which the locking `SELECT` does not refresh. -/
def applyOperations (db : SyncDb) (loaded : Nat) (clientId : String)
    (inputs : List (SyncOperationInput × FreshIds)) (now : Timestamp) : Except Failure Batch :=
  if !db.userAvailable then .error (.valueError "Account is unavailable")
  else if !db.root.active then .error (.valueError "Sync root is unavailable")
  else do
    let b ← applyAll clientId now ⟨loaded, db, [], []⟩ inputs
    .ok { b with
      db := { b.db with
        root := { b.db.root with
          cursor := writeColumn loaded b.cursor b.db.root.cursor
          lastSeenAt := some now } } }

/-- The input `resolve_conflict` rebuilds from a stored operation; the schema
validates the path again. -/
def storedInput (operation : SyncOperation) : Except Failure SyncOperationInput :=
  let input (relativePath : Option String) : SyncOperationInput :=
    { operationId := operation.operationId, clientSequence := operation.clientSequence
      kind := operation.kind, logicalId := operation.logicalId, baseRevision := none
      relativePath, assetId := operation.payload.assetId }
  match operation.payload.relativePath with
  | none => .ok (input none)
  | some value =>
    match relativePathOnly value with
    | none => .error (.valueError "relative_path must stay within the selected sync root")
    | some path => .ok (input (some path))

/-- The item of a logical id, where there is one, takes a revision. -/
def SyncDb.stampItem (db : SyncDb) (logicalId : UUID) (revision : String) : SyncDb :=
  match db.item? logicalId with
  | some item => db.updateItem item.id fun item => { item with revision }
  | none => db

/-- The `keep_local` branch of `resolve_conflict`: the operation is applied and
re-issued at a new cursor. -/
def keepLocal (db : SyncDb) (operation : SyncOperation) (fresh : FreshIds) (now : Timestamp) :
    Except Failure SyncDb := do
  let input ← storedInput operation
  let item := db.item? operation.logicalId
  let (db, operation) ←
    (applyItemOperation db operation input item fresh now).mapError Raised.failure
  let cursor := db.root.cursor + 1
  let revision := nextRevision cursor operation.operationId
  let db := { db with root := { db.root with cursor } }
  let db := db.stampItem operation.logicalId revision
  .ok (db.updateOperation operation.id fun _ =>
    { operation with cursor, revision := some revision, status := .applied })

/-- `resolve_conflict`. `loaded` is the conflict instance of the endpoint, whose
attributes the locking `SELECT` does not refresh; the root, the operation and the
item are first loaded here. -/
def resolveConflict (db : SyncDb) (loaded : SyncConflict) (choice : Choice)
    (fresh : FreshIds) (now : Timestamp) : Except Failure SyncDb :=
  if loaded.rootId ≠ db.root.id then .error (.valueError "Sync conflict is incomplete")
  else if !db.userAvailable then .error (.valueError "Account is unavailable")
  else if !db.root.active then .error (.valueError "Sync conflict is incomplete")
  else if !db.conflicts.any (fun conflict =>
      conflict.id = loaded.id ∧ conflict.rootId = db.root.id) then
    .error (.valueError "Sync conflict is incomplete")
  else if loaded.status ≠ .unresolved then .ok db
  else
    match db.operation? loaded.localOperationId with
    | none => .error (.valueError "Sync conflict is incomplete")
    | some operation => do
      let db ← match choice with
        | .keepLocal => keepLocal db operation fresh now
        | .keepRemote =>
          .ok (db.updateOperation operation.id fun operation =>
            { operation with status := .rejected })
      .ok (db.updateConflict loaded.id fun conflict =>
        { conflict with
          status := .resolved, resolution := some choice, resolvedAt := some now })

end Drivebound.Sync
