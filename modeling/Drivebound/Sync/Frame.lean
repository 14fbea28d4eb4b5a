import Drivebound.Core.Checked
import Drivebound.Sync.Service

/-! What applying an item operation leaves alone. It changes items, assets and
the payload of its own operation; the root row, the journal and the conflicts
stay as they are, also where it raises. One iteration of the push loop therefore
either repeats a recorded operation or appends one operation at the next cursor. -/
namespace Drivebound.Sync
open Checked

structure SameJournal (before after : SyncDb) : Prop where
  root : after.root = before.root
  operations : after.operations = before.operations
  conflicts : after.conflicts = before.conflicts
  userAvailable : after.userAvailable = before.userAvailable
  retentionDays : after.retentionDays = before.retentionDays

namespace SameJournal

theorem refl (db : SyncDb) : SameJournal db db := ⟨rfl, rfl, rfl, rfl, rfl⟩

theorem trans (first : SameJournal a b) (second : SameJournal b c) : SameJournal a c :=
  ⟨second.root.trans first.root, second.operations.trans first.operations,
    second.conflicts.trans first.conflicts, second.userAvailable.trans first.userAvailable,
    second.retentionDays.trans first.retentionDays⟩

theorem updateAsset (db : SyncDb) (id : UUID) (change : Asset → Asset) :
    SameJournal db (db.updateAsset id change) := ⟨rfl, rfl, rfl, rfl, rfl⟩

theorem updateItem (db : SyncDb) (id : UUID) (change : SyncItem → SyncItem) :
    SameJournal db (db.updateItem id change) := ⟨rfl, rfl, rfl, rfl, rfl⟩

end SameJournal

/-- Both endings keep the journal of `db`. -/
abbrev KeepsJournal (db : SyncDb) (current : α → SyncDb) : Except Raised α → Prop :=
  Ends (fun value => SameJournal db (current value)) (fun r => SameJournal db r.db)

theorem flush_keeps {db current : SyncDb} {change : List α → SyncDb}
    (inserted : Except Failure (List α)) (same : SameJournal db current)
    (keeps : ∀ rows, SameJournal current (change rows)) :
    KeepsJournal db (fun after => after) (flush current inserted change) := by
  cases inserted with
  | ok rows => exact same.trans (keeps rows)
  | error failure => exact same

/-- What `trash_asset` comes to: a refusal, nothing, or the columns of the asset's row. -/
theorem trashAsset_ends {P : SyncDb → Prop} {Q : Raised → Prop} {db : SyncDb} {id : UUID} {actor : String}
    {now : Timestamp} (refused : ∀ message, Q ⟨.valueError message, db⟩) (same : P db)
    (written : P (db.updateAsset id fun asset => asset.trash db.retentionDays actor now)) :
    Ends P Q (trashAsset db id actor now) := by
  unfold trashAsset
  split
  · exact refused _
  · split
    · exact refused _
    · exact same
    · exact written

theorem trashAsset_keeps {db current : SyncDb} (same : SameJournal db current) (id : UUID)
    (actor : String) (now : Timestamp) :
    KeepsJournal db (fun after => after) (trashAsset current id actor now) :=
  trashAsset_ends (fun _ => same) same (same.trans (.updateAsset ..))

theorem addClone_keeps {db current : SyncDb} (same : SameJournal db current) (asset : Asset)
    (logicalId : UUID) (version : Nat) (id : UUID) :
    KeepsJournal db Prod.fst (addClone current asset logicalId version id) := by
  unfold addClone
  refine Ends.bind ((Ends.trivial _).mapError fun _ _ => same) ?_
  intro revision _
  refine Ends.bind (flush_keeps _ same ?_) ?_
  · intro rows
    exact ⟨rfl, rfl, rfl, rfl, rfl⟩
  · intro after kept
    exact kept

theorem upsertRevision_keeps {db current : SyncDb} (same : SameJournal db current)
    (input : SyncOperationInput) (item : Option SyncItem) (asset : Asset)
    (activeTarget : Option Asset) (version : Nat) (fresh : FreshIds) :
    KeepsJournal db Prod.fst
      (upsertRevision current input item asset activeTarget version fresh) := by
  unfold upsertRevision
  split
  · dsimp only
    split
    · exact addClone_keeps same ..
    · exact same.trans (.updateAsset ..)
  · split
    · exact addClone_keeps same ..
    · exact same

/-- The journal is kept and the operation differs in its payload at most. -/
def Applied (db : SyncDb) (operation : SyncOperation) (result : SyncDb × SyncOperation) : Prop :=
  SameJournal db result.1 ∧ ∃ payload, result.2 = { operation with payload }

theorem applyUpsert_applied (db : SyncDb) (operation : SyncOperation)
    (input : SyncOperationInput) (item : Option SyncItem) (fresh : FreshIds) (now : Timestamp) :
    Ends (Applied db operation) (fun r => SameJournal db r.db)
      (applyUpsert db operation input item fresh now) := by
  unfold applyUpsert
  split
  · split
    · exact .refl db
    · rename_i assetId relativePath _ _ _ asset _
      have superseded : SameJournal db (supersedePrevious db (db.activeRevision? input.logicalId) asset now) := by
        rcases supersedePrevious_cases db (db.activeRevision? input.logicalId) asset now with
          same | ⟨target, _, _, written⟩
        · rw [same]
          exact .refl db
        · rw [written]
          exact .updateAsset ..
      refine Ends.bind (upsertRevision_keeps superseded ..) ?_
      rintro ⟨after, revision⟩ kept
      have published := SameJournal.trans kept (.updateAsset after revision.id fun asset =>
        { asset with
          lifecycleState := .active, supersededAt := none, trashedAt := none, purgeAfter := none })
      cases item with
      | none =>
        refine Ends.bind (flush_keeps _ published ?_) ?_
        · intro rows
          exact ⟨rfl, rfl, rfl, rfl, rfl⟩
        · intro final same
          exact ⟨same, _, rfl⟩
      | some item => exact ⟨published.trans (.updateItem ..), _, rfl⟩
  · exact .refl db

theorem applyMove_applied (db : SyncDb) (operation : SyncOperation)
    (input : SyncOperationInput) (item : Option SyncItem) :
    Ends (Applied db operation) (fun r => SameJournal db r.db)
      (applyMove db operation input item) := by
  unfold applyMove
  split
  · split_ifs
    · exact .refl db
    · split
      · exact ⟨.updateItem .., _, rfl⟩
      · split
        · exact .refl db
        · exact ⟨.updateItem .., _, rfl⟩
  · exact .refl db

theorem applyDelete_applied (db : SyncDb) (operation : SyncOperation)
    (input : SyncOperationInput) (item : Option SyncItem) (fresh : FreshIds) (now : Timestamp) :
    Ends (Applied db operation) (fun r => SameJournal db r.db)
      (applyDelete db operation input item fresh now) := by
  unfold applyDelete
  cases item with
  | none =>
    refine Ends.bind (flush_keeps _ (.refl db) ?_) ?_
    · intro rows
      exact ⟨rfl, rfl, rfl, rfl, rfl⟩
    · intro after kept
      exact ⟨kept, _, rfl⟩
  | some item =>
    dsimp only
    split
    · exact ⟨.updateItem .., _, rfl⟩
    · split
      · exact .refl db
      · refine Ends.bind (trashAsset_keeps (.refl db) ..) ?_
        intro after kept
        exact ⟨kept.trans (.updateItem ..), _, rfl⟩

theorem applyItemOperation_applied (db : SyncDb) (operation : SyncOperation)
    (input : SyncOperationInput) (item : Option SyncItem) (fresh : FreshIds) (now : Timestamp) :
    Ends (Applied db operation) (fun r => SameJournal db r.db)
      (applyItemOperation db operation input item fresh now) := by
  unfold applyItemOperation
  cases input.kind with
  | upsert => exact applyUpsert_applied ..
  | move => exact applyMove_applied ..
  | delete => exact applyDelete_applied ..

/-- One operation is appended at the cursor after the batch's. -/
structure Recorded (b after : Batch) (operation : SyncOperation) : Prop where
  rootId : operation.rootId = b.db.root.id
  cursor : operation.cursor = b.cursor + 1
  advanced : after.cursor = b.cursor + 1
  unused : ∀ other ∈ b.db.operations, other.id ≠ operation.id
  appended : after.db.operations = b.db.operations ++ [operation]
  root : after.db.root = b.db.root

theorem recordOperation_recorded {b after : Batch} {db : SyncDb} {operation : SyncOperation}
    (result : recordOperation b db operation = .ok after)
    (root : db.root = b.db.root) (operations : db.operations = b.db.operations)
    (rootId : operation.rootId = b.db.root.id) (cursor : operation.cursor = b.cursor + 1) :
    Recorded b after operation := by
  obtain ⟨rows, inserted, finished⟩ := bind_ok_iff.mp result
  obtain ⟨rfl, unused⟩ := insertRow_ok inserted
  cases finished
  rw [operations] at unused
  refine ⟨rootId, cursor, cursor, unused, ?_, root⟩
  simp only [operations]

theorem recordConflict_recorded {b after : Batch} {db : SyncDb} {operation : SyncOperation}
    (result : recordConflict b db operation input item fresh kind = .ok after)
    (same : SameJournal b.db db) (rootId : operation.rootId = b.db.root.id)
    (cursor : operation.cursor = b.cursor + 1) :
    ∃ recorded, Recorded b after recorded ∧ recorded.clientId = operation.clientId := by
  obtain ⟨conflicts, _, result⟩ := bind_ok_iff.mp result
  obtain ⟨middle, result, finished⟩ := bind_ok_iff.mp result
  have recorded := recordOperation_recorded result same.root same.operations rootId cursor
  cases finished
  exact ⟨_, ⟨recorded.rootId, recorded.cursor, recorded.advanced, recorded.unused,
    recorded.appended, recorded.root⟩, rfl⟩

/-- All that one iteration can do. -/
theorem applyOne_cases {b after : Batch} {entry : SyncOperationInput × FreshIds}
    (result : applyOne clientId now b entry = .ok after) :
    (∃ duplicate, duplicate? b.db clientId entry.1 = some duplicate ∧
      after = { b with operations := b.operations ++ [duplicate] }) ∨
    (duplicate? b.db clientId entry.1 = none ∧
      ∃ operation, Recorded b after operation ∧ operation.clientId = clientId) := by
  obtain ⟨input, fresh⟩ := entry
  simp only [applyOne] at result
  split at result
  · rename_i duplicate found
    cases result
    exact .inl ⟨duplicate, found, rfl⟩
  · rename_i missing
    refine .inr ⟨missing, ?_⟩
    split at result
    · exact recordConflict_recorded result (.refl _) rfl rfl
    · have applied := applyItemOperation_applied b.db (newOperation b clientId input fresh) input
        (b.db.item? input.logicalId) fresh now
      split at result
      · rename_i db operation same
        obtain ⟨kept, payload, rfl⟩ := applied.value same
        exact ⟨_, recordOperation_recorded result kept.root kept.operations rfl rfl, rfl⟩
      · rename_i message db same
        exact recordConflict_recorded result (applied.raised same) rfl rfl
      · contradiction

theorem operation?_found {db : SyncDb} {id : UUID} (found : db.operation? id = some operation) :
    operation ∈ db.operations ∧ operation.id = id ∧ operation.rootId = db.root.id := by
  have holds := List.find?_some found
  simp only [decide_eq_true_eq] at holds
  exact ⟨List.mem_of_find?_eq_some found, holds⟩

theorem SameJournal.stampItem (db : SyncDb) (logicalId : UUID) (revision : String) :
    SameJournal db (db.stampItem logicalId revision) := by
  unfold SyncDb.stampItem
  split
  · exact .updateItem ..
  · exact .refl db

/-- Stamping an item does not look at the root's cursor. -/
theorem stampItem_setRoot (db : SyncDb) (logicalId : UUID) (revision : String) (cursor : Nat) :
    { db with root := { db.root with cursor } }.stampItem logicalId revision =
      { db.stampItem logicalId revision with root := { db.root with cursor } } := by
  have same : { db with root := { db.root with cursor } }.item? logicalId =
      db.item? logicalId := rfl
  unfold SyncDb.stampItem
  rw [same]
  cases db.item? logicalId <;> rfl

/-- `keep_local` applies the stored operation once, re-issues it at the next
cursor and stamps the item with its new revision. -/
structure KeptLocal (db : SyncDb) (operation : SyncOperation) (fresh : FreshIds)
    (now : Timestamp) (input : SyncOperationInput) (applied after : SyncDb) (payload : Payload) :
    Prop where
  stored : storedInput operation = .ok input
  once : applyItemOperation db operation input (db.item? operation.logicalId) fresh now =
    .ok (applied, { operation with payload })
  journal : SameJournal db applied
  items : after.items = (applied.stampItem operation.logicalId
    (nextRevision (db.root.cursor + 1) operation.operationId)).items
  assets : after.assets = applied.assets
  root : after.root = { db.root with cursor := db.root.cursor + 1 }
  operations : after.operations = (db.updateOperation operation.id fun _ =>
    { operation with
      payload, cursor := db.root.cursor + 1, status := .applied
      revision := some (nextRevision (db.root.cursor + 1) operation.operationId) }).operations

theorem keepLocal_cases (result : keepLocal db operation fresh now = .ok after) :
    (∃ input applied payload, KeptLocal db operation fresh now input applied after payload) ∧
      after.conflicts = db.conflicts := by
  obtain ⟨input, stored, remaining⟩ := bind_ok_iff.mp result
  obtain ⟨⟨applied, reissued⟩, itemResult, finished⟩ := bind_ok_iff.mp remaining
  have itemApplied := mapError_ok_iff.mp itemResult
  obtain ⟨kept, payload, rfl⟩ := (applyItemOperation_applied db operation input
    (db.item? operation.logicalId) fresh now).value itemApplied
  cases finished
  have root : applied.root = db.root := kept.root
  have stamped := kept.trans (.stampItem applied operation.logicalId
    (nextRevision (db.root.cursor + 1) operation.operationId))
  rw [stampItem_setRoot, root]
  refine ⟨⟨input, applied, payload, stored, itemApplied, kept, rfl, ?_, rfl, ?_⟩, stamped.conflicts⟩
  · simp only [SyncDb.updateOperation, SyncDb.stampItem, SyncDb.updateItem]
    split <;> rfl
  · simp only [SyncDb.updateOperation, stamped.operations]

/-- All that an accepted resolution can do. -/
theorem resolveConflict_cases (result : resolveConflict db loaded choice fresh now = .ok after) :
    (loaded.status ≠ .unresolved ∧ after = db) ∨
    (loaded.status = .unresolved ∧ ∃ operation settled,
      db.operation? loaded.localOperationId = some operation ∧
      (choice = .keepLocal ∧ keepLocal db operation fresh now = .ok settled ∨
        choice = .keepRemote ∧ settled = db.updateOperation operation.id fun operation =>
          { operation with status := .rejected }) ∧
      after = settled.updateConflict loaded.id fun conflict =>
        { conflict with status := .resolved, resolution := some choice, resolvedAt := some now }) := by
  unfold resolveConflict at result
  split_ifs at result with _ _ _ _ answered
  · cases result
    exact .inl ⟨answered, rfl⟩
  · have unresolved := not_not.mp answered
    refine .inr ⟨unresolved, ?_⟩
    split at result
    · contradiction
    · rename_i operation found
      refine ⟨operation, ?_⟩
      cases choice with
      | keepLocal =>
        obtain ⟨settled, kept, finished⟩ := bind_ok_iff.mp result
        cases finished
        exact ⟨settled, found, .inl ⟨rfl, kept⟩, rfl⟩
      | keepRemote =>
        cases result
        exact ⟨_, found, .inr ⟨rfl, rfl⟩, rfl⟩

end Drivebound.Sync
