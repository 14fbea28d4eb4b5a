import Drivebound.Sync.Flushes

/-! No request of the sync service violates a constraint: it looks for the rows under a
unique key before it inserts one, and every primary key is drawn for it. -/
namespace Drivebound.Sync
open Checked
open Lifecycle (Allowed)

/-- Identifiers that `uuid.uuid4()` can draw where some are in use. -/
def Spare (used drawn : List UUID) : Prop := drawn.Nodup ∧ ∀ id ∈ drawn, id ∉ used

instance (used drawn : List UUID) : Decidable (Spare used drawn) :=
  inferInstanceAs (Decidable (drawn.Nodup ∧ ∀ id ∈ drawn, id ∉ used))

/-- The identifiers of some inputs are not in use. -/
structure Unused (db : SyncDb) (fresh : List FreshIds) : Prop where
  assets : Spare (db.assets.map Asset.id) (fresh.map FreshIds.asset)
  items : Spare (db.items.map SyncItem.id) (fresh.map FreshIds.item)
  operations : Spare (db.operations.map SyncOperation.id) (fresh.map FreshIds.operation)
  conflicts : Spare (db.conflicts.map SyncConflict.id) (fresh.map FreshIds.conflict)

/-- The primary key of the journal, `uq_sync_items_root_logical`,
`uq_sync_operations_client_sequence` and the unique `operation_id`. -/
structure Keyed (items : List SyncItem) (operations : List SyncOperation) : Prop where
  ids : (operations.map SyncOperation.id).Nodup
  items : (items.map fun item => (item.rootId, item.logicalId)).Nodup
  sequences : (operations.map fun row => (row.rootId, row.clientId, row.clientSequence)).Nodup
  operations : (operations.map SyncOperation.operationId).Nodup

theorem Spare.head {used rest : List UUID} {id : UUID} (drawn : Spare used (id :: rest)) : id ∉ used :=
  drawn.2 id List.mem_cons_self

theorem Spare.tail {used after rest : List UUID} {id : UUID} (drawn : Spare used (id :: rest))
    (grown : after = used ∨ after = used ++ [id]) : Spare after rest := by
  obtain ⟨distinct, apart⟩ := drawn
  refine ⟨(List.nodup_cons.mp distinct).2, fun other member there => ?_⟩
  rcases grown with rfl | rfl
  · exact apart other (List.mem_cons_of_mem _ member) there
  · rcases List.mem_append.mp there with before | new
    · exact apart other (List.mem_cons_of_mem _ member) before
    · exact (List.nodup_cons.mp distinct).1 (List.mem_singleton.mp new ▸ member)

abbrev SyncItem.keys (item : SyncItem) : UUID × UUID × UUID := (item.id, item.rootId, item.logicalId)

/-- The rows that an operation adds: at most an asset and the item that it has not found. -/
structure Extends (db after : SyncDb) (logicalId : UUID) (fresh : FreshIds) : Prop where
  assets : after.assets.map Asset.id = db.assets.map Asset.id ∨
    after.assets.map Asset.id = db.assets.map Asset.id ++ [fresh.asset]
  items : after.items.map SyncItem.keys = db.items.map SyncItem.keys ∨
    db.item? logicalId = none ∧ after.items.map SyncItem.keys =
      db.items.map SyncItem.keys ++ [(fresh.item, db.root.id, logicalId)]

theorem updateItem_keys {db : SyncDb} {id : UUID} {change : SyncItem → SyncItem}
    (keeps : ∀ row, (change row).id = row.id ∧ (change row).rootId = row.rootId ∧
      (change row).logicalId = row.logicalId) :
    (db.updateItem id change).items.map SyncItem.keys = db.items.map SyncItem.keys := by
  rw [SyncDb.updateItem, List.map_map]
  refine List.map_congr_left fun row _ => ?_
  dsimp only [Function.comp_apply]
  split
  · exact Prod.ext (keeps row).1 (Prod.ext (keeps row).2.1 (keeps row).2.2)
  · rfl

theorem updateAsset_ids {db : SyncDb} {id : UUID} {change : Asset → Asset}
    (keeps : ∀ asset, (change asset).id = asset.id) :
    (db.updateAsset id change).assets.map Asset.id = db.assets.map Asset.id :=
  Rows.updateKey_keys fun asset same => (keeps asset).trans same

theorem supersedePrevious_ids (db : SyncDb) (activeTarget : Option Asset) (asset : Asset) (now : Timestamp) :
    (supersedePrevious db activeTarget asset now).assets.map Asset.id = db.assets.map Asset.id := by
  rcases supersedePrevious_cases db activeTarget asset now with same | ⟨target, _, _, written⟩
  · rw [same]
  · rw [written]
    exact updateAsset_ids fun _ => rfl

theorem addClone_extends (db : SyncDb) (asset : Asset) (logicalId : UUID) (version : Nat) (id : UUID) :
    Ends (fun result => result.1.assets.map Asset.id = db.assets.map Asset.id ++ [id])
      (fun _ => True) (addClone db asset logicalId version id) := by
  unfold addClone cloneAssetRevision
  split
  · dsimp only [Except.mapError, bind, Except.bind, flush]
    cases inserted : insertRow Asset.id db.assets { asset with
        id, logicalId, version
        lifecycleState := .active
        supersededAt := none
        trashedAt := none
        purgeAfter := none
        deletedBy := none } with
    | error failure => trivial
    | ok rows =>
      obtain ⟨rfl, _⟩ := insertRow_ok inserted
      exact List.map_append
  · trivial

theorem upsertRevision_extends (db : SyncDb) (input : SyncOperationInput) (item : Option SyncItem)
    (asset : Asset) (activeTarget : Option Asset) (version : Nat) (fresh : FreshIds) :
    Ends (fun result => result.1.assets.map Asset.id = db.assets.map Asset.id ∨
        result.1.assets.map Asset.id = db.assets.map Asset.id ++ [fresh.asset])
      (fun _ => True) (upsertRevision db input item asset activeTarget version fresh) := by
  unfold upsertRevision
  split
  · dsimp only
    split
    · exact (addClone_extends db asset input.logicalId version fresh.asset).mono fun _ => .inr
    · exact .inl (updateAsset_ids fun _ => rfl)
  · split
    · exact (addClone_extends db asset input.logicalId version fresh.asset).mono fun _ => .inr
    · exact .inl rfl

theorem Upserted.extends {db after published : SyncDb} {input : SyncOperationInput} {fresh : FreshIds}
    {now : Timestamp} {asset revision : Asset}
    (upserted : Upserted db input (db.item? input.logicalId) fresh now asset published revision after) :
    Extends db after input.logicalId fresh := by
  have rows := (upsertRevision_extends _ input (db.item? input.logicalId) asset
    (db.activeRevision? input.logicalId) (db.highestVersion input.logicalId + 1) fresh).value
      upserted.upserted
  dsimp only at rows
  rw [supersedePrevious_ids] at rows
  have journal := (upsertRevision_keeps (.refl _) ..).value upserted.upserted
  have same := (upsertRevision_items ..).value upserted.upserted
  dsimp only at journal same
  have cleared := supersedePrevious_rest db (db.activeRevision? input.logicalId) asset now
  have items : published.items = db.items := same.trans (by rw [cleared])
  have root : published.root = db.root := journal.root.trans (by rw [cleared])
  refine ⟨?_, ?_⟩
  · rw [upserted.rest]
    have ids : (publish published revision).assets.map Asset.id = published.assets.map Asset.id :=
      updateAsset_ids fun _ => rfl
    dsimp only
    rwa [ids]
  · cases found : db.item? input.logicalId with
    | none =>
      obtain ⟨row, inserted, id, rootId, logicalId, _⟩ := upserted.inserted found
      refine .inr ⟨rfl, ?_⟩
      rw [(insertRow_ok inserted).1, List.map_append, items, List.map_singleton, SyncItem.keys, id,
        rootId, logicalId, root]
    | some row =>
      obtain ⟨change, updated, keeps⟩ := upserted.updated row found
      rw [updated, updateItem_keys fun other =>
        ⟨(keeps other).1, (keeps other).2.1, (keeps other).2.2.1⟩, items]
      exact .inl rfl

theorem trashAsset_ids (db : SyncDb) (id : UUID) (actor : String) (now : Timestamp) :
    Ends (fun after => after.assets.map Asset.id = db.assets.map Asset.id) (fun _ => True)
      (trashAsset db id actor now) :=
  trashAsset_ends (fun _ => trivial) rfl (updateAsset_ids fun _ => rfl)

theorem applyItemOperation_extends (db : SyncDb) (operation : SyncOperation) (input : SyncOperationInput)
    (fresh : FreshIds) (now : Timestamp) :
    Ends (fun result => Extends db result.1 input.logicalId fresh) (fun _ => True)
      (applyItemOperation db operation input (db.item? input.logicalId) fresh now) := by
  unfold applyItemOperation
  split
  · cases result : applyUpsert db operation input (db.item? input.logicalId) fresh now with
    | error r => trivial
    | ok value =>
      obtain ⟨after, done⟩ := value
      obtain ⟨asset, published, revision, upserted⟩ := applyUpsert_upserted result
      exact upserted.extends
  · unfold applyMove
    split
    · split_ifs
      · trivial
      · split
        · exact ⟨.inl rfl, .inl (updateItem_keys fun _ => ⟨rfl, rfl, rfl⟩)⟩
        · split
          · trivial
          · exact ⟨.inl rfl, .inl (updateItem_keys fun _ => ⟨rfl, rfl, rfl⟩)⟩
    · trivial
  · unfold applyDelete
    cases found : db.item? input.logicalId with
    | none =>
      refine Ends.bind (P := fun after => Extends db after input.logicalId fresh) ?_ ?_
      · cases inserted : insertRow SyncItem.id db.items _ with
        | error failure => trivial
        | ok rows =>
          obtain ⟨rfl, _⟩ := insertRow_ok inserted
          exact ⟨.inl rfl, .inr ⟨found, List.map_append⟩⟩
      · intro after extends_
        exact extends_
    | some item =>
      dsimp only
      split
      · exact ⟨.inl rfl, .inl (updateItem_keys fun _ => ⟨rfl, rfl, rfl⟩)⟩
      · split
        · trivial
        · rename_i asset _
          refine Ends.bind ((trashAsset_ids db asset.id _ now).and (trashAsset_items db asset.id _ now)).values ?_
          rintro after ⟨ids, items⟩
          refine ⟨.inl ids, .inl ?_⟩
          refine (updateItem_keys ?_).trans (congrArg (List.map SyncItem.keys) items)
          exact fun _ => ⟨rfl, rfl, rfl⟩

/-- The constraints on the journal and the items hold behind an operation. -/
theorem Keyed.items_extend {db after : SyncDb} {logicalId : UUID} {fresh : FreshIds}
    (keyed : Keyed db.items db.operations) (extended : Extends db after logicalId fresh) :
    (after.items.map fun item => (item.rootId, item.logicalId)).Nodup := by
  have pairs (items : List SyncItem) : items.map (fun item => (item.rootId, item.logicalId)) =
      (items.map SyncItem.keys).map Prod.snd := by
    rw [List.map_map]
    rfl
  rcases extended.items with same | ⟨missing, grown⟩
  · rw [pairs, same, ← pairs]
    exact keyed.items
  · rw [pairs, grown, List.map_append, ← pairs, List.nodup_append]
    refine ⟨keyed.items, List.nodup_singleton _, fun pair here other new => ?_⟩
    obtain ⟨item, member, rfl⟩ := List.mem_map.mp here
    rw [List.map_singleton, List.mem_singleton] at new
    rintro rfl
    obtain ⟨root, logical⟩ := Prod.ext_iff.mp new
    exact List.find?_eq_none.mp missing item member (decide_eq_true ⟨root, logical⟩)

/-- Every insertion finds its primary key unused. -/
abbrev Unviolated : Except Raised α → Prop :=
  Ends (fun _ => True) fun r => r.failure ≠ .integrityError

theorem flush_unviolated {key : α → UUID} {rows : List α} {row : α} {db : SyncDb}
    {change : List α → SyncDb} (unused : key row ∉ rows.map key) :
    Unviolated (flush db (insertRow key rows row) change) := by
  have inserted : insertRow key rows row = .ok (rows ++ [row]) :=
    insertRow_ok_iff.mpr ⟨rfl, fun r member same => unused (same ▸ List.mem_map_of_mem member)⟩
  rw [inserted]
  trivial

/-- A published revision is drawn for it, and the items wait. -/
abbrev Publishable (db : SyncDb) : Except Raised (SyncDb × Asset) → Prop :=
  Ends (fun result => result.1.items = db.items) fun r => r.failure ≠ .integrityError

theorem addClone_unviolated {db : SyncDb} {asset : Asset} {logicalId id : UUID} {version : Nat}
    (unused : id ∉ db.assets.map Asset.id) : Publishable db (addClone db asset logicalId version id) := by
  unfold addClone cloneAssetRevision
  split
  · dsimp only [Except.mapError, bind, Except.bind, flush]
    cases inserted : insertRow Asset.id db.assets { asset with
        id, logicalId, version
        lifecycleState := .active
        supersededAt := none
        trashedAt := none
        purgeAfter := none
        deletedBy := none } with
    | error failure =>
      have fits : insertRow Asset.id db.assets { asset with
          id, logicalId, version
          lifecycleState := .active
          supersededAt := none
          trashedAt := none
          purgeAfter := none
          deletedBy := none } = .ok _ := insertRow_ok_iff.mpr
        ⟨rfl, fun r member same => unused (List.mem_map.mpr ⟨r, member, same⟩)⟩
      exact absurd (inserted.symm.trans fits) nofun
    | ok rows => exact rfl
  · exact nofun

theorem upsertRevision_unviolated {db : SyncDb} {fresh : FreshIds} (input : SyncOperationInput)
    (item : Option SyncItem) (asset : Asset) (activeTarget : Option Asset) (version : Nat)
    (unused : fresh.asset ∉ db.assets.map Asset.id) :
    Publishable db (upsertRevision db input item asset activeTarget version fresh) := by
  unfold upsertRevision
  split
  · dsimp only
    split
    · exact addClone_unviolated unused
    · exact rfl
  · split
    · exact addClone_unviolated unused
    · exact rfl

theorem trashAsset_unviolated (db : SyncDb) (id : UUID) (actor : String) (now : Timestamp) :
    Unviolated (trashAsset db id actor now) :=
  trashAsset_ends (fun _ same => Failure.noConfusion same) trivial trivial

theorem applyItemOperation_unviolated {db : SyncDb} {fresh : FreshIds} (operation : SyncOperation)
    (input : SyncOperationInput) (item : Option SyncItem) (now : Timestamp)
    (unusedAsset : fresh.asset ∉ db.assets.map Asset.id)
    (unusedItem : fresh.item ∉ db.items.map SyncItem.id) :
    Unviolated (applyItemOperation db operation input item fresh now) := by
  unfold applyItemOperation
  split
  · unfold applyUpsert
    split
    · split
      · exact nofun
      · rename_i asset _
        have unused : fresh.asset ∉ (supersedePrevious db (db.activeRevision? input.logicalId) asset now).assets.map
            Asset.id := by
          rwa [supersedePrevious_ids]
        have items : (supersedePrevious db (db.activeRevision? input.logicalId) asset now).items = db.items := by
          rw [supersedePrevious_rest]
        refine Ends.bind (upsertRevision_unviolated input item asset
          (db.activeRevision? input.logicalId) (db.highestVersion input.logicalId + 1) unused) ?_
        rintro ⟨published, revision⟩ kept
        cases item with
        | none =>
          refine Ends.bind (flush_unviolated ?_) fun _ _ => True.intro
          rw [← kept.trans items] at unusedItem
          exact unusedItem
        | some item => trivial
    · exact nofun
  · unfold applyMove
    split
    · split_ifs
      · exact nofun
      · split
        · trivial
        · split
          · exact nofun
          · trivial
    · exact nofun
  · unfold applyDelete
    cases item with
    | none => exact (flush_unviolated unusedItem).bind fun _ _ => True.intro
    | some item =>
      dsimp only
      split
      · trivial
      · split
        · exact nofun
        · exact (trashAsset_unviolated ..).bind fun _ _ => True.intro

/-- The batch after a turn: its constraints hold, and the identifiers of the later inputs are
not in use yet. -/
structure ServedTurn (b after : Batch) (rest : List FreshIds) : Prop where
  allowed : Allowed after.db.assets
  keyed : Keyed after.db.items after.db.operations
  unused : Unused after.db rest
  root : after.db.root = b.db.root

theorem Unused.tail {db after : SyncDb} {logicalId : UUID} {fresh : FreshIds} {rest : List FreshIds}
    (unused : Unused db (fresh :: rest)) (extended : Extends db after logicalId fresh)
    (operations : after.operations.map SyncOperation.id =
      db.operations.map SyncOperation.id ++ [fresh.operation])
    (conflicts : after.conflicts.map SyncConflict.id = db.conflicts.map SyncConflict.id ∨
      after.conflicts.map SyncConflict.id = db.conflicts.map SyncConflict.id ++ [fresh.conflict]) :
    Unused after rest := by
  have ids (items : List SyncItem) : items.map SyncItem.id = (items.map SyncItem.keys).map Prod.fst := by
    rw [List.map_map]
    rfl
  refine ⟨unused.assets.tail extended.assets, unused.items.tail ?_, unused.operations.tail (.inr operations),
    unused.conflicts.tail conflicts⟩
  rw [ids, ids]
  rcases extended.items with same | ⟨_, grown⟩
  · exact .inl (congrArg _ same)
  · exact .inr (by rw [grown, List.map_append, List.map_singleton])

/-- A new operation has a sequence number and an operation id of its own. -/
theorem Keyed.append {db : SyncDb} {items : List SyncItem} {clientId : String}
    {input : SyncOperationInput} {operation : SyncOperation} (keyed : Keyed db.items db.operations)
    (named : (items.map fun item => (item.rootId, item.logicalId)).Nodup)
    (apart : ∀ row ∈ db.operations, row.id ≠ operation.id)
    (new : duplicate? db clientId input = none) (rootId : operation.rootId = db.root.id)
    (author : operation.clientId = clientId) (sequence : operation.clientSequence = input.clientSequence)
    (operationId : operation.operationId = input.operationId) :
    Keyed items (db.operations ++ [operation]) := by
  obtain ⟨byId, bySequence⟩ := Option.or_eq_none_iff.mp new
  constructor
  · rw [List.map_append, List.nodup_append]
    refine ⟨keyed.ids, List.nodup_singleton _, fun id here other there => ?_⟩
    obtain ⟨row, member, rfl⟩ := List.mem_map.mp here
    rw [List.map_singleton, List.mem_singleton] at there
    exact there ▸ apart row member
  · exact named
  · rw [List.map_append, List.nodup_append]
    refine ⟨keyed.sequences, List.nodup_singleton _, fun triple here other there => ?_⟩
    obtain ⟨row, member, rfl⟩ := List.mem_map.mp here
    rw [List.map_singleton, List.mem_singleton] at there
    rintro rfl
    simp only [Prod.mk.injEq, rootId, author, sequence] at there
    exact List.find?_eq_none.mp bySequence row member (decide_eq_true there)
  · rw [List.map_append, List.nodup_append]
    refine ⟨keyed.operations, List.nodup_singleton _, fun id here other there => ?_⟩
    obtain ⟨row, member, rfl⟩ := List.mem_map.mp here
    rw [List.map_singleton, List.mem_singleton] at there
    rintro rfl
    exact List.find?_eq_none.mp byId row member (decide_eq_true (there.trans operationId))

/-- A turn comes to its end, whatever the input is. -/
theorem applyOne_serves {b : Batch} {input : SyncOperationInput} {fresh : FreshIds}
    {rest : List FreshIds} (clientId : String) (now : Timestamp) (allowed : Allowed b.db.assets)
    (keyed : Keyed b.db.items b.db.operations) (unused : Unused b.db (fresh :: rest)) :
    ∃ after, applyOne clientId now b (input, fresh) = .ok after ∧ ServedTurn b after rest := by
  cases duplicate : duplicate? b.db clientId input with
  | some operation =>
    refine ⟨{ b with operations := b.operations ++ [operation] }, ?_, allowed, keyed, ?_, rfl⟩
    · simp only [applyOne, duplicate]
    · exact ⟨unused.assets.tail (.inl rfl), unused.items.tail (.inl rfl),
        unused.operations.tail (.inl rfl), unused.conflicts.tail (.inl rfl)⟩
  | none =>
    have apart : ∀ row ∈ b.db.operations, row.id ≠ fresh.operation := fun row member same =>
      unused.operations.head (same ▸ List.mem_map_of_mem member)
    have free : ∀ row ∈ b.db.conflicts, row.id ≠ fresh.conflict := fun row member same =>
      unused.conflicts.head (same ▸ List.mem_map_of_mem member)
    have refused (kind : ConflictKind) : ∃ after, recordConflict b b.db (newOperation b clientId input fresh)
        input (b.db.item? input.logicalId) fresh kind = .ok after ∧ ServedTurn b after rest := by
      refine ⟨_, recordConflict_ok_iff.mpr ⟨free, apart, rfl⟩, allowed, ?_, ?_, rfl⟩
      · exact keyed.append keyed.items apart duplicate rfl rfl rfl rfl
      · have rows : Extends b.db b.db input.logicalId fresh := ⟨.inl rfl, .inl rfl⟩
        exact unused.tail ⟨rows.assets, rows.items⟩ List.map_append (.inr List.map_append)
    simp only [applyOne, duplicate]
    cases stale : baseConflict input (b.db.item? input.logicalId) with
    | some kind => exact refused kind
    | none =>
      have unviolated := applyItemOperation_unviolated (newOperation b clientId input fresh) input
        (b.db.item? input.logicalId) now unused.assets.head unused.items.head
      cases result : applyItemOperation b.db (newOperation b clientId input fresh) input
          (b.db.item? input.logicalId) fresh now with
      | error r =>
        obtain ⟨failure, db⟩ := r
        cases failure with
        | integrityError => exact absurd rfl (unviolated.raised result)
        | valueError message =>
          have same : db = b.db := (applyItemOperation_refuses ..).raised result message rfl
          subst same
          exact refused .invalidTransition
      | ok value =>
        obtain ⟨db, operation⟩ := value
        obtain ⟨journal, payload, rfl⟩ := (applyItemOperation_applied ..).value result
        have extended := (applyItemOperation_extends ..).value result
        dsimp only at journal extended
        have operations : db.operations = b.db.operations := journal.operations
        refine ⟨_, recordOperation_ok_iff.mpr ⟨operations ▸ apart, rfl⟩, ?_, ?_, ?_, journal.root⟩
        · exact (applyItemOperation_allowed allowed ..).value result
        · dsimp only
          rw [operations]
          exact keyed.append (keyed.items_extend extended) apart duplicate rfl rfl rfl rfl
        · refine unused.tail ⟨extended.assets, extended.items⟩ ?_ (.inl ?_)
          · dsimp only
            rw [operations]
            exact List.map_append
          · dsimp only
            rw [journal.conflicts]

/-- A batch comes to its end, and all that it flushes meets the constraints. -/
theorem applyAll_serves {b : Batch} {inputs : List (SyncOperationInput × FreshIds)}
    (clientId : String) (now : Timestamp) (allowed : Allowed b.db.assets)
    (keyed : Keyed b.db.items b.db.operations) (unused : Unused b.db (inputs.map Prod.snd)) :
    (∀ table ∈ pushFlushes clientId now b inputs, Allowed table) ∧
      ∃ after, applyAll clientId now b inputs = .ok after ∧ ServedTurn b after [] := by
  induction inputs generalizing b with
  | nil => exact ⟨fun _ never => absurd never List.not_mem_nil, b, rfl, allowed, keyed, unused, rfl⟩
  | cons entry rest ih =>
    obtain ⟨input, fresh⟩ := entry
    obtain ⟨middle, turn, kept⟩ := applyOne_serves clientId now allowed keyed unused
    obtain ⟨flushed, after, remaining, whole⟩ := ih kept.allowed kept.keyed kept.unused
    refine ⟨fun table member => ?_, after, ?_, whole.allowed, whole.keyed, whole.unused,
      whole.root.trans kept.root⟩
    · rw [pushFlushes] at member
      rcases List.mem_append.mp member with here | later
      · unfold turnFlushes at here
        dsimp only at here
        split_ifs at here
        · exact operationFlushes_allowed allowed _ _ _ _ _ table here
        · exact absurd here List.not_mem_nil
      · rw [turn] at later
        exact flushed table later
    · exact bind_ok_iff.mpr ⟨middle, turn, remaining⟩

/-- A push that is not refused as a whole comes to its end. -/
theorem applyOperations_serves (db : SyncDb) {inputs : List (SyncOperationInput × FreshIds)}
    (loaded : Nat) (clientId : String) (now : Timestamp) (allowed : Allowed db.assets)
    (keyed : Keyed db.items db.operations) (unused : Unused db (inputs.map Prod.snd)) :
    (∀ table ∈ pushFlushes clientId now ⟨loaded, db, [], []⟩ inputs, Allowed table) ∧
      Ends (fun b => Allowed b.db.assets ∧ Keyed b.db.items b.db.operations)
        (fun failure => failure ≠ .integrityError) (applyOperations db loaded clientId inputs now) := by
  obtain ⟨flushed, after, applied, kept⟩ := applyAll_serves (b := ⟨loaded, db, [], []⟩) clientId now
    allowed keyed unused
  refine ⟨flushed, ?_⟩
  unfold applyOperations
  split_ifs
  · exact nofun
  · exact nofun
  · rw [applied]
    exact ⟨kept.allowed, kept.keyed⟩

theorem updateOperation_keyed {items : List SyncItem} {db : SyncDb} {id : UUID}
    {change : SyncOperation → SyncOperation} (keyed : Keyed items db.operations)
    (keeps : ∀ row ∈ db.operations, row.id = id → (change row).id = row.id ∧
      (change row).rootId = row.rootId ∧ (change row).clientId = row.clientId ∧
      (change row).clientSequence = row.clientSequence ∧ (change row).operationId = row.operationId) :
    Keyed items (db.updateOperation id change).operations := by
  have column {β : Type} (key : SyncOperation → β)
      (same : ∀ row ∈ db.operations, row.id = id → key (change row) = key row) :
      (db.updateOperation id change).operations.map key = db.operations.map key := by
    rw [SyncDb.updateOperation, List.map_map]
    refine List.map_congr_left fun row member => ?_
    dsimp only [Function.comp_apply]
    split
    · rename_i named
      exact same row member named
    · rfl
  constructor
  · rw [column SyncOperation.id fun row member named => (keeps row member named).1]
    exact keyed.ids
  · exact keyed.items
  · rw [column (fun row => (row.rootId, row.clientId, row.clientSequence)) fun row member named => ?_]
    · exact keyed.sequences
    · obtain ⟨_, root, client, sequence, _⟩ := keeps row member named
      exact Prod.ext root (Prod.ext client sequence)
  · rw [column SyncOperation.operationId fun row member named => (keeps row member named).2.2.2.2]
    exact keyed.operations

theorem stampItem_keys (db : SyncDb) (logicalId : UUID) (revision : String) :
    (db.stampItem logicalId revision).items.map SyncItem.keys = db.items.map SyncItem.keys := by
  unfold SyncDb.stampItem
  split
  · exact updateItem_keys fun _ => ⟨rfl, rfl, rfl⟩
  · rfl

/-- A stored operation is looked for under the logical id that it names. -/
theorem storedInput_logicalId {operation : SyncOperation} {input : SyncOperationInput}
    (stored : storedInput operation = .ok input) : input.logicalId = operation.logicalId := by
  unfold storedInput at stored
  split at stored
  · cases stored
    rfl
  · split at stored
    · contradiction
    · cases stored
      rfl

theorem keepLocal_unviolated {db : SyncDb} {fresh : FreshIds} (operation : SyncOperation)
    (now : Timestamp) (unusedAsset : fresh.asset ∉ db.assets.map Asset.id)
    (unusedItem : fresh.item ∉ db.items.map SyncItem.id) :
    Ends (fun _ => True) (fun failure => failure ≠ .integrityError)
      (keepLocal db operation fresh now) := by
  have stored : Ends (fun _ => True) (fun failure => failure ≠ .integrityError)
      (storedInput operation) := by
    unfold storedInput
    split
    · trivial
    · split
      · exact nofun
      · trivial
  refine stored.bind fun input _ => ?_
  have once := applyItemOperation_unviolated operation input (db.item? operation.logicalId) now
    unusedAsset unusedItem
  have failures := once.mapError (F := fun failure : Failure => failure ≠ .integrityError) fun _ apart => apart
  exact failures.bind fun _ _ => True.intro

theorem keepLocal_serves {db : SyncDb} {operation : SyncOperation} {fresh : FreshIds} (now : Timestamp)
    (member : operation ∈ db.operations) (allowed : Allowed db.assets)
    (keyed : Keyed db.items db.operations) (unusedAsset : fresh.asset ∉ db.assets.map Asset.id)
    (unusedItem : fresh.item ∉ db.items.map SyncItem.id) :
    Ends (fun after => Allowed after.assets ∧ Keyed after.items after.operations)
      (fun failure => failure ≠ .integrityError) (keepLocal db operation fresh now) := by
  cases result : keepLocal db operation fresh now with
  | ok after =>
    obtain ⟨⟨input, applied, payload, kept⟩, _⟩ := keepLocal_cases result
    have named := storedInput_logicalId kept.stored
    have once := named.symm ▸ kept.once
    have extended := (applyItemOperation_extends db operation input fresh now).value once
    refine ⟨?_, ?_⟩
    · rw [kept.assets]
      exact (applyItemOperation_allowed allowed ..).value once
    · have items : (after.items.map fun item => (item.rootId, item.logicalId)).Nodup := by
        have pairs : (after.items.map fun item => (item.rootId, item.logicalId)) =
            applied.items.map fun item => (item.rootId, item.logicalId) := by
          have same := congrArg (List.map Prod.snd) (kept.items ▸ stampItem_keys applied _ _)
          rw [List.map_map, List.map_map] at same
          exact same
        rw [pairs]
        exact keyed.items_extend extended
      have rows : Keyed after.items db.operations := ⟨keyed.ids, items, keyed.sequences, keyed.operations⟩
      rw [kept.operations]
      refine updateOperation_keyed rows fun row there same => ?_
      cases List.inj_on_of_nodup_map keyed.ids there member same
      exact ⟨rfl, rfl, rfl, rfl, rfl⟩
  | error failure => exact (keepLocal_unviolated operation now unusedAsset unusedItem).raised result

theorem resolveConflict_serves (db : SyncDb) {fresh : FreshIds} (loaded : SyncConflict) (choice : Choice)
    (now : Timestamp) (allowed : Allowed db.assets) (keyed : Keyed db.items db.operations)
    (unusedAsset : fresh.asset ∉ db.assets.map Asset.id)
    (unusedItem : fresh.item ∉ db.items.map SyncItem.id) :
    (∀ table ∈ resolveFlushes db loaded choice fresh now, Allowed table) ∧
      Ends (fun after => Allowed after.assets ∧ Keyed after.items after.operations)
        (fun failure => failure ≠ .integrityError) (resolveConflict db loaded choice fresh now) := by
  constructor
  · unfold resolveFlushes
    split
    · split
      · exact operationFlushes_allowed allowed _ _ _ _ _
      · exact fun _ never => absurd never List.not_mem_nil
    · exact fun _ never => absurd never List.not_mem_nil
  · unfold resolveConflict
    split_ifs
    · exact nofun
    · exact nofun
    · exact nofun
    · exact nofun
    · exact ⟨allowed, keyed⟩
    · split
      · exact nofun
      · rename_i operation found
        cases choice with
        | keepLocal =>
          exact (keepLocal_serves now (operation?_found found).1 allowed keyed unusedAsset unusedItem).bind
            fun after kept => kept
        | keepRemote =>
          refine ⟨allowed, updateOperation_keyed keyed ?_⟩
          exact fun _ _ _ => ⟨rfl, rfl, rfl, rfl, rfl⟩

end Drivebound.Sync
