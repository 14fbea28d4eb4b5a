import Drivebound.Sync.Integrity

/-! The asset of a live item against the active revision of its history. As long as the
revision that is active, if any, is the item's asset, a move or a delete that carries the
current revision of the item finds what it asks for. -/
namespace Drivebound.Sync
open Checked
open Lifecycle (Allowed SameHistory)

/-- The catalogue of a root, with the link for the histories that are tracked. -/
structure Connected (tracked : UUID → Prop) (db : SyncDb) : Prop where
  allowed : Allowed db.assets
  keyed : Keyed db.items db.operations
  ids : (db.items.map SyncItem.id).Nodup
  /-- What is active in the history of a live item is the item's asset. -/
  link : ∀ item ∈ db.items, item.rootId = db.root.id → tracked item.logicalId →
    item.deletedAt = none → ∀ id ∈ item.assetId, ∀ revision ∈ db.assets,
      revision.userId = db.root.userId → revision.logicalId = item.logicalId →
      revision.lifecycleState = .active → revision.id = id

theorem supersedePrevious_active {db : SyncDb} {activeTarget : Option Asset} {asset row : Asset} {now : Timestamp}
    (member : row ∈ (supersedePrevious db activeTarget asset now).assets) (active : row.lifecycleState = .active) :
    row ∈ db.assets := by
  rcases supersedePrevious_cases db activeTarget asset now with same | ⟨target, _, _, written⟩
  · rwa [same] at member
  · rw [written] at member
    obtain ⟨other, there, rfl⟩ := List.mem_map.mp member
    split at active
    · contradiction
    · rename_i spared
      rwa [if_neg spared]

theorem addClone_others (db : SyncDb) (asset : Asset) (logicalId : UUID) (version : Nat) (id : UUID) :
    Ends (fun result => ∀ row ∈ result.1.assets, row.logicalId ≠ logicalId → row ∈ db.assets)
      (fun _ => True) (addClone db asset logicalId version id) := by
  unfold addClone cloneAssetRevision
  split
  · dsimp only [Except.mapError, bind, Except.bind, flush]
    cases inserted : insertRow Asset.id db.assets { asset with
        id, logicalId, version
        lifecycleState := .active
        supersededAt := none
        trashedAt := none
        purgeAfter := none
        deletedBy := none } with
    | error failure => trivial
    | ok rows =>
      obtain ⟨rfl, _⟩ := insertRow_ok inserted
      intro row member other
      rcases List.mem_append.mp member with before | new
      · exact before
      · rw [List.mem_singleton.mp new] at other
        exact absurd rfl other
  · trivial

/-- The rows of the other histories are not touched. -/
theorem upsertRevision_others (db : SyncDb) (input : SyncOperationInput) (item : Option SyncItem)
    (asset : Asset) (activeTarget : Option Asset) (version : Nat) (fresh : FreshIds) :
    Ends (fun result => ∀ row ∈ result.1.assets, row.logicalId ≠ input.logicalId → row ∈ db.assets)
      (fun _ => True) (upsertRevision db input item asset activeTarget version fresh) := by
  unfold upsertRevision
  split
  · dsimp only
    split
    · apply addClone_others
    · intro row member other
      obtain ⟨source, there, rfl⟩ := List.mem_map.mp member
      split at other
      · exact absurd rfl other
      · rename_i spared
        rwa [if_neg spared]
  · split
    · apply addClone_others
    · exact fun _ member _ => member

/-- What is active in another history after an upsert was so before. -/
theorem Upserted.others {db after published : SyncDb} {input : SyncOperationInput}
    {item : Option SyncItem} {fresh : FreshIds} {now : Timestamp} {asset revision row : Asset}
    (upserted : Upserted db input item fresh now asset published revision after)
    (allowed : Allowed db.assets) (member : row ∈ after.assets) (active : row.lifecycleState = .active)
    (other : row.logicalId ≠ input.logicalId) : row ∈ db.assets := by
  have history := upserted.published allowed
  rw [upserted.rest] at member
  obtain ⟨source, there, rfl⟩ := List.mem_map.mp member
  split at other
  · rename_i same
    cases List.inj_on_of_nodup_map history.allowed.unique there history.member same
    exact absurd history.logicalId other
  · rename_i spared
    rw [if_neg spared] at active ⊢
    have before := (upsertRevision_others ..).value upserted.upserted source there other
    exact supersedePrevious_active before active

/-- The published revision alone is active in its history. -/
theorem Upserted.alone {db after published : SyncDb} {input : SyncOperationInput}
    {item : Option SyncItem} {fresh : FreshIds} {now : Timestamp} {asset revision row : Asset}
    (upserted : Upserted db input item fresh now asset published revision after)
    (allowed : Allowed db.assets) (member : row ∈ after.assets) (active : row.lifecycleState = .active)
    (owner : row.userId = db.root.userId) (logicalId : row.logicalId = input.logicalId) :
    row.id = revision.id := by
  have history := upserted.published allowed
  rw [upserted.rest] at member
  obtain ⟨source, there, rfl⟩ := List.mem_map.mp member
  split at active
  · rename_i same
    rwa [if_pos same]
  · rename_i spared
    rw [if_neg spared] at owner logicalId ⊢
    apply history.allowed.active source there revision history.member _ active history.active
    exact ⟨owner.trans history.owner.symm, logicalId.trans history.logicalId.symm⟩

/-- An operation other than an upsert activates nothing and gives no item an asset. -/
structure Inherits (db after : SyncDb) : Prop where
  root : after.root = db.root
  assets : ∀ row ∈ after.assets, row.lifecycleState = .active → row ∈ db.assets
  items : ∀ item ∈ after.items, item.deletedAt = none → ∀ id ∈ item.assetId,
    ∃ old ∈ db.items, old.rootId = item.rootId ∧ old.logicalId = item.logicalId ∧
      old.deletedAt = none ∧ old.assetId = some id

theorem Inherits.refl (db : SyncDb) : Inherits db db :=
  ⟨rfl, fun _ member _ => member, fun item member live _ asset => ⟨item, member, rfl, rfl, live, asset⟩⟩

theorem Inherits.updateItem {db after : SyncDb} (inherits : Inherits db after) (id : UUID)
    {change : SyncItem → SyncItem} (keeps : ∀ item, (change item).rootId = item.rootId ∧
      (change item).logicalId = item.logicalId ∧ (change item).assetId = item.assetId)
    (buries : ∀ item, (change item).deletedAt = none → item.deletedAt = none) :
    Inherits db (after.updateItem id change) := by
  refine ⟨inherits.root, inherits.assets, fun item member live asset has => ?_⟩
  obtain ⟨source, there, rfl⟩ := List.mem_map.mp member
  split at live
  · rename_i named
    rw [if_pos named] at has ⊢
    obtain ⟨root, logicalId, same⟩ := keeps source
    rw [same] at has
    rw [root, logicalId]
    exact inherits.items source there (buries source live) asset has
  · rename_i spared
    rw [if_neg spared] at has ⊢
    exact inherits.items source there live asset has

theorem trashAsset_inherits (db : SyncDb) (id : UUID) (actor : String) (now : Timestamp) :
    Ends (Inherits db) (fun _ => True) (trashAsset db id actor now) := by
  refine trashAsset_ends (fun _ => trivial) (.refl db) ?_
  refine ⟨rfl, fun row member active => ?_, (Inherits.refl db).items⟩
  obtain ⟨source, there, rfl⟩ := List.mem_map.mp member
  split at active
  · contradiction
  · rename_i spared
    rwa [if_neg spared]

theorem applyMove_inherits (db : SyncDb) (operation : SyncOperation) (input : SyncOperationInput)
    (item : Option SyncItem) :
    Ends (fun result => Inherits db result.1) (fun _ => True) (applyMove db operation input item) := by
  have moved (id : UUID) (path revision : String) : Inherits db (db.updateItem id fun item =>
      { item with relativePath := path, revision := revision }) :=
    (Inherits.refl db).updateItem id (fun _ => ⟨rfl, rfl, rfl⟩) fun _ live => live
  unfold applyMove
  split
  · split_ifs
    · trivial
    · split
      · apply moved
      · split
        · trivial
        · apply moved
  · trivial

theorem applyDelete_inherits (db : SyncDb) (operation : SyncOperation) (input : SyncOperationInput)
    (item : Option SyncItem) (fresh : FreshIds) (now : Timestamp) :
    Ends (fun result => Inherits db result.1) (fun _ => True)
      (applyDelete db operation input item fresh now) := by
  have buried {after : SyncDb} (inherits : Inherits db after) (id : UUID) (revision : String) :
      Inherits db (after.updateItem id fun item =>
        { item with deletedAt := some now, revision := revision }) := by
    apply inherits.updateItem
    · exact fun _ => ⟨rfl, rfl, rfl⟩
    · exact fun _ live => nomatch live
  unfold applyDelete
  cases item with
  | none =>
    refine Ends.bind (P := Inherits db) ?_ fun after inherits => inherits
    cases inserted : insertRow SyncItem.id db.items _ with
    | error failure => trivial
    | ok rows =>
      obtain ⟨rfl, _⟩ := insertRow_ok inserted
      refine ⟨rfl, fun _ member _ => member, fun item member live id has => ?_⟩
      rcases List.mem_append.mp member with before | new
      · exact ⟨item, before, rfl, rfl, live, has⟩
      · rw [List.mem_singleton.mp new] at has
        contradiction
  | some item =>
    dsimp only
    split
    · exact buried (.refl db) ..
    · split
      · trivial
      · refine (trashAsset_inherits ..).bind fun after inherits => ?_
        exact buried inherits ..

/-- Items and their operations have the keys of the rows. -/
theorem Extends.ids {db after : SyncDb} {logicalId : UUID} {fresh : FreshIds}
    (extended : Extends db after logicalId fresh) (unused : fresh.item ∉ db.items.map SyncItem.id)
    (ids : (db.items.map SyncItem.id).Nodup) : (after.items.map SyncItem.id).Nodup := by
  have column (items : List SyncItem) : items.map SyncItem.id = (items.map SyncItem.keys).map Prod.fst := by
    rw [List.map_map]
    rfl
  rcases extended.items with same | ⟨_, grown⟩
  · rw [column, same, ← column]
    exact ids
  · rw [column, grown, List.map_append, ← column, List.nodup_append]
    refine ⟨ids, List.nodup_singleton _, fun id here other there same => unused ?_⟩
    have drawn : other = fresh.item := List.mem_singleton.mp there
    exact drawn ▸ same ▸ here

/-- The items of a logical id: one of each root. -/
theorem Keyed.single {items : List SyncItem} {operations : List SyncOperation}
    (keyed : Keyed items operations) {a b : SyncItem} (here : a ∈ items) (there : b ∈ items)
    (root : a.rootId = b.rootId) (logicalId : a.logicalId = b.logicalId) : a = b :=
  List.inj_on_of_nodup_map keyed.items here there (Prod.ext root logicalId)

/-- The item of an upsert, with its asset. -/
theorem Upserted.item {db after published : SyncDb} {input : SyncOperationInput} {fresh : FreshIds}
    {now : Timestamp} {asset revision : Asset} {row : SyncItem}
    (upserted : Upserted db input (db.item? input.logicalId) fresh now asset published revision after)
    (keyed : Keyed db.items db.operations) (member : row ∈ after.items) (root : row.rootId = db.root.id)
    (logicalId : row.logicalId = input.logicalId) : row.assetId = some revision.id := by
  have same := (upsertRevision_items ..).value upserted.upserted
  dsimp only at same
  have items : published.items = db.items := same.trans (by rw [supersedePrevious_rest])
  cases found : db.item? input.logicalId with
  | none =>
    obtain ⟨new, inserted, _, _, _, assetId⟩ := upserted.inserted found
    rw [(insertRow_ok inserted).1, items] at member
    rcases List.mem_append.mp member with before | last
    · exact absurd (decide_eq_true ⟨root, logicalId⟩) (List.find?_eq_none.mp found row before)
    · rw [List.mem_singleton.mp last]
      exact assetId
  | some item =>
    obtain ⟨change, updated, keeps⟩ := upserted.updated item found
    obtain ⟨there, itemRoot, itemLogical⟩ := item?_found found
    rw [updated] at member
    obtain ⟨source, before, rfl⟩ := List.mem_map.mp member
    rw [items] at before
    split
    · exact (keeps source).2.2.2
    · rename_i spared
      rw [if_neg spared] at root logicalId
      have equal := keyed.single before there (root.trans itemRoot.symm) (logicalId.trans itemLogical.symm)
      exact absurd (congrArg SyncItem.id equal) spared

/-- An operation that takes effect keeps items and active revisions linked. -/
theorem applyItemOperation_link {db after : SyncDb} {operation done : SyncOperation}
    {input : SyncOperationInput} {fresh : FreshIds} {now : Timestamp} (linked : Connected tracked db)
    (once : applyItemOperation db operation input (db.item? input.logicalId) fresh now =
      .ok (after, done)) :
    ∀ item ∈ after.items, item.rootId = db.root.id → tracked item.logicalId → item.deletedAt = none →
      ∀ id ∈ item.assetId, ∀ revision ∈ after.assets, revision.userId = db.root.userId →
        revision.logicalId = item.logicalId → revision.lifecycleState = .active → revision.id = id := by
  have inherited (inherits : Inherits db after) : ∀ item ∈ after.items, item.rootId = db.root.id →
      tracked item.logicalId → item.deletedAt = none → ∀ id ∈ item.assetId, ∀ revision ∈ after.assets,
        revision.userId = db.root.userId → revision.logicalId = item.logicalId →
          revision.lifecycleState = .active → revision.id = id := by
    intro item member root known live id has revision there owner logicalId active
    obtain ⟨old, before, oldRoot, oldLogical, oldLive, oldAsset⟩ := inherits.items item member live id has
    exact linked.link old before (oldRoot.trans root) (oldLogical ▸ known) oldLive id oldAsset revision
      (inherits.assets revision there active) owner (logicalId.trans oldLogical.symm) active
  cases kind : input.kind with
  | move =>
    rw [applyItemOperation, kind] at once
    exact inherited ((applyMove_inherits ..).value once)
  | delete =>
    rw [applyItemOperation, kind] at once
    exact inherited ((applyDelete_inherits ..).value once)
  | upsert =>
    have touched := ((applyItemOperation_touches ..).value once).1
    rw [applyItemOperation, kind] at once
    obtain ⟨asset, published, current, upserted⟩ := applyUpsert_upserted once
    intro item member root known live id has revision there owner logicalId active
    by_cases named : item.logicalId = input.logicalId
    · have asset := upserted.item linked.keyed member root named
      cases Option.some.inj (asset.symm.trans has)
      exact upserted.alone linked.allowed there active owner (logicalId.trans named)
    · have before := (touched.others linked.ids item named).mp member
      apply linked.link item before root known live id has revision _ owner logicalId active
      exact upserted.others linked.allowed there active fun same => named (logicalId.symm.trans same)

/-- A turn keeps them linked. -/
theorem applyOne_linked {b after : Batch} {clientId : String} {now : Timestamp}
    {input : SyncOperationInput} {fresh : FreshIds} {rest : List FreshIds} (linked : Connected tracked b.db)
    (unused : Unused b.db (fresh :: rest)) (result : applyOne clientId now b (input, fresh) = .ok after) :
    Connected tracked after.db ∧ Unused after.db rest ∧ after.db.root = b.db.root ∧
      after.db.retentionDays = b.db.retentionDays := by
  obtain ⟨other, served, kept⟩ := applyOne_serves clientId now linked.allowed linked.keyed unused
  cases Except.ok.inj (result.symm.trans served)
  rcases applyOne_cases result with ⟨_, _, rfl⟩ | ⟨new, _⟩
  · exact ⟨linked, kept.unused, rfl, rfl⟩
  · cases applyOne_outcome new result with
    | applied db operation agreed once recorded =>
      have extended := (applyItemOperation_extends ..).value once
      have ids := extended.ids unused.items.head linked.ids
      have link := applyItemOperation_link linked once
      have journal := ((applyItemOperation_applied ..).value once).1
      obtain ⟨_, rfl⟩ := recordOperation_ok_iff.mp recorded
      have root : db.root = b.db.root := kept.root
      refine ⟨⟨kept.allowed, kept.keyed, ids, ?_⟩, kept.unused, root, journal.retentionDays⟩
      dsimp only
      rw [root]
      exact link
    | refused kind cause recorded =>
      obtain ⟨_, _, rfl⟩ := recordConflict_ok_iff.mp recorded
      exact ⟨⟨kept.allowed, kept.keyed, linked.ids, linked.link⟩, kept.unused, rfl, rfl⟩

/-- An operation that moves its item somewhere or deletes it. -/
def MovesOrDeletes (input : SyncOperationInput) : Prop :=
  input.kind = .delete ∨ input.kind = .move ∧ input.relativePath ≠ none

instance (input : SyncOperationInput) : Decidable (MovesOrDeletes input) :=
  inferInstanceAs (Decidable (_ ∨ _ ∧ _))

/-- The active asset behind a live item of a history that has an active revision. -/
theorem Connected.found {db : SyncDb} {logicalId : UUID} {item : SyncItem} (linked : Connected tracked db)
    (known : tracked logicalId) (found : db.item? logicalId = some item) (live : item.deletedAt = none)
    (revision : db.activeRevision? logicalId ≠ none) {id : UUID} (has : item.assetId = some id) :
    ∃ asset, db.activeAsset? id = some asset ∧ db.assets.find? (fun row => row.id = asset.id) = some asset ∧
      asset.lifecycleState = .active := by
  obtain ⟨current, there⟩ := Option.ne_none_iff_exists'.mp revision
  obtain ⟨member, owner, logical, active⟩ := activeRevision?_found there
  obtain ⟨here, root, named⟩ := item?_found found
  have same := linked.link item here root (named ▸ known) live id has current member owner (logical.trans named.symm) active
  have located : db.activeAsset? id = some current := by
    cases located : db.activeAsset? id with
    | none => exact absurd (decide_eq_true ⟨same, owner, active⟩) (List.find?_eq_none.mp located current member)
    | some other =>
      obtain ⟨otherMember, otherId, _⟩ := activeAsset?_found located
      have equal := List.inj_on_of_nodup_map linked.allowed.unique otherMember member
        (otherId.trans same.symm)
      exact congrArg some equal
  exact ⟨current, located, (Rows.find?_key_iff linked.allowed.unique).mpr ⟨member, rfl⟩, active⟩

/-- A move or a delete of a live item takes effect. -/
theorem Connected.applies {db : SyncDb} {input : SyncOperationInput} {item : SyncItem}
    (linked : Connected tracked db) (operation : SyncOperation) (fresh : FreshIds) (now : Timestamp)
    (known : tracked input.logicalId) (moves : MovesOrDeletes input) (found : db.item? input.logicalId = some item)
    (live : item.deletedAt = none) (revision : db.activeRevision? input.logicalId ≠ none)
    (retention : 1 ≤ db.retentionDays) :
    ∃ after done, applyItemOperation db operation input (db.item? input.logicalId) fresh now =
      .ok (after, done) := by
  have asset {id : UUID} (has : item.assetId = some id) := linked.found known found live revision has
  rw [found]
  unfold applyItemOperation
  rcases moves with delete | ⟨move, path⟩
  · rw [delete]
    dsimp only [applyDelete]
    cases has : item.assetId with
    | none => exact ⟨_, _, rfl⟩
    | some id =>
      obtain ⟨current, located, row, active⟩ := asset has
      dsimp only
      simp only [located, trashAsset, row, Asset.trashes_iff.mpr ⟨active, retention⟩]
      exact ⟨_, _, rfl⟩
  · obtain ⟨relativePath, hasPath⟩ := Option.ne_none_iff_exists'.mp path
    rw [move]
    dsimp only [applyMove]
    rw [hasPath]
    dsimp only
    rw [live]
    cases has : item.assetId with
    | none => exact ⟨_, _, rfl⟩
    | some id =>
      obtain ⟨current, located, _⟩ := asset has
      dsimp only
      simp only [located]
      exact ⟨_, _, rfl⟩

/-- A move or a delete of a live item with its current revision, where the history of the item
has an active revision. -/
structure UpToDate (db : SyncDb) (clientId : String) (input : SyncOperationInput) : Prop where
  item : ∃ item ∈ db.item? input.logicalId, item.deletedAt = none ∧
    input.baseRevision = some item.revision
  revision : db.activeRevision? input.logicalId ≠ none
  moves : MovesOrDeletes input
  new : duplicate? db clientId input = none

instance (db : SyncDb) (clientId : String) (input : SyncOperationInput) :
    Decidable (UpToDate db clientId input) :=
  decidable_of_iff ((∃ item ∈ db.item? input.logicalId, item.deletedAt = none ∧
      input.baseRevision = some item.revision) ∧ db.activeRevision? input.logicalId ≠ none ∧
      MovesOrDeletes input ∧ duplicate? db clientId input = none)
    ⟨fun ⟨item, revision, moves, new⟩ => ⟨item, revision, moves, new⟩, fun upToDate =>
      ⟨upToDate.item, upToDate.revision, upToDate.moves, upToDate.new⟩⟩

/-- Its turn appends an applied operation. -/
theorem turn_applies {b : Batch} {fresh : FreshIds} {rest : List FreshIds} {clientId : String}
    {input : SyncOperationInput} (now : Timestamp) (linked : Connected tracked b.db)
    (known : tracked input.logicalId) (unused : Unused b.db (fresh :: rest))
    (retention : 1 ≤ b.db.retentionDays) (upToDate : UpToDate b.db clientId input) :
    ∃ after operation, applyOne clientId now b (input, fresh) = .ok after ∧
      after.db.operations = b.db.operations ++ [operation] ∧
      operation.operationId = input.operationId ∧ operation.status = .applied := by
  obtain ⟨⟨item, found, live, current⟩, revision, moves, new⟩ := upToDate
  obtain ⟨after, served, _⟩ := applyOne_serves clientId now linked.allowed linked.keyed unused
  refine ⟨after, ?_⟩
  have agreed : baseConflict input (b.db.item? input.logicalId) = none := by
    rw [found, baseConflict, if_pos current]
  obtain ⟨db, done, once⟩ := linked.applies (newOperation b clientId input fresh) fresh now known
    moves found live revision retention
  cases applyOne_outcome new served with
  | applied db' operation _ again recorded =>
    obtain ⟨journal, payload, rfl⟩ := (applyItemOperation_applied ..).value again
    obtain ⟨_, rfl⟩ := recordOperation_ok_iff.mp recorded
    dsimp only at journal
    exact ⟨_, served, by dsimp only; rw [journal.operations], rfl, rfl⟩
  | refused kind cause recorded =>
    rcases cause with stale | ⟨_, _, message, raised⟩
    · exact absurd (agreed.symm.trans stale) nofun
    · exact absurd (once.symm.trans raised) nofun

end Drivebound.Sync
