import Drivebound.Core.Rows
import Drivebound.Sync.Cursors
import Drivebound.Sync.Ownership
import Drivebound.Sync.Turns

/-! The items of a root mirror its journal: an item shows the applied operation with the
greatest cursor of its logical id, its revision, its path and its content. -/
namespace Drivebound.Sync
open Checked

/-- The cursor of a revision is read off its digits, which no dash ends early. -/
theorem nextRevision_cursor {c d : Nat} {a b : UUID} (same : nextRevision c a = nextRevision d b) :
    c = d := by
  have digits : ∀ (n : Nat) (rest : List Char),
      (Nat.toDigits 10 n ++ '-' :: rest).takeWhile (· ≠ '-') = Nat.toDigits 10 n := by
    intro n rest
    rw [List.takeWhile_append_of_pos]
    · simp
    · intro ch member
      have digit := Nat.isDigit_of_mem_toDigits (by decide) (by decide) member
      refine decide_eq_true fun dash => ?_
      rw [dash] at digit
      contradiction
  have lists := congrArg String.toList same
  simp only [nextRevision, String.toList_append, Nat.toString_eq_ofList_toDigits,
    String.toList_ofList, List.append_assoc] at lists
  have tails := List.append_cancel_left lists
  have equal := congrArg (List.takeWhile (· ≠ '-')) tails
  have dash : "-".toList = ['-'] := rfl
  rw [dash, List.singleton_append, List.singleton_append, digits, digits] at equal
  rw [← Nat.ofDigitChars_ten_toDigits (n := c), equal, Nat.ofDigitChars_ten_toDigits]

/-- The asset rows stay, with what they contain. -/
def KeepsContent (before after : List Asset) : Prop :=
  ∀ asset ∈ before, ∃ row ∈ after, row.id = asset.id ∧ row.checksum = asset.checksum

namespace KeepsContent

variable {a b c : List Asset}

theorem refl (assets : List Asset) : KeepsContent assets assets :=
  fun asset member => ⟨asset, member, rfl, rfl⟩

theorem trans (first : KeepsContent a b) (second : KeepsContent b c) : KeepsContent a c := by
  intro asset member
  obtain ⟨row, there, id, content⟩ := first asset member
  obtain ⟨final, here, sameId, sameContent⟩ := second row there
  exact ⟨final, here, sameId.trans id, sameContent.trans content⟩

end KeepsContent

theorem OwnAssets.content {a b : SyncDb} (own : OwnAssets a b) : KeepsContent a.assets b.assets :=
  fun asset member =>
    (own.within.kept asset member).imp fun _ => fun ⟨there, id, _, content⟩ => ⟨there, id, content⟩

/-- The asset of an id has this content. -/
def HasContent (assets : List Asset) (id : Option UUID) (checksum : Option String) : Prop :=
  ∃ asset ∈ assets, id = some asset.id ∧ checksum = some asset.checksum

theorem HasContent.kept {a b : List Asset} {id : Option UUID} {checksum : Option String}
    (has : HasContent a id checksum) (kept : KeepsContent a b) : HasContent b id checksum := by
  obtain ⟨asset, member, sameId, content⟩ := has
  obtain ⟨row, there, id', content'⟩ := kept asset member
  exact ⟨row, there, sameId.trans (congrArg some id'.symm), content.trans (congrArg some content'.symm)⟩

theorem HasContent.unique {assets : List Asset} (unique : (assets.map Asset.id).Nodup)
    {id : Option UUID} {first second : Option String} (one : HasContent assets id first)
    (two : HasContent assets id second) : first = second := by
  obtain ⟨a, here, same, content⟩ := one
  obtain ⟨b, there, same', content'⟩ := two
  have equal := List.inj_on_of_nodup_map unique here there (Option.some.inj (same.symm.trans same'))
  rw [content, content', equal]

/-- The item shows what the operation is for. -/
structure Shows (db : SyncDb) (operation : SyncOperation) (item : SyncItem) : Prop where
  rootId : item.rootId = db.root.id
  logicalId : item.logicalId = operation.logicalId
  deleted : operation.kind = .delete → item.deletedAt ≠ none
  live : operation.kind ≠ .delete → item.deletedAt = none ∧
    operation.payload.relativePath = some item.relativePath ∧
    HasContent db.assets item.assetId operation.payload.checksum

/-- What an operation that takes effect leaves: its item, which shows it, and the revision
that it was given. -/
structure Takes (db after : SyncDb) (input : SyncOperationInput) (revision : String)
    (result : SyncOperation) : Prop where
  shown : ∃ item, after.item? input.logicalId = some item ∧ item.revision = revision ∧
    Shows after result item
  others : (db.items.map SyncItem.id).Nodup → ∀ logicalId ≠ input.logicalId,
    after.item? logicalId = db.item? logicalId
  /-- The content is that of the uploaded asset, or the item's as before. -/
  uploaded : input.kind = .upsert → HasContent db.assets input.assetId result.payload.checksum
  moved : input.kind = .move → ∃ item, db.item? input.logicalId = some item ∧
    HasContent db.assets item.assetId result.payload.checksum

/-- `upsertRevision` publishes a row with the content of its source. -/
theorem upsertRevision_content {db : SyncDb} {asset : Asset} (member : asset ∈ db.assets)
    (input : SyncOperationInput) (item : Option SyncItem) (activeTarget : Option Asset)
    (version : Nat) (fresh : FreshIds) :
    Ends (fun result => result.2.checksum = asset.checksum ∧ result.1.root = db.root ∧
        ∃ row ∈ result.1.assets, row.id = result.2.id ∧ row.checksum = asset.checksum)
      (fun _ => True) (upsertRevision db input item asset activeTarget version fresh) := by
  have clone (logicalId : UUID) (version : Nat) (id : UUID) :
      Ends (fun result => result.2.checksum = asset.checksum ∧ result.1.root = db.root ∧
          ∃ row ∈ result.1.assets, row.id = result.2.id ∧ row.checksum = asset.checksum)
        (fun _ => True) (addClone db asset logicalId version id) := by
    unfold addClone
    have copies : Ends (fun revision => revision.checksum = asset.checksum) (fun _ => True)
        (cloneAssetRevision asset logicalId version id) := by
      unfold cloneAssetRevision
      split
      · exact rfl
      · trivial
    refine Ends.bind (copies.mapError fun _ _ => trivial) ?_
    intro revision content
    cases inserted : insertRow Asset.id db.assets revision with
    | error failure => trivial
    | ok rows =>
      refine ⟨content, rfl, revision, ?_, rfl, content⟩
      rw [(insertRow_ok inserted).1]
      exact List.mem_append_right _ List.mem_cons_self
  unfold upsertRevision
  split
  · dsimp only
    split
    · exact clone ..
    · refine ⟨rfl, rfl, { asset with logicalId := input.logicalId, version }, ?_, rfl, rfl⟩
      exact List.mem_map.mpr ⟨asset, member, if_pos rfl⟩
  · split
    · exact clone ..
    · exact ⟨rfl, rfl, asset, member, rfl, rfl⟩

section Items

variable {db current : SyncDb} {logicalId : UUID} {item : SyncItem}

theorem item?_rewritten {id : UUID} {change : SyncItem → SyncItem} (logicalId : UUID)
    (keeps : ∀ row, (change row).rootId = row.rootId ∧ (change row).logicalId = row.logicalId) :
    (db.updateItem id change).item? logicalId =
      (db.item? logicalId).map fun row => if row.id = id then change row else row := by
  refine Rows.find?_map_stable fun row _ => ?_
  split
  · rw [(keeps row).1, (keeps row).2]
  · rfl

/-- The item is found as it was rewritten. -/
theorem item?_updateItem {change : SyncItem → SyncItem} (found : db.item? logicalId = some item)
    (keeps : ∀ row, (change row).rootId = row.rootId ∧ (change row).logicalId = row.logicalId) :
    (db.updateItem item.id change).item? logicalId = some (change item) := by
  rw [item?_rewritten logicalId keeps, found, Option.map_some, if_pos rfl]

theorem item?_updateItem_other {change : SyncItem → SyncItem} {other : UUID}
    (found : db.item? logicalId = some item) (unique : (db.items.map SyncItem.id).Nodup)
    (keeps : ∀ row, (change row).rootId = row.rootId ∧ (change row).logicalId = row.logicalId)
    (different : other ≠ logicalId) :
    (db.updateItem item.id change).item? other = db.item? other := by
  rw [item?_rewritten other keeps]
  cases there : db.item? other with
  | none => rfl
  | some row =>
    obtain ⟨here, _, named⟩ := item?_found found
    obtain ⟨present, _, named'⟩ := item?_found there
    have apart : row.id ≠ item.id := by
      intro same
      have equal := List.inj_on_of_nodup_map unique present here same
      exact different (named'.symm.trans (equal ▸ named))
    rw [Option.map_some, if_neg apart]

/-- A row that is added for the root's missing item is found, and changes no other one. -/
theorem item?_insert {rows : List SyncItem} {row : SyncItem} (missing : db.item? logicalId = none)
    (inserted : insertRow SyncItem.id db.items row = .ok rows) (rootId : row.rootId = db.root.id)
    (named : row.logicalId = logicalId) :
    { db with items := rows }.item? logicalId = some row ∧
      ∀ other ≠ logicalId, { db with items := rows }.item? other = db.item? other := by
  obtain ⟨rfl, _⟩ := insertRow_ok inserted
  unfold SyncDb.item?
  refine ⟨?_, fun other different => ?_⟩
  · rw [List.find?_append]
    have absent : db.items.find?
        (fun item => item.rootId = db.root.id ∧ item.logicalId = logicalId) = none := missing
    rw [absent, Option.none_or, List.find?_cons_of_pos]
    exact decide_eq_true ⟨rootId, named⟩
  · rw [List.find?_append, List.find?_cons_of_neg, List.find?_nil, Option.or_none]
    simpa only [decide_eq_true_eq, named] using fun same => different same.2.symm

theorem item?_congr (root : current.root.id = db.root.id) (items : current.items = db.items)
    (logicalId : UUID) : current.item? logicalId = db.item? logicalId := by
  unfold SyncDb.item?
  rw [root, items]

end Items

/-- The operation of an input. -/
structure For (operation : SyncOperation) (input : SyncOperationInput) : Prop where
  kind : operation.kind = input.kind
  logicalId : operation.logicalId = input.logicalId

/-- A row that is rewritten keeps its content. -/
theorem updateAsset_content {db : SyncDb} {id : UUID} {change : Asset → Asset}
    (keeps : ∀ asset, (change asset).id = asset.id ∧ (change asset).checksum = asset.checksum) :
    KeepsContent db.assets (db.updateAsset id change).assets := by
  intro asset member
  refine ⟨if asset.id = id then change asset else asset, List.mem_map_of_mem member, ?_⟩
  split
  · exact keeps asset
  · exact ⟨rfl, rfl⟩

theorem applyUpsert_takes {db : SyncDb} {operation : SyncOperation} {input : SyncOperationInput}
    {fresh : FreshIds} {now : Timestamp} (same : For operation input)
    (upsert : input.kind = .upsert) :
    Ends (fun result => Takes db result.1 input (operation.revision.getD "") result.2) (fun _ => True)
      (applyUpsert db operation input (db.item? input.logicalId) fresh now) := by
  have stays : operation.kind ≠ .delete := by
    rw [same.kind, upsert]
    exact nofun
  have move : input.kind ≠ .move := by
    rw [upsert]
    exact nofun
  unfold applyUpsert
  split
  · split
    · trivial
    · rename_i assetId relativePath hasAsset hasPath _ asset found
      have holds := List.find?_some found
      simp only [decide_eq_true_eq] at holds
      have member := List.mem_of_find?_eq_some found
      have uploaded : HasContent db.assets input.assetId (some asset.checksum) :=
        ⟨asset, member, hasAsset.trans (congrArg some holds.1.symm), rfl⟩
      have there : asset ∈ (supersedePrevious db (db.activeRevision? input.logicalId) asset now).assets := by
        rcases supersedePrevious_cases db (db.activeRevision? input.logicalId) asset now with
          same | ⟨target, _, other, written⟩
        · rw [same]
          exact member
        · rw [written]
          exact List.mem_map.mpr ⟨asset, member, if_neg (Ne.symm other)⟩
      have root : (supersedePrevious db (db.activeRevision? input.logicalId) asset now).root = db.root := by
        rw [supersedePrevious_rest]
      have items : (supersedePrevious db (db.activeRevision? input.logicalId) asset now).items = db.items := by
        rw [supersedePrevious_rest]
      refine Ends.bind ((upsertRevision_content there ..).and (upsertRevision_items ..)).values ?_
      rintro ⟨after, revision⟩ ⟨⟨checksum, sameRoot, row, present, rowId, rowContent⟩, sameItems⟩
      dsimp only at checksum sameRoot present rowId sameItems
      have before : HasContent after.assets (some revision.id) (some revision.checksum) :=
        ⟨row, present, congrArg some rowId.symm, congrArg some (checksum.trans rowContent.symm)⟩
      have active : HasContent (after.updateAsset revision.id fun asset =>
          { asset with
            lifecycleState := .active, supersededAt := none, trashedAt := none
            purgeAfter := none }).assets (some revision.id) (some revision.checksum) :=
        before.kept (updateAsset_content fun _ => ⟨rfl, rfl⟩)
      have content : HasContent db.assets input.assetId (some revision.checksum) := checksum ▸ uploaded
      generalize published : (after.updateAsset revision.id fun asset =>
          { asset with
            lifecycleState := .active, supersededAt := none, trashedAt := none
            purgeAfter := none }) = activated at active
      have stillRoot : activated.root = db.root := by
        rw [← published]
        exact sameRoot.trans root
      have stillItems : activated.items = db.items := by
        rw [← published]
        exact sameItems.trans items
      have same? := item?_congr (congrArg SyncRoot.id stillRoot) stillItems
      dsimp only
      rw [published]
      cases existing : db.item? input.logicalId with
      | none =>
        dsimp only
        cases inserted : insertRow SyncItem.id _ _ with
        | error failure => trivial
        | ok rows =>
          obtain ⟨found, others⟩ := item?_insert ((same? _).trans existing) inserted rfl rfl
          refine ⟨⟨_, found, rfl, ?_⟩, fun _ other different => ?_, fun _ => content,
            fun other => absurd other move⟩
          · exact ⟨rfl, same.logicalId.symm, fun delete => absurd delete stays,
              fun _ => ⟨rfl, hasPath, active⟩⟩
          · exact (others other different).trans (same? other)
      | some item =>
        obtain ⟨_, itemRoot, named⟩ := item?_found existing
        have present := (same? _).trans existing
        refine ⟨⟨_, item?_updateItem present ?_, rfl, ?_⟩, fun unique other different => ?_,
          fun _ => content, fun other => absurd other move⟩
        · exact fun _ => ⟨rfl, rfl⟩
        · exact ⟨itemRoot.trans (congrArg SyncRoot.id stillRoot.symm), named.trans same.logicalId.symm,
            fun delete => absurd delete stays, fun _ => ⟨rfl, hasPath, active⟩⟩
        · refine (item?_updateItem_other present ?_ ?_ different).trans (same? other)
          · rwa [stillItems]
          · exact fun _ => ⟨rfl, rfl⟩
  · trivial

/-- The item has an asset where it is live, and is there for a delete. -/
structure Linked (db : SyncDb) (input : SyncOperationInput) : Prop where
  asset : ∀ item ∈ db.item? input.logicalId, item.deletedAt = none → item.assetId ≠ none
  item : input.kind = .delete → db.item? input.logicalId ≠ none

theorem applyMove_takes {db : SyncDb} {operation : SyncOperation} {input : SyncOperationInput}
    (same : For operation input) (move : input.kind = .move) (linked : Linked db input) :
    Ends (fun result => Takes db result.1 input (operation.revision.getD "") result.2) (fun _ => True)
      (applyMove db operation input (db.item? input.logicalId)) := by
  have stays : operation.kind ≠ .delete := by
    rw [same.kind, move]
    exact nofun
  have upsert : input.kind ≠ .upsert := by
    rw [move]
    exact nofun
  unfold applyMove
  split
  · rename_i item relativePath existing hasPath
    obtain ⟨here, itemRoot, named⟩ := item?_found existing
    split_ifs with deleted
    · trivial
    · have live : item.deletedAt = none := Option.not_isSome_iff_eq_none.mp deleted
      split
      · rename_i unlinked
        exact absurd unlinked (linked.asset item existing live)
      · rename_i assetId link
        split
        · trivial
        · rename_i asset found
          have holds := List.find?_some found
          simp only [decide_eq_true_eq] at holds
          have content : HasContent db.assets item.assetId (some asset.checksum) :=
            ⟨asset, List.mem_of_find?_eq_some found, link.trans (congrArg some holds.1.symm), rfl⟩
          refine ⟨⟨_, item?_updateItem existing ?_, rfl, ?_⟩, fun unique other different => ?_,
            fun other => absurd other upsert, fun _ => ⟨item, existing, content⟩⟩
          · exact fun _ => ⟨rfl, rfl⟩
          · exact ⟨itemRoot, named.trans same.logicalId.symm, fun delete => absurd delete stays,
              fun _ => ⟨live, hasPath, content⟩⟩
          · exact item?_updateItem_other existing unique (fun _ => ⟨rfl, rfl⟩) different
  · trivial

theorem applyDelete_takes {db : SyncDb} {operation : SyncOperation} {input : SyncOperationInput}
    {fresh : FreshIds} {now : Timestamp} (same : For operation input)
    (delete : input.kind = .delete) (linked : Linked db input) :
    Ends (fun result => Takes db result.1 input (operation.revision.getD "") result.2) (fun _ => True)
      (applyDelete db operation input (db.item? input.logicalId) fresh now) := by
  have stays : ¬ operation.kind ≠ .delete := fun other => other (same.kind.trans delete)
  have upsert : input.kind ≠ .upsert := by
    rw [delete]
    exact nofun
  have move : input.kind ≠ .move := by
    rw [delete]
    exact nofun
  unfold applyDelete
  cases existing : db.item? input.logicalId with
  | none => exact absurd existing (linked.item delete)
  | some item =>
    obtain ⟨here, itemRoot, named⟩ := item?_found existing
    have deletes (current : SyncDb) (items : current.items = db.items)
        (root : current.root = db.root) (payload : Payload) :
        Takes db (current.updateItem item.id fun item =>
          { item with deletedAt := some now, revision := operation.revision.getD "" }) input
          (operation.revision.getD "") { operation with payload } := by
      have same? := item?_congr (congrArg SyncRoot.id root) items
      refine ⟨⟨_, item?_updateItem ((same? _).trans existing) ?_, rfl, ?_⟩,
        fun unique other different => ?_, fun other => absurd other upsert,
        fun other => absurd other move⟩
      · exact fun _ => ⟨rfl, rfl⟩
      · exact ⟨itemRoot.trans (congrArg SyncRoot.id root.symm), named.trans same.logicalId.symm,
          fun _ => nofun, fun other => absurd other stays⟩
      · refine (item?_updateItem_other ((same? _).trans existing) ?_ ?_ different).trans (same? other)
        · rwa [items]
        · exact fun _ => ⟨rfl, rfl⟩
    dsimp only
    split
    · exact deletes db rfl rfl _
    · split
      · trivial
      · rename_i asset _
        refine Ends.bind ((trashAsset_items db asset.id _ now).and
          (trashAsset_keeps (.refl db) asset.id _ now)).values ?_
        rintro after ⟨items, journal⟩
        exact deletes after items journal.root _

theorem applyItemOperation_takes {db : SyncDb} {operation : SyncOperation}
    {input : SyncOperationInput} (same : For operation input) (linked : Linked db input)
    (fresh : FreshIds) (now : Timestamp) :
    Ends (fun result => Takes db result.1 input (operation.revision.getD "") result.2) (fun _ => True)
      (applyItemOperation db operation input (db.item? input.logicalId) fresh now) := by
  unfold applyItemOperation
  split
  · rename_i upsert
    exact applyUpsert_takes same upsert
  · rename_i move
    exact applyMove_takes same move linked
  · rename_i delete
    exact applyDelete_takes same delete linked

end Drivebound.Sync
