import Mathlib.Data.List.Nodup
import Drivebound.Sync.Frame

/-! One turn of the push loop, seen from the items: an operation that is applied changes
the item it names and leaves the others; one that becomes a conflict changes no item. -/
namespace Drivebound.Sync
open Checked

/-- Changes of the items of one logical id. -/
structure OnItem (logicalId : UUID) (before after : List SyncItem) : Prop where
  unique : (before.map SyncItem.id).Nodup → (after.map SyncItem.id).Nodup
  others : (before.map SyncItem.id).Nodup → ∀ item, item.logicalId ≠ logicalId →
    (item ∈ after ↔ item ∈ before)

namespace OnItem

variable {logicalId : UUID} {before after : List SyncItem}

theorem refl (logicalId : UUID) (items : List SyncItem) : OnItem logicalId items items :=
  ⟨fun unique => unique, fun _ _ _ => Iff.rfl⟩

/-- The item is rewritten. -/
theorem update {item : SyncItem} {change : SyncItem → SyncItem} (member : item ∈ before)
    (named : item.logicalId = logicalId)
    (keeps : ∀ row, (change row).id = row.id ∧ (change row).logicalId = row.logicalId) :
    OnItem logicalId before
      (before.map fun row => if row.id = item.id then change row else row) := by
  have ids : (before.map fun row => if row.id = item.id then change row else row).map SyncItem.id =
      before.map SyncItem.id := by
    rw [List.map_map]
    refine List.map_congr_left fun row _ => ?_
    dsimp only [Function.comp_apply]
    split
    · exact (keeps row).1
    · rfl
  refine ⟨fun unique => ids ▸ unique, fun unique other different => ⟨fun here => ?_, fun there => ?_⟩⟩
  · obtain ⟨row, there, rfl⟩ := List.mem_map.mp here
    split at different
    · rename_i same
      have equal := List.inj_on_of_nodup_map unique there member same
      exact absurd ((keeps row).2.trans (equal ▸ named)) different
    · rename_i apart
      rwa [if_neg apart]
  · refine List.mem_map.mpr ⟨other, there, if_neg fun same => different ?_⟩
    exact List.inj_on_of_nodup_map unique there member same ▸ named

theorem insert {item : SyncItem} (inserted : insertRow SyncItem.id before item = .ok after)
    (named : item.logicalId = logicalId) : OnItem logicalId before after := by
  obtain ⟨rfl, unused⟩ := insertRow_ok inserted
  refine ⟨fun unique => ?_, fun _ other different => ⟨fun here => ?_, List.mem_append_left _⟩⟩
  · rw [List.map_append, List.nodup_append]
    refine ⟨unique, List.nodup_singleton _, fun id here new there => ?_⟩
    obtain ⟨row, present, rfl⟩ := List.mem_map.mp here
    rw [List.map_singleton, List.mem_singleton] at there
    exact there ▸ unused row present
  · rcases List.mem_append.mp here with before | new
    · exact before
    · rw [List.mem_singleton.mp new] at different
      exact absurd named different

end OnItem

theorem item?_found {db : SyncDb} {logicalId : UUID} {item : SyncItem}
    (found : db.item? logicalId = some item) :
    item ∈ db.items ∧ item.rootId = db.root.id ∧ item.logicalId = logicalId := by
  have holds := List.find?_some found
  simp only [decide_eq_true_eq] at holds
  exact ⟨List.mem_of_find?_eq_some found, holds⟩

/-- The items stay as they are, also where it raises. -/
abbrev KeepsItems (db : SyncDb) (current : α → SyncDb) : Except Raised α → Prop :=
  Ends (fun value => (current value).items = db.items) (fun r => r.db.items = db.items)

theorem trashAsset_items (db : SyncDb) (id : UUID) (actor : String) (now : Timestamp) :
    KeepsItems db (fun after => after) (trashAsset db id actor now) :=
  trashAsset_ends (fun _ => rfl) rfl rfl

theorem addClone_items (db : SyncDb) (asset : Asset) (logicalId : UUID) (version : Nat) (id : UUID) :
    KeepsItems db Prod.fst (addClone db asset logicalId version id) := by
  unfold addClone
  refine Ends.bind ((Ends.trivial _).mapError fun _ _ => rfl) ?_
  intro revision _
  cases insertRow Asset.id db.assets revision with
  | ok rows => exact rfl
  | error failure => exact rfl

theorem upsertRevision_items (db : SyncDb) (input : SyncOperationInput) (item : Option SyncItem)
    (asset : Asset) (activeTarget : Option Asset) (version : Nat) (fresh : FreshIds) :
    KeepsItems db Prod.fst (upsertRevision db input item asset activeTarget version fresh) := by
  unfold upsertRevision
  split
  · dsimp only
    split
    · exact addClone_items ..
    · exact rfl
  · split
    · exact addClone_items ..
    · exact rfl

/-- An operation changes its item and names the input's path, unless it is a delete; a
refused one changes no item. -/
abbrev Touches (db : SyncDb) (input : SyncOperationInput) :
    Except Raised (SyncDb × SyncOperation) → Prop :=
  Ends (fun result => OnItem input.logicalId db.items result.1.items ∧
      (input.kind ≠ .delete → result.2.payload.relativePath = input.relativePath))
    (fun r => r.db.items = db.items)

theorem applyUpsert_touches (db : SyncDb) (operation : SyncOperation) (input : SyncOperationInput)
    (fresh : FreshIds) (now : Timestamp) :
    Touches db input (applyUpsert db operation input (db.item? input.logicalId) fresh now) := by
  unfold applyUpsert
  split
  · split
    · exact rfl
    · rename_i assetId relativePath _ _ _ asset _
      have superseded : (supersedePrevious db (db.activeRevision? input.logicalId) asset now).items = db.items := by
        rw [supersedePrevious_rest]
      refine Ends.bind (P := fun result => result.1.items = db.items) ?_ ?_
      · rw [← superseded]
        exact upsertRevision_items ..
      rintro ⟨after, revision⟩ kept
      dsimp only at kept
      cases found : db.item? input.logicalId with
      | none =>
        refine Ends.bind (P := fun final => OnItem input.logicalId db.items final.items) ?_ ?_
        · cases inserted : insertRow SyncItem.id _ _ with
          | error failure => exact kept
          | ok rows =>
            simp only [SyncDb.updateAsset, kept] at inserted
            exact .insert inserted rfl
        · intro final items
          exact ⟨items, fun _ => rfl⟩
      | some item =>
        obtain ⟨member, _, named⟩ := item?_found found
        refine ⟨?_, fun _ => rfl⟩
        simp only [SyncDb.updateItem, SyncDb.updateAsset, kept]
        exact .update member named fun _ => ⟨rfl, rfl⟩
  · exact rfl

theorem applyMove_touches (db : SyncDb) (operation : SyncOperation) (input : SyncOperationInput) :
    Touches db input (applyMove db operation input (db.item? input.logicalId)) := by
  unfold applyMove
  split
  · rename_i item relativePath found path
    obtain ⟨member, _, named⟩ := item?_found found
    split_ifs
    · exact rfl
    · split
      · exact ⟨.update member named fun _ => ⟨rfl, rfl⟩, fun _ => rfl⟩
      · split
        · exact rfl
        · exact ⟨.update member named fun _ => ⟨rfl, rfl⟩, fun _ => rfl⟩
  · exact rfl

theorem applyDelete_touches (db : SyncDb) (operation : SyncOperation) (input : SyncOperationInput)
    (fresh : FreshIds) (now : Timestamp) (deletes : input.kind = .delete) :
    Touches db input (applyDelete db operation input (db.item? input.logicalId) fresh now) := by
  unfold applyDelete
  cases found : db.item? input.logicalId with
  | none =>
    refine Ends.bind (P := fun final => OnItem input.logicalId db.items final.items) ?_ ?_
    · cases inserted : insertRow SyncItem.id _ _ with
      | error failure => exact rfl
      | ok rows => exact .insert inserted rfl
    · intro final items
      exact ⟨items, fun other => absurd deletes other⟩
  | some item =>
    obtain ⟨member, _, named⟩ := item?_found found
    dsimp only
    split
    · exact ⟨.update member named fun _ => ⟨rfl, rfl⟩, fun other => absurd deletes other⟩
    · split
      · exact rfl
      · rename_i asset _
        refine Ends.bind (trashAsset_items db asset.id _ now) ?_
        intro after kept
        refine ⟨?_, fun other => absurd deletes other⟩
        simp only [SyncDb.updateItem, kept]
        exact .update member named fun _ => ⟨rfl, rfl⟩

theorem applyItemOperation_touches (db : SyncDb) (operation : SyncOperation)
    (input : SyncOperationInput) (fresh : FreshIds) (now : Timestamp) :
    Touches db input
      (applyItemOperation db operation input (db.item? input.logicalId) fresh now) := by
  unfold applyItemOperation
  split
  · exact applyUpsert_touches ..
  · exact applyMove_touches ..
  · rename_i deletes
    exact applyDelete_touches _ _ _ _ _ deletes

theorem duplicate?_found {db : SyncDb} {input : SyncOperationInput} {operation : SyncOperation}
    (found : duplicate? db clientId input = some operation) :
    operation ∈ db.operations ∧ (operation.operationId = input.operationId ∨
      operation.rootId = db.root.id ∧ operation.clientId = clientId ∧
        operation.clientSequence = input.clientSequence) := by
  unfold duplicate? at found
  rcases Option.or_eq_some_iff.mp found with byId | ⟨_, bySequence⟩
  · have holds := List.find?_some byId
    exact ⟨List.mem_of_find?_eq_some byId, .inl (of_decide_eq_true holds)⟩
  · have holds := List.find?_some bySequence
    exact ⟨List.mem_of_find?_eq_some bySequence, .inr (of_decide_eq_true holds)⟩

end Drivebound.Sync
