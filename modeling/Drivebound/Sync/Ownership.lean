import Mathlib.Data.List.Nodup
import Drivebound.Sync.Frame

/-! Whose assets a sync request changes. Applying operations and resolving a conflict
rewrite, clone and trash assets of the root's owner; the rows of the other accounts
stay as they are. -/
namespace Drivebound.Sync
open Checked

/-- Changes of the assets of one user: ids stay a key, rows stay with their owner and keep
their content, and the rows of the others were there before. -/
structure Within (user : UUID) (before after : List Asset) : Prop where
  unique : (before.map Asset.id).Nodup → (after.map Asset.id).Nodup
  kept : ∀ asset ∈ before, ∃ row ∈ after, row.id = asset.id ∧ row.userId = asset.userId ∧
    row.checksum = asset.checksum
  others : (before.map Asset.id).Nodup → ∀ asset ∈ after, asset.userId ≠ user → asset ∈ before

namespace Within

variable {user : UUID} {before middle after : List Asset}

theorem refl (user : UUID) (assets : List Asset) : Within user assets assets :=
  ⟨fun unique => unique, fun asset member => ⟨asset, member, rfl, rfl, rfl⟩,
    fun _ _ member _ => member⟩

theorem trans (first : Within user before middle) (second : Within user middle after) :
    Within user before after := by
  refine ⟨fun unique => second.unique (first.unique unique), fun asset member => ?_,
    fun unique asset member other => ?_⟩
  · obtain ⟨row, there, id, owner, content⟩ := first.kept asset member
    obtain ⟨final, here, sameId, sameOwner, sameContent⟩ := second.kept row there
    exact ⟨final, here, sameId.trans id, sameOwner.trans owner, sameContent.trans content⟩
  · exact first.others unique asset (second.others (first.unique unique) asset member other) other

/-- Rows are rewritten, those of the others not. -/
theorem map {change : Asset → Asset} (keepsId : ∀ asset, (change asset).id = asset.id)
    (keepsOwner : ∀ asset, (change asset).userId = asset.userId)
    (keepsContent : ∀ asset, (change asset).checksum = asset.checksum)
    (spares : (before.map Asset.id).Nodup →
      ∀ asset ∈ before, asset.userId ≠ user → change asset = asset) :
    Within user before (before.map change) := by
  have ids : (before.map change).map Asset.id = before.map Asset.id := by
    rw [List.map_map]
    exact List.map_congr_left fun asset _ => keepsId asset
  refine ⟨fun unique => ids ▸ unique, fun asset member => ?_, fun unique row member other => ?_⟩
  · exact ⟨change asset, List.mem_map_of_mem member, keepsId asset, keepsOwner asset,
      keepsContent asset⟩
  · obtain ⟨asset, there, rfl⟩ := List.mem_map.mp member
    rw [spares unique asset there (keepsOwner asset ▸ other)]
    exact there

/-- A row of the user is rewritten. -/
theorem update {id : UUID} {change : Asset → Asset}
    (owned : ∃ asset ∈ before, asset.id = id ∧ asset.userId = user)
    (keepsId : ∀ asset, (change asset).id = asset.id)
    (keepsOwner : ∀ asset, (change asset).userId = asset.userId)
    (keepsContent : ∀ asset, (change asset).checksum = asset.checksum) :
    Within user before (before.map fun asset => if asset.id = id then change asset else asset) := by
  apply map
  · intro asset
    split
    · exact keepsId asset
    · rfl
  · intro asset
    split
    · exact keepsOwner asset
    · rfl
  · intro asset
    split
    · exact keepsContent asset
    · rfl
  · intro unique asset there other
    obtain ⟨mine, here, sameId, owner⟩ := owned
    refine if_neg fun same => other ?_
    have equal := List.inj_on_of_nodup_map unique there here (same.trans sameId.symm)
    exact equal ▸ owner

/-- A row of the user is added. -/
theorem insert {asset : Asset} (inserted : insertRow Asset.id before asset = .ok after)
    (owner : asset.userId = user) : Within user before after := by
  obtain ⟨rfl, unused⟩ := insertRow_ok inserted
  refine ⟨fun unique => ?_, fun row member => ?_, fun _ row member other => ?_⟩
  · rw [List.map_append, List.nodup_append]
    refine ⟨unique, List.nodup_singleton _, fun id here new there => ?_⟩
    obtain ⟨row, present, rfl⟩ := List.mem_map.mp here
    rw [List.map_singleton, List.mem_singleton] at there
    exact there ▸ unused row present
  · exact ⟨row, List.mem_append_left _ member, rfl, rfl, rfl⟩
  · rcases List.mem_append.mp member with before | new
    · exact before
    · rw [List.mem_singleton.mp new] at other
      exact absurd owner other

end Within

/-- The assets of the root's owner change at most. -/
structure OwnAssets (before after : SyncDb) : Prop where
  owner : after.root.userId = before.root.userId
  within : Within before.root.userId before.assets after.assets

/-- The owner of the root has a row with this id. -/
def Owner (db : SyncDb) (id : UUID) : Prop :=
  ∃ asset ∈ db.assets, asset.id = id ∧ asset.userId = db.root.userId

namespace OwnAssets

variable {a b c : SyncDb}

theorem refl (db : SyncDb) : OwnAssets db db := ⟨rfl, .refl ..⟩

theorem trans (first : OwnAssets a b) (second : OwnAssets b c) : OwnAssets a c :=
  ⟨second.owner.trans first.owner, first.within.trans (first.owner ▸ second.within)⟩

theorem ownerOf (own : OwnAssets a b) {id : UUID} (mine : Owner a id) : Owner b id := by
  obtain ⟨asset, member, sameId, owner⟩ := mine
  obtain ⟨row, there, id, user, _⟩ := own.within.kept asset member
  exact ⟨row, there, id.trans sameId, user.trans (owner.trans own.owner.symm)⟩

theorem updateAsset {db : SyncDb} {id : UUID} {change : Asset → Asset} (mine : Owner db id)
    (keepsId : ∀ asset, (change asset).id = asset.id)
    (keepsOwner : ∀ asset, (change asset).userId = asset.userId)
    (keepsContent : ∀ asset, (change asset).checksum = asset.checksum) :
    OwnAssets db (db.updateAsset id change) := ⟨rfl, .update mine keepsId keepsOwner keepsContent⟩

theorem updateItem (db : SyncDb) (id : UUID) (change : SyncItem → SyncItem) :
    OwnAssets db (db.updateItem id change) := ⟨rfl, .refl ..⟩

end OwnAssets

theorem activeAsset?_owner {db : SyncDb} {id : UUID} {asset : Asset}
    (found : db.activeAsset? id = some asset) : Owner db asset.id := by
  have holds := List.find?_some found
  simp only [decide_eq_true_eq] at holds
  exact ⟨asset, List.mem_of_find?_eq_some found, rfl, holds.2.1⟩

theorem activeRevision?_owner {db : SyncDb} {logicalId : UUID} {asset : Asset}
    (found : db.activeRevision? logicalId = some asset) : Owner db asset.id := by
  have holds := List.find?_some found
  simp only [decide_eq_true_eq] at holds
  exact ⟨asset, List.mem_of_find?_eq_some found, rfl, holds.1⟩

/-- Both endings keep the assets of the others. -/
abbrev KeepsOthers (db : SyncDb) (current : α → SyncDb) : Except Raised α → Prop :=
  Ends (fun value => OwnAssets db (current value)) (fun r => OwnAssets db r.db)

theorem trashAsset_own {db : SyncDb} {id : UUID} {actor : String} {now : Timestamp}
    (mine : Owner db id) : KeepsOthers db (fun after => after) (trashAsset db id actor now) :=
  trashAsset_ends (fun _ => .refl db) (.refl db)
    (.updateAsset mine (fun _ => rfl) (fun _ => rfl) fun _ => rfl)

theorem cloneAssetRevision_owner (source : Asset) (logicalId : UUID) (version : Nat) (id : UUID) :
    Ends (fun revision => revision.userId = source.userId) (fun _ => True)
      (cloneAssetRevision source logicalId version id) := by
  unfold cloneAssetRevision
  split
  · exact rfl
  · trivial

/-- The row that is published next belongs to the owner of the root. -/
abbrev Publishes (db : SyncDb) : Except Raised (SyncDb × Asset) → Prop :=
  Ends (fun result => OwnAssets db result.1 ∧ Owner result.1 result.2.id) (fun r => OwnAssets db r.db)

theorem addClone_own {db current : SyncDb} {asset : Asset} (own : OwnAssets db current)
    (logicalId : UUID) (version : Nat) (id : UUID) (owner : asset.userId = current.root.userId) :
    Publishes db (addClone current asset logicalId version id) := by
  unfold addClone
  refine Ends.bind ((cloneAssetRevision_owner ..).mapError fun _ _ => own) ?_
  intro revision cloned
  cases inserted : insertRow Asset.id current.assets revision with
  | error failure => exact own
  | ok rows =>
    have added : OwnAssets current { current with assets := rows } :=
      ⟨rfl, .insert inserted (cloned.trans owner)⟩
    refine ⟨own.trans added, revision, ?_, rfl, cloned.trans owner⟩
    rw [(insertRow_ok inserted).1]
    exact List.mem_append_right _ List.mem_cons_self

theorem upsertRevision_own {db current : SyncDb} {asset : Asset} (own : OwnAssets db current)
    (input : SyncOperationInput) (item : Option SyncItem) (activeTarget : Option Asset)
    (version : Nat) (fresh : FreshIds) (mine : Owner current asset.id)
    (owner : asset.userId = current.root.userId) :
    Publishes db (upsertRevision current input item asset activeTarget version fresh) := by
  unfold upsertRevision
  split
  · dsimp only
    split
    · exact addClone_own own _ _ _ owner
    · have attached : OwnAssets current (current.updateAsset asset.id fun asset =>
          { asset with logicalId := input.logicalId, version }) :=
        .updateAsset mine (fun _ => rfl) (fun _ => rfl) fun _ => rfl
      exact ⟨own.trans attached, attached.ownerOf mine⟩
  · split
    · exact addClone_own own _ _ _ owner
    · exact ⟨own, mine⟩

theorem applyUpsert_own (db : SyncDb) (operation : SyncOperation) (input : SyncOperationInput)
    (item : Option SyncItem) (fresh : FreshIds) (now : Timestamp) :
    KeepsOthers db Prod.fst (applyUpsert db operation input item fresh now) := by
  unfold applyUpsert
  split
  · split
    · exact .refl db
    · rename_i assetId relativePath _ _ _ asset found
      have mine := activeAsset?_owner found
      have owner : asset.userId = db.root.userId := by
        have holds := List.find?_some found
        simp only [decide_eq_true_eq] at holds
        exact holds.2.1
      have superseded : OwnAssets db (supersedePrevious db (db.activeRevision? input.logicalId) asset now) := by
        rcases supersedePrevious_cases db (db.activeRevision? input.logicalId) asset now with
          same | ⟨target, current, _, written⟩
        · rw [same]
          exact .refl db
        · rw [written]
          exact .updateAsset (activeRevision?_owner current) (fun _ => rfl) (fun _ => rfl) fun _ => rfl
      refine Ends.bind (upsertRevision_own superseded input item _ _ fresh
        (superseded.ownerOf mine) (owner.trans superseded.owner.symm)) ?_
      rintro ⟨after, revision⟩ ⟨own, published⟩
      have activate : OwnAssets after (after.updateAsset revision.id fun asset =>
          { asset with
            lifecycleState := .active, supersededAt := none, trashedAt := none
            purgeAfter := none }) := .updateAsset published (fun _ => rfl) (fun _ => rfl) fun _ => rfl
      have activated := own.trans activate
      cases item with
      | none =>
        refine Ends.bind (P := fun final => OwnAssets db final) ?_ fun final same => same
        cases insertRow SyncItem.id _ _ with
        | error failure => exact activated
        | ok rows => exact activated.trans ⟨rfl, .refl ..⟩
      | some item => exact activated.trans (.updateItem ..)
  · exact .refl db

theorem applyMove_own (db : SyncDb) (operation : SyncOperation) (input : SyncOperationInput)
    (item : Option SyncItem) : KeepsOthers db Prod.fst (applyMove db operation input item) := by
  unfold applyMove
  split
  · split_ifs
    · exact .refl db
    · split
      · exact .updateItem ..
      · split
        · exact .refl db
        · exact .updateItem ..
  · exact .refl db

theorem applyDelete_own (db : SyncDb) (operation : SyncOperation) (input : SyncOperationInput)
    (item : Option SyncItem) (fresh : FreshIds) (now : Timestamp) :
    KeepsOthers db Prod.fst (applyDelete db operation input item fresh now) := by
  unfold applyDelete
  cases item with
  | none =>
    refine Ends.bind (P := fun after => OwnAssets db after) ?_ fun after same => same
    cases insertRow SyncItem.id _ _ with
    | error failure => exact .refl db
    | ok rows => exact ⟨rfl, .refl ..⟩
  | some item =>
    dsimp only
    split
    · exact .updateItem ..
    · split
      · exact .refl db
      · rename_i asset found
        refine Ends.bind (trashAsset_own (activeAsset?_owner found)) ?_
        intro after own
        exact own.trans (.updateItem ..)

theorem applyItemOperation_own (db : SyncDb) (operation : SyncOperation)
    (input : SyncOperationInput) (item : Option SyncItem) (fresh : FreshIds) (now : Timestamp) :
    KeepsOthers db Prod.fst (applyItemOperation db operation input item fresh now) := by
  unfold applyItemOperation
  cases input.kind with
  | upsert => exact applyUpsert_own ..
  | move => exact applyMove_own ..
  | delete => exact applyDelete_own ..

theorem recordOperation_own {b after : Batch} {db : SyncDb} {operation : SyncOperation}
    (own : OwnAssets b.db db) (result : recordOperation b db operation = .ok after) :
    OwnAssets b.db after.db := by
  obtain ⟨rows, _, finished⟩ := bind_ok_iff.mp result
  cases finished
  exact own.trans ⟨rfl, .refl ..⟩

theorem recordConflict_own {b after : Batch} {db : SyncDb} {operation : SyncOperation}
    (own : OwnAssets b.db db)
    (result : recordConflict b db operation input item fresh kind = .ok after) :
    OwnAssets b.db after.db := by
  obtain ⟨conflicts, _, result⟩ := bind_ok_iff.mp result
  obtain ⟨middle, recorded, finished⟩ := bind_ok_iff.mp result
  have noted : OwnAssets b.db { db with conflicts } := own.trans ⟨rfl, .refl ..⟩
  have kept := recordOperation_own noted recorded
  cases finished
  exact kept

theorem applyOne_own {b after : Batch} {entry : SyncOperationInput × FreshIds}
    (result : applyOne clientId now b entry = .ok after) : OwnAssets b.db after.db := by
  obtain ⟨input, fresh⟩ := entry
  simp only [applyOne] at result
  split at result
  · cases result
    exact .refl _
  · split at result
    · exact recordConflict_own (.refl _) result
    · have own := applyItemOperation_own b.db (newOperation b clientId input fresh) input
        (b.db.item? input.logicalId) fresh now
      split at result
      · rename_i same
        exact recordOperation_own (own.value same) result
      · rename_i same
        exact recordConflict_own (own.raised same) result
      · contradiction

theorem applyAll_own {b after : Batch} {entries : List (SyncOperationInput × FreshIds)}
    (result : applyAll clientId now b entries = .ok after) : OwnAssets b.db after.db := by
  induction entries generalizing b with
  | nil =>
    cases result
    exact .refl _
  | cons entry rest ih =>
    obtain ⟨middle, one, later⟩ := bind_ok_iff.mp result
    exact (applyOne_own one).trans (ih later)

/-- A push changes assets of the root's owner, who is there and not disabled. -/
theorem applyOperations_own {db : SyncDb} {loaded : Nat} {b : Batch}
    (result : applyOperations db loaded clientId inputs now = .ok b) :
    db.userAvailable = true ∧ OwnAssets db b.db := by
  unfold applyOperations at result
  split_ifs at result with disabled
  obtain ⟨batch, applied, finished⟩ := bind_ok_iff.mp result
  have own : OwnAssets db batch.db := applyAll_own applied
  cases finished
  refine ⟨by simpa using disabled, own.trans ⟨rfl, .refl ..⟩⟩

/-- So does the resolution of a conflict. -/
theorem resolveConflict_own {db after : SyncDb} {loaded : SyncConflict}
    (result : resolveConflict db loaded choice fresh now = .ok after) :
    OwnAssets db after := by
  rcases resolveConflict_cases result with ⟨_, rfl⟩ | ⟨_, operation, settled, _, chosen, rfl⟩
  · exact .refl _
  have own : OwnAssets db settled := by
    rcases chosen with ⟨_, kept⟩ | ⟨_, rfl⟩
    · obtain ⟨⟨input, applied, payload, keptLocal⟩, _⟩ := keepLocal_cases kept
      have once := (applyItemOperation_own db operation input
        (db.item? operation.logicalId) fresh now).value keptLocal.once
      refine ⟨?_, ?_⟩
      · rw [keptLocal.root]
      · rw [keptLocal.assets]
        exact once.within
    · exact ⟨rfl, .refl ..⟩
  exact own.trans ⟨rfl, .refl ..⟩

end Drivebound.Sync
