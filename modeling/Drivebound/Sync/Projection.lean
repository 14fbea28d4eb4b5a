import Drivebound.Core.Replay
import Drivebound.Sync.Refusals
import Drivebound.Sync.Standing

/-! The items of a root are a projection of its journal: each is what its applied operations
lead to, one after the other in the order of their cursors. -/
namespace Drivebound.Sync
open Checked Latest Run

/-- What an item shows of its history. -/
structure ItemState where
  relativePath : String
  deleted : Bool
  assetId : Option UUID
  deriving DecidableEq, Repr

def SyncItem.state (item : SyncItem) : ItemState :=
  ⟨item.relativePath, item.deletedAt.isSome, item.assetId⟩

/-- What an operation does to the item it names: an upsert brings it to life with an asset, a
move changes its path alone, a delete ends it where it is. -/
def SyncOperation.effect (operation : SyncOperation) (before : Option ItemState) : Option ItemState :=
  let relativePath := operation.payload.relativePath.getD ""
  match operation.kind with
  | .upsert => some ⟨relativePath, false, operation.payload.assetId⟩
  | .move => before.map fun state => { state with relativePath }
  | .delete => some { before.getD ⟨relativePath, true, none⟩ with deleted := true }

namespace SyncDb

/-- The operations of a logical id that are applied. -/
def appliedTo (db : SyncDb) (logicalId : UUID) : List SyncOperation :=
  db.effective.filter fun operation => operation.logicalId = logicalId

def replayed (db : SyncDb) (logicalId : UUID) : Option ItemState :=
  replay SyncOperation.effect SyncOperation.cursor none (db.appliedTo logicalId)

def shown (db : SyncDb) (logicalId : UUID) : Option ItemState :=
  (db.item? logicalId).map SyncItem.state

end SyncDb

theorem shown_updateItem {db : SyncDb} {logicalId : UUID} {item : SyncItem} (change : SyncItem → SyncItem)
    (found : db.item? logicalId = some item)
    (keeps : ∀ row, (change row).rootId = row.rootId ∧ (change row).logicalId = row.logicalId) :
    (db.updateItem item.id change).shown logicalId = some (change item).state := by
  unfold SyncDb.shown
  rw [item?_updateItem found keeps, Option.map_some]

/-- The operation's item comes to what the operation does to it. -/
def Effects (db : SyncDb) (logicalId : UUID) (result : SyncDb × SyncOperation) : Prop :=
  result.1.shown logicalId = result.2.effect (db.shown logicalId)

theorem applyUpsert_effects {db : SyncDb} {operation : SyncOperation} {input : SyncOperationInput}
    (fresh : FreshIds) (now : Timestamp) (upsert : operation.kind = .upsert) :
    Ends (Effects db input.logicalId) (fun _ => True)
      (applyUpsert db operation input (db.item? input.logicalId) fresh now) := by
  unfold applyUpsert
  split
  · rename_i assetId relativePath _ hasPath
    split
    · trivial
    · rename_i asset _
      have superseded : (supersedePrevious db (db.activeRevision? input.logicalId) asset now).root = db.root ∧
          (supersedePrevious db (db.activeRevision? input.logicalId) asset now).items = db.items := by
        rw [supersedePrevious_rest]
        exact ⟨rfl, rfl⟩
      obtain ⟨root, items⟩ := superseded
      refine Ends.bind ((upsertRevision_keeps (.refl _) ..).and (upsertRevision_items ..)).values ?_
      rintro ⟨published, revision⟩ ⟨journal, sameItems⟩
      dsimp only at journal sameItems ⊢
      generalize active : published.updateAsset revision.id _ = current
      have same : current.item? input.logicalId = db.item? input.logicalId := by
        rw [← active]
        exact item?_congr (congrArg SyncRoot.id (journal.root.trans root)) (sameItems.trans items) _
      cases existing : db.item? input.logicalId with
      | none =>
        dsimp only
        cases inserted : insertRow SyncItem.id _ _ with
        | error failure => trivial
        | ok rows =>
          obtain ⟨found, _⟩ := item?_insert (same.trans existing) inserted rfl rfl
          refine (congrArg (Option.map SyncItem.state) found).trans ?_
          simp only [SyncOperation.effect, upsert, operationPayload, hasPath]
          rfl
      | some item =>
        refine (shown_updateItem (fun item => { item with
            assetId := some revision.id, relativePath, revision := operation.revision.getD ""
            deletedAt := none }) (same.trans existing) fun _ => ⟨rfl, rfl⟩).trans ?_
        simp only [SyncOperation.effect, upsert, operationPayload, hasPath]
        rfl
  · trivial

theorem applyMove_effects {db : SyncDb} {operation : SyncOperation} {input : SyncOperationInput}
    (move : operation.kind = .move) :
    Ends (Effects db input.logicalId) (fun _ => True)
      (applyMove db operation input (db.item? input.logicalId)) := by
  unfold applyMove
  split
  · rename_i item relativePath existing hasPath
    have moved (asset : Option Asset) : Effects db input.logicalId
        (db.updateItem item.id fun item =>
          { item with relativePath, revision := operation.revision.getD "" },
          { operation with payload := operationPayload input asset }) := by
      have path : (operationPayload input asset).relativePath = some relativePath := by
        cases asset <;> exact hasPath
      refine (shown_updateItem (fun item =>
        { item with relativePath, revision := operation.revision.getD "" }) existing
        fun _ => ⟨rfl, rfl⟩).trans ?_
      simp only [SyncDb.shown, existing, SyncOperation.effect, move, path, Option.map_some,
        Option.getD_some]
      rfl
    split_ifs
    · trivial
    · split
      · exact moved none
      · split
        · trivial
        · exact moved _
  · trivial

theorem applyDelete_effects {db : SyncDb} {operation : SyncOperation} {input : SyncOperationInput}
    (fresh : FreshIds) (now : Timestamp) (delete : operation.kind = .delete)
    (present : db.item? input.logicalId ≠ none) :
    Ends (Effects db input.logicalId) (fun _ => True)
      (applyDelete db operation input (db.item? input.logicalId) fresh now) := by
  unfold applyDelete
  cases existing : db.item? input.logicalId with
  | none => exact absurd existing present
  | some item =>
    have deletes (current : SyncDb) (items : current.items = db.items) (root : current.root = db.root)
        (payload : Payload) : Effects db input.logicalId
          (current.updateItem item.id fun item =>
            { item with deletedAt := some now, revision := operation.revision.getD "" },
            { operation with payload }) := by
      have same := item?_congr (congrArg SyncRoot.id root) items input.logicalId
      refine (shown_updateItem (fun item =>
        { item with deletedAt := some now, revision := operation.revision.getD "" })
        (same.trans existing) fun _ => ⟨rfl, rfl⟩).trans ?_
      simp only [SyncDb.shown, existing, SyncOperation.effect, delete, Option.map_some,
        Option.getD_some]
      rfl
    dsimp only
    split
    · exact deletes db rfl rfl _
    · split
      · trivial
      · rename_i asset _
        refine Ends.bind ((trashAsset_items db asset.id _ now).and
          (trashAsset_keeps (.refl db) asset.id _ now)).values ?_
        rintro after ⟨items, journal⟩
        exact deletes after items journal.root _

theorem applyItemOperation_effects {db : SyncDb} {operation : SyncOperation}
    {input : SyncOperationInput} (same : For operation input) (fresh : FreshIds) (now : Timestamp)
    (deletes : input.kind = .delete → db.item? input.logicalId ≠ none) :
    Ends (Effects db input.logicalId) (fun _ => True)
      (applyItemOperation db operation input (db.item? input.logicalId) fresh now) := by
  unfold applyItemOperation
  split
  · rename_i upsert
    exact applyUpsert_effects fresh now (same.kind.trans upsert)
  · rename_i move
    exact applyMove_effects (same.kind.trans move)
  · rename_i delete
    exact applyDelete_effects fresh now (same.kind.trans delete) (deletes delete)

/-- Every item shows what its applied operations lead to. -/
def Projected (db : SyncDb) : Prop := ∀ logicalId, db.shown logicalId = db.replayed logicalId

theorem effective_nodup {db : SyncDb} (keys : (db.operations.map SyncOperation.id).Nodup) :
    db.effective.Nodup :=
  keys.of_map.filter _

theorem shown_congr {db after : SyncDb} {logicalId : UUID}
    (same : after.item? logicalId = db.item? logicalId) : after.shown logicalId = db.shown logicalId :=
  congrArg (Option.map SyncItem.state) same

theorem Projected.same {db after : SyncDb} (projected : Projected db) (same : SameItems db after)
    (effective : after.effective = db.effective) : Projected after := by
  intro logicalId
  rw [shown_congr (same.item? logicalId), projected logicalId]
  unfold SyncDb.replayed SyncDb.appliedTo
  rw [effective]

/-- An operation that takes effect beyond the others is replayed after them. -/
theorem TakesEffect.projected {db after : SyncDb} {operation : SyncOperation} {cursor cursor' : Nat}
    (effect : TakesEffect db after operation) (issued : Issued db.root.id db.operations cursor)
    (issued' : Issued after.root.id after.operations cursor') (projected : Projected db)
    (own : after.shown operation.logicalId = operation.effect (db.shown operation.logicalId)) :
    Projected after := by
  intro logicalId
  have old := effective_nodup issued.keys
  have new := effective_nodup issued'.keys
  have distinct := effective_distinct issued'
  by_cases same : operation.logicalId = logicalId
  · subst same
    have adds : Adds (db.appliedTo operation.logicalId) (after.appliedTo operation.logicalId) operation :=
      effect.adds.filter (decide_eq_true rfl)
    have replayed : after.replayed operation.logicalId =
        operation.effect (db.replayed operation.logicalId) := by
      refine adds.replayed (fun other member => ?_) (old.filter _) (new.filter _) ?_
      · exact effect.beyond other (List.mem_filter.mp member).1
      · exact fun a here b there => distinct a (List.mem_filter.mp here).1 b (List.mem_filter.mp there).1
    rw [own, replayed, projected operation.logicalId]
  · rw [shown_congr (effect.others logicalId (Ne.symm same)), projected logicalId]
    exact (effect.adds.replayed_other (decide_eq_false same) old new distinct).symm

section Turns

variable {b after : Batch} {clientId : String} {now : Timestamp} {input : SyncOperationInput}
  {fresh : FreshIds} {operation : SyncOperation}

/-- An operation that a turn applies has its effect on the item. -/
theorem applyOne_effects (new : duplicate? b.db clientId input = none)
    (deletes : input.kind = .delete → b.db.item? input.logicalId ≠ none)
    (result : applyOne clientId now b (input, fresh) = .ok after)
    (rows : after.db.operations = b.db.operations ++ [operation]) (applied : operation.status = .applied) :
    after.db.shown input.logicalId = operation.effect (b.db.shown input.logicalId) := by
  cases applyOne_outcome new result with
  | applied db row agreed once recorded =>
    have effects := (applyItemOperation_effects ⟨rfl, rfl⟩ fresh now deletes).value once
    obtain ⟨journal, _⟩ := (applyItemOperation_applied ..).value once
    obtain ⟨_, rfl⟩ := recordOperation_ok_iff.mp recorded
    have same : db.operations ++ [row] = b.db.operations ++ [operation] := rows
    rw [journal.operations] at same
    rw [← List.singleton_inj.mp (List.append_cancel_left same)]
    exact effects
  | refused kind cause recorded =>
    obtain ⟨_, _, rfl⟩ := recordConflict_ok_iff.mp recorded
    have same := List.singleton_inj.mp (List.append_cancel_left rows)
    rw [← same] at applied
    contradiction

/-- A delete that is not recorded yet names an item of the root. -/
def NamesItem (clientId : String) (b : Batch) (entry : SyncOperationInput × FreshIds) : Prop :=
  duplicate? b.db clientId entry.1 = none → entry.1.kind = .delete →
    b.db.item? entry.1.logicalId ≠ none

instance (b : Batch) : DecidablePred (NamesItem clientId b) := fun _ =>
  inferInstanceAs (Decidable (_ = none → _ = _ → _ ≠ none))

/-- The loop of `apply_operations` as steps of its batch. -/
def turn (clientId : String) (now : Timestamp) (b : Batch) (entry : SyncOperationInput × FreshIds) :
    Option Batch :=
  (applyOne clientId now b entry).toOption

theorem applyAll_run {entries : List (SyncOperationInput × FreshIds)} :
    applyAll clientId now b entries = .ok after ↔ run (turn clientId now) b entries = some after := by
  induction entries generalizing b with
  | nil =>
    rw [run_nil, applyAll]
    exact ⟨fun same => congrArg some (Except.ok.inj same), fun same => congrArg Except.ok (Option.some.inj same)⟩
  | cons entry rest ih =>
    rw [run_cons_iff, applyAll, bind_ok_iff]
    refine exists_congr fun middle => and_congr ?_ ih
    exact toOption_some_iff.symm

/-- A batch whose items are the projection of its journal. -/
structure Kept (b : Batch) : Prop where
  mirrored : Mirrored b.db b.cursor
  projected : Projected b.db

theorem turn_kept {entry : SyncOperationInput × FreshIds} (kept : Kept b)
    (names : NamesItem clientId b entry) (stepped : turn clientId now b entry = some after) :
    Kept after := by
  have result := toOption_some_iff.mp stepped
  obtain ⟨input, fresh⟩ := entry
  rcases applyOne_cases result with ⟨duplicate, _, rfl⟩ | ⟨new, _⟩
  · exact ⟨kept.mirrored, kept.projected⟩
  · have deletes := names new
    obtain ⟨operation, turn⟩ := applyOne_turn kept.mirrored deletes new result
    have mirrored := turn.mirrored kept.mirrored deletes
    refine ⟨mirrored, ?_⟩
    by_cases applied : operation.status = .applied
    · have own := applyOne_effects new deletes result turn.rows applied
      rw [← turn.logicalId] at own
      exact (turn.effect kept.mirrored rfl applied).projected kept.mirrored.issued mirrored.issued
        kept.projected own
    · obtain ⟨items, _⟩ := turn.refused applied
      exact kept.projected.same ⟨congrArg SyncRoot.id turn.root, items, turn.content⟩ (turn.same applied)

end Turns

section Calls

variable {db after : SyncDb} {clientId : String} {fresh : FreshIds} {now : Timestamp}

/-- What the calls on a root keep. -/
structure Refined (db : SyncDb) : Prop where
  mirrored : Mirrored db db.root.cursor
  projected : Projected db

theorem applyOperations_refined {b : Batch} {entries : List (SyncOperationInput × FreshIds)}
    (refined : Refined db)
    (names : Along (turn clientId now) (NamesItem clientId) ⟨db.root.cursor, db, [], []⟩ entries)
    (result : applyOperations db db.root.cursor clientId entries now = .ok b) : Refined b.db := by
  obtain ⟨final, root, applied, rfl, rootId, cursor⟩ := applyOperations_loop result
  have kept : Kept final :=
    invariant (fun _ _ _ kept names stepped => turn_kept kept names stepped)
      ⟨refined.mirrored, refined.projected⟩ names (applyAll_run.mp applied)
  have same : final.db.root = db.root := (applyAll_appends applied).root
  have beside : SameItems final.db { final.db with root } :=
    ⟨rootId.trans (congrArg SyncRoot.id same.symm), rfl, .refl _⟩
  have stored : root.cursor = final.cursor := by
    rw [cursor]
    unfold writeColumn
    split
    · rename_i unchanged
      exact unchanged.symm
    · rfl
  refine ⟨?_, kept.projected.same beside ?_⟩
  · exact stored ▸ kept.mirrored.beside beside rfl rfl kept.mirrored.assetIds
  · unfold SyncDb.effective
    dsimp only
    rw [beside.rootId]

/-- The operation that is kept local has its effect on the item, whose new revision it shows beside. -/
theorem KeptLocal.effects {operation : SyncOperation} {input : SyncOperationInput} {applied : SyncDb}
    {payload : Payload} {id : UUID} (kept : KeptLocal db operation fresh now input applied after payload)
    (mirrored : Mirrored db db.root.cursor) (found : db.operation? id = some operation) :
    after.shown operation.logicalId =
      (reissue db operation payload).effect (db.shown operation.logicalId) := by
  obtain ⟨member, _, root⟩ := operation?_found found
  have same := storedInput_for kept.stored
  have deletes : input.kind = .delete → db.item? input.logicalId ≠ none := fun delete => by
    rw [← same.logicalId]
    exact mirrored.deletes operation member root (same.kind.trans delete)
  have once := kept.once
  rw [same.logicalId] at once ⊢
  have effects := (applyItemOperation_effects same fresh now deletes).value once
  have stamped : after.item? input.logicalId = (applied.stampItem input.logicalId
      (nextRevision (db.root.cursor + 1) operation.operationId)).item? input.logicalId := by
    refine item?_congr ?_ (same.logicalId ▸ kept.items) input.logicalId
    rw [kept.root, (SameJournal.stampItem applied _ _).root, kept.journal.root]
  refine Eq.trans ?_ effects
  unfold SyncDb.shown
  rw [stamped, item?_stampItem, Option.map_map]
  rfl

theorem resolveConflict_refined {loaded : SyncConflict} {choice : Choice} (refined : Refined db)
    (current : Current db loaded) (result : resolveConflict db loaded choice fresh now = .ok after) :
    Refined after := by
  have mirrored := (resolveConflict_mirrored refined.mirrored current result).1
  refine ⟨mirrored, ?_⟩
  obtain ⟨row, present, _, status, about⟩ := current.row
  rcases resolveConflict_cases result with ⟨_, rfl⟩ | ⟨unresolved, operation, settled, found, chosen, rfl⟩
  · exact refined.projected
  obtain ⟨member, named, root⟩ := operation?_found found
  have refused := refined.mirrored.undecided.refused row present (status.trans unresolved) operation
    member (named.trans about.symm)
  rcases chosen with ⟨_, once⟩ | ⟨_, rfl⟩
  · obtain ⟨⟨input, applied, payload, kept⟩, _⟩ := keepLocal_cases once
    have settledProjected : Projected settled :=
      (kept.effect refined.mirrored found refused).projected refined.mirrored.issued
        (keepLocal_advances refined.mirrored.issued found once).1 refined.projected
        (kept.effects refined.mirrored found)
    exact settledProjected
  · have mine : row.localOperationId = operation.id := about.trans named.symm
    cases (keepRemote_mirrored now refined.mirrored found refused present mine).2 with
    | rejected items effective => exact refined.projected.same ⟨items.rootId, items.items, items.content⟩ effective

end Calls

/-- One call after the other, each in a transaction of its own; between two of them the catalogue
may gain assets and change their state. -/
inductive Turned where
  | call (call : Call) (fresh : FreshIds) (now : Timestamp)
  | catalogue (assets : List Asset) (retentionDays : Nat)

/-- A call that raises leaves the committed rows. -/
def SyncDb.call (db : SyncDb) (call : Call) (fresh : FreshIds) (now : Timestamp) : SyncDb :=
  match call.load db with
  | none => db
  | some request => (request.commit db fresh now).toOption.getD db

instance (a b : List Asset) : Decidable (KeepsContent a b) :=
  inferInstanceAs (Decidable (∀ asset ∈ a, ∃ row ∈ b, _))

def SyncDb.turned (db : SyncDb) : Turned → Option SyncDb
  | .call call fresh now => some (db.call call fresh now)
  | .catalogue assets retentionDays =>
    if (assets.map Asset.id).Nodup ∧ KeepsContent db.assets assets then
      some { db with assets, retentionDays }
    else none

/-- Every delete that a push records names an item, when its turn in the batch comes. -/
def DeletesKnown (db : SyncDb) : Turned → Prop
  | .call (.push clientId inputs) _ now =>
    Along (turn clientId now) (NamesItem clientId) ⟨db.root.cursor, db, [], []⟩ inputs
  | .call (.resolve _ _) _ _ | .catalogue _ _ => True

instance (db : SyncDb) : DecidablePred (DeletesKnown db) := fun label => by
  unfold DeletesKnown
  split <;> infer_instance

/-- The items of a root are the replay of its journal. -/
structure Refines (db : SyncDb) : Prop where
  cursors : ∀ a ∈ db.operations, ∀ b ∈ db.operations, a.rootId = db.root.id → b.rootId = db.root.id →
    a.cursor = b.cursor → a = b
  bounded : ∀ operation ∈ db.operations, operation.rootId = db.root.id →
    operation.cursor ≤ db.root.cursor
  revisions : ∀ a ∈ db.effective, ∀ b ∈ db.effective, a.revision = b.revision → a = b
  items : ∀ logicalId, db.item? logicalId ≠ none ↔
    ∃ operation ∈ db.effective, operation.logicalId = logicalId
  latest : ∀ logicalId, ∀ item ∈ db.item? logicalId, ∃ operation,
    Standing db logicalId operation ∧ operation.revision = some item.revision
  replayed : ∀ logicalId, db.shown logicalId = db.replayed logicalId

theorem Refined.refines {db : SyncDb} (refined : Refined db) : Refines db where
  cursors := fun _ here _ there left right same =>
    refined.mirrored.issued.unique here there left right same
  bounded := refined.mirrored.issued.bounded
  revisions := fun _ here _ there same => refined.mirrored.revised here there same
  items := by
    intro logicalId
    constructor
    · intro present
      obtain ⟨item, found⟩ := Option.ne_none_iff_exists'.mp present
      obtain ⟨operation, standing⟩ := refined.mirrored.covered logicalId item found
      exact ⟨operation, standing.member, standing.named⟩
    · rintro ⟨operation, member, rfl⟩
      exact refined.mirrored.found member
  latest := by
    intro logicalId item found
    obtain ⟨operation, standing⟩ := refined.mirrored.covered logicalId item found
    obtain ⟨shown, there, revision, _⟩ := refined.mirrored.shown logicalId operation standing
    cases Option.some.inj (there.symm.trans found)
    exact ⟨operation, standing, revision⟩
  replayed := refined.projected

/-- A root that nobody has called on; the rows of other roots stand beside it. -/
structure Untouched (db : SyncDb) : Prop where
  operations : ∀ operation ∈ db.operations, operation.rootId ≠ db.root.id
  items : ∀ item ∈ db.items, item.rootId ≠ db.root.id
  keys : (db.operations.map SyncOperation.id).Nodup
  itemIds : (db.items.map SyncItem.id).Nodup
  assetIds : (db.assets.map Asset.id).Nodup
  undecided : Undecided db

theorem Untouched.refined {db : SyncDb} (untouched : Untouched db) : Refined db := by
  have none : db.effective = [] := List.filter_eq_nil_iff.mpr fun operation member holds =>
    untouched.operations operation member (of_decide_eq_true holds).1
  have missing (logicalId : UUID) : db.item? logicalId = .none :=
    List.find?_eq_none.mpr fun item member found =>
      untouched.items item member (of_decide_eq_true found).1
  refine ⟨⟨⟨untouched.keys, fun a here _ _ root => ?_, fun a here root => ?_⟩, fun a here root => ?_,
    untouched.itemIds, untouched.assetIds, fun _ operation standing => ?_, fun _ item found => ?_,
    fun a here root => ?_, untouched.undecided⟩, fun logicalId => ?_⟩
  · exact absurd root (untouched.operations a here)
  · exact absurd root (untouched.operations a here)
  · exact absurd root (untouched.operations a here)
  · have member := standing.member
    rw [none] at member
    exact absurd member List.not_mem_nil
  · exact absurd ((missing _).symm.trans found) nofun
  · exact absurd root (untouched.operations a here)
  · unfold SyncDb.shown SyncDb.replayed SyncDb.appliedTo
    rw [missing logicalId, none]
    rfl

theorem conflict?_current {db : SyncDb} {id : UUID} {conflict : SyncConflict}
    (found : db.conflict? id = some conflict) : Current db conflict :=
  ⟨conflict, List.mem_of_find?_eq_some found, rfl, rfl, rfl⟩

theorem turned_refined {db after : SyncDb} {label : Turned} (refined : Refined db)
    (known : DeletesKnown db label) (stepped : db.turned label = some after) : Refined after := by
  cases label with
  | catalogue assets retentionDays =>
    simp only [SyncDb.turned] at stepped
    split_ifs at stepped with holds
    cases stepped
    have beside : SameItems db { db with assets, retentionDays } := ⟨rfl, rfl, holds.2⟩
    exact ⟨refined.mirrored.beside beside rfl rfl holds.1, refined.projected.same beside rfl⟩
  | call call fresh now =>
    cases stepped
    unfold SyncDb.call
    cases loaded : call.load db with
    | none => exact refined
    | some request =>
      dsimp only
      cases result : request.commit db fresh now with
      | error failure => exact refined
      | ok rows =>
        cases call with
        | push clientId inputs =>
          cases loaded
          obtain ⟨b, applied, rfl⟩ := map_ok_iff.mp result
          exact applyOperations_refined refined known applied
        | resolve id choice =>
          obtain ⟨conflict, found, rfl⟩ := Option.map_eq_some_iff.mp loaded
          exact resolveConflict_refined refined (conflict?_current found) result

/-- In every sequence of calls whose deletes are of items that the root has, the items are the
replay of the journal after each call. -/
theorem sequential_calls_refine_journal {db after : SyncDb} {labels : List Turned}
    (untouched : Untouched db) (reached : run SyncDb.turned db labels = some after)
    (known : Along SyncDb.turned DeletesKnown db labels) : Refines after :=
  (invariant (fun _ _ _ refined known stepped => turned_refined refined known stepped)
    untouched.refined known reached).refines

def savedFile : Asset where
  id := 4
  userId := 1
  logicalId := 4
  version := 1
  lifecycleState := .active
  supersededAt := none
  trashedAt := none
  purgeAfter := none
  deletedBy := none
  originalPath := "4.dbm"
  checksum := "4"
  storageChecksum := "4"
  encryptionVersion := 1
  fileSize := 1
  thumbnailPath := none
  previewPath := none
  storageSource := .managed
  originalFilename := some "a.txt"

/-- An operation on the one file; every number is derived from one. -/
def fileInput (number : Nat) (kind : OperationKind) (baseRevision : Option String)
    (relativePath : String) : SyncOperationInput × FreshIds :=
  ({ operationId := number, clientSequence := number, kind, logicalId := 1, baseRevision
     relativePath := some relativePath, assetId := if kind = .upsert then some 4 else none },
    { operation := 10 * number, item := 10 * number + 1, asset := 10 * number + 2
      conflict := 10 * number + 3 })

/-- A file is uploaded, moved, moved again from a stale base and deleted; the stale move is kept. -/
def fileHistory : List Turned :=
  [.catalogue [savedFile] 30,
    .call (.push "desk" [fileInput 1 .upsert none "a.txt",
      fileInput 2 .move (some "r1-000000000000") "b.txt", fileInput 3 .move none "c.txt"])
      (removal 1).2 5,
    .call (.resolve 33 .keepLocal) (removal 4).2 6,
    .call (.push "desk" [fileInput 3 .move none "c.txt",
      fileInput 5 .delete (some "r4-000000000000") "c.txt"]) (removal 6).2 7]

theorem sequential_calls_refine_journal_file :
    ∃ after, run SyncDb.turned registeredRoot fileHistory = some after ∧
      after.replayed 1 = some ⟨"c.txt", true, some 4⟩ ∧ Refines after := by
  have finishes : (run SyncDb.turned registeredRoot fileHistory).any fun after =>
      after.replayed 1 = some ⟨"c.txt", true, some 4⟩ := by decide
  obtain ⟨after, reached, replayed⟩ := (Option.any_eq_true _ _).mp finishes
  have untouched : Untouched registeredRoot :=
    ⟨fun _ member => absurd member List.not_mem_nil, fun _ member => absurd member List.not_mem_nil,
      List.nodup_nil, List.nodup_nil, List.nodup_nil,
      ⟨fun _ member => absurd member List.not_mem_nil, fun _ member => absurd member List.not_mem_nil,
        fun _ member => absurd member List.not_mem_nil⟩⟩
  exact ⟨after, reached, of_decide_eq_true replayed,
    sequential_calls_refine_journal untouched reached (by decide)⟩

/-- A delete of a file that the root does not know is applied, and leaves an item that is live. -/
theorem unknown_delete_leaves_live_item :
    ∃ after, run SyncDb.turned registeredRoot [.call (.push "desk" [removal 1]) (removal 2).2 5] =
        some after ∧
      after.replayed 1 = some ⟨"a.txt", true, none⟩ ∧ after.shown 1 = some ⟨"a.txt", false, none⟩ ∧
      ¬ Refines after := by
  have violated : (run SyncDb.turned registeredRoot
      [.call (.push "desk" [removal 1]) (removal 2).2 5]).any fun after =>
      after.replayed 1 = some ⟨"a.txt", true, none⟩ ∧
        after.shown 1 = some ⟨"a.txt", false, none⟩ := by decide
  obtain ⟨after, reached, violated⟩ := (Option.any_eq_true _ _).mp violated
  obtain ⟨replayed, shown⟩ := of_decide_eq_true violated
  refine ⟨after, reached, replayed, shown, fun refines => ?_⟩
  have same := refines.replayed 1
  rw [replayed, shown] at same
  exact absurd same (by decide)

end Drivebound.Sync
