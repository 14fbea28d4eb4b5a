import Drivebound.Core.Latest
import Drivebound.Sync.Mirror
import Drivebound.Sync.Resolution

/-! The standing operation of an item: of those that are applied, the one with the greatest
cursor. Every item shows its standing operation, after each turn of a push and after each
resolution, whichever choice was made. -/
namespace Drivebound.Sync
open Checked Latest

namespace SyncDb

/-- The applied operations of the root. -/
def effective (db : SyncDb) : List SyncOperation :=
  db.operations.filter fun operation => operation.rootId = db.root.id ∧ operation.status = .applied

end SyncDb

abbrev Standing (db : SyncDb) : UUID → SyncOperation → Prop :=
  Last SyncOperation.logicalId SyncOperation.cursor db.effective

theorem mem_effective {db : SyncDb} {operation : SyncOperation} : operation ∈ db.effective ↔
    operation ∈ db.operations ∧ operation.rootId = db.root.id ∧ operation.status = .applied := by
  unfold SyncDb.effective
  rw [List.mem_filter, decide_eq_true_eq]

theorem standing_congr {db after : SyncDb} (same : after.effective = db.effective) :
    Standing after = Standing db := by
  unfold Standing
  rw [same]

/-- No conflict that is open is about an operation that is applied. -/
structure Undecided (db : SyncDb) : Prop where
  named : ∀ conflict ∈ db.conflicts, ∃ operation ∈ db.operations,
    operation.id = conflict.localOperationId
  single : ∀ a ∈ db.conflicts, ∀ b ∈ db.conflicts, a.localOperationId = b.localOperationId →
    a.id = b.id
  refused : ∀ conflict ∈ db.conflicts, conflict.status = .unresolved → ∀ operation ∈ db.operations,
    operation.id = conflict.localOperationId → operation.status ≠ .applied

/-- The rows of a root whose cursor has come to `cursor`. -/
structure Mirrored (db : SyncDb) (cursor : Nat) : Prop where
  issued : Issued db.root.id db.operations cursor
  stamped : ∀ operation ∈ db.operations, operation.rootId = db.root.id →
    operation.revision = some (nextRevision operation.cursor operation.operationId)
  itemIds : (db.items.map SyncItem.id).Nodup
  assetIds : (db.assets.map Asset.id).Nodup
  shown : ∀ logicalId operation, Standing db logicalId operation → ∃ item,
    db.item? logicalId = some item ∧ operation.revision = some item.revision ∧ Shows db operation item
  covered : ∀ logicalId item, db.item? logicalId = some item → ∃ operation,
    Standing db logicalId operation
  deletes : ∀ operation ∈ db.operations, operation.rootId = db.root.id → operation.kind = .delete →
    db.item? operation.logicalId ≠ none
  undecided : Undecided db

theorem effective_distinct {db : SyncDb} {cursor : Nat}
    (issued : Issued db.root.id db.operations cursor) : ∀ a ∈ db.effective, ∀ b ∈ db.effective,
      a.cursor = b.cursor → a = b := fun _ here _ there same =>
  issued.unique (mem_effective.mp here).1 (mem_effective.mp there).1
    (mem_effective.mp here).2.1 (mem_effective.mp there).2.1 same

namespace Mirrored

variable {db : SyncDb} {cursor : Nat} {logicalId : UUID} {a b operation : SyncOperation}

/-- A revision is given to one operation. -/
theorem revised (mirrored : Mirrored db cursor) (first : a ∈ db.effective) (second : b ∈ db.effective)
    (same : a.revision = b.revision) : a = b := by
  have one := mirrored.stamped a (mem_effective.mp first).1 (mem_effective.mp first).2.1
  have two := mirrored.stamped b (mem_effective.mp second).1 (mem_effective.mp second).2.1
  have equal := Option.some.inj (one.symm.trans (same.trans two))
  exact effective_distinct mirrored.issued a first b second (nextRevision_cursor equal)

/-- An operation in effect has its item. -/
theorem found (mirrored : Mirrored db cursor) (member : operation ∈ db.effective) :
    db.item? operation.logicalId ≠ none := by
  obtain ⟨standing, stands⟩ : ∃ standing, Standing db operation.logicalId standing :=
    exists_last member rfl
  obtain ⟨item, there, _⟩ := mirrored.shown _ standing stands
  rw [there]
  exact Option.some_ne_none item

theorem linked (mirrored : Mirrored db cursor) (input : SyncOperationInput)
    (deletes : input.kind = .delete → db.item? input.logicalId ≠ none) : Linked db input := by
  refine ⟨fun item found live => ?_, deletes⟩
  obtain ⟨operation, standing⟩ := mirrored.covered _ item found
  obtain ⟨shown, there, _, shows⟩ := mirrored.shown _ operation standing
  cases Option.some.inj (there.symm.trans found)
  by_cases delete : operation.kind = .delete
  · exact absurd live (shows.deleted delete)
  · obtain ⟨_, _, asset, _, same, _⟩ := shows.live delete
    rw [same]
    exact Option.some_ne_none _

end Mirrored

/-- The root and the items stay, and the assets keep what they contain. -/
structure SameItems (db after : SyncDb) : Prop where
  rootId : after.root.id = db.root.id
  items : after.items = db.items
  content : KeepsContent db.assets after.assets

namespace SameItems

variable {db after : SyncDb} {operation : SyncOperation} {item : SyncItem}

theorem item? (same : SameItems db after) (logicalId : UUID) :
    after.item? logicalId = db.item? logicalId := item?_congr same.rootId same.items logicalId

end SameItems

theorem Shows.kept {db after : SyncDb} {operation : SyncOperation} {item : SyncItem}
    (shows : Shows db operation item) (rootId : after.root.id = db.root.id)
    (content : KeepsContent db.assets after.assets) : Shows after operation item := by
  refine ⟨shows.rootId.trans rootId.symm, shows.logicalId, shows.deleted, fun stays => ?_⟩
  obtain ⟨live, path, has⟩ := shows.live stays
  exact ⟨live, path, has.kept content⟩

/-- Rows that change beside the journal and the items. -/
theorem Mirrored.beside {db after : SyncDb} {cursor : Nat} (mirrored : Mirrored db cursor)
    (same : SameItems db after) (operations : after.operations = db.operations)
    (conflicts : after.conflicts = db.conflicts) (assetIds : (after.assets.map Asset.id).Nodup) :
    Mirrored after cursor := by
  have effective : after.effective = db.effective := by
    unfold SyncDb.effective
    rw [same.rootId, operations]
  refine ⟨?_, ?_, ?_, assetIds, fun logicalId operation standing => ?_, fun logicalId item found => ?_,
    ?_, ?_⟩
  · rw [same.rootId, operations]
    exact mirrored.issued
  · rw [same.rootId, operations]
    exact mirrored.stamped
  · rw [same.items]
    exact mirrored.itemIds
  · rw [standing_congr effective] at standing
    obtain ⟨item, found, revision, shows⟩ := mirrored.shown logicalId operation standing
    exact ⟨item, (same.item? logicalId).trans found, revision, shows.kept same.rootId same.content⟩
  · rw [standing_congr effective]
    exact mirrored.covered logicalId item ((same.item? logicalId).symm.trans found)
  · rw [same.rootId, operations]
    intro operation member root delete
    rw [same.item?]
    exact mirrored.deletes operation member root delete
  · exact ⟨operations ▸ conflicts ▸ mirrored.undecided.named, conflicts ▸ mirrored.undecided.single,
      operations ▸ conflicts ▸ mirrored.undecided.refused⟩

/-- Operations come into effect, and none ends; items stay. -/
structure Grows (db after : SyncDb) (new : SyncOperation → Prop) : Prop where
  rootId : after.root.id = db.root.id
  kept : ∀ operation ∈ db.effective, operation ∈ after.effective
  new : ∀ operation ∈ after.effective, operation ∈ db.effective ∨ new operation
  finds : ∀ logicalId, db.item? logicalId ≠ none → after.item? logicalId ≠ none
  content : KeepsContent db.assets after.assets

namespace Grows

variable {a b c : SyncDb} {new : SyncOperation → Prop}

theorem trans (first : Grows a b new) (second : Grows b c new) : Grows a c new := by
  refine ⟨second.rootId.trans first.rootId, fun operation member => ?_, fun operation member => ?_,
    fun logicalId found => second.finds logicalId (first.finds logicalId found),
    first.content.trans second.content⟩
  · exact second.kept operation (first.kept operation member)
  · rcases second.new operation member with before | later
    · exact first.new operation before
    · exact .inr later

theorem same (items : SameItems a b) (effective : b.effective = a.effective) : Grows a b new :=
  ⟨items.rootId, fun _ member => effective ▸ member, fun _ member => .inl (effective ▸ member),
    fun logicalId found => by rwa [items.item?], items.content⟩

end Grows

/-- The operation takes effect beyond the others, and its item shows it. -/
structure TakesEffect (db after : SyncDb) (operation : SyncOperation) : Prop where
  rootId : after.root.id = db.root.id
  adds : Adds db.effective after.effective operation
  beyond : ∀ other ∈ db.effective, other.cursor < operation.cursor
  shown : ∃ item, after.item? operation.logicalId = some item ∧
    operation.revision = some item.revision ∧ Shows after operation item
  others : ∀ logicalId ≠ operation.logicalId, after.item? logicalId = db.item? logicalId
  content : KeepsContent db.assets after.assets

namespace TakesEffect

variable {db after : SyncDb} {operation : SyncOperation} {cursor : Nat}

theorem standing (effect : TakesEffect db after operation) :
    Standing after operation.logicalId operation :=
  effect.adds.last fun other member _ => Nat.le_of_lt (effect.beyond other member)

theorem standing_other (effect : TakesEffect db after operation) {logicalId : UUID}
    (different : logicalId ≠ operation.logicalId) (other : SyncOperation) :
    Standing after logicalId other ↔ Standing db logicalId other :=
  effect.adds.last_other different.symm

/-- Every item shows its standing operation again. -/
theorem shows (effect : TakesEffect db after operation) (mirrored : Mirrored db cursor)
    (distinct : ∀ a ∈ after.effective, ∀ b ∈ after.effective, a.cursor = b.cursor → a = b)
    (logicalId : UUID) (other : SyncOperation) (standing : Standing after logicalId other) :
    ∃ item, after.item? logicalId = some item ∧ other.revision = some item.revision ∧
      Shows after other item := by
  by_cases same : logicalId = operation.logicalId
  · subst same
    rw [standing.unique distinct effect.standing]
    exact effect.shown
  · rw [effect.standing_other same] at standing
    obtain ⟨item, found, revision, shows⟩ := mirrored.shown logicalId other standing
    exact ⟨item, (effect.others logicalId same).trans found, revision,
      shows.kept effect.rootId effect.content⟩

theorem covers (effect : TakesEffect db after operation) (mirrored : Mirrored db cursor)
    (logicalId : UUID) (item : SyncItem) (found : after.item? logicalId = some item) :
    ∃ other, Standing after logicalId other := by
  by_cases same : logicalId = operation.logicalId
  · exact ⟨operation, same ▸ effect.standing⟩
  · rw [effect.others logicalId same] at found
    obtain ⟨other, standing⟩ := mirrored.covered logicalId item found
    exact ⟨other, (effect.standing_other same other).mpr standing⟩

theorem finds (effect : TakesEffect db after operation) {logicalId : UUID}
    (found : db.item? logicalId ≠ none) : after.item? logicalId ≠ none := by
  by_cases same : logicalId = operation.logicalId
  · obtain ⟨item, here, _⟩ := effect.shown
    rw [same, here]
    exact Option.some_ne_none item
  · rwa [effect.others logicalId same]

theorem grows (effect : TakesEffect db after operation) {new : SyncOperation → Prop}
    (here : new operation) : Grows db after new := by
  refine ⟨effect.rootId, effect.adds.kept, fun other member => ?_, fun _ found => effect.finds found,
    effect.content⟩
  rcases (effect.adds other).mp member with before | rfl
  · exact .inl before
  · exact .inr here

end TakesEffect

/-- A turn for an operation that is not recorded yet. -/
structure Turn (b after : Batch) (clientId : String) (input : SyncOperationInput) (fresh : FreshIds)
    (operation : SyncOperation) : Prop where
  made : ∃ payload status, operation = { newOperation b clientId input fresh with payload, status }
  rows : after.db.operations = b.db.operations ++ [operation]
  unused : ∀ other ∈ b.db.operations, other.id ≠ operation.id
  answers : after.operations = b.operations ++ [operation]
  cursor : after.cursor = b.cursor + 1
  root : after.db.root = b.db.root
  content : KeepsContent b.db.assets after.db.assets
  itemIds : (b.db.items.map SyncItem.id).Nodup → (after.db.items.map SyncItem.id).Nodup
  assetIds : (b.db.assets.map Asset.id).Nodup → (after.db.assets.map Asset.id).Nodup
  applied : operation.status = .applied →
    baseConflict input (b.db.item? input.logicalId) = none ∧ after.db.conflicts = b.db.conflicts ∧
      Takes b.db after.db input (nextRevision (b.cursor + 1) input.operationId) operation
  path : operation.status = .applied → input.kind ≠ .delete →
    operation.payload.relativePath = input.relativePath
  refused : operation.status ≠ .applied → after.db.items = b.db.items ∧
    ∃ conflict, after.db.conflicts = b.db.conflicts ++ [conflict] ∧
      conflict.localOperationId = operation.id

section Turns

variable {b after : Batch} {clientId : String} {input : SyncOperationInput} {fresh : FreshIds}

theorem recordConflict_turn {db : SyncDb} {item : Option SyncItem} {kind : ConflictKind}
    (result : recordConflict b db (newOperation b clientId input fresh) input item fresh kind =
      .ok after)
    (same : SameJournal b.db db) (items : db.items = b.db.items) (own : OwnAssets b.db db) :
    ∃ operation, Turn b after clientId input fresh operation := by
  obtain ⟨conflicts, added, result⟩ := bind_ok_iff.mp result
  obtain ⟨middle, recorded, finished⟩ := bind_ok_iff.mp result
  obtain ⟨rows, inserted, recorded⟩ := bind_ok_iff.mp recorded
  obtain ⟨rfl, unused⟩ := insertRow_ok inserted
  obtain ⟨rfl, _⟩ := insertRow_ok added
  cases recorded
  cases finished
  refine ⟨_, ⟨⟨_, _, rfl⟩, ?_, ?_, rfl, rfl, same.root, own.content, ?_, own.within.unique, ?_, ?_, ?_⟩⟩
  · simp only [same.operations]
  · intro other member
    exact unused other (same.operations ▸ member)
  · exact fun unique => items ▸ unique
  · exact fun applied => by contradiction
  · exact fun applied => by contradiction
  · refine fun _ => ⟨items, ?_⟩
    simp only [same.conflicts]
    exact ⟨_, rfl, rfl⟩

theorem applyOne_turn {now : Timestamp} {cursor : Nat} (mirrored : Mirrored b.db cursor)
    (deletes : input.kind = .delete → b.db.item? input.logicalId ≠ none)
    (new : duplicate? b.db clientId input = none)
    (result : applyOne clientId now b (input, fresh) = .ok after) :
    ∃ operation, Turn b after clientId input fresh operation := by
  simp only [applyOne, new] at result
  split at result
  · exact recordConflict_turn result (.refl _) rfl (.refl _)
  · rename_i agreed
    have applied := applyItemOperation_applied b.db (newOperation b clientId input fresh) input
      (b.db.item? input.logicalId) fresh now
    have touches := applyItemOperation_touches b.db (newOperation b clientId input fresh) input
      fresh now
    have own := applyItemOperation_own b.db (newOperation b clientId input fresh) input
      (b.db.item? input.logicalId) fresh now
    have same : For (newOperation b clientId input fresh) input := ⟨rfl, rfl⟩
    have takes := applyItemOperation_takes same (mirrored.linked input deletes) fresh now
    split at result
    · rename_i db operation same
      obtain ⟨kept, payload, rfl⟩ := applied.value same
      have took := takes.value same
      obtain ⟨rows, inserted, recorded⟩ := bind_ok_iff.mp result
      obtain ⟨rfl, unused⟩ := insertRow_ok inserted
      cases recorded
      refine ⟨_, ⟨⟨payload, .applied, rfl⟩, ?_, ?_, rfl, rfl, kept.root, (own.value same).content,
        (touches.value same).1.unique, (own.value same).within.unique, ?_,
        fun _ => (touches.value same).2, ?_⟩⟩
      · exact congrArg (· ++ _) kept.operations
      · intro other member
        exact unused other (kept.operations ▸ member)
      · refine fun _ => ⟨agreed, kept.conflicts, ?_⟩
        obtain ⟨item, found, revision, shows⟩ := took.shown
        exact ⟨⟨item, found, revision, shows.rootId, shows.logicalId, shows.deleted, shows.live⟩,
          took.others, took.uploaded, took.moved⟩
      · exact fun refused => absurd rfl refused
    · rename_i message db same
      exact recordConflict_turn result (applied.raised same) (touches.raised same) (own.raised same)
    · contradiction

namespace Turn

variable {operation : SyncOperation} {cursor : Nat}

theorem rootId (turn : Turn b after clientId input fresh operation) :
    operation.rootId = b.db.root.id := by
  obtain ⟨payload, status, rfl⟩ := turn.made
  rfl

theorem takesCursor (turn : Turn b after clientId input fresh operation) :
    operation.cursor = b.cursor + 1 := by
  obtain ⟨payload, status, rfl⟩ := turn.made
  rfl

theorem logicalId (turn : Turn b after clientId input fresh operation) :
    operation.logicalId = input.logicalId := by
  obtain ⟨payload, status, rfl⟩ := turn.made
  rfl

theorem kind (turn : Turn b after clientId input fresh operation) : operation.kind = input.kind := by
  obtain ⟨payload, status, rfl⟩ := turn.made
  rfl

theorem revision (turn : Turn b after clientId input fresh operation) :
    operation.revision = some (nextRevision (b.cursor + 1) input.operationId) := by
  obtain ⟨payload, status, rfl⟩ := turn.made
  rfl

theorem adds (turn : Turn b after clientId input fresh operation)
    (applied : operation.status = .applied) : Adds b.db.effective after.db.effective operation := by
  unfold SyncDb.effective
  rw [turn.rows, turn.root, List.filter_append, List.filter_cons_of_pos, List.filter_nil]
  · exact .append _ _
  · exact decide_eq_true ⟨turn.rootId, applied⟩

theorem same (turn : Turn b after clientId input fresh operation)
    (refused : operation.status ≠ .applied) : after.db.effective = b.db.effective := by
  unfold SyncDb.effective
  rw [turn.rows, turn.root, List.filter_append, List.filter_cons_of_neg, List.filter_nil,
    List.append_nil]
  exact fun holds => refused (of_decide_eq_true holds).2

theorem effect (turn : Turn b after clientId input fresh operation) (mirrored : Mirrored b.db cursor)
    (bounded : cursor = b.cursor) (applied : operation.status = .applied) :
    TakesEffect b.db after.db operation := by
  subst bounded
  obtain ⟨_, _, takes⟩ := turn.applied applied
  obtain ⟨item, found, revision, shows⟩ := takes.shown
  refine ⟨congrArg SyncRoot.id turn.root, turn.adds applied, fun other member => ?_, ⟨item, ?_, ?_, shows⟩,
    fun logicalId different => ?_, turn.content⟩
  · obtain ⟨here, root, _⟩ := mem_effective.mp member
    rw [turn.takesCursor]
    exact Nat.lt_succ_of_le (mirrored.issued.bounded other here root)
  · rw [turn.logicalId]
    exact found
  · rw [turn.revision, revision]
  · exact takes.others mirrored.itemIds logicalId (turn.logicalId ▸ different)

theorem undecided (turn : Turn b after clientId input fresh operation)
    (undecided : Undecided b.db) : Undecided after.db := by
  have kept : ∀ conflict ∈ b.db.conflicts, ∃ other ∈ after.db.operations,
      other.id = conflict.localOperationId := by
    intro conflict member
    obtain ⟨other, here, same⟩ := undecided.named conflict member
    exact ⟨other, turn.rows ▸ List.mem_append_left _ here, same⟩
  -- No conflict that was there before is about the new operation.
  have apart : ∀ conflict ∈ b.db.conflicts, conflict.localOperationId ≠ operation.id := by
    intro conflict member same
    obtain ⟨other, here, named⟩ := undecided.named conflict member
    exact turn.unused other here (named.trans same)
  have refused : ∀ conflict ∈ b.db.conflicts, conflict.status = .unresolved →
      ∀ other ∈ after.db.operations, other.id = conflict.localOperationId →
        other.status ≠ .applied := by
    intro conflict member unresolved other here named
    rw [turn.rows] at here
    rcases List.mem_append.mp here with before | new
    · exact undecided.refused conflict member unresolved other before named
    · rw [List.mem_singleton.mp new] at named
      exact absurd named.symm (apart conflict member)
  by_cases applied : operation.status = .applied
  · obtain ⟨_, conflicts, _⟩ := turn.applied applied
    exact ⟨conflicts ▸ kept, conflicts ▸ undecided.single, conflicts ▸ refused⟩
  · obtain ⟨_, conflict, conflicts, named⟩ := turn.refused applied
    refine ⟨fun row member => ?_, fun first here second there same => ?_,
      fun row member unresolved => ?_⟩
    · rw [conflicts] at member
      rcases List.mem_append.mp member with before | new
      · exact kept row before
      · rw [List.mem_singleton.mp new, named]
        exact ⟨operation, turn.rows ▸ List.mem_append_right _ List.mem_cons_self, rfl⟩
    · rw [conflicts] at here there
      rcases List.mem_append.mp here with here | here <;> rcases List.mem_append.mp there with there | there
      · exact undecided.single first here second there same
      · rw [List.mem_singleton.mp there, named] at same
        exact absurd same (apart first here)
      · rw [List.mem_singleton.mp here, named] at same
        exact absurd same.symm (apart second there)
      · rw [List.mem_singleton.mp here, List.mem_singleton.mp there]
    · rw [conflicts] at member
      rcases List.mem_append.mp member with before | new
      · exact refused row before unresolved
      · rw [List.mem_singleton.mp new, named]
        intro other here same
        rw [turn.rows] at here
        rcases List.mem_append.mp here with before | new
        · exact absurd same (turn.unused other before)
        · rwa [List.mem_singleton.mp new]

/-- A turn keeps every item at its standing operation. -/
theorem mirrored (turn : Turn b after clientId input fresh operation)
    (mirrored : Mirrored b.db b.cursor)
    (deletes : input.kind = .delete → b.db.item? input.logicalId ≠ none) :
    Mirrored after.db after.cursor := by
  have issued : Issued after.db.root.id after.db.operations after.cursor := by
    rw [turn.root, turn.rows, turn.cursor]
    exact mirrored.issued.append turn.unused turn.takesCursor
  have stamped : ∀ other ∈ after.db.operations, other.rootId = after.db.root.id →
      other.revision = some (nextRevision other.cursor other.operationId) := by
    intro other member root
    rw [turn.rows] at member
    rw [turn.root] at root
    rcases List.mem_append.mp member with before | new
    · exact mirrored.stamped other before root
    · obtain ⟨payload, status, rfl⟩ := turn.made
      rw [List.mem_singleton.mp new]
      rfl
  have rest (finds : ∀ logicalId, b.db.item? logicalId ≠ none → after.db.item? logicalId ≠ none) :
      ∀ other ∈ after.db.operations, other.rootId = after.db.root.id → other.kind = .delete →
        after.db.item? other.logicalId ≠ none := by
    intro other member root delete
    rw [turn.rows] at member
    rw [turn.root] at root
    rcases List.mem_append.mp member with before | new
    · exact finds _ (mirrored.deletes other before root delete)
    · rw [List.mem_singleton.mp new] at delete ⊢
      rw [turn.logicalId]
      exact finds _ (deletes (turn.kind.symm.trans delete))
  by_cases applied : operation.status = .applied
  · have effect := turn.effect mirrored rfl applied
    exact ⟨issued, stamped, turn.itemIds mirrored.itemIds, turn.assetIds mirrored.assetIds,
      effect.shows mirrored (effective_distinct issued), effect.covers mirrored,
      rest fun _ found => effect.finds found, turn.undecided mirrored.undecided⟩
  · obtain ⟨items, _⟩ := turn.refused applied
    have same : SameItems b.db after.db := ⟨congrArg SyncRoot.id turn.root, items, turn.content⟩
    have standing := standing_congr (turn.same applied)
    refine ⟨issued, stamped, turn.itemIds mirrored.itemIds, turn.assetIds mirrored.assetIds,
      fun logicalId other stands => ?_, fun logicalId item found => ?_,
      rest fun logicalId found => ?_, turn.undecided mirrored.undecided⟩
    · rw [standing] at stands
      obtain ⟨item, found, revision, shows⟩ := mirrored.shown logicalId other stands
      exact ⟨item, (same.item? logicalId).trans found, revision, shows.kept same.rootId same.content⟩
    · rw [standing]
      exact mirrored.covered logicalId item ((same.item? logicalId).symm.trans found)
    · rwa [same.item?]

theorem grows (turn : Turn b after clientId input fresh operation) (mirrored : Mirrored b.db b.cursor)
    {new : SyncOperation → Prop} (here : new operation) : Grows b.db after.db new := by
  by_cases applied : operation.status = .applied
  · exact (turn.effect mirrored rfl applied).grows here
  · obtain ⟨items, _⟩ := turn.refused applied
    exact .same ⟨congrArg SyncRoot.id turn.root, items, turn.content⟩ (turn.same applied)

end Turn

end Turns

/-- Deletes are of items. -/
def DeletesItems (db : SyncDb) (inputs : List SyncOperationInput) : Prop :=
  ∀ input ∈ inputs, input.kind = .delete → db.item? input.logicalId ≠ none

/-- The operations of a push, beyond the cursor that it counts from. -/
structure Issues (bound : Nat) (clientId : String) (ids : List UUID) (operation : SyncOperation) :
    Prop where
  beyond : bound < operation.cursor
  author : operation.clientId = clientId
  listed : operation.id ∈ ids

section Pushes

variable {b after : Batch} {clientId : String} {now : Timestamp}
  {inputs : List (SyncOperationInput × FreshIds)} {bound : Nat} {ids : List UUID}

theorem applyOne_mirrored {entry : SyncOperationInput × FreshIds} (mirrored : Mirrored b.db b.cursor)
    (deletes : entry.1.kind = .delete → b.db.item? entry.1.logicalId ≠ none)
    (below : bound ≤ b.cursor) (listed : entry.2.operation ∈ ids)
    (result : applyOne clientId now b entry = .ok after) :
    Mirrored after.db after.cursor ∧ bound ≤ after.cursor ∧
      Grows b.db after.db (Issues bound clientId ids) := by
  obtain ⟨input, fresh⟩ := entry
  rcases applyOne_cases result with ⟨duplicate, _, rfl⟩ | ⟨new, _⟩
  · exact ⟨mirrored, below, .same ⟨rfl, rfl, .refl _⟩ rfl⟩
  · obtain ⟨operation, turn⟩ := applyOne_turn mirrored deletes new result
    refine ⟨turn.mirrored mirrored deletes, ?_, turn.grows mirrored ⟨?_, ?_, ?_⟩⟩
    · rw [turn.cursor]
      exact Nat.le_succ_of_le below
    · rw [turn.takesCursor]
      exact Nat.lt_succ_of_le below
    · obtain ⟨payload, status, rfl⟩ := turn.made
      rfl
    · obtain ⟨payload, status, rfl⟩ := turn.made
      exact listed

/-- A batch keeps every item at its standing operation. -/
theorem applyAll_mirrored (mirrored : Mirrored b.db b.cursor)
    (deletes : DeletesItems b.db (inputs.map Prod.fst)) (below : bound ≤ b.cursor)
    (listed : ∀ entry ∈ inputs, entry.2.operation ∈ ids)
    (result : applyAll clientId now b inputs = .ok after) :
    Mirrored after.db after.cursor ∧ Grows b.db after.db (Issues bound clientId ids) := by
  induction inputs generalizing b with
  | nil =>
    cases result
    exact ⟨mirrored, .same ⟨rfl, rfl, .refl _⟩ rfl⟩
  | cons entry rest ih =>
    obtain ⟨middle, first, remaining⟩ := bind_ok_iff.mp result
    obtain ⟨still, below, grows⟩ := applyOne_mirrored mirrored (deletes _ List.mem_cons_self) below
      (listed entry List.mem_cons_self) first
    have later : DeletesItems middle.db (rest.map Prod.fst) := fun input member delete =>
      grows.finds _ (deletes input (List.mem_cons_of_mem _ member) delete)
    obtain ⟨whole, growsLater⟩ := ih still later below
      (fun other member => listed other (List.mem_cons_of_mem entry member)) remaining
    exact ⟨whole, grows.trans growsLater⟩

/-- The rows that a push leaves are those of its loop, under the root that it stores. -/
theorem applyOperations_loop {db : SyncDb} {loaded : Nat}
    (result : applyOperations db loaded clientId inputs now = .ok after) :
    ∃ b root, applyAll clientId now ⟨loaded, db, [], []⟩ inputs = .ok b ∧
      after = { b with db := { b.db with root } } ∧ root.id = db.root.id ∧
      root.cursor = writeColumn loaded b.cursor db.root.cursor := by
  unfold applyOperations at result
  split_ifs at result
  obtain ⟨b, applied, finished⟩ := bind_ok_iff.mp result
  cases finished
  have root : b.db.root = db.root := (applyAll_appends applied).root
  refine ⟨b, _, applied, rfl, ?_, ?_⟩
  · simp only [root]
  · simp only [root]

theorem applyOperations_mirrored {db : SyncDb} {loaded : Nat} (mirrored : Mirrored db db.root.cursor)
    (counts : loaded = db.root.cursor ∨ AllRecorded db clientId inputs)
    (deletes : DeletesItems db (inputs.map Prod.fst))
    (result : applyOperations db loaded clientId inputs now = .ok after) :
    Mirrored after.db after.db.root.cursor ∧ db.root.cursor ≤ after.db.root.cursor ∧
      Grows db after.db
        (Issues db.root.cursor clientId (inputs.map fun entry => entry.2.operation)) := by
  obtain ⟨b, root, applied, rfl, rootId, cursor⟩ := applyOperations_loop result
  have advances := (applyOperations_advances mirrored.issued counts result).2
  have kept : b.db.root = db.root := (applyAll_appends applied).root
  have beside : SameItems b.db { b.db with root } :=
    ⟨rootId.trans (congrArg SyncRoot.id kept.symm), rfl, .refl _⟩
  have effective : SyncDb.effective { b.db with root } = b.db.effective := by
    unfold SyncDb.effective
    dsimp only
    rw [beside.rootId]
  rcases counts with rfl | recorded
  · have listed : ∀ entry ∈ inputs, entry.2.operation ∈ inputs.map fun entry => entry.2.operation :=
      fun entry member => List.mem_map_of_mem (f := fun entry => entry.2.operation) member
    obtain ⟨whole, grows⟩ := applyAll_mirrored (b := ⟨db.root.cursor, db, [], []⟩) mirrored deletes
      (Nat.le_refl _) listed applied
    have stored : root.cursor = b.cursor := by
      rw [cursor]
      unfold writeColumn
      split
      · rename_i same
        exact same.symm
      · rfl
    refine ⟨?_, advances, grows.trans (.same beside effective)⟩
    exact stored ▸ whole.beside beside rfl rfl whole.assetIds
  · obtain ⟨same, rows⟩ := applyAll_recorded recorded applied
    have stored : root.cursor = db.root.cursor := cursor.trans (if_pos same)
    obtain ⟨_, _, _, _⟩ := b
    cases rows
    refine ⟨?_, advances, .same beside effective⟩
    exact stored ▸ mirrored.beside beside rfl rfl mirrored.assetIds

end Pushes

/-- A stored operation is an input of its kind on its item. -/
theorem storedInput_for {operation : SyncOperation} {input : SyncOperationInput}
    (stored : storedInput operation = .ok input) : For operation input := by
  unfold storedInput at stored
  dsimp only at stored
  split at stored
  · cases stored
    exact ⟨rfl, rfl⟩
  · split at stored
    · contradiction
    · cases stored
      exact ⟨rfl, rfl⟩

theorem stampItem_other {db : SyncDb} {logicalId other : UUID} (revision : String)
    (unique : (db.items.map SyncItem.id).Nodup) (different : other ≠ logicalId) :
    (db.stampItem logicalId revision).item? other = db.item? other := by
  unfold SyncDb.stampItem
  split
  · rename_i item found
    exact item?_updateItem_other found unique (fun _ => ⟨rfl, rfl⟩) different
  · rfl

section Resolutions

variable {db after : SyncDb} {operation : SyncOperation} {fresh : FreshIds} {now : Timestamp}
  {id : UUID}

/-- Rewriting an operation that is not applied, under its id. -/
theorem mem_updateOperation (keys : (db.operations.map SyncOperation.id).Nodup)
    (member : operation ∈ db.operations) {change : SyncOperation → SyncOperation} (a : SyncOperation) :
    a ∈ (db.updateOperation operation.id change).operations ↔
      (a ∈ db.operations ∧ a.id ≠ operation.id) ∨ a = change operation := by
  constructor
  · intro here
    obtain ⟨row, there, rfl⟩ := List.mem_map.mp here
    split
    · rename_i same
      rw [List.inj_on_of_nodup_map keys there member same]
      exact .inr rfl
    · rename_i other
      exact .inl ⟨there, other⟩
  · rintro (⟨here, other⟩ | rfl)
    · exact List.mem_map.mpr ⟨a, here, if_neg other⟩
    · exact List.mem_map.mpr ⟨operation, member, if_pos rfl⟩

/-- The operation as `keep_local` re-issues it. -/
abbrev reissue (db : SyncDb) (operation : SyncOperation) (payload : Payload) : SyncOperation :=
  { operation with
    payload, cursor := db.root.cursor + 1, status := .applied
    revision := some (nextRevision (db.root.cursor + 1) operation.operationId) }

theorem KeptLocal.effect {input : SyncOperationInput} {applied : SyncDb} {payload : Payload}
    (kept : KeptLocal db operation fresh now input applied after payload)
    (mirrored : Mirrored db db.root.cursor) (found : db.operation? id = some operation)
    (refused : operation.status ≠ .applied) :
    TakesEffect db after (reissue db operation payload) := by
  obtain ⟨member, _, root⟩ := operation?_found found
  have same := storedInput_for kept.stored
  have linked := mirrored.linked input fun delete => by
    rw [← same.logicalId]
    exact mirrored.deletes operation member root (same.kind.trans delete)
  have once : applyItemOperation db operation input (db.item? input.logicalId) fresh now =
      .ok (applied, { operation with payload }) := by
    rw [← same.logicalId]
    exact kept.once
  have takes := (applyItemOperation_takes same linked fresh now).value once
  have touches := (applyItemOperation_touches db operation input fresh now).value once
  obtain ⟨item, there, _, shows⟩ := takes.shown
  have rootId : after.root.id = applied.root.id := by
    rw [kept.root, kept.journal.root]
  have stamped : ∀ logicalId, after.item? logicalId = (applied.stampItem operation.logicalId
      (nextRevision (db.root.cursor + 1) operation.operationId)).item? logicalId := by
    intro logicalId
    refine item?_congr (rootId.trans ?_) kept.items logicalId
    rw [(SameJournal.stampItem applied _ _).root]
  refine ⟨?_, fun a => ?_, fun other here => ?_, ?_, fun logicalId different => ?_, ?_⟩
  · rw [kept.root]
  · rw [mem_effective, mem_effective, kept.root, kept.operations,
      mem_updateOperation mirrored.issued.keys member]
    constructor
    · rintro ⟨⟨here, _⟩ | same, rest⟩
      · exact .inl ⟨here, rest⟩
      · exact .inr same
    · rintro (⟨here, rest⟩ | rfl)
      · refine ⟨.inl ⟨here, fun same => refused ?_⟩, rest⟩
        exact List.inj_on_of_nodup_map mirrored.issued.keys here member same ▸ rest.2
      · exact ⟨.inr rfl, root, rfl⟩
  · obtain ⟨present, rootOther, _⟩ := mem_effective.mp here
    exact Nat.lt_succ_of_le (mirrored.issued.bounded other present rootOther)
  · refine ⟨{ item with revision := nextRevision (db.root.cursor + 1) operation.operationId }, ?_, rfl, ?_⟩
    · rw [stamped, item?_stampItem, same.logicalId, there, Option.map_some]
    · refine ⟨shows.rootId.trans rootId.symm, shows.logicalId, shows.deleted, fun stays => ?_⟩
      rw [kept.assets]
      exact shows.live stays
  · rw [stamped, stampItem_other _ (touches.1.unique mirrored.itemIds) different]
    exact takes.others mirrored.itemIds logicalId (same.logicalId ▸ different)
  · rw [kept.assets]
    exact ((applyItemOperation_own db operation input _ fresh now).value once).content

/-- What a choice does to the operation: it is re-issued beyond the others, or rejected. -/
inductive Chosen (db after : SyncDb) (operation : SyncOperation) : Choice → Prop
  | kept (reissued : SyncOperation) (id : reissued.id = operation.id)
      (author : reissued.clientId = operation.clientId) (cursor : db.root.cursor < reissued.cursor)
      (effect : TakesEffect db after reissued) : Chosen db after operation .keepLocal
  | rejected (items : SameItems db after) (effective : after.effective = db.effective) :
      Chosen db after operation .keepRemote

theorem Chosen.grows {choice : Choice} (chosen : Chosen db after operation choice) :
    Grows db after fun other => choice = .keepLocal ∧ db.root.cursor < other.cursor ∧
      other.id = operation.id ∧ other.clientId = operation.clientId := by
  cases chosen with
  | kept reissued id author cursor effect => exact effect.grows ⟨rfl, cursor, id, author⟩
  | rejected items effective => exact .same items effective

/-- The conflict of the operation is closed; the other ones stay. -/
theorem Undecided.close {conflict : SyncConflict} {choice : Choice} {change : SyncOperation → SyncOperation}
    (undecided : Undecided db) (keys : (db.operations.map SyncOperation.id).Nodup)
    (member : operation ∈ db.operations) (keepsId : (change operation).id = operation.id)
    (present : conflict ∈ db.conflicts) (about : conflict.localOperationId = operation.id)
    (operations : after.operations = (db.updateOperation operation.id change).operations)
    (conflicts : after.conflicts = db.conflicts) :
    Undecided (after.updateConflict conflict.id fun row =>
      { row with status := .resolved, resolution := some choice, resolvedAt := some now }) := by
  have rows : ∀ row ∈ (after.updateConflict conflict.id fun row =>
      { row with
        status := .resolved, resolution := some choice, resolvedAt := some now }).conflicts,
      ∃ before ∈ db.conflicts, row.id = before.id ∧ row.localOperationId = before.localOperationId ∧
        (row.status = .unresolved → before.status = .unresolved ∧ before.id ≠ conflict.id) := by
    intro row here
    obtain ⟨before, there, rfl⟩ := List.mem_map.mp here
    refine ⟨before, conflicts ▸ there, ?_⟩
    split
    · exact ⟨rfl, rfl, fun unresolved => by contradiction⟩
    · rename_i other
      exact ⟨rfl, rfl, fun unresolved => ⟨unresolved, other⟩⟩
  refine ⟨fun row here => ?_, fun a first b second same => ?_, fun row here unresolved other there named => ?_⟩
  · obtain ⟨before, there, _, about, _⟩ := rows row here
    obtain ⟨other, recorded, named⟩ := undecided.named before there
    by_cases same : other.id = operation.id
    · refine ⟨change operation, ?_, keepsId.trans (same.symm.trans (named.trans about.symm))⟩
      exact operations ▸ (mem_updateOperation keys member _).mpr (.inr rfl)
    · refine ⟨other, ?_, named.trans about.symm⟩
      exact operations ▸ (mem_updateOperation keys member _).mpr (.inl ⟨recorded, same⟩)
  · obtain ⟨left, here, leftId, leftAbout, _⟩ := rows a first
    obtain ⟨right, there, rightId, rightAbout, _⟩ := rows b second
    rw [leftId, rightId]
    exact undecided.single left here right there (leftAbout.symm.trans (same.trans rightAbout))
  · obtain ⟨before, present', _, aboutBefore, still⟩ := rows row here
    obtain ⟨stillOpen, different⟩ := still unresolved
    have recorded : other ∈ (db.updateOperation operation.id change).operations := operations ▸ there
    rcases (mem_updateOperation keys member other).mp recorded with ⟨old, _⟩ | rfl
    · exact undecided.refused before present' stillOpen other old (named.trans aboutBefore)
    · refine absurd (undecided.single before present' conflict present ?_) different
      exact aboutBefore.symm.trans (named.symm.trans (keepsId.trans about.symm))

theorem stampItem_ids {logicalId : UUID} (revision : String) :
    ((db.stampItem logicalId revision).items.map SyncItem.id) = db.items.map SyncItem.id := by
  unfold SyncDb.stampItem
  split
  · refine (List.map_map ..).trans (List.map_congr_left fun row _ => ?_)
    dsimp only [Function.comp_apply]
    split <;> rfl
  · rfl

theorem keepLocal_mirrored {conflict : SyncConflict} (now : Timestamp) (mirrored : Mirrored db db.root.cursor)
    (found : db.operation? id = some operation) (refused : operation.status ≠ .applied)
    (present : conflict ∈ db.conflicts) (about : conflict.localOperationId = operation.id)
    (result : keepLocal db operation fresh now = .ok after) :
    let closed := after.updateConflict conflict.id fun row =>
      { row with status := .resolved, resolution := some .keepLocal, resolvedAt := some now }
    Mirrored closed closed.root.cursor ∧ Chosen db closed operation .keepLocal := by
  obtain ⟨⟨input, applied, payload, kept⟩, conflicts⟩ := keepLocal_cases result
  obtain ⟨member, rfl, root⟩ := operation?_found found
  intro closed
  have effect : TakesEffect db closed (reissue db operation payload) := by
    have once := kept.effect mirrored found refused
    obtain ⟨item, there, revision, shows⟩ := once.shown
    exact ⟨once.rootId, once.adds, once.beyond, ⟨item, there, revision, shows.kept rfl (.refl _)⟩,
      once.others, once.content⟩
  have issued : Issued closed.root.id closed.operations closed.root.cursor :=
    (keepLocal_advances mirrored.issued found result).1
  have itemIds : (applied.items.map SyncItem.id).Nodup := by
    have once := kept.once
    rw [(storedInput_for kept.stored).logicalId] at once
    exact ((applyItemOperation_touches db operation input fresh now).value once).1.unique
      mirrored.itemIds
  have own := (applyItemOperation_own db operation input (db.item? operation.logicalId) fresh now).value
    kept.once
  have rows : ∀ other ∈ closed.operations, (other ∈ db.operations ∧ other.id ≠ operation.id) ∨
      other = reissue db operation payload := fun other here =>
    (mem_updateOperation mirrored.issued.keys member other).mp (kept.operations ▸ here)
  refine ⟨⟨issued, fun other here rootOther => ?_, ?_, ?_, effect.shows mirrored (effective_distinct issued),
    effect.covers mirrored, fun other here rootOther delete => ?_, ?_⟩, ?_⟩
  · rcases rows other here with ⟨old, _⟩ | rfl
    · exact mirrored.stamped other old (rootOther.trans effect.rootId)
    · rfl
  · have ids : after.items.map SyncItem.id = applied.items.map SyncItem.id := by
      rw [kept.items, stampItem_ids]
    exact ids ▸ itemIds
  · exact kept.assets ▸ own.within.unique mirrored.assetIds
  · rcases rows other here with ⟨old, _⟩ | rfl
    · exact effect.finds (mirrored.deletes other old (rootOther.trans effect.rootId) delete)
    · exact effect.finds (mirrored.deletes operation member root delete)
  · exact mirrored.undecided.close mirrored.issued.keys member rfl present about kept.operations conflicts
  · exact .kept (reissue db operation payload) rfl rfl (Nat.lt_succ_self _) effect

theorem keepRemote_mirrored {conflict : SyncConflict} (now : Timestamp) (mirrored : Mirrored db db.root.cursor)
    (found : db.operation? id = some operation) (refused : operation.status ≠ .applied)
    (present : conflict ∈ db.conflicts) (about : conflict.localOperationId = operation.id) :
    let closed := (db.updateOperation operation.id fun operation =>
      { operation with status := .rejected }).updateConflict conflict.id fun row =>
        { row with status := .resolved, resolution := some .keepRemote, resolvedAt := some now }
    Mirrored closed closed.root.cursor ∧ Chosen db closed operation .keepRemote := by
  obtain ⟨member, rfl, root⟩ := operation?_found found
  intro closed
  have rows : ∀ other ∈ closed.operations, (other ∈ db.operations ∧ other.id ≠ operation.id) ∨
      other = { operation with status := .rejected } := fun other here =>
    (mem_updateOperation mirrored.issued.keys member other).mp here
  have same : SameItems db closed := ⟨rfl, rfl, .refl _⟩
  have effective : closed.effective = db.effective := by
    refine Rows.filter_map_spared (fun row here => ?_) fun row here passes => ?_
    · split
      · rename_i mine
        have equal := List.inj_on_of_nodup_map mirrored.issued.keys here member mine
        simp [equal, refused]
      · rfl
    · refine if_neg fun mine => refused ?_
      have equal := List.inj_on_of_nodup_map mirrored.issued.keys here member mine
      exact equal ▸ (of_decide_eq_true passes).2
  refine ⟨⟨(reject_advances mirrored.issued operation.id).1, fun other here rootOther => ?_,
    mirrored.itemIds, mirrored.assetIds, fun logicalId other standing => ?_,
    fun logicalId item there => ?_, fun other here rootOther delete => ?_, ?_⟩, .rejected same effective⟩
  · rcases rows other here with ⟨old, _⟩ | rfl
    · exact mirrored.stamped other old rootOther
    · exact mirrored.stamped operation member root
  · rw [standing_congr effective] at standing
    obtain ⟨item, there, revision, shows⟩ := mirrored.shown logicalId other standing
    exact ⟨item, there, revision, shows.kept rfl (.refl _)⟩
  · rw [standing_congr effective]
    exact mirrored.covered logicalId item there
  · rcases rows other here with ⟨old, _⟩ | rfl
    · exact mirrored.deletes other old rootOther delete
    · exact mirrored.deletes operation member root delete
  · exact mirrored.undecided.close mirrored.issued.keys member rfl present about rfl rfl

/-- The conflict instance of the endpoint is the row as it is. -/
structure Current (db : SyncDb) (loaded : SyncConflict) : Prop where
  row : ∃ row ∈ db.conflicts, row.id = loaded.id ∧ row.status = loaded.status ∧
    row.localOperationId = loaded.localOperationId

/-- A conflict that is resolved leaves every item at its standing operation. -/
theorem resolveConflict_mirrored {loaded : SyncConflict} {choice : Choice}
    (mirrored : Mirrored db db.root.cursor) (current : Current db loaded)
    (result : resolveConflict db loaded choice fresh now = .ok after) :
    Mirrored after after.root.cursor ∧ (after = db ∨ ∃ operation ∈ db.operations,
      operation.id = loaded.localOperationId ∧ operation.status ≠ .applied ∧
        Chosen db after operation choice) := by
  obtain ⟨row, present, sameId, status, about⟩ := current.row
  rcases resolveConflict_cases result with ⟨_, rfl⟩ | ⟨unresolved, operation, settled, found, chosen, rfl⟩
  · exact ⟨mirrored, .inl rfl⟩
  obtain ⟨member, named, root⟩ := operation?_found found
  have refused := mirrored.undecided.refused row present (status.trans unresolved) operation member
    (named.trans about.symm)
  have mine : row.localOperationId = operation.id := about.trans named.symm
  rw [← sameId]
  rcases chosen with ⟨rfl, kept⟩ | ⟨rfl, rfl⟩
  · obtain ⟨closed, kept⟩ := keepLocal_mirrored now mirrored found refused present mine kept
    exact ⟨closed, .inr ⟨operation, member, named, refused, kept⟩⟩
  · obtain ⟨closed, rejected⟩ := keepRemote_mirrored now mirrored found refused present mine
    exact ⟨closed, .inr ⟨operation, member, named, refused, rejected⟩⟩

end Resolutions

end Drivebound.Sync
