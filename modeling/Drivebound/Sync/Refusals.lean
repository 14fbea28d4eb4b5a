import Drivebound.Sync.Turns

/-! Refused operations. Every `ValueError` of `_apply_item_operation` comes before its first
change, so an operation that ends as a conflict adds its record to the journal and changes
nothing else, and a resolution that raises changes nothing. -/
namespace Drivebound.Sync
open Checked

theorem insertRow_error {key : α → UUID} {rows : List α} {row : α} {failure : Failure}
    (refused : insertRow key rows row = .error failure) : failure = .integrityError := by
  unfold insertRow at refused
  split at refused
  · cases refused
    rfl
  · contradiction

/-- A `ValueError` leaves every row as it was in `db`. -/
abbrev Refuses (db : SyncDb) : Except Raised α → Prop :=
  Ends (fun _ => True) fun r => ∀ message, r.failure = .valueError message → r.db = db

theorem flush_refuses (db current : SyncDb) {key : α → UUID} {rows : List α} {row : α}
    {change : List α → SyncDb} : Refuses db (flush current (insertRow key rows row) change) := by
  cases inserted : insertRow key rows row with
  | ok rows => trivial
  | error failure =>
    intro message value
    rw [insertRow_error inserted] at value
    contradiction

theorem trashAsset_refuses (db : SyncDb) (id : UUID) (actor : String) (now : Timestamp) :
    Refuses db (trashAsset db id actor now) :=
  trashAsset_ends (fun _ _ _ => rfl) trivial trivial

/-- An active asset can be cloned. -/
theorem addClone_refuses (db current : SyncDb) {asset : Asset} (active : asset.lifecycleState = .active)
    (logicalId : UUID) (version : Nat) (id : UUID) :
    Refuses db (addClone current asset logicalId version id) := by
  unfold addClone cloneAssetRevision
  rw [if_pos (.inl active)]
  exact (flush_refuses db current).bind fun _ _ => True.intro

theorem upsertRevision_refuses (db current : SyncDb) (input : SyncOperationInput)
    (item : Option SyncItem) {asset : Asset} (active : asset.lifecycleState = .active)
    (activeTarget : Option Asset) (version : Nat) (fresh : FreshIds) :
    Refuses db (upsertRevision current input item asset activeTarget version fresh) := by
  unfold upsertRevision
  split
  · dsimp only
    split
    · exact addClone_refuses db current active ..
    · trivial
  · split
    · exact addClone_refuses db current active ..
    · trivial

theorem applyUpsert_refuses (db : SyncDb) (operation : SyncOperation) (input : SyncOperationInput)
    (item : Option SyncItem) (fresh : FreshIds) (now : Timestamp) :
    Refuses db (applyUpsert db operation input item fresh now) := by
  unfold applyUpsert
  split
  · split
    · exact fun _ _ => rfl
    · rename_i asset found
      have holds := List.find?_some found
      simp only [decide_eq_true_eq] at holds
      refine Ends.bind (upsertRevision_refuses db _ input item holds.2.2 ..) ?_
      rintro ⟨published, revision⟩ _
      cases item with
      | none => exact (flush_refuses db _).bind fun _ _ => True.intro
      | some item => trivial
  · exact fun _ _ => rfl

theorem applyMove_refuses (db : SyncDb) (operation : SyncOperation) (input : SyncOperationInput)
    (item : Option SyncItem) : Refuses db (applyMove db operation input item) := by
  unfold applyMove
  split
  · split_ifs
    · exact fun _ _ => rfl
    · split
      · trivial
      · split
        · exact fun _ _ => rfl
        · trivial
  · exact fun _ _ => rfl

theorem applyDelete_refuses (db : SyncDb) (operation : SyncOperation) (input : SyncOperationInput)
    (item : Option SyncItem) (fresh : FreshIds) (now : Timestamp) :
    Refuses db (applyDelete db operation input item fresh now) := by
  unfold applyDelete
  cases item with
  | none => exact (flush_refuses db _).bind fun _ _ => True.intro
  | some item =>
    dsimp only
    split
    · trivial
    · split
      · exact fun _ _ => rfl
      · exact (trashAsset_refuses db ..).bind fun _ _ => True.intro

theorem applyItemOperation_refuses (db : SyncDb) (operation : SyncOperation)
    (input : SyncOperationInput) (item : Option SyncItem) (fresh : FreshIds) (now : Timestamp) :
    Refuses db (applyItemOperation db operation input item fresh now) := by
  unfold applyItemOperation
  split
  · exact applyUpsert_refuses ..
  · exact applyMove_refuses ..
  · exact applyDelete_refuses ..

/-- The batch after a refused operation: its row, its conflict and its cursor. -/
def Batch.refuse (b : Batch) (operation : SyncOperation) (conflict : SyncConflict) : Batch where
  cursor := operation.cursor
  db :=
    { b.db with
      operations := b.db.operations ++ [operation], conflicts := b.db.conflicts ++ [conflict] }
  operations := b.operations ++ [operation]
  conflicts := b.conflicts ++ [conflict]

/-- The operation as a conflict is recorded with it. -/
def refusedRow (operation : SyncOperation) (input : SyncOperationInput) : SyncOperation :=
  { operation with
    status := .conflict
    payload :=
      { relativePath := input.relativePath, assetId := input.assetId
        requestedKind := some input.kind } }

def openConflict (db : SyncDb) (operation : SyncOperation) (input : SyncOperationInput)
    (item : Option SyncItem) (fresh : FreshIds) (kind : ConflictKind) : SyncConflict where
  id := fresh.conflict
  rootId := db.root.id
  logicalId := input.logicalId
  localOperationId := operation.id
  conflictingOperationId := (db.lastApplied? input.logicalId).map SyncOperation.id
  kind := kind
  expectedRevision := input.baseRevision
  actualRevision := item.map SyncItem.revision
  status := .unresolved
  resolution := none
  resolvedAt := none

theorem insertRow_ok_iff {key : α → UUID} {rows result : List α} {row : α} :
    insertRow key rows row = .ok result ↔ result = rows ++ [row] ∧ ∀ r ∈ rows, key r ≠ key row := by
  refine ⟨insertRow_ok, ?_⟩
  rintro ⟨rfl, unused⟩
  unfold insertRow
  rw [if_neg]
  simpa using unused

theorem recordOperation_ok_iff {b after : Batch} {db : SyncDb} {operation : SyncOperation} :
    recordOperation b db operation = .ok after ↔
      (∀ row ∈ db.operations, row.id ≠ operation.id) ∧ after =
        { b with
          cursor := operation.cursor
          db := { db with operations := db.operations ++ [operation] }
          operations := b.operations ++ [operation] } := by
  unfold recordOperation
  constructor
  · intro result
    obtain ⟨rows, inserted, finished⟩ := bind_ok_iff.mp result
    obtain ⟨rfl, unused⟩ := insertRow_ok inserted
    cases finished
    exact ⟨unused, rfl⟩
  · rintro ⟨unused, rfl⟩
    exact bind_ok_iff.mpr ⟨_, insertRow_ok_iff.mpr ⟨rfl, unused⟩, rfl⟩

theorem recordConflict_ok_iff {b after : Batch} {operation : SyncOperation} {input : SyncOperationInput}
    {item : Option SyncItem} {fresh : FreshIds} {kind : ConflictKind} :
    recordConflict b b.db operation input item fresh kind = .ok after ↔
      (∀ row ∈ b.db.conflicts, row.id ≠ fresh.conflict) ∧
      (∀ row ∈ b.db.operations, row.id ≠ operation.id) ∧
      after = b.refuse (refusedRow operation input)
        (openConflict b.db operation input item fresh kind) := by
  constructor
  · intro result
    obtain ⟨conflicts, added, result⟩ := bind_ok_iff.mp result
    obtain ⟨middle, recorded, finished⟩ := bind_ok_iff.mp result
    obtain ⟨unused, rfl⟩ := recordOperation_ok_iff.mp recorded
    obtain ⟨rfl, apart⟩ := insertRow_ok added
    cases finished
    exact ⟨apart, unused, rfl⟩
  · rintro ⟨apart, unused, rfl⟩
    have added : insertRow SyncConflict.id b.db.conflicts
        (openConflict b.db operation input item fresh kind) = .ok _ :=
      insertRow_ok_iff.mpr ⟨rfl, apart⟩
    exact bind_ok_iff.mpr ⟨_, added, bind_ok_iff.mpr
      ⟨_, recordOperation_ok_iff.mpr ⟨unused, rfl⟩, rfl⟩⟩

/-- What a turn does with an operation that is not recorded yet. -/
inductive TurnOutcome (b after : Batch) (clientId : String) (now : Timestamp) (input : SyncOperationInput)
    (fresh : FreshIds) : Prop
  | applied (db : SyncDb) (operation : SyncOperation)
      (agreed : baseConflict input (b.db.item? input.logicalId) = none)
      (once : applyItemOperation b.db (newOperation b clientId input fresh) input
        (b.db.item? input.logicalId) fresh now = .ok (db, operation))
      (recorded : recordOperation b db operation = .ok after)
  | refused (kind : ConflictKind)
      (cause : baseConflict input (b.db.item? input.logicalId) = some kind ∨
        baseConflict input (b.db.item? input.logicalId) = none ∧ kind = .invalidTransition ∧
          ∃ message, applyItemOperation b.db (newOperation b clientId input fresh) input
            (b.db.item? input.logicalId) fresh now = .error ⟨.valueError message, b.db⟩)
      (recorded : recordConflict b b.db (newOperation b clientId input fresh) input
        (b.db.item? input.logicalId) fresh kind = .ok after)

theorem applyOne_outcome {b after : Batch} {clientId : String} {now : Timestamp}
    {input : SyncOperationInput} {fresh : FreshIds} (new : duplicate? b.db clientId input = none)
    (result : applyOne clientId now b (input, fresh) = .ok after) :
    TurnOutcome b after clientId now input fresh := by
  simp only [applyOne, new] at result
  split at result
  · rename_i kind stale
    exact .refused kind (.inl stale) result
  · rename_i agreed
    split at result
    · rename_i db operation once
      exact .applied db operation agreed once result
    · rename_i message db raised
      have same : db = b.db := (applyItemOperation_refuses ..).raised raised message rfl
      subst same
      exact .refused .invalidTransition (.inr ⟨agreed, rfl, message, raised⟩) result
    · contradiction

/-- The same rows under another journal. -/
def SyncDb.rejournal (db : SyncDb) (operations : List SyncOperation) (conflicts : List SyncConflict) :
    SyncDb := { db with operations, conflicts }

section Rejournal

variable (operations : List SyncOperation) (conflicts : List SyncConflict)

/-- A result that holds under another journal too. -/
def rejournaled (move : α → α) : Except Raised α → Except Raised α
  | .ok value => .ok (move value)
  | .error r => .error ⟨r.failure, r.db.rejournal operations conflicts⟩

def SyncDb.moved (db : SyncDb) : SyncDb := db.rejournal operations conflicts

def movedPair (result : SyncDb × β) : SyncDb × β := (result.1.rejournal operations conflicts, result.2)

variable {operations conflicts} {move : α → α} {move' : β → β}

theorem rejournaled_bind {x : Except Raised α} {f g : α → Except Raised β}
    (next : ∀ a, g (move a) = rejournaled operations conflicts move' (f a)) :
    rejournaled operations conflicts move x >>= g = rejournaled operations conflicts move' (x >>= f) := by
  cases x with
  | ok value => exact next value
  | error r => rfl

theorem rejournaled_ite {c : Prop} [Decidable c] {a b a' b' : Except Raised α}
    (yes : c → a' = rejournaled operations conflicts move a)
    (no : ¬ c → b' = rejournaled operations conflicts move b) :
    (if c then a' else b') = rejournaled operations conflicts move (if c then a else b) := by
  by_cases holds : c
  · rw [if_pos holds, if_pos holds, yes holds]
  · rw [if_neg holds, if_neg holds, no holds]

variable (db : SyncDb)

theorem flush_rejournal (inserted : Except Failure (List α)) {change changed : List α → SyncDb}
    {f g : SyncDb → Except Raised β}
    (next : ∀ rows, g (changed rows) = rejournaled operations conflicts move' (f (change rows))) :
    (flush (db.rejournal operations conflicts) inserted changed >>= g) =
      rejournaled operations conflicts move' (flush db inserted change >>= f) := by
  cases inserted with
  | ok rows => exact next rows
  | error failure => rfl

theorem trashAsset_rejournal (id : UUID) (actor : String) (now : Timestamp) :
    trashAsset (db.rejournal operations conflicts) id actor now =
      rejournaled operations conflicts (SyncDb.moved operations conflicts) (trashAsset db id actor now) := by
  unfold trashAsset
  dsimp only [SyncDb.rejournal]
  cases db.assets.find? (fun asset => asset.id = id) with
  | none => rfl
  | some asset =>
    dsimp only
    split <;> rfl

theorem addClone_rejournal (asset : Asset) (logicalId : UUID) (version : Nat) (id : UUID) :
    addClone (db.rejournal operations conflicts) asset logicalId version id =
      rejournaled operations conflicts (movedPair operations conflicts)
        (addClone db asset logicalId version id) := by
  unfold addClone
  cases cloneAssetRevision asset logicalId version id with
  | error failure => rfl
  | ok revision =>
    exact flush_rejournal db (insertRow Asset.id db.assets revision) fun _ => rfl

theorem upsertRevision_rejournal (input : SyncOperationInput) (item : Option SyncItem) (asset : Asset)
    (activeTarget : Option Asset) (version : Nat) (fresh : FreshIds) :
    upsertRevision (db.rejournal operations conflicts) input item asset activeTarget version fresh =
      rejournaled operations conflicts (movedPair operations conflicts)
        (upsertRevision db input item asset activeTarget version fresh) := by
  unfold upsertRevision
  refine rejournaled_ite (fun _ => ?_) fun _ => ?_
  · exact rejournaled_ite (fun _ => addClone_rejournal ..) fun _ => rfl
  · exact rejournaled_ite (fun _ => addClone_rejournal ..) fun _ => rfl

/-- The journal is not read by an operation on an item, which leaves it as it is. -/
theorem applyUpsert_rejournal (operation : SyncOperation) (input : SyncOperationInput)
    (item : Option SyncItem) (fresh : FreshIds) (now : Timestamp) :
    applyUpsert (db.rejournal operations conflicts) operation input item fresh now =
      rejournaled operations conflicts (movedPair operations conflicts)
        (applyUpsert db operation input item fresh now) := by
  unfold applyUpsert
  cases input.assetId with
  | none => rfl
  | some assetId =>
    cases input.relativePath with
    | none => rfl
    | some relativePath =>
      have looked : (db.rejournal operations conflicts).activeAsset? assetId = db.activeAsset? assetId := rfl
      dsimp only
      rw [looked]
      cases db.activeAsset? assetId with
      | none => rfl
      | some asset =>
        have superseded : supersedePrevious (db.rejournal operations conflicts)
              (db.activeRevision? input.logicalId) asset now =
            (supersedePrevious db (db.activeRevision? input.logicalId) asset now).rejournal operations
              conflicts := by
          unfold supersedePrevious
          cases db.activeRevision? input.logicalId with
          | none => rfl
          | some target =>
            dsimp only
            split_ifs <;> rfl
        dsimp only
        change (upsertRevision (supersedePrevious (db.rejournal operations conflicts)
            (db.activeRevision? input.logicalId) asset now) input item asset (db.activeRevision? input.logicalId)
            (db.highestVersion input.logicalId + 1) fresh >>= _) = _
        rw [superseded, upsertRevision_rejournal]
        refine rejournaled_bind fun pair => ?_
        obtain ⟨published, revision⟩ := pair
        cases item with
        | none =>
          exact flush_rejournal (published.updateAsset revision.id fun asset =>
              { asset with
                lifecycleState := .active, supersededAt := none, trashedAt := none
                purgeAfter := none }) _ fun _ => rfl
        | some item => rfl

theorem applyMove_rejournal (operation : SyncOperation) (input : SyncOperationInput)
    (item : Option SyncItem) :
    applyMove (db.rejournal operations conflicts) operation input item =
      rejournaled operations conflicts (movedPair operations conflicts)
        (applyMove db operation input item) := by
  unfold applyMove
  cases item with
  | none => rfl
  | some item =>
    cases input.relativePath with
    | none => rfl
    | some relativePath =>
      refine rejournaled_ite (fun _ => rfl) fun _ => ?_
      cases item.assetId with
      | none => rfl
      | some assetId =>
        dsimp only
        have looked : (db.rejournal operations conflicts).activeAsset? assetId = db.activeAsset? assetId := rfl
        rw [looked]
        cases db.activeAsset? assetId <;> rfl

theorem applyDelete_rejournal (operation : SyncOperation) (input : SyncOperationInput)
    (item : Option SyncItem) (fresh : FreshIds) (now : Timestamp) :
    applyDelete (db.rejournal operations conflicts) operation input item fresh now =
      rejournaled operations conflicts (movedPair operations conflicts)
        (applyDelete db operation input item fresh now) := by
  unfold applyDelete
  cases item with
  | none =>
    exact flush_rejournal db (insertRow SyncItem.id db.items _) fun _ => rfl
  | some item =>
    dsimp only
    cases item.assetId with
    | none => rfl
    | some assetId =>
      dsimp only
      have looked : (db.rejournal operations conflicts).activeAsset? assetId = db.activeAsset? assetId := rfl
      rw [looked]
      cases db.activeAsset? assetId with
      | none => rfl
      | some asset =>
        dsimp only
        rw [trashAsset_rejournal]
        exact rejournaled_bind fun _ => rfl

theorem applyItemOperation_rejournal (operation : SyncOperation) (input : SyncOperationInput)
    (item : Option SyncItem) (fresh : FreshIds) (now : Timestamp) :
    applyItemOperation (db.rejournal operations conflicts) operation input item fresh now =
      rejournaled operations conflicts (movedPair operations conflicts)
        (applyItemOperation db operation input item fresh now) := by
  unfold applyItemOperation
  cases input.kind with
  | upsert => exact applyUpsert_rejournal ..
  | move => exact applyMove_rejournal ..
  | delete => exact applyDelete_rejournal ..

end Rejournal

end Drivebound.Sync
