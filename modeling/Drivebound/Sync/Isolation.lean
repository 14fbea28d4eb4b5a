import Drivebound.Sync.Cursors
import Drivebound.Sync.Refusals

/-! What the answer of a push depends on. The lookup by operation id is the one place where a push
reads the journal of another root; apart from it, a push goes as it does on the root's own rows. -/
namespace Drivebound.Sync
open Checked

/-- The operation that is recorded under an id, on any root. -/
def SyncDb.recorded? (db : SyncDb) (operationId : UUID) : Option SyncOperation :=
  db.operations.find? fun operation => operation.operationId = operationId

/-- No other root has recorded the id of the input. -/
def OwnId (db : SyncDb) (input : SyncOperationInput) : Prop :=
  ∀ operation ∈ db.recorded? input.operationId, operation.rootId = db.root.id

instance (db : SyncDb) : DecidablePred (OwnId db) := fun input =>
  inferInstanceAs (Decidable (∀ operation ∈ db.recorded? input.operationId, operation.rootId = db.root.id))

theorem duplicate?_recorded (db : SyncDb) (clientId : String) (input : SyncOperationInput) :
    duplicate? db clientId input = (db.recorded? input.operationId).or
      (db.operations.find? fun operation =>
        operation.rootId = db.root.id ∧ operation.clientId = clientId ∧
          operation.clientSequence = input.clientSequence) := rfl

/-- Rows that the root adds take no id from it. -/
theorem ownId_append {db after : SyncDb} {new : List SyncOperation} (root : after.root = db.root)
    (rows : after.operations = db.operations ++ new) (own : ∀ operation ∈ new, operation.rootId = db.root.id)
    (input : SyncOperationInput) : OwnId after input ↔ OwnId db input := by
  unfold OwnId SyncDb.recorded?
  rw [root, rows, List.find?_append]
  cases found : db.operations.find? (fun operation => operation.operationId = input.operationId) with
  | some operation => rfl
  | none =>
    rw [Option.none_or]
    constructor
    · exact fun _ operation member => absurd member nofun
    · exact fun _ operation member => own operation (List.mem_of_find?_eq_some member)

/-- What a turn answers with, and the rows that it adds. -/
structure Answers (b after : Batch) (input : SyncOperationInput) : Prop where
  answer : ∃ operation, after.operations = b.operations ++ [operation] ∧
    (operation.rootId = b.db.root.id ↔ OwnId b.db input)
  rows : ∃ new, after.db.operations = b.db.operations ++ new ∧
    ∀ operation ∈ new, operation.rootId = b.db.root.id
  conflicts : ∃ new, after.db.conflicts = b.db.conflicts ++ new ∧
    ∀ conflict ∈ new, conflict.rootId = b.db.root.id
  root : after.db.root = b.db.root

section Answers

variable {b after : Batch} {clientId : String} {now : Timestamp}

/-- A turn answers with an operation of the root, unless another root has recorded the id. -/
theorem applyOne_answers {input : SyncOperationInput} {fresh : FreshIds}
    (result : applyOne clientId now b (input, fresh) = .ok after) : Answers b after input := by
  cases found : duplicate? b.db clientId input with
  | some duplicate =>
    simp only [applyOne, found, Except.ok.injEq] at result
    subst result
    have empty (α : Type) (P : α → Prop) : ∀ row ∈ ([] : List α), P row :=
      fun _ member => absurd member List.not_mem_nil
    refine ⟨⟨duplicate, rfl, ?_⟩, ⟨[], (List.append_nil _).symm, empty _ _⟩,
      ⟨[], (List.append_nil _).symm, empty _ _⟩, rfl⟩
    rw [duplicate?_recorded] at found
    unfold OwnId
    cases recorded : b.db.recorded? input.operationId with
    | some operation =>
      rw [recorded, Option.some_or, Option.some.injEq] at found
      subst found
      exact ⟨fun own _ same => Option.some.inj same ▸ own, fun own => own _ rfl⟩
    | none =>
      rw [recorded, Option.none_or] at found
      have holds := List.find?_some found
      simp only [decide_eq_true_eq] at holds
      exact ⟨fun _ _ member => absurd member (fun same => by cases same), fun _ => holds.1⟩
  | none =>
    have own : OwnId b.db input := by
      intro operation member
      rw [duplicate?_recorded, Option.or_eq_none_iff] at found
      exact absurd (member.symm.trans found.1) (fun same => by cases same)
    cases applyOne_outcome found result with
    | applied db row agreed once recorded =>
      obtain ⟨journal, payload, rfl⟩ := (applyItemOperation_applied ..).value once
      obtain ⟨_, rfl⟩ := recordOperation_ok_iff.mp recorded
      refine ⟨⟨_, rfl, fun _ => own, fun _ => rfl⟩, ⟨[_], congrArg (· ++ _) journal.operations,
        fun operation member => ?_⟩, ⟨[], journal.conflicts.trans (List.append_nil _).symm,
        fun _ member => absurd member List.not_mem_nil⟩, journal.root⟩
      rw [List.mem_singleton.mp member]
      rfl
    | refused kind cause recorded =>
      obtain ⟨_, _, rfl⟩ := recordConflict_ok_iff.mp recorded
      refine ⟨⟨_, rfl, fun _ => own, fun _ => rfl⟩, ⟨[_], rfl, fun operation member => ?_⟩,
        ⟨[_], rfl, fun conflict member => ?_⟩, rfl⟩
      · rw [List.mem_singleton.mp member]
        rfl
      · rw [List.mem_singleton.mp member]
        rfl

/-- A batch answers with operations of the root exactly where no other root has recorded its ids. -/
theorem applyAll_answers {entries : List (SyncOperationInput × FreshIds)}
    (result : applyAll clientId now b entries = .ok after) :
    (∀ operation ∈ after.operations, operation.rootId = b.db.root.id) ↔
      (∀ operation ∈ b.operations, operation.rootId = b.db.root.id) ∧
        ∀ entry ∈ entries, OwnId b.db entry.1 := by
  induction entries generalizing b with
  | nil =>
    cases result
    exact ⟨fun own => ⟨own, fun _ member => absurd member List.not_mem_nil⟩, fun own => own.1⟩
  | cons entry rest ih =>
    obtain ⟨middle, first, remaining⟩ := bind_ok_iff.mp result
    obtain ⟨⟨answer, answers, here⟩, ⟨new, rows, own⟩, _, root⟩ := applyOne_answers first
    have later := ih remaining
    simp only [ownId_append root rows own, root, answers, List.mem_append, List.mem_singleton] at later
    rw [later, List.forall_mem_cons, ← here]
    constructor
    · rintro ⟨both, others⟩
      exact ⟨fun operation member => both operation (.inl member), both answer (.inr rfl), others⟩
    · rintro ⟨before, mine, others⟩
      refine ⟨?_, others⟩
      rintro operation (member | rfl)
      · exact before operation member
      · exact mine

end Answers

/-- The rows without the journals of other roots. -/
def SyncDb.ownRows (db : SyncDb) : SyncDb :=
  db.rejournal (db.operations.filter fun operation => operation.rootId = db.root.id)
    (db.conflicts.filter fun conflict => conflict.rootId = db.root.id)

def Batch.own (b : Batch) : Batch := { b with db := b.db.ownRows }

/-- The ids drawn for an input are not those of rows of other roots. -/
structure Drawn (db : SyncDb) (fresh : FreshIds) : Prop where
  operation : ∀ operation ∈ db.operations, operation.rootId ≠ db.root.id → operation.id ≠ fresh.operation
  conflict : ∀ conflict ∈ db.conflicts, conflict.rootId ≠ db.root.id → conflict.id ≠ fresh.conflict

section Own

variable {db : SyncDb} {b : Batch} {clientId : String} {now : Timestamp} {input : SyncOperationInput}
  {fresh : FreshIds}

/-- A search goes on the same among the rows that pass a filter, where what it finds passes it. -/
theorem find?_filter_passes {p q : α → Bool} {rows : List α} (passes : ∀ a ∈ rows.find? p, q a = true) :
    (rows.filter q).find? p = rows.find? p := by
  induction rows with
  | nil => rfl
  | cons a rest ih =>
    cases found : p a with
    | true =>
      rw [List.find?_cons_of_pos found] at passes ⊢
      rw [List.filter_cons_of_pos (passes a rfl), List.find?_cons_of_pos found]
    | false =>
      have skips : ¬ p a = true := by simp [found]
      rw [List.find?_cons_of_neg skips] at passes ⊢
      rw [List.filter_cons]
      split
      · rw [List.find?_cons_of_neg skips, ih passes]
      · exact ih passes

theorem recorded?_ownRows (own : OwnId db input) :
    db.ownRows.recorded? input.operationId = db.recorded? input.operationId :=
  find?_filter_passes fun operation member => decide_eq_true (own operation member)

theorem duplicate?_ownRows (own : OwnId db input) :
    duplicate? db.ownRows clientId input = duplicate? db clientId input := by
  rw [duplicate?_recorded, duplicate?_recorded, recorded?_ownRows own]
  congr 1
  refine find?_filter_passes fun operation found => decide_eq_true ?_
  have holds := List.find?_some found
  simp only [decide_eq_true_eq] at holds
  exact holds.1

theorem lastApplied?_ownRows (logicalId : UUID) :
    db.ownRows.lastApplied? logicalId = db.lastApplied? logicalId := by
  unfold SyncDb.lastApplied?
  have same : (db.ownRows.operations.filter fun operation => operation.rootId = db.root.id ∧
      operation.logicalId = logicalId ∧ operation.status = .applied) =
      db.operations.filter fun operation => operation.rootId = db.root.id ∧
        operation.logicalId = logicalId ∧ operation.status = .applied := by
    refine (List.filter_filter ..).trans (List.filter_congr fun operation _ => ?_)
    rw [Bool.and_eq_left_iff_imp]
    exact fun holds => decide_eq_true (of_decide_eq_true holds).1
  exact congrArg (List.foldl _ none) same

theorem insertRow_filter {key : α → UUID} {p : α → Bool} {rows : List α} {row : α} (own : p row = true)
    (others : ∀ r ∈ rows, ¬ p r = true → key r ≠ key row) :
    insertRow key (rows.filter p) row = (insertRow key rows row).map (List.filter p) := by
  have same : (rows.filter p).any (key · == key row) = rows.any (key · == key row) := by
    rw [List.any_filter]
    refine Bool.eq_iff_iff.mpr ?_
    simp only [List.any_eq_true, Bool.and_eq_true, beq_iff_eq]
    refine exists_congr fun r => and_congr_right fun member => and_iff_right_of_imp fun taken => ?_
    by_contra foreign
    exact others r member foreign taken
  unfold insertRow
  rw [same]
  split
  · rfl
  · rw [Except.map, List.filter_append, List.filter_cons_of_pos own, List.filter_nil]

theorem recordOperation_ownRows {operation : SyncOperation} (own : operation.rootId = db.root.id)
    (others : ∀ row ∈ db.operations, row.rootId ≠ db.root.id → row.id ≠ operation.id) :
    recordOperation b.own db.ownRows operation = (recordOperation b db operation).map Batch.own := by
  unfold recordOperation
  have inserted : insertRow SyncOperation.id db.ownRows.operations operation = _ :=
    insertRow_filter (decide_eq_true own) fun row member foreign =>
      others row member fun same => foreign (decide_eq_true same)
  rw [inserted]
  cases insertRow SyncOperation.id db.operations operation <;> rfl

theorem recordConflict_ownRows {operation : SyncOperation} {item : Option SyncItem} {kind : ConflictKind}
    (own : operation.rootId = db.root.id)
    (others : ∀ row ∈ db.operations, row.rootId ≠ db.root.id → row.id ≠ operation.id)
    (otherConflicts : ∀ row ∈ db.conflicts, row.rootId ≠ db.root.id → row.id ≠ fresh.conflict) :
    recordConflict b.own db.ownRows operation input item fresh kind =
      (recordConflict b db operation input item fresh kind).map Batch.own := by
  have inserted : insertRow SyncConflict.id db.ownRows.conflicts
      (openConflict db operation input item fresh kind) = _ :=
    insertRow_filter (decide_eq_true rfl) fun row member foreign =>
      otherConflicts row member fun same => foreign (decide_eq_true same)
  unfold recordConflict
  rw [lastApplied?_ownRows]
  change (insertRow SyncConflict.id db.ownRows.conflicts (openConflict db operation input item fresh kind) >>=
      _) = Except.map Batch.own
        (insertRow SyncConflict.id db.conflicts (openConflict db operation input item fresh kind) >>= _)
  rw [inserted]
  cases insertRow SyncConflict.id db.conflicts (openConflict db operation input item fresh kind) with
  | error failure => rfl
  | ok rows =>
    have recorded : recordOperation b.own ({ db with conflicts := rows } : SyncDb).ownRows
        (refusedRow operation input) =
          (recordOperation b { db with conflicts := rows } (refusedRow operation input)).map Batch.own :=
      recordOperation_ownRows own others
    change (recordOperation b.own ({ db with conflicts := rows } : SyncDb).ownRows
      (refusedRow operation input) >>= _) = Except.map Batch.own
        (recordOperation b { db with conflicts := rows } (refusedRow operation input) >>= _)
    rw [recorded]
    cases recordOperation b { db with conflicts := rows } (refusedRow operation input) <;> rfl

/-- A turn goes on the root's own rows as it does on all rows. -/
theorem applyOne_ownRows (own : OwnId b.db input) (drawn : Drawn b.db fresh) :
    applyOne clientId now b.own (input, fresh) = (applyOne clientId now b (input, fresh)).map Batch.own := by
  have lookup : duplicate? b.own.db clientId input = duplicate? b.db clientId input :=
    duplicate?_ownRows own
  unfold applyOne
  dsimp only
  rw [lookup]
  cases duplicate? b.db clientId input with
  | some duplicate => rfl
  | none =>
    dsimp only
    have present : b.own.db.item? input.logicalId = b.db.item? input.logicalId := rfl
    rw [present]
    cases baseConflict input (b.db.item? input.logicalId) with
    | some kind => exact recordConflict_ownRows rfl drawn.operation drawn.conflict
    | none =>
      dsimp only
      have applied : applyItemOperation b.own.db (newOperation b.own clientId input fresh) input
          (b.db.item? input.logicalId) fresh now =
        applyItemOperation b.db.ownRows (newOperation b clientId input fresh) input
          (b.db.item? input.logicalId) fresh now := rfl
      rw [applied, SyncDb.ownRows, applyItemOperation_rejournal]
      cases result : applyItemOperation b.db (newOperation b clientId input fresh) input
          (b.db.item? input.logicalId) fresh now with
      | ok pair =>
        obtain ⟨journal, payload, same⟩ := (applyItemOperation_applied ..).value result
        have rows : pair.1.rejournal (b.db.operations.filter fun row => row.rootId = b.db.root.id)
            (b.db.conflicts.filter fun row => row.rootId = b.db.root.id) = pair.1.ownRows := by
          unfold SyncDb.ownRows
          rw [journal.operations, journal.conflicts, journal.root]
        change recordOperation b.own (pair.1.rejournal _ _) pair.2 = _
        rw [rows]
        refine recordOperation_ownRows ?_ ?_
        · rw [same, journal.root]
          rfl
        · rw [same, journal.operations, journal.root]
          exact drawn.operation
      | error r =>
        obtain ⟨failure, db⟩ := r
        cases failure with
        | integrityError => rfl
        | valueError message =>
          have unchanged : db = b.db := (applyItemOperation_refuses ..).raised result message rfl
          subst unchanged
          exact recordConflict_ownRows rfl drawn.operation drawn.conflict

theorem Answers.drawn {after : Batch} {other : FreshIds} (answers : Answers b after input)
    (drawn : Drawn b.db other) : Drawn after.db other := by
  obtain ⟨new, rows, own⟩ := answers.rows
  obtain ⟨newConflicts, conflicts, ownConflicts⟩ := answers.conflicts
  constructor
  · intro operation member foreign
    rw [rows] at member
    rw [answers.root] at foreign
    rcases List.mem_append.mp member with before | added
    · exact drawn.operation operation before foreign
    · exact absurd (own operation added) foreign
  · intro conflict member foreign
    rw [conflicts] at member
    rw [answers.root] at foreign
    rcases List.mem_append.mp member with before | added
    · exact drawn.conflict conflict before foreign
    · exact absurd (ownConflicts conflict added) foreign

/-- A batch goes on the root's own rows as it does on all rows. -/
theorem applyAll_ownRows {entries : List (SyncOperationInput × FreshIds)}
    (own : ∀ entry ∈ entries, OwnId b.db entry.1) (drawn : ∀ entry ∈ entries, Drawn b.db entry.2) :
    applyAll clientId now b.own entries = (applyAll clientId now b entries).map Batch.own := by
  induction entries generalizing b with
  | nil => rfl
  | cons entry rest ih =>
    obtain ⟨input, fresh⟩ := entry
    have here : applyOne clientId now b.own (input, fresh) = _ :=
      applyOne_ownRows (own _ List.mem_cons_self) (drawn _ List.mem_cons_self)
    rw [applyAll, applyAll, here]
    cases first : applyOne clientId now b (input, fresh) with
    | error failure => rfl
    | ok middle =>
      have answers := applyOne_answers first
      obtain ⟨new, rows, mine⟩ := answers.rows
      refine ih (fun other member => ?_) fun other member => ?_
      · exact (ownId_append answers.root rows mine _).mpr (own other (List.mem_cons_of_mem _ member))
      · exact answers.drawn (drawn other (List.mem_cons_of_mem _ member))

theorem applyOperations_ownRows {loaded : Nat} {entries : List (SyncOperationInput × FreshIds)}
    (own : ∀ entry ∈ entries, OwnId db entry.1) (drawn : ∀ entry ∈ entries, Drawn db entry.2) :
    applyOperations db.ownRows loaded clientId entries now =
      (applyOperations db loaded clientId entries now).map Batch.own := by
  have loop : applyAll clientId now ⟨loaded, db.ownRows, [], []⟩ entries =
      (applyAll clientId now ⟨loaded, db, [], []⟩ entries).map Batch.own :=
    applyAll_ownRows (b := ⟨loaded, db, [], []⟩) own drawn
  unfold applyOperations
  change (if !db.userAvailable then _ else if !db.root.active then _ else _) = _
  split_ifs
  · rfl
  · rfl
  · rw [loop]
    cases applyAll clientId now ⟨loaded, db, [], []⟩ entries <;> rfl

end Own

/-- `SyncOperationResponse`. -/
structure OperationResponse where
  id : UUID
  cursor : Nat
  clientId : String
  operationId : UUID
  kind : OperationKind
  logicalId : UUID
  baseRevision : Option String
  revision : Option String
  payload : Payload
  status : OperationStatus
  deriving DecidableEq, Repr

def operationResponse (operation : SyncOperation) : OperationResponse where
  id := operation.id
  cursor := operation.cursor
  clientId := operation.clientId
  operationId := operation.operationId
  kind := operation.kind
  logicalId := operation.logicalId
  baseRevision := operation.baseRevision
  revision := operation.revision
  payload := operation.payload
  status := operation.status

/-- `SyncPushResponse`. -/
structure PushResponse where
  cursor : Nat
  operations : List OperationResponse
  conflicts : List UUID
  deriving DecidableEq, Repr

def Batch.response (b : Batch) : PushResponse where
  cursor := b.cursor
  operations := b.operations.map operationResponse
  conflicts := b.conflicts.map SyncConflict.id

/-- `push_operations`, with the cursor attribute of the root that it loaded. -/
def pushOperations (db : SyncDb) (loaded : Nat) (clientId : String)
    (entries : List (SyncOperationInput × FreshIds)) (now : Timestamp) : Except Failure PushResponse :=
  (applyOperations db loaded clientId entries now).map Batch.response

theorem pushOperations_ownRows {db : SyncDb} {loaded : Nat} {clientId : String}
    {entries : List (SyncOperationInput × FreshIds)} {now : Timestamp}
    (own : ∀ entry ∈ entries, OwnId db entry.1) (drawn : ∀ entry ∈ entries, Drawn db entry.2) :
    pushOperations db loaded clientId entries now =
      pushOperations db.ownRows loaded clientId entries now := by
  unfold pushOperations
  rw [applyOperations_ownRows own drawn]
  cases applyOperations db loaded clientId entries now <;> rfl

theorem applyOperations_answers {db : SyncDb} {loaded : Nat} {clientId : String}
    {entries : List (SyncOperationInput × FreshIds)} {now : Timestamp} {after : Batch}
    (result : applyOperations db loaded clientId entries now = .ok after) :
    (∀ operation ∈ after.operations, operation.rootId = db.root.id) ↔
      ∀ entry ∈ entries, OwnId db entry.1 := by
  unfold applyOperations at result
  split_ifs at result
  obtain ⟨b, applied, finished⟩ := bind_ok_iff.mp result
  cases finished
  refine (applyAll_answers applied).trans (and_iff_right fun _ member => ?_)
  exact absurd member List.not_mem_nil

/-- Two states that differ in the journals of other roots: a push is answered alike where no other
root has recorded an id of it. An accepted one is answered alike and with operations of the root
exactly in that case. -/
theorem push_answers_stay_on_root {a b : SyncDb} {loaded : Nat} {clientId : String}
    {entries : List (SyncOperationInput × FreshIds)} {now : Timestamp} (alike : a.ownRows = b.ownRows)
    (drawn : ∀ entry ∈ entries, Drawn a entry.2 ∧ Drawn b entry.2) :
    ((∀ entry ∈ entries, OwnId a entry.1 ∧ OwnId b entry.1) →
      pushOperations a loaded clientId entries now = pushOperations b loaded clientId entries now) ∧
    ∀ x y, applyOperations a loaded clientId entries now = .ok x →
      applyOperations b loaded clientId entries now = .ok y →
      ((∀ operation ∈ x.operations, operation.rootId = a.root.id) ∧
        (∀ operation ∈ y.operations, operation.rootId = b.root.id) ∧ x.response = y.response ↔
        ∀ entry ∈ entries, OwnId a entry.1 ∧ OwnId b entry.1) := by
  have same : (∀ entry ∈ entries, OwnId a entry.1 ∧ OwnId b entry.1) →
      pushOperations a loaded clientId entries now = pushOperations b loaded clientId entries now := by
    intro own
    rw [pushOperations_ownRows (fun entry member => (own entry member).1)
      fun entry member => (drawn entry member).1, alike,
      ← pushOperations_ownRows (fun entry member => (own entry member).2)
        fun entry member => (drawn entry member).2]
  refine ⟨same, fun x y first second => ?_⟩
  rw [applyOperations_answers first, applyOperations_answers second]
  constructor
  · exact fun ⟨left, right, _⟩ entry member => ⟨left entry member, right entry member⟩
  · intro own
    refine ⟨fun entry member => (own entry member).1, fun entry member => (own entry member).2, ?_⟩
    have responses := same own
    unfold pushOperations at responses
    rw [first, second] at responses
    exact Except.ok.inj responses

/-- An upload in the journal of another account's root. -/
def strangersUpload : SyncOperation where
  id := 500
  rootId := 2
  cursor := 1
  clientId := "phone"
  clientSequence := 1
  operationId := 50
  kind := .upsert
  logicalId := 51
  baseRevision := none
  revision := some (nextRevision 1 50)
  payload :=
    { relativePath := some "private/diary.jpg", assetId := some 52
      originalUrl := some "/api/v1/assets/52/original", filename := some "diary.jpg"
      checksum := some "5252" }
  status := .applied

def sharedServer : SyncDb := { registeredRoot with operations := [strangersUpload] }

theorem push_answers_stay_on_root_removal :
    ∃ x y, applyOperations registeredRoot 0 "desk" [removal 1] 5 = .ok x ∧
      applyOperations sharedServer 0 "desk" [removal 1] 5 = .ok y ∧ x.response.operations.length = 1 ∧
      (∀ operation ∈ y.operations, operation.rootId = sharedServer.root.id) ∧ x.response = y.response := by
  have pushed : (applyOperations registeredRoot 0 "desk" [removal 1] 5).toOption.any fun x =>
      x.response.operations.length = 1 := by decide
  have shared : (applyOperations sharedServer 0 "desk" [removal 1] 5).toOption.isSome := by decide
  obtain ⟨x, first, answered⟩ := (Option.any_eq_true _ _).mp pushed
  obtain ⟨y, second⟩ := Option.isSome_iff_exists.mp shared
  have drawn : ∀ entry ∈ [removal 1], Drawn registeredRoot entry.2 ∧ Drawn sharedServer entry.2 := by
    intro entry member
    rw [List.mem_singleton.mp member]
    exact ⟨⟨by decide, by decide⟩, ⟨by decide, by decide⟩⟩
  have alike : registeredRoot.ownRows = sharedServer.ownRows := rfl
  have whole := (push_answers_stay_on_root alike drawn).2 x y (toOption_some_iff.mp first)
    (toOption_some_iff.mp second)
  obtain ⟨_, own, same⟩ := whole.mpr (by decide)
  exact ⟨x, y, toOption_some_iff.mp first, toOption_some_iff.mp second, of_decide_eq_true answered, own, same⟩

/-- A push whose operation id is that of the other account's upload is answered with the upload. -/
theorem used_operation_id_discloses_upload :
    registeredRoot.ownRows = sharedServer.ownRows ∧
    ∃ x y, applyOperations registeredRoot 0 "desk" [removal 50] 5 = .ok x ∧
      applyOperations sharedServer 0 "desk" [removal 50] 5 = .ok y ∧
      (∃ operation ∈ y.operations, operation.rootId ≠ sharedServer.root.id ∧
        operation.payload.filename = some "diary.jpg") ∧ x.response ≠ y.response := by
  refine ⟨rfl, ?_⟩
  have violated : (applyOperations registeredRoot 0 "desk" [removal 50] 5).toOption.any fun x =>
      (applyOperations sharedServer 0 "desk" [removal 50] 5).toOption.any fun y =>
        (∃ operation ∈ y.operations, operation.rootId ≠ sharedServer.root.id ∧
          operation.payload.filename = some "diary.jpg") ∧ x.response ≠ y.response := by decide
  obtain ⟨x, first, violated⟩ := (Option.any_eq_true _ _).mp violated
  obtain ⟨y, second, violated⟩ := (Option.any_eq_true _ _).mp violated
  exact ⟨x, y, toOption_some_iff.mp first, toOption_some_iff.mp second, of_decide_eq_true violated⟩

end Drivebound.Sync
