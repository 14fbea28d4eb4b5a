import Drivebound.Sync.Cursors
import Drivebound.Sync.Refusals

/-! A refused operation of a batch and the operations after it. They find the rows that it found,
and end as they do in a batch where its cursor is taken and nothing is recorded under it. A
resolution that raises leaves every row as it was. -/
namespace Drivebound.Sync
open Checked

/-- An input about an operation that is recorded: it has its id or its sequence number. -/
def SyncOperation.Repeats (operation : SyncOperation) (input : SyncOperationInput) : Prop :=
  operation.operationId = input.operationId ∨ operation.clientSequence = input.clientSequence

instance (operation : SyncOperation) : DecidablePred operation.Repeats := fun _ =>
  inferInstanceAs (Decidable (_ ∨ _))

/-- `c` is `b` with the record of one refused operation after the rows `old`. -/
structure Besides (clientId : String) (old : List SyncOperation) (operation : SyncOperation)
    (conflict : SyncConflict) (b c : Batch) : Prop where
  author : operation.clientId = clientId
  rootId : operation.rootId = b.db.root.id
  refused : operation.status = .conflict
  cursor : c.cursor = b.cursor
  rows : ∃ new, b.db.operations = old ++ new ∧ c.db.operations = old ++ operation :: new
  conflicts : ∃ old new, b.db.conflicts = old ++ new ∧ c.db.conflicts = old ++ conflict :: new
  same : c.db = b.db.rejournal c.db.operations c.db.conflicts

namespace Besides

variable {clientId : String} {old : List SyncOperation} {operation : SyncOperation}
  {conflict : SyncConflict} {b c : Batch} {input : SyncOperationInput}

theorem find?_beside {p : α → Bool} {a : α} (old new : List α) (skips : ¬ p a = true) :
    (old ++ a :: new).find? p = (old ++ new).find? p := by
  rw [List.find?_append, List.find?_append, List.find?_cons_of_neg skips]

theorem root (besides : Besides clientId old operation conflict b c) : c.db.root = b.db.root := by
  rw [besides.same]
  rfl

theorem item? (besides : Besides clientId old operation conflict b c) (logicalId : UUID) :
    c.db.item? logicalId = b.db.item? logicalId := by
  rw [besides.same]
  rfl

theorem member (besides : Besides clientId old operation conflict b c) : operation ∈ c.db.operations := by
  obtain ⟨new, _, rows⟩ := besides.rows
  rw [rows]
  exact List.mem_append_right _ List.mem_cons_self

/-- An input about another operation is looked up as if there were no record. -/
theorem duplicate? (besides : Besides clientId old operation conflict b c) (apart : ¬ operation.Repeats input) :
    duplicate? c.db clientId input = Sync.duplicate? b.db clientId input := by
  obtain ⟨new, before, rows⟩ := besides.rows
  have otherId : operation.operationId ≠ input.operationId := fun same => apart (.inl same)
  have otherSequence : operation.clientSequence ≠ input.clientSequence := fun same => apart (.inr same)
  unfold Sync.duplicate?
  rw [besides.root, rows, before, find?_beside, find?_beside]
  · simp only [decide_eq_true_eq]
    exact fun holds => otherSequence holds.2.2
  · simpa only [decide_eq_true_eq] using otherId

/-- An input about the refused operation is answered from the journal. -/
theorem recorded (besides : Besides clientId old operation conflict b c) (repeats : operation.Repeats input) :
    (Sync.duplicate? c.db clientId input).isSome := by
  unfold Sync.duplicate?
  rw [Option.isSome_or, Bool.or_eq_true, List.find?_isSome, List.find?_isSome]
  rcases repeats with same | same
  · exact .inl ⟨operation, besides.member, decide_eq_true same⟩
  · exact .inr ⟨operation, besides.member,
      decide_eq_true ⟨besides.rootId.trans (congrArg SyncRoot.id besides.root.symm), besides.author, same⟩⟩

theorem lastApplied? (besides : Besides clientId old operation conflict b c) (logicalId : UUID) :
    c.db.lastApplied? logicalId = b.db.lastApplied? logicalId := by
  obtain ⟨new, before, rows⟩ := besides.rows
  unfold SyncDb.lastApplied?
  rw [besides.root, rows, before, List.filter_append, List.filter_append, List.filter_cons_of_neg]
  simp only [decide_eq_true_eq, besides.refused]
  exact fun holds => nomatch holds.2.2

/-- The same rows are added to both. -/
theorem add {row : SyncOperation} {db : SyncDb} (besides : Besides clientId old operation conflict b c)
    (journal : SameJournal b.db db) (operations : List SyncOperation) (answers : List SyncOperation) :
    Besides clientId old operation conflict
      { b with
        cursor := row.cursor, db := { db with operations := b.db.operations ++ [row] }, operations }
      { c with
        cursor := row.cursor
        db := { db.rejournal c.db.operations c.db.conflicts with operations := c.db.operations ++ [row] }
        operations := answers } := by
  obtain ⟨new, before, rows⟩ := besides.rows
  obtain ⟨oldConflicts, newConflicts, beforeConflicts, conflicts⟩ := besides.conflicts
  refine ⟨besides.author, ?_, besides.refused, rfl, ⟨new ++ [row], ?_, ?_⟩,
    ⟨oldConflicts, newConflicts, ?_, conflicts⟩, rfl⟩
  · exact besides.rootId.trans (congrArg SyncRoot.id journal.root.symm)
  · simp only [before, List.append_assoc]
  · simp only [rows, List.append_assoc, List.cons_append]
  · exact journal.conflicts.trans beforeConflicts

theorem refuse (besides : Besides clientId old operation conflict b c) (row : SyncOperation)
    (about : SyncConflict) :
    Besides clientId old operation conflict (b.refuse row about) (c.refuse row about) := by
  obtain ⟨new, before, rows⟩ := besides.rows
  obtain ⟨oldConflicts, newConflicts, beforeConflicts, conflicts⟩ := besides.conflicts
  refine ⟨besides.author, besides.rootId, besides.refused, rfl, ⟨new ++ [row], ?_, ?_⟩,
    ⟨oldConflicts, newConflicts ++ [about], ?_, ?_⟩, ?_⟩
  · simp only [Batch.refuse, before, List.append_assoc]
  · simp only [Batch.refuse, rows, List.append_assoc, List.cons_append]
  · simp only [Batch.refuse, beforeConflicts, List.append_assoc]
  · simp only [Batch.refuse, conflicts, List.append_assoc, List.cons_append]
  · unfold Batch.refuse
    rw [besides.same]
    rfl

theorem newOperation (besides : Besides clientId old operation conflict b c) (fresh : FreshIds) :
    newOperation c clientId input fresh = Sync.newOperation b clientId input fresh := by
  unfold Sync.newOperation
  rw [besides.cursor, besides.root]

/-- Ids that are unused beside the record are unused without it. -/
theorem unused {key : α → UUID} {id : UUID} {row : α} {before after : List α}
    (rows : ∃ old new, before = old ++ new ∧ after = old ++ row :: new)
    (free : ∀ other ∈ after, key other ≠ id) : ∀ other ∈ before, key other ≠ id := by
  obtain ⟨old, new, rfl, rfl⟩ := rows
  intro other member
  refine free other ?_
  rcases List.mem_append.mp member with here | here
  · exact List.mem_append_left _ here
  · exact List.mem_append_right _ (List.mem_cons_of_mem _ here)

variable {after : Batch} {now : Timestamp} {fresh : FreshIds}

theorem applied (besides : Besides clientId old operation conflict b c)
    (new : Sync.duplicate? b.db clientId input = none) {db : SyncDb} {row : SyncOperation}
    (agreed : baseConflict input (b.db.item? input.logicalId) = none)
    (once : applyItemOperation c.db (Sync.newOperation b clientId input fresh) input
      (b.db.item? input.logicalId) fresh now = .ok (db, row))
    (recorded : recordOperation c db row = .ok after) :
    ∃ skipped, applyOne clientId now b (input, fresh) = .ok skipped ∧
      Besides clientId old operation conflict skipped after := by
  rw [besides.same, applyItemOperation_rejournal] at once
  cases result : applyItemOperation b.db (Sync.newOperation b clientId input fresh) input
      (b.db.item? input.logicalId) fresh now with
  | error r =>
    rw [result] at once
    contradiction
  | ok pair =>
    rw [result] at once
    cases once
    have journal : SameJournal b.db pair.1 := ((applyItemOperation_applied ..).value result).1
    obtain ⟨free, rfl⟩ := recordOperation_ok_iff.mp recorded
    have unused : ∀ other ∈ pair.1.operations, other.id ≠ pair.2.id := by
      rw [journal.operations]
      exact Besides.unused ⟨old, besides.rows⟩ free
    refine ⟨_, ?_, besides.add journal (b.operations ++ [pair.2]) _⟩
    simp only [applyOne, new, agreed, result]
    refine recordOperation_ok_iff.mpr ⟨unused, ?_⟩
    rw [journal.operations]

theorem refusedAgain (besides : Besides clientId old operation conflict b c)
    (new : Sync.duplicate? b.db clientId input = none) {kind : ConflictKind}
    (cause : baseConflict input (b.db.item? input.logicalId) = some kind ∨
      baseConflict input (b.db.item? input.logicalId) = none ∧ kind = .invalidTransition ∧
        ∃ message, applyItemOperation c.db (Sync.newOperation b clientId input fresh) input
          (b.db.item? input.logicalId) fresh now = .error ⟨.valueError message, c.db⟩)
    (recorded : recordConflict c c.db (Sync.newOperation b clientId input fresh) input
      (b.db.item? input.logicalId) fresh kind = .ok after) :
    ∃ skipped, applyOne clientId now b (input, fresh) = .ok skipped ∧
      Besides clientId old operation conflict skipped after := by
  obtain ⟨apart, free, rfl⟩ := recordConflict_ok_iff.mp recorded
  have same : openConflict c.db (Sync.newOperation b clientId input fresh) input
      (b.db.item? input.logicalId) fresh kind =
        openConflict b.db (Sync.newOperation b clientId input fresh) input
          (b.db.item? input.logicalId) fresh kind := by
    unfold openConflict
    rw [besides.root, besides.lastApplied?]
  have alone : recordConflict b b.db (Sync.newOperation b clientId input fresh) input
      (b.db.item? input.logicalId) fresh kind = .ok _ :=
    recordConflict_ok_iff.mpr ⟨Besides.unused besides.conflicts apart,
      Besides.unused ⟨old, besides.rows⟩ free, rfl⟩
  rw [same]
  refine ⟨_, ?_, besides.refuse _ _⟩
  rcases cause with stale | ⟨agreed, rfl, message, raised⟩
  · simp only [applyOne, new, stale]
    exact alone
  · rw [besides.same, applyItemOperation_rejournal] at raised
    cases result : applyItemOperation b.db (Sync.newOperation b clientId input fresh) input
        (b.db.item? input.logicalId) fresh now with
    | ok pair =>
      rw [result] at raised
      contradiction
    | error r =>
      rw [result] at raised
      obtain ⟨failure, db⟩ := r
      simp only [rejournaled, Except.error.injEq, Raised.mk.injEq] at raised
      obtain ⟨rfl, _⟩ := raised
      have unchanged : db = b.db := (applyItemOperation_refuses ..).raised result message rfl
      subst unchanged
      simp only [applyOne, new, agreed, result]
      exact alone

/-- A turn for another operation goes as it does without the record. -/
theorem turn (besides : Besides clientId old operation conflict b c) (apart : ¬ operation.Repeats input)
    (result : applyOne clientId now c (input, fresh) = .ok after) :
    ∃ skipped, applyOne clientId now b (input, fresh) = .ok skipped ∧
      Besides clientId old operation conflict skipped after := by
  cases found : Sync.duplicate? b.db clientId input with
  | some duplicate =>
    have there := (besides.duplicate? apart).trans found
    simp only [applyOne, there, Except.ok.injEq] at result
    subst result
    refine ⟨{ b with operations := b.operations ++ [duplicate] }, ?_, besides.author, besides.rootId,
      besides.refused, besides.cursor, besides.rows, besides.conflicts, besides.same⟩
    simp only [applyOne, found]
  | none =>
    have outcome := applyOne_outcome ((besides.duplicate? apart).trans found) result
    cases outcome with
    | applied db row agreed once recorded =>
      rw [besides.item?] at agreed once
      rw [besides.newOperation] at once
      exact besides.applied found agreed once recorded
    | refused kind cause recorded =>
      rw [besides.item?, besides.newOperation] at cause
      rw [besides.item?, besides.newOperation] at recorded
      exact besides.refusedAgain found cause recorded

/-- The rest of the batch goes as it does without the record, where it is not about it. -/
theorem rest {entries : List (SyncOperationInput × FreshIds)}
    (besides : Besides clientId old operation conflict b c)
    (result : applyAll clientId now c entries = .ok after) :
    ∃ skipped, applyAll clientId now b (entries.filter fun entry => ¬ operation.Repeats entry.1) =
      .ok skipped ∧ Besides clientId old operation conflict skipped after := by
  induction entries generalizing b c with
  | nil =>
    cases result
    exact ⟨b, rfl, besides⟩
  | cons entry others ih =>
    obtain ⟨middle, first, remaining⟩ := bind_ok_iff.mp result
    by_cases repeats : operation.Repeats entry.1
    · rw [List.filter_cons_of_neg (by simpa using repeats)]
      obtain ⟨duplicate, found⟩ := Option.isSome_iff_exists.mp (besides.recorded repeats)
      obtain ⟨input, fresh⟩ := entry
      simp only [applyOne, found, Except.ok.injEq] at first
      subst first
      have still : Besides clientId old operation conflict b
          { c with operations := c.operations ++ [duplicate] } :=
        ⟨besides.author, besides.rootId, besides.refused, besides.cursor, besides.rows,
          besides.conflicts, besides.same⟩
      exact ih still remaining
    · rw [List.filter_cons_of_pos (by simpa using repeats)]
      obtain ⟨skipped, alone, still⟩ := besides.turn repeats first
      obtain ⟨final, rest, whole⟩ := ih still remaining
      exact ⟨final, bind_ok_iff.mpr ⟨skipped, alone, rest⟩, whole⟩

end Besides

/-- A turn that records a conflict adds the record to the batch, and nothing else. -/
theorem applyOne_refuses {b after : Batch} {clientId : String} {now : Timestamp}
    {entry : SyncOperationInput × FreshIds} {operation : SyncOperation}
    (result : applyOne clientId now b entry = .ok after)
    (recorded : after.db.operations = b.db.operations ++ [operation])
    (refused : operation.status = .conflict) :
    operation.rootId = b.db.root.id ∧ operation.clientId = clientId ∧
      ∃ conflict, after = b.refuse operation conflict := by
  obtain ⟨input, fresh⟩ := entry
  cases found : duplicate? b.db clientId input with
  | some duplicate =>
    simp only [applyOne, found, Except.ok.injEq] at result
    subst result
    exact absurd recorded (by simp)
  | none =>
    cases applyOne_outcome found result with
    | applied db row agreed once kept =>
      obtain ⟨journal, payload, rfl⟩ := (applyItemOperation_applied ..).value once
      obtain ⟨_, rfl⟩ := recordOperation_ok_iff.mp kept
      have rows : db.operations ++ [{ newOperation b clientId input fresh with payload }] =
          b.db.operations ++ [operation] := recorded
      rw [journal.operations] at rows
      rw [← List.singleton_inj.mp (List.append_cancel_left rows)] at refused
      contradiction
    | refused kind cause kept =>
      obtain ⟨_, _, rfl⟩ := recordConflict_ok_iff.mp kept
      simp only [Batch.refuse, List.append_cancel_left_eq, List.cons.injEq, and_true] at recorded
      subst recorded
      exact ⟨rfl, rfl, _, rfl⟩

/-- The record of a refused operation beside a batch that only takes its cursor. -/
theorem Besides.refused_turn {b : Batch} {clientId : String} {operation : SyncOperation}
    (conflict : SyncConflict) (rootId : operation.rootId = b.db.root.id)
    (author : operation.clientId = clientId) (refused : operation.status = .conflict) :
    Besides clientId b.db.operations operation conflict { b with cursor := operation.cursor }
      (b.refuse operation conflict) :=
  ⟨author, rootId, refused, rfl, ⟨[], (List.append_nil _).symm, rfl⟩,
    ⟨b.db.conflicts, [], (List.append_nil _).symm, rfl⟩, rfl⟩

theorem applyAll_split {b after : Batch} {clientId : String} {now : Timestamp}
    {earlier later : List (SyncOperationInput × FreshIds)} {entry : SyncOperationInput × FreshIds}
    (result : applyAll clientId now b (earlier ++ entry :: later) = .ok after) :
    ∃ before middle, applyAll clientId now b earlier = .ok before ∧
      applyOne clientId now before entry = .ok middle ∧
      applyAll clientId now middle later = .ok after := by
  induction earlier generalizing b with
  | nil =>
    obtain ⟨middle, first, remaining⟩ := bind_ok_iff.mp result
    exact ⟨b, middle, rfl, first, remaining⟩
  | cons first others ih =>
    obtain ⟨next, once, remaining⟩ := bind_ok_iff.mp result
    obtain ⟨before, middle, reached, turn, rest⟩ := ih remaining
    exact ⟨before, middle, bind_ok_iff.mpr ⟨next, once, reached⟩, turn, rest⟩

/-- `keep_local` with the rows as they are where it raises. -/
def keepLocalRaising (db : SyncDb) (operation : SyncOperation) (fresh : FreshIds) (now : Timestamp) :
    Except Raised SyncDb := do
  let input ← (storedInput operation).mapError fun failure => (⟨failure, db⟩ : Raised)
  let item := db.item? operation.logicalId
  let (db, operation) ← applyItemOperation db operation input item fresh now
  let cursor := db.root.cursor + 1
  let revision := nextRevision cursor operation.operationId
  let db := { db with root := { db.root with cursor } }
  let db := db.stampItem operation.logicalId revision
  .ok (db.updateOperation operation.id fun _ =>
    { operation with cursor, revision := some revision, status := .applied })

/-- `resolve_conflict` with the rows as they are where it raises. -/
def resolveConflictRaising (db : SyncDb) (loaded : SyncConflict) (choice : Choice)
    (fresh : FreshIds) (now : Timestamp) : Except Raised SyncDb :=
  if loaded.rootId ≠ db.root.id then raised db "Sync conflict is incomplete"
  else if !db.userAvailable then raised db "Account is unavailable"
  else if !db.root.active then raised db "Sync conflict is incomplete"
  else if !db.conflicts.any (fun conflict =>
      conflict.id = loaded.id ∧ conflict.rootId = db.root.id) then
    raised db "Sync conflict is incomplete"
  else if loaded.status ≠ .unresolved then .ok db
  else
    match db.operation? loaded.localOperationId with
    | none => raised db "Sync conflict is incomplete"
    | some operation => do
      let db ← match choice with
        | .keepLocal => keepLocalRaising db operation fresh now
        | .keepRemote =>
          .ok (db.updateOperation operation.id fun operation =>
            { operation with status := .rejected })
      .ok (db.updateConflict loaded.id fun conflict =>
        { conflict with
          status := .resolved, resolution := some choice, resolvedAt := some now })

theorem keepLocalRaising_failure (db : SyncDb) (operation : SyncOperation) (fresh : FreshIds)
    (now : Timestamp) :
    (keepLocalRaising db operation fresh now).mapError Raised.failure =
      keepLocal db operation fresh now := by
  unfold keepLocalRaising keepLocal
  cases storedInput operation with
  | error failure => rfl
  | ok input =>
    change Except.mapError Raised.failure (applyItemOperation db operation input _ fresh now >>= _) =
      Except.mapError Raised.failure (applyItemOperation db operation input _ fresh now) >>= _
    cases applyItemOperation db operation input (db.item? operation.logicalId) fresh now <;> rfl

theorem resolveConflictRaising_failure (db : SyncDb) (loaded : SyncConflict) (choice : Choice)
    (fresh : FreshIds) (now : Timestamp) :
    (resolveConflictRaising db loaded choice fresh now).mapError Raised.failure =
      resolveConflict db loaded choice fresh now := by
  unfold resolveConflictRaising resolveConflict
  split_ifs
  · rfl
  · rfl
  · rfl
  · rfl
  · rfl
  · cases db.operation? loaded.localOperationId with
    | none => rfl
    | some operation =>
      cases choice with
      | keepRemote => rfl
      | keepLocal =>
        dsimp only
        rw [← keepLocalRaising_failure]
        cases keepLocalRaising db operation fresh now <;> rfl

theorem keepLocalRaising_refuses (db : SyncDb) (operation : SyncOperation) (fresh : FreshIds)
    (now : Timestamp) : Refuses db (keepLocalRaising db operation fresh now) := by
  unfold keepLocalRaising
  refine Ends.bind ((Ends.trivial _).mapError fun _ _ _ _ => rfl) fun input _ => ?_
  exact (applyItemOperation_refuses ..).bind fun _ _ => True.intro

theorem resolveConflictRaising_refuses (db : SyncDb) (loaded : SyncConflict) (choice : Choice)
    (fresh : FreshIds) (now : Timestamp) :
    Refuses db (resolveConflictRaising db loaded choice fresh now) := by
  unfold resolveConflictRaising
  split_ifs
  · exact fun _ _ => rfl
  · exact fun _ _ => rfl
  · exact fun _ _ => rfl
  · exact fun _ _ => rfl
  · trivial
  · split
    · exact fun _ _ => rfl
    · cases choice with
      | keepRemote => trivial
      | keepLocal => exact (keepLocalRaising_refuses ..).bind fun _ _ => True.intro

/-- In every batch, an operation that is recorded as a conflict leaves the items and the assets, and
the operations after it end as they do where it only takes its cursor. A resolution that raises
a `ValueError` leaves every row. -/
theorem refusals_change_nothing :
    (∀ (db : SyncDb) (loaded : Nat) (clientId : String) (now : Timestamp)
      (earlier later : List (SyncOperationInput × FreshIds)) (entry : SyncOperationInput × FreshIds)
      (after : Batch),
      applyOperations db loaded clientId (earlier ++ entry :: later) now = .ok after →
      ∃ before middle, applyAll clientId now ⟨loaded, db, [], []⟩ earlier = .ok before ∧
        applyOne clientId now before entry = .ok middle ∧
        ∀ operation, middle.db.operations = before.db.operations ++ [operation] →
          operation.status = .conflict →
          middle.db.items = before.db.items ∧ middle.db.assets = before.db.assets ∧
          ∃ skipped, applyAll clientId now { before with cursor := operation.cursor }
              (later.filter fun entry => ¬ operation.Repeats entry.1) = .ok skipped ∧
            after.db.items = skipped.db.items ∧ after.db.assets = skipped.db.assets ∧
            ∃ new, skipped.db.operations = before.db.operations ++ new ∧
              after.db.operations = before.db.operations ++ operation :: new) ∧
    ∀ (db after : SyncDb) (conflict : SyncConflict) (choice : Choice) (fresh : FreshIds)
      (now : Timestamp) (message : String),
      resolveConflictRaising db conflict choice fresh now = .error ⟨.valueError message, after⟩ →
      after = db := by
  refine ⟨fun db loaded clientId now earlier later entry after result => ?_,
    fun db after conflict choice fresh now message raised =>
      (resolveConflictRaising_refuses ..).raised raised message rfl⟩
  unfold applyOperations at result
  split_ifs at result
  obtain ⟨final, whole, finished⟩ := bind_ok_iff.mp result
  cases finished
  obtain ⟨before, middle, reached, turn, rest⟩ := applyAll_split whole
  refine ⟨before, middle, reached, turn, fun operation recorded refused => ?_⟩
  obtain ⟨rootId, author, conflict, rfl⟩ := applyOne_refuses turn recorded refused
  have besides := Besides.refused_turn conflict rootId author refused
  obtain ⟨skipped, alone, same⟩ := besides.rest rest
  refine ⟨rfl, rfl, skipped, alone, ?_, ?_, same.rows⟩
  · rw [same.same]
    rfl
  · rw [same.same]
    rfl

/-- An upsert of an asset that is not there. -/
def missingUpload : SyncOperationInput × FreshIds :=
  ({ operationId := 7, clientSequence := 7, kind := .upsert, logicalId := 7, baseRevision := none
     relativePath := some "b.txt", assetId := some 99 },
    { operation := 70, item := 71, asset := 72, conflict := 73 })

theorem refusals_change_nothing_upload :
    ∃ after before middle operation conflict message rows,
      applyOperations registeredRoot 0 "desk" ([removal 1] ++ missingUpload :: [removal 2]) 5 = .ok after ∧
      applyOne "desk" 5 before missingUpload = .ok middle ∧ operation ∈ middle.db.operations ∧
      operation.status = .conflict ∧ middle.db.items = before.db.items ∧
      middle.db.assets = before.db.assets ∧
      resolveConflictRaising after.db conflict .keepLocal (removal 3).2 6 =
        .error ⟨.valueError message, rows⟩ ∧ rows = after.db := by
  have pushes : (applyOperations registeredRoot 0 "desk"
      ([removal 1] ++ missingUpload :: [removal 2]) 5).toOption.any fun after =>
      after.db.conflicts.any fun conflict =>
        match resolveConflictRaising after.db conflict .keepLocal (removal 3).2 6 with
        | .error r => r.failure = .valueError "The uploaded asset is unavailable"
        | .ok _ => false := by decide
  have refuses : (applyAll "desk" 5 ⟨0, registeredRoot, [], []⟩ [removal 1]).toOption.any fun before =>
      (applyOne "desk" 5 before missingUpload).toOption.any fun middle =>
        middle.db.operations.any fun operation => operation.status = .conflict ∧
          middle.db.operations = before.db.operations ++ [operation] := by decide
  obtain ⟨after, pushed, raises⟩ := (Option.any_eq_true _ _).mp pushes
  obtain ⟨conflict, _, raises⟩ := List.any_eq_true.mp raises
  obtain ⟨before, middle, reached, turn, untouched⟩ :=
    refusals_change_nothing.1 _ _ _ _ _ _ _ _ (toOption_some_iff.mp pushed)
  rw [reached] at refuses
  simp only [Except.toOption, Option.any_some, turn] at refuses
  obtain ⟨operation, member, found⟩ := List.any_eq_true.mp refuses
  obtain ⟨refused, recorded⟩ := of_decide_eq_true found
  obtain ⟨items, assets, _⟩ := untouched operation recorded refused
  cases raised : resolveConflictRaising after.db conflict .keepLocal (removal 3).2 6 with
  | ok rows =>
    rw [raised] at raises
    contradiction
  | error r =>
    obtain ⟨failure, rows⟩ := r
    rw [raised] at raises
    have value : failure = .valueError "The uploaded asset is unavailable" := of_decide_eq_true raises
    subst value
    exact ⟨after, before, middle, operation, conflict, _, rows, toOption_some_iff.mp pushed, turn, member,
      refused, items, assets, raised, refusals_change_nothing.2 _ _ _ _ _ _ _ raised⟩

end Drivebound.Sync
