import Mathlib.Data.List.Nodup
import Drivebound.Sync.Frame
import Drivebound.Sync.Requests

/-! Journal cursors. The cursor of a root counts its journal: every operation of
the root has its own cursor, none beyond the root's. A transaction keeps this and
only advances the root's cursor, provided that the cursor it counts from is the
committed one. A push that waited for the lock counts from the cursor it read
before, so the provision is about what it finds when the lock is granted. -/
namespace Drivebound.Sync
open Checked Sessions Run

/-- The operations of root `rootId` carry distinct cursors up to `cursor`. -/
structure Issued (rootId : UUID) (operations : List SyncOperation) (cursor : Nat) : Prop where
  keys : (operations.map SyncOperation.id).Nodup
  distinct : ∀ a ∈ operations, ∀ b ∈ operations, a.rootId = rootId → b.rootId = rootId →
    a.cursor = b.cursor → a.id = b.id
  bounded : ∀ a ∈ operations, a.rootId = rootId → a.cursor ≤ cursor

namespace Issued

variable {rootId : UUID} {operations : List SyncOperation} {cursor : Nat}

/-- Two rows of one root share a cursor only if they are one row. -/
theorem unique (issued : Issued rootId operations cursor) (first : a ∈ operations)
    (second : b ∈ operations) (left : a.rootId = rootId) (right : b.rootId = rootId)
    (same : a.cursor = b.cursor) : a = b :=
  List.inj_on_of_nodup_map issued.keys first second
    (issued.distinct a first b second left right same)

theorem append (issued : Issued rootId operations cursor) {operation : SyncOperation}
    (unused : ∀ other ∈ operations, other.id ≠ operation.id)
    (next : operation.cursor = cursor + 1) :
    Issued rootId (operations ++ [operation]) (cursor + 1) := by
  have beyond : ∀ a ∈ operations, a.rootId = rootId → a.cursor ≠ operation.cursor := by
    intro a member root
    have := issued.bounded a member root
    omega
  refine ⟨?_, ?_, ?_⟩
  · rw [List.map_append, List.nodup_append]
    refine ⟨issued.keys, List.nodup_singleton _, ?_⟩
    intro key member other single
    obtain ⟨a, found, rfl⟩ := List.mem_map.mp member
    rw [List.mem_singleton.mp single]
    exact unused a found
  · intro a first b second left right same
    rcases List.mem_append.mp first with first | first <;>
      rcases List.mem_append.mp second with second | second
    · exact issued.distinct a first b second left right same
    · rw [List.mem_singleton.mp second] at same
      exact absurd same (beyond a first left)
    · rw [List.mem_singleton.mp first] at same
      exact absurd same.symm (beyond b second right)
    · rw [List.mem_singleton.mp first, List.mem_singleton.mp second]
  · intro a member root
    rcases List.mem_append.mp member with member | member
    · have := issued.bounded a member root
      omega
    · rw [List.mem_singleton.mp member]
      exact Nat.le_of_eq next

/-- Rewriting the rows in place, where every row of the root keeps its cursor or
is the one that takes the next cursor. -/
theorem rewrite (issued : Issued rootId operations cursor) {change : SyncOperation → SyncOperation}
    (keepsId : ∀ a ∈ operations, (change a).id = a.id)
    (keepsRoot : ∀ a ∈ operations, (change a).rootId = a.rootId)
    (target : UUID) (reached : cursor ≤ limit)
    (others : ∀ a ∈ operations, a.id ≠ target → (change a).cursor = a.cursor)
    (own : ∀ a ∈ operations, a.id = target → (change a).cursor = a.cursor ∨
      (cursor < (change a).cursor ∧ (change a).cursor ≤ limit)) :
    Issued rootId (operations.map change) limit := by
  have bound : ∀ a ∈ operations, a.rootId = rootId → (change a).cursor ≤ limit := by
    intro a member root
    have before := issued.bounded a member root
    by_cases same : a.id = target
    · rcases own a member same with kept | ⟨_, below⟩
      · omega
      · exact below
    · rw [others a member same]
      omega
  have apart : ∀ a ∈ operations, ∀ b ∈ operations, a.rootId = rootId → b.rootId = rootId →
      a.id ≠ target → (change a).cursor = (change b).cursor → a.id = b.id := by
    intro a first b second left right different same
    rw [others a first different] at same
    by_cases other : b.id = target
    · rcases own b second other with kept | ⟨above, _⟩
      · exact issued.distinct a first b second left right (same.trans kept)
      · have := issued.bounded a first left
        omega
    · rw [others b second other] at same
      exact issued.distinct a first b second left right same
  refine ⟨?_, ?_, ?_⟩
  · have same : (operations.map change).map SyncOperation.id =
        operations.map SyncOperation.id := by
      rw [List.map_map]
      exact List.map_congr_left keepsId
    rw [same]
    exact issued.keys
  · intro a' first b' second left right same
    obtain ⟨a, one, rfl⟩ := List.mem_map.mp first
    obtain ⟨b, two, rfl⟩ := List.mem_map.mp second
    rw [keepsRoot a one] at left
    rw [keepsRoot b two] at right
    rw [keepsId a one, keepsId b two]
    by_cases mine : a.id = target
    · by_cases yours : b.id = target
      · exact mine.trans yours.symm
      · exact (apart b two a one right left yours same.symm).symm
    · exact apart a one b two left right mine same
  · intro a' member root
    obtain ⟨a, found, rfl⟩ := List.mem_map.mp member
    rw [keepsRoot a found] at root
    exact bound a found root

end Issued

/-- The committed cursors of a root are in order. -/
def CursorInv (db : SyncDb) : Prop := Issued db.root.id db.operations db.root.cursor

/-- A batch appends operations of its client beyond the cursor it counts from. -/
structure Appends (clientId : String) (b after : Batch) : Prop where
  added : ∃ new, after.db.operations = b.db.operations ++ new ∧
    ∀ operation ∈ new, b.cursor < operation.cursor ∧ operation.clientId = clientId
  root : after.db.root = b.db.root
  cursor : b.cursor ≤ after.cursor

theorem applyOne_appends {b after : Batch}
    (result : applyOne clientId now b entry = .ok after) : Appends clientId b after := by
  rcases applyOne_cases result with ⟨duplicate, _, rfl⟩ | ⟨_, operation, recorded, author⟩
  · exact ⟨⟨[], (List.append_nil _).symm, by simp⟩, rfl, Nat.le_refl _⟩
  · refine ⟨⟨[operation], recorded.appended, ?_⟩, recorded.root, ?_⟩
    · intro other single
      rw [List.mem_singleton.mp single, recorded.cursor]
      exact ⟨Nat.lt_succ_self _, author⟩
    · rw [recorded.advanced]
      exact Nat.le_succ _

theorem Appends.trans (first : Appends clientId b middle) (second : Appends clientId middle after) :
    Appends clientId b after := by
  obtain ⟨new, appended, mine⟩ := first.added
  obtain ⟨later, appendedLater, mineLater⟩ := second.added
  refine ⟨⟨new ++ later, ?_, ?_⟩, second.root.trans first.root,
    Nat.le_trans first.cursor second.cursor⟩
  · rw [appendedLater, appended, List.append_assoc]
  · intro operation member
    rcases List.mem_append.mp member with member | member
    · exact mine operation member
    · obtain ⟨beyond, author⟩ := mineLater operation member
      exact ⟨Nat.lt_of_le_of_lt first.cursor beyond, author⟩

theorem applyAll_appends {b after : Batch}
    (result : applyAll clientId now b inputs = .ok after) : Appends clientId b after := by
  induction inputs generalizing b with
  | nil =>
    cases result
    exact ⟨⟨[], (List.append_nil _).symm, by simp⟩, rfl, Nat.le_refl _⟩
  | cons entry rest ih =>
    obtain ⟨middle, first, remaining⟩ := bind_ok_iff.mp result
    exact (applyOne_appends first).trans (ih remaining)

/-- The batch's rows are in order up to its cursor. -/
def Counting (root : SyncRoot) (b : Batch) : Prop :=
  b.db.root = root ∧ Issued root.id b.db.operations b.cursor

theorem applyOne_counting {b after : Batch} (counting : Counting root b)
    (result : applyOne clientId now b entry = .ok after) : Counting root after := by
  obtain ⟨rfl, issued⟩ := counting
  rcases applyOne_cases result with ⟨duplicate, _, rfl⟩ | ⟨_, operation, recorded, _⟩
  · exact ⟨rfl, issued⟩
  · refine ⟨recorded.root, ?_⟩
    rw [recorded.appended, recorded.advanced]
    exact issued.append recorded.unused recorded.cursor

theorem applyAll_counting {b after : Batch} (counting : Counting root b)
    (result : applyAll clientId now b inputs = .ok after) : Counting root after := by
  induction inputs generalizing b with
  | nil =>
    cases result
    exact counting
  | cons entry rest ih =>
    obtain ⟨middle, first, remaining⟩ := bind_ok_iff.mp result
    exact ih (applyOne_counting counting first) remaining

/-- Every input of the batch is recorded already. -/
def AllRecorded (db : SyncDb) (clientId : String)
    (inputs : List (SyncOperationInput × FreshIds)) : Prop :=
  ∀ entry ∈ inputs, (duplicate? db clientId entry.1).isSome

instance : Decidable (AllRecorded db clientId inputs) :=
  inferInstanceAs (Decidable (∀ entry ∈ inputs, _))

/-- A batch that is recorded already changes no row and takes no cursor. -/
theorem applyAll_recorded {b after : Batch} (recorded : AllRecorded b.db clientId inputs)
    (result : applyAll clientId now b inputs = .ok after) :
    after.cursor = b.cursor ∧ after.db = b.db := by
  induction inputs generalizing b with
  | nil =>
    cases result
    exact ⟨rfl, rfl⟩
  | cons entry rest ih =>
    obtain ⟨middle, first, remaining⟩ := bind_ok_iff.mp result
    have known := recorded entry List.mem_cons_self
    rcases applyOne_cases first with ⟨duplicate, _, rfl⟩ | ⟨missing, _⟩
    · exact ih (b := { b with operations := b.operations ++ [duplicate] })
        (fun other member => recorded other (List.mem_cons_of_mem _ member)) remaining
    · rw [missing] at known
      contradiction

/-- The cursors a transaction leaves: in order, and the root's not lower. -/
def Advances (db after : SyncDb) : Prop :=
  CursorInv after ∧ db.root.cursor ≤ after.root.cursor

/-- A push that counts from the committed cursor, or that has nothing to record. -/
def CountsFrom (db : SyncDb) : Request → Prop
  | .push clientId inputs cursor => cursor = db.root.cursor ∨ AllRecorded db clientId inputs
  | .resolve _ _ => True

instance : DecidablePred (CountsFrom db) := fun request =>
  match request with
  | .push _ _ _ => inferInstanceAs (Decidable (_ ∨ _))
  | .resolve _ _ => inferInstanceAs (Decidable True)

/-- An accepted push ran its loop and stored the root. Where it counted from the
committed cursor, the stored one is the loop's; where it had nothing to record,
the root keeps its cursor and the answer repeats the one it read. -/
theorem applyOperations_cases {db : SyncDb} {after : Batch}
    (counts : loaded = db.root.cursor ∨ AllRecorded db clientId inputs)
    (result : applyOperations db loaded clientId inputs now = .ok after) :
    (loaded = db.root.cursor ∧ ∃ b,
      applyAll clientId now ⟨db.root.cursor, db, [], []⟩ inputs = .ok b ∧
      after.cursor = b.cursor ∧ after.db.operations = b.db.operations ∧
      after.db.root = { db.root with cursor := b.cursor, lastSeenAt := some now }) ∨
    (AllRecorded db clientId inputs ∧ after.cursor = loaded ∧
      after.db.operations = db.operations ∧
      after.db.root = { db.root with lastSeenAt := some now }) := by
  unfold applyOperations at result
  split_ifs at result
  obtain ⟨b, applied, finished⟩ := bind_ok_iff.mp result
  cases finished
  rcases counts with rfl | recorded
  · have root : b.db.root = db.root := (applyAll_appends applied).root
    have stored : writeColumn db.root.cursor b.cursor db.root.cursor = b.cursor := by
      unfold writeColumn
      split
      · rename_i same
        exact same.symm
      · rfl
    refine .inl ⟨rfl, b, applied, rfl, rfl, ?_⟩
    simp only [root, stored]
  · obtain ⟨cursor, same⟩ := applyAll_recorded recorded applied
    have stored : writeColumn loaded b.cursor db.root.cursor = db.root.cursor :=
      if_pos cursor
    refine .inr ⟨recorded, cursor, ?_, ?_⟩
    · simp only [same]
    · simp only [same, stored]

theorem applyOperations_advances {db : SyncDb} {after : Batch} (inv : CursorInv db)
    (counts : loaded = db.root.cursor ∨ AllRecorded db clientId inputs)
    (result : applyOperations db loaded clientId inputs now = .ok after) :
    Advances db after.db := by
  rcases applyOperations_cases counts result with ⟨_, b, applied, _, operations, root⟩ |
    ⟨_, _, operations, root⟩
  · have start : Counting db.root ⟨db.root.cursor, db, [], []⟩ := ⟨rfl, inv⟩
    have issued := (applyAll_counting start applied).2
    refine ⟨?_, ?_⟩
    · rw [CursorInv, operations, root]
      exact issued
    · rw [root]
      exact (applyAll_appends applied).cursor
  · refine ⟨?_, ?_⟩
    · rw [CursorInv, operations, root]
      exact inv
    · exact Nat.le_of_eq (by rw [root])

theorem keepLocal_advances {db : SyncDb} {id : UUID} (inv : CursorInv db)
    (found : db.operation? id = some operation)
    (result : keepLocal db operation fresh now = .ok after) : Advances db after := by
  obtain ⟨⟨input, applied, payload, kept⟩, _⟩ := keepLocal_cases result
  obtain ⟨member, _, root⟩ := operation?_found found
  have only : ∀ a ∈ db.operations, a.id = operation.id → a = operation := fun a here same =>
    List.inj_on_of_nodup_map inv.keys here member same
  refine ⟨?_, ?_⟩
  · rw [CursorInv, kept.root, kept.operations]
    refine inv.rewrite ?_ ?_ operation.id (Nat.le_succ _) ?_ ?_
    · intro a here
      split
      · rename_i same
        exact same.symm
      · rfl
    · intro a here
      split
      · rename_i same
        rw [only a here same]
      · rfl
    · intro a here different
      rw [if_neg different]
    · intro a here same
      rw [if_pos same]
      exact .inr ⟨Nat.lt_succ_self _, Nat.le_refl _⟩
  · rw [kept.root]
    exact Nat.le_succ _

theorem reject_advances {db : SyncDb} (inv : CursorInv db) (id : UUID) :
    Advances db (db.updateOperation id fun operation => { operation with status := .rejected }) := by
  refine ⟨?_, Nat.le_refl _⟩
  refine inv.rewrite ?_ ?_ id (Nat.le_refl _) ?_ ?_
  · intro a here
    split <;> rfl
  · intro a here
    split <;> rfl
  · intro a here different
    rw [if_neg different]
  · intro a here same
    rw [if_pos same]
    exact .inl rfl

theorem resolveConflict_advances {db : SyncDb} (inv : CursorInv db)
    (result : resolveConflict db loaded choice fresh now = .ok after) : Advances db after := by
  rcases resolveConflict_cases result with ⟨_, rfl⟩ | ⟨_, operation, settled, found, chosen, rfl⟩
  · exact ⟨inv, Nat.le_refl _⟩
  · have advances : Advances db settled := by
      rcases chosen with ⟨_, kept⟩ | ⟨_, rfl⟩
      · exact keepLocal_advances inv found kept
      · exact reject_advances inv operation.id
    exact advances

theorem commit_advances {db : SyncDb} {request : Request} (inv : CursorInv db)
    (counts : CountsFrom db request) (result : request.commit db fresh now = .ok after) :
    Advances db after := by
  cases request with
  | push clientId inputs cursor =>
    obtain ⟨b, applied, rfl⟩ := map_ok_iff.mp result
    exact applyOperations_advances inv counts applied
  | resolve conflict choice => exact resolveConflict_advances inv result

variable {τ : Type} [DecidableEq τ]

/-- The invariant of the requests: what is committed is in order and a request
under the lock counts from it. -/
abbrev Counted : Requests τ → Prop :=
  Sound Holding CursorInv (Holds (fun _ => True) CountsFrom fun _ => True)

theorem step_counted (s : Requests τ) (label : Label τ) (s' : Requests τ) (counted : Counted s)
    (granted : Granted CountsFrom s label) (stepped : step s label = some s') : Counted s' := by
  refine step_sound stepped granted counted ?_ ?_ ?_
  · intro t call request _ _
    trivial
  · intro request counts _
    exact counts
  · intro request fresh now db counts result
    exact ⟨(commit_advances counted.global counts result).1, trivial⟩

theorem step_monotone (s : Requests τ) (label : Label τ) (s' : Requests τ) (counted : Counted s)
    (_ : Granted CountsFrom s label) (stepped : step s label = some s') :
    s.shared.root.cursor ≤ s'.shared.root.cursor := by
  rcases step_shared stepped with same | ⟨t, request, fresh, now, phase, result⟩
  · exact Nat.le_of_eq (by rw [same])
  · have counts := counted.session t
    rw [phase] at counts
    exact (commit_advances counted.global counts result).2

/-- No two operations of the root carry one cursor and none is beyond the root's. -/
def OrderedJournal (db : SyncDb) : Prop :=
  (∀ a ∈ db.operations, ∀ b ∈ db.operations, a.rootId = db.root.id → b.rootId = db.root.id →
    a.cursor = b.cursor → a = b) ∧
  ∀ a ∈ db.operations, a.rootId = db.root.id → a.cursor ≤ db.root.cursor

instance : DecidablePred OrderedJournal := fun db =>
  inferInstanceAs (Decidable ((∀ a ∈ db.operations, ∀ b ∈ db.operations, _) ∧ _))

/-- In every interleaving whose pushes find the cursor they read, the committed
journal is in order at every moment and the root's cursor never goes back. -/
theorem interleaved_requests_order_journal {db : SyncDb} (committed : CursorInv db)
    {first second : List (Label τ)}
    (granted : Along step (Granted CountsFrom) (start db) (first ++ second))
    (reached : run step (start db) first = some s) (continued : run step s second = some t) :
    OrderedJournal s.shared ∧ s.shared.root.cursor ≤ t.shared.root.cursor := by
  obtain ⟨before, after⟩ := along_append granted reached
  have counted : Counted s := invariant step_counted (start_sound committed) before reached
  refine ⟨⟨?_, counted.global.bounded⟩, ?_⟩
  · intro a first b second left right same
    exact counted.global.unique first second left right same
  · exact relation (R := fun s t => s.shared.root.cursor ≤ t.shared.root.cursor)
      (fun _ => Nat.le_refl _) Nat.le_trans step_counted step_monotone counted after continued

/-- A root as `register_root` leaves it. -/
def registeredRoot : SyncDb where
  root := { id := 1, userId := 1, cursor := 0, active := true, lastSeenAt := none }
  userAvailable := true
  retentionDays := 30
  assets := []
  items := []
  operations := []
  conflicts := []

theorem registeredRoot_ordered : CursorInv registeredRoot :=
  ⟨List.nodup_nil, by simp [registeredRoot], by simp [registeredRoot]⟩

/-- A delete of a file the root does not know; every number is derived from one. -/
def removal (number : Nat) : SyncOperationInput × FreshIds :=
  ({ operationId := number, clientSequence := number, kind := .delete, logicalId := number
     baseRevision := none, relativePath := some "a.txt", assetId := none },
    { operation := 10 * number, item := 10 * number + 1, asset := 10 * number + 2
      conflict := 10 * number + 3 })

theorem interleaved_requests_order_journal_waiting :
    ∃ s t, run step (start registeredRoot)
        [.begin 0 (.push "desk" [removal 1]), .lock 0, .begin 1 (.push "desk" [removal 1]),
          .commit 0 (removal 1).2 5] = some s ∧
      run step s [.lock 1, .commit 1 (removal 1).2 6] = some t ∧
      OrderedJournal s.shared ∧ s.shared.root.cursor ≤ t.shared.root.cursor := by
  have finishes : (run step (start registeredRoot)
      ([.begin 0 (.push "desk" [removal 1]), .lock 0, .begin 1 (.push "desk" [removal 1]),
        .commit 0 (removal 1).2 5] ++ [.lock 1, .commit 1 (removal 1).2 6])).isSome := by decide
  obtain ⟨t, whole⟩ := Option.isSome_iff_exists.mp finishes
  obtain ⟨s, reached, continued⟩ := run_append_iff.mp whole
  exact ⟨s, t, reached, continued, interleaved_requests_order_journal registeredRoot_ordered
    (by decide) reached continued⟩

/-- Two pushes read cursor 0; the one that waits issues cursor 1 a second time
and sets the root back from 3 to 1. -/
theorem stale_push_repeats_cursor :
    ∃ s t, run step (start registeredRoot)
        [.begin 0 (.push "desk" [removal 1, removal 2, removal 3]),
          .begin 1 (.push "laptop" [removal 4]), .lock 0, .commit 0 (removal 1).2 5] = some s ∧
      run step s [.lock 1, .commit 1 (removal 4).2 6] = some t ∧
      ¬ OrderedJournal t.shared ∧ t.shared.root.cursor < s.shared.root.cursor := by
  have violated : (run step (start registeredRoot)
      [.begin 0 (.push "desk" [removal 1, removal 2, removal 3]),
        .begin 1 (.push "laptop" [removal 4]), .lock 0, .commit 0 (removal 1).2 5]).any
      (fun s => (run step s [.lock 1, .commit 1 (removal 4).2 6]).any fun t =>
        ¬ OrderedJournal t.shared ∧ t.shared.root.cursor < s.shared.root.cursor) := by decide
  obtain ⟨s, reached, violated⟩ := (Option.any_eq_true _ _).mp violated
  obtain ⟨t, continued, violated⟩ := (Option.any_eq_true _ _).mp violated
  exact ⟨s, t, reached, continued, of_decide_eq_true violated⟩

end Drivebound.Sync
