import Drivebound.Core.Rows
import Drivebound.Sync.Frame
import Drivebound.Sync.Requests

/-! Resolving one conflict. A resolution takes effect once: what is committed is
either the rows before it or the result of one choice, in which the conflict, the
operation and the items agree. A request decides by the status it read before it
waited for the lock, so this needs that status to be the committed one. -/
namespace Drivebound.Sync
open Checked Sessions Run

theorem conflict?_updateConflict (db : SyncDb) (id : UUID) (change : SyncConflict → SyncConflict)
    (keepsId : ∀ conflict, (change conflict).id = conflict.id) :
    (db.updateConflict id change).conflict? id = (db.conflict? id).map change := by
  refine (Rows.find?_map_stable ?_).trans ?_
  · intro conflict _
    split
    · rw [keepsId]
    · rfl
  · simp only [SyncDb.conflict?]
    cases found : db.conflicts.find? (fun conflict => conflict.id = id) with
    | none => rfl
    | some conflict =>
      have here := List.find?_some found
      simp only [decide_eq_true_eq] at here
      simp only [Option.map_some, here, if_true]

theorem operation?_replace {db : SyncDb} {id : UUID} {operation : SyncOperation}
    (found : db.operation? id = some operation) (row : SyncOperation) (sameId : row.id = operation.id)
    (sameRoot : row.rootId = operation.rootId) :
    (db.updateOperation operation.id fun _ => row).operation? operation.id = some row := by
  obtain ⟨member, rfl, root⟩ := operation?_found found
  refine (Rows.find?_map_only member ?_ ?_).trans ?_
  · simp only [if_true, decide_eq_true_eq]
    exact ⟨sameId, sameRoot.trans root⟩
  · intro other _ here
    by_cases same : other.id = operation.id
    · simp only [same, if_true]
    · rw [if_neg same] at here
      exact absurd (of_decide_eq_true here).1 same
  · simp only [if_true]

theorem operation?_relabel {db : SyncDb} {id : UUID} {operation : SyncOperation}
    (found : db.operation? id = some operation) (status : OperationStatus) :
    (db.updateOperation operation.id fun operation => { operation with status }).operation?
      operation.id = some { operation with status } := by
  obtain ⟨_, rfl, _⟩ := operation?_found found
  refine (Rows.find?_map_stable ?_).trans ?_
  · intro other _
    split <;> rfl
  · refine (congrArg (Option.map _) found).trans ?_
    simp only [Option.map_some, if_true]

theorem item?_stampItem (db : SyncDb) (logicalId : UUID) (revision : String) :
    (db.stampItem logicalId revision).item? logicalId =
      (db.item? logicalId).map fun item => { item with revision } := by
  unfold SyncDb.stampItem
  cases found : db.item? logicalId with
  | none => exact found
  | some item =>
    refine (Rows.find?_map_stable ?_).trans ?_
    · intro other _
      split <;> rfl
    · refine (congrArg (Option.map _) found).trans ?_
      simp only [Option.map_some, if_true]

/-- What one choice does to the rows. A kept local change is applied once, its
operation is re-issued at the next cursor and the item carries the operation's
revision; a rejected one leaves items, assets and the root alone. -/
def TookEffect (before : SyncDb) (operation : SyncOperation) (after : SyncDb) : Choice → Prop
  | .keepLocal =>
    (∃ fresh now input applied payload,
      KeptLocal before operation fresh now input applied after payload) ∧
    ∃ row, after.operation? operation.id = some row ∧ row.status = .applied ∧
      row.cursor = after.root.cursor ∧
      ∀ item, after.item? operation.logicalId = some item → row.revision = some item.revision
  | .keepRemote =>
    after.operation? operation.id = some { operation with status := .rejected } ∧
      after.root = before.root ∧ after.items = before.items ∧ after.assets = before.assets

/-- The rows after `conflict` was resolved by `choice` alone. -/
structure SettledBy (before : SyncDb) (conflict : SyncConflict) (choice : Choice)
    (after : SyncDb) : Prop where
  stored : ∃ now, after.conflict? conflict.id =
    some { conflict with status := .resolved, resolution := some choice, resolvedAt := some now }
  effect : ∃ operation, before.operation? conflict.localOperationId = some operation ∧
    TookEffect before operation after choice

theorem SettledBy.unique {before after : SyncDb} (one : SettledBy before conflict choice after)
    (two : SettledBy before conflict other after) : choice = other := by
  obtain ⟨now, first⟩ := one.stored
  obtain ⟨later, second⟩ := two.stored
  have same := congrArg (Option.map SyncConflict.resolution) (first.symm.trans second)
  simpa using same

theorem KeptLocal.reissued {db : SyncDb} {operation : SyncOperation} {id : UUID}
    (kept : KeptLocal db operation fresh now input applied after payload)
    (found : db.operation? id = some operation) :
    after.operation? operation.id = some { operation with
      payload, cursor := db.root.cursor + 1, status := .applied
      revision := some (nextRevision (db.root.cursor + 1) operation.operationId) } := by
  rw [SyncDb.operation?, kept.root, kept.operations]
  exact operation?_replace found _ rfl rfl

theorem KeptLocal.stamped {db : SyncDb} {operation : SyncOperation} {item : SyncItem}
    (kept : KeptLocal db operation fresh now input applied after payload)
    (here : after.item? operation.logicalId = some item) :
    item.revision = nextRevision (db.root.cursor + 1) operation.operationId := by
  have root := (SameJournal.stampItem applied operation.logicalId
    (nextRevision (db.root.cursor + 1) operation.operationId)).root.trans kept.journal.root
  have stamped := item?_stampItem applied operation.logicalId
    (nextRevision (db.root.cursor + 1) operation.operationId)
  rw [SyncDb.item?, root, ← kept.items] at stamped
  rw [SyncDb.item?, kept.root, stamped] at here
  obtain ⟨earlier, _, rfl⟩ := Option.map_eq_some_iff.mp here
  rfl

theorem keepLocal_effect {db : SyncDb} {id : UUID} {operation : SyncOperation}
    (found : db.operation? id = some operation)
    (result : keepLocal db operation fresh now = .ok after) :
    TookEffect db operation after .keepLocal := by
  obtain ⟨⟨input, applied, payload, kept⟩, _⟩ := keepLocal_cases result
  refine ⟨⟨fresh, now, input, applied, payload, kept⟩, _, kept.reissued found, rfl, ?_, ?_⟩
  · rw [kept.root]
  · intro item here
    exact congrArg some (kept.stamped here).symm

theorem keepRemote_effect {db : SyncDb} {id : UUID} {operation : SyncOperation}
    (found : db.operation? id = some operation) :
    TookEffect db operation
      (db.updateOperation operation.id fun operation => { operation with status := .rejected })
      .keepRemote :=
  ⟨operation?_relabel found .rejected, rfl, rfl, rfl⟩

/-- The conflict row is not part of a choice's effect. -/
theorem TookEffect.updateConflict {before after : SyncDb}
    (effect : TookEffect before operation after choice) (id : UUID)
    (change : SyncConflict → SyncConflict) :
    TookEffect before operation (after.updateConflict id change) choice := by
  cases choice with
  | keepLocal =>
    obtain ⟨⟨fresh, now, input, applied, payload, kept⟩, operation⟩ := effect
    exact ⟨⟨fresh, now, input, applied, payload, ⟨kept.stored, kept.once, kept.journal,
      kept.items, kept.assets, kept.root, kept.operations⟩⟩, operation⟩
  | keepRemote => exact effect

/-- A row of `conflict`, as some request may have read it. -/
def Reads (conflict row : SyncConflict) : Prop :=
  row.id = conflict.id ∧ row.localOperationId = conflict.localOperationId

/-- An open conflict that is resolved is settled by the choice that was made. -/
theorem resolveConflict_settles {db : SyncDb} (found : db.conflict? conflict.id = some conflict)
    (reads : Reads conflict row) (unresolved : row.status = .unresolved)
    (result : resolveConflict db row choice fresh now = .ok after) :
    SettledBy db conflict choice after := by
  rcases resolveConflict_cases result with ⟨resolved, _⟩ |
    ⟨_, operation, settled, operationFound, chosen, rfl⟩
  · exact absurd unresolved resolved
  · rw [reads.2] at operationFound
    rw [reads.1]
    have effect : TookEffect db operation settled choice ∧
        settled.conflicts = db.conflicts := by
      rcases chosen with ⟨rfl, kept⟩ | ⟨rfl, rfl⟩
      · exact ⟨keepLocal_effect operationFound kept, (keepLocal_cases kept).2⟩
      · exact ⟨keepRemote_effect operationFound, rfl⟩
    have same : settled.conflict? conflict.id = some conflict := by
      rw [SyncDb.conflict?, effect.2]
      exact found
    refine ⟨⟨now, ?_⟩, operation, operationFound, effect.1.updateConflict ..⟩
    refine (conflict?_updateConflict _ _ _ ?_).trans ?_
    · intro _
      rfl
    · rw [same]
      rfl

/-- The status a resolve request read is the committed one. -/
def StatusCurrent (db : SyncDb) : Request → Prop
  | .push _ _ _ => True
  | .resolve row _ => (db.conflict? row.id).map SyncConflict.status = some row.status

instance (db : SyncDb) : DecidablePred (StatusCurrent db)
  | .push _ _ _ => isTrue trivial
  | .resolve row _ => inferInstanceAs
      (Decidable ((db.conflict? row.id).map SyncConflict.status = some row.status))

/-- Every call of the run resolves one conflict. -/
def Resolves (conflictId : UUID) : Label τ → Prop
  | .begin _ (.resolve id _) => id = conflictId
  | .begin _ (.push _ _) => False
  | .lock _ | .commit _ _ _ | .abort _ => True

instance : DecidablePred (Resolves conflictId : Label τ → Prop)
  | .begin _ (.resolve id _) => inferInstanceAs (Decidable (id = conflictId))
  | .begin _ (.push _ _) => isFalse id
  | .lock _ | .commit _ _ _ | .abort _ => isTrue trivial

section Runs

variable {τ : Type} [DecidableEq τ] {db : SyncDb} {conflict : SyncConflict}

/-- Nothing was resolved yet, or one choice has settled the conflict. -/
def Outcome (db : SyncDb) (conflict : SyncConflict) (now : SyncDb) : Prop :=
  now = db ∨ ∃ choice, SettledBy db conflict choice now

/-- A request on the conflict that read some version of its row. -/
def OnConflict (conflict : SyncConflict) : Request → Prop
  | .push _ _ _ => False
  | .resolve row _ => Reads conflict row

/-- The invariant of the resolve requests. An accepted one has settled the conflict. -/
abbrev Resolving (db : SyncDb) (conflict : SyncConflict) : Requests τ → Prop :=
  Sound Holding (Outcome db conflict)
    (Holds (OnConflict conflict)
      (fun now request => OnConflict conflict request ∧ StatusCurrent now request)
      fun now => ∃ choice, SettledBy db conflict choice now)

/-- The row a request reads is a version of the conflict. -/
theorem outcome_reads (found : db.conflict? conflict.id = some conflict)
    (outcome : Outcome db conflict now) (read : now.conflict? conflict.id = some row) :
    Reads conflict row := by
  rcases outcome with rfl | ⟨choice, settled⟩
  · cases Option.some.inj (read.symm.trans found)
    exact ⟨rfl, rfl⟩
  · obtain ⟨_, stored⟩ := settled.stored
    cases Option.some.inj (read.symm.trans stored)
    exact ⟨rfl, rfl⟩

theorem commit_settles (found : db.conflict? conflict.id = some conflict)
    (isOpen : conflict.status = .unresolved) (outcome : Outcome db conflict current)
    (reads : Reads conflict row) (status : StatusCurrent current (.resolve row choice))
    (result : resolveConflict current row choice fresh now = .ok after) :
    ∃ choice, SettledBy db conflict choice after := by
  simp only [StatusCurrent, reads.1] at status
  rcases outcome with rfl | ⟨chosen, settled⟩
  · rw [found] at status
    have unresolved : row.status = .unresolved :=
      (Option.some.inj status).symm.trans isOpen
    exact ⟨choice, resolveConflict_settles found reads unresolved result⟩
  · obtain ⟨_, stored⟩ := settled.stored
    rw [stored] at status
    have resolved : row.status ≠ .unresolved := by
      rw [← Option.some.inj status]
      simp
    rcases resolveConflict_cases result with ⟨_, rfl⟩ | ⟨unresolved, _⟩
    · exact ⟨chosen, settled⟩
    · exact absurd unresolved resolved

/-- A run of resolve requests on the conflict, each of which finds the status it read. -/
abbrev ResolvedFresh (conflict : SyncConflict) (s : Requests τ) (label : Label τ) : Prop :=
  Resolves conflict.id label ∧ Granted StatusCurrent s label

theorem step_resolving (found : db.conflict? conflict.id = some conflict)
    (isOpen : conflict.status = .unresolved) (s : Requests τ) (label : Label τ) (s' : Requests τ)
    (resolving : Resolving db conflict s) (fresh : ResolvedFresh conflict s label)
    (stepped : step s label = some s') : Resolving db conflict s' := by
  refine step_sound stepped fresh.2 resolving ?_ ?_ ?_
  · rintro t call request rfl loaded
    cases call with
    | push clientId inputs => exact fresh.1.elim
    | resolve id choice =>
      obtain rfl : id = conflict.id := fresh.1
      obtain ⟨row, read, rfl⟩ := Option.map_eq_some_iff.mp loaded
      exact outcome_reads found resolving.global read
  · intro request status reads
    exact ⟨reads, status⟩
  · rintro request ids now after ⟨reads, status⟩ result
    cases request with
    | push clientId inputs cursor => exact reads.elim
    | resolve row choice =>
      have settled := commit_settles found isOpen resolving.global reads status result
      exact ⟨.inr settled, settled⟩

/-- Once settled, the rows do not change again. -/
theorem step_settled (s : Requests τ) (label : Label τ) (s' : Requests τ)
    (resolving : Resolving db conflict s) (_ : ResolvedFresh conflict s label)
    (stepped : step s label = some s') :
    (∃ choice, SettledBy db conflict choice s.shared) → s'.shared = s.shared := by
  rintro ⟨chosen, settled⟩
  rcases step_shared stepped with same | ⟨t, request, ids, now, phase, result⟩
  · exact same
  · have held := resolving.session t
    rw [phase] at held
    cases request with
    | push clientId inputs cursor => exact held.1.elim
    | resolve row choice =>
      obtain ⟨_, stored⟩ := settled.stored
      have status : (s.shared.conflict? row.id).map SyncConflict.status = some row.status := held.2
      rw [show row.id = conflict.id from held.1.1, stored] at status
      have resolved : row.status ≠ .unresolved := by
        rw [← Option.some.inj status]
        simp
      rcases resolveConflict_cases result with ⟨_, same⟩ | ⟨unresolved, _⟩
      · exact same
      · exact absurd unresolved resolved

/-- In every interleaving of resolve requests that find the status they read, the
committed rows are those before or those of exactly one choice, they stay so, and
every accepted request finds the conflict settled. -/
theorem one_choice_takes_effect (conflict : SyncConflict)
    (found : db.conflict? conflict.id = some conflict) (isOpen : conflict.status = .unresolved)
    {first second : List (Label τ)}
    (fresh : Along step (ResolvedFresh conflict) (start db) (first ++ second))
    (reached : run step (start db) first = some s) (continued : run step s second = some t) :
    (s.shared = db ∨ ∃! choice, SettledBy db conflict choice s.shared) ∧
    ((∃ choice, SettledBy db conflict choice s.shared) → t.shared = s.shared) ∧
    ∀ u, s.locals u = .answered true → ∃! choice, SettledBy db conflict choice s.shared := by
  obtain ⟨before, after⟩ := along_append fresh reached
  have preserves := step_resolving (τ := τ) found isOpen
  have resolving : Resolving db conflict s :=
    invariant preserves (start_sound (.inl rfl)) before reached
  have only : (∃ choice, SettledBy db conflict choice s.shared) →
      ∃! choice, SettledBy db conflict choice s.shared := by
    rintro ⟨choice, settled⟩
    exact ⟨choice, settled, fun other same => same.unique settled⟩
  refine ⟨resolving.global.imp_right only, ?_, ?_⟩
  · have keeps := relation
      (R := fun s t : Requests τ => (∃ choice, SettledBy db conflict choice s.shared) →
        t.shared = s.shared)
      (fun _ _ => rfl)
      (fun {s t u} one two settled => by
        have same := one settled
        rw [← same] at settled ⊢
        exact two settled)
      preserves step_settled resolving after continued
    exact keeps
  · intro u answered
    have held := resolving.session u
    rw [answered] at held
    exact only (held rfl)

end Runs

/-- A root whose one conflict is a removal pushed with a stale base revision. -/
def contestedRoot : SyncDb where
  root := { id := 1, userId := 1, cursor := 1, active := true, lastSeenAt := none }
  userAvailable := true
  retentionDays := 30
  assets := []
  items :=
    [{ id := 2, rootId := 1, logicalId := 3, assetId := none, relativePath := "a.txt"
       revision := "r0-new", deletedAt := none }]
  operations :=
    [{ id := 4, rootId := 1, cursor := 1, clientId := "desk", clientSequence := 1
       operationId := 5, kind := .delete, logicalId := 3, baseRevision := some "r0-old"
       revision := some "r1", payload := { relativePath := some "a.txt" }, status := .conflict }]
  conflicts :=
    [{ id := 6, rootId := 1, logicalId := 3, localOperationId := 4
       conflictingOperationId := none, kind := .deleteVsChange
       expectedRevision := some "r0-old", actualRevision := some "r0-new"
       status := .unresolved, resolution := none, resolvedAt := none }]

def contested : SyncConflict where
  id := 6
  rootId := 1
  logicalId := 3
  localOperationId := 4
  conflictingOperationId := none
  kind := .deleteVsChange
  expectedRevision := some "r0-old"
  actualRevision := some "r0-new"
  status := .unresolved
  resolution := none
  resolvedAt := none

def spareIds : FreshIds := ⟨10, 11, 12, 13⟩

theorem one_choice_takes_effect_late :
    ∃ s t, run step (start contestedRoot)
        [.begin 0 (.resolve 6 .keepLocal), .lock 0, .commit 0 spareIds 5] = some s ∧
      run step s [.begin 1 (.resolve 6 .keepRemote), .lock 1, .commit 1 spareIds 6] = some t ∧
      (s.shared = contestedRoot ∨ ∃! choice, SettledBy contestedRoot contested choice s.shared) ∧
      ((∃ choice, SettledBy contestedRoot contested choice s.shared) → t.shared = s.shared) ∧
      ∀ u, s.locals u = .answered true →
        ∃! choice, SettledBy contestedRoot contested choice s.shared := by
  have finishes : (run step (start contestedRoot)
      ([.begin 0 (.resolve 6 .keepLocal), .lock 0, .commit 0 spareIds 5] ++
        [.begin 1 (.resolve 6 .keepRemote), .lock 1, .commit 1 spareIds 6])).isSome := by decide
  obtain ⟨t, whole⟩ := Option.isSome_iff_exists.mp finishes
  obtain ⟨s, reached, continued⟩ := run_append_iff.mp whole
  exact ⟨s, t, reached, continued, one_choice_takes_effect contested rfl rfl
    (by decide) reached continued⟩

/-- A rejection is no single choice where the items were changed as well. -/
theorem not_outcome {db now : SyncDb} {conflict : SyncConflict}
    (resolution : (now.conflict? conflict.id).map SyncConflict.resolution =
      some (some .keepRemote)) (changed : now.items ≠ db.items) : ¬ Outcome db conflict now := by
  rintro (rfl | ⟨choice, settled⟩)
  · exact changed rfl
  · obtain ⟨_, stored⟩ := settled.stored
    obtain ⟨operation, _, effect⟩ := settled.effect
    rw [stored] at resolution
    obtain rfl : choice = .keepRemote := by simpa using resolution
    exact changed effect.2.2.1

/-- Both requests read the open conflict: the first deletes the item, the second
then marks the applied operation rejected. -/
theorem stale_resolution_takes_effect_again :
    ∃ t, run step (start contestedRoot)
        [.begin 0 (.resolve 6 .keepLocal), .begin 1 (.resolve 6 .keepRemote),
          .lock 0, .commit 0 spareIds 5, .lock 1, .commit 1 spareIds 6] = some t ∧
      ¬ Outcome contestedRoot contested t.shared ∧
      (t.shared.operation? 4).map SyncOperation.status = some .rejected ∧
      (t.shared.item? 3).map SyncItem.deletedAt = some (some 5) := by
  have violated : (run step (start contestedRoot)
      [.begin 0 (.resolve 6 .keepLocal), .begin 1 (.resolve 6 .keepRemote),
        .lock 0, .commit 0 spareIds 5, .lock 1, .commit 1 spareIds 6]).any fun t =>
      ((t.shared.conflict? contested.id).map SyncConflict.resolution = some (some .keepRemote) ∧
        t.shared.items ≠ contestedRoot.items) ∧
      (t.shared.operation? 4).map SyncOperation.status = some .rejected ∧
      (t.shared.item? 3).map SyncItem.deletedAt = some (some 5) := by decide
  obtain ⟨t, reached, violated⟩ := (Option.any_eq_true _ _).mp violated
  obtain ⟨⟨resolution, changed⟩, facts⟩ := of_decide_eq_true violated
  exact ⟨t, reached, not_outcome resolution changed, facts⟩

end Drivebound.Sync
