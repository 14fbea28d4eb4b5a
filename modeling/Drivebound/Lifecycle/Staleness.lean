import Drivebound.Core.History
import Drivebound.Lifecycle.Fences

/-! The trash endpoints next to the writers of the same history. The endpoint loads an
active revision without a lock; the select of `trash_asset` locks its row and returns the
instance as it was loaded, so the state that is tested may be older than the row. -/
namespace Drivebound.Lifecycle
open Attributes Sessions Run

/-- The rows that a step changes are locked by no other session. -/
def Waits (s t : Writers) (p : Nat) : Prop :=
  ∀ asset ∈ s.shared.assets ++ t.shared.assets,
    s.owner (.asset asset.id) = none ∨ s.owner (.asset asset.id) = some p ∨
      t.shared.asset? asset.id = s.shared.asset? asset.id

instance (s t : Writers) (p : Nat) : Decidable (Waits s t p) :=
  inferInstanceAs (Decidable (∀ asset ∈ s.shared.assets ++ t.shared.assets,
    s.owner (.asset asset.id) = none ∨ s.owner (.asset asset.id) = some p ∨
      t.shared.asset? asset.id = s.shared.asset? asset.id))

/-- A step that writes assets waits for the locks of their rows. -/
def lockedStep (mediaEncryptionEnabled : Bool) (s : Writers) (label : Nat × Action) : Option Writers :=
  (step mediaEncryptionEnabled s label).filter fun t => Waits s t label.1

/-- For every session, the row that it has last found behind the lock of an asset. -/
abbrev Grants := Nat → Option Asset

def granted (s : Writers) (label : Nat × Action) (_ : Writers) (grants : Grants) : Grants :=
  match label.2 with
  | .lockAsset id => Function.update grants label.1 (s.shared.asset? id)
  | _ => grants

abbrev grantedStep (mediaEncryptionEnabled : Bool) :
    Writers × Grants → Nat × Action → Option (Writers × Grants) :=
  noted (lockedStep mediaEncryptionEnabled) granted

/-- The committed revision becomes `trashed`. -/
def Trashes (db db' : Database) (id : UUID) : Prop :=
  (∃ row ∈ db'.asset? id, row.lifecycleState = .trashed) ∧
    ∀ row ∈ db.asset? id, row.lifecycleState ≠ .trashed

instance (db db' : Database) (id : UUID) : Decidable (Trashes db db' id) :=
  inferInstanceAs (Decidable ((∃ row ∈ db'.asset? id, _) ∧ ∀ row ∈ db.asset? id, _))

/-- A trash endpoint that trashes a revision has found it active behind its lock. -/
def TrashesActive (mediaEncryptionEnabled : Bool) (s : Writers × Grants) (label : Nat × Action) : Prop :=
  match label.2 with
  | .trash _ => ∀ t, lockedStep mediaEncryptionEnabled s.1 label = some t → ∀ id,
      Trashes s.1.shared t.shared id → ∃ row ∈ s.2 label.1, row.id = id ∧ row.lifecycleState = .active
  | _ => True

/-- The instance of a trash endpoint that is about to write has the state of the row,
unless the row is in trash already. -/
def Fresh (s : Writers × Grants) (label : Nat × Action) : Prop :=
  match label.2, s.1.locals label.1 with
  | .trash _, .trashLocked asset =>
    1 ≤ s.1.shared.retentionDays asset.userId → ∀ row ∈ s.1.shared.asset? asset.id,
      row.lifecycleState = asset.lifecycleState ∨ row.lifecycleState = .trashed
  | _, _ => True

instance (s : Writers × Grants) (label : Nat × Action) : Decidable (Fresh s label) := by
  unfold Fresh
  split <;> infer_instance

/-- A session behind the lock of an asset remembers the row as it still is. -/
structure Attended (s : Writers × Grants) : Prop where
  guarded : Guarded locks (fun _ => True) Knows s.1
  current : ∀ p asset, s.1.locals p = .trashLocked asset → s.2 p = s.1.shared.asset? asset.id

variable {mediaEncryptionEnabled : Bool} {db db' : Database} {phase : Phase} {action : Action}
  {outcome : Step} {s t : Writers}

theorem lockedStep_iff {label : Nat × Action} :
    lockedStep mediaEncryptionEnabled s label = some t ↔
      step mediaEncryptionEnabled s label = some t ∧ Waits s t label.1 := by
  simp only [lockedStep, Option.filter_eq_some_iff, decide_eq_true_eq]

/-- A row that another session has locked is as before. -/
theorem Waits.kept {p q : Nat} {id : UUID} (waits : Waits s t p) (owned : s.owner (.asset id) = some q)
    (other : q ≠ p) : t.shared.asset? id = s.shared.asset? id := by
  have unchanged : ∀ asset ∈ s.shared.assets ++ t.shared.assets, asset.id = id →
      t.shared.asset? id = s.shared.asset? id := by
    rintro asset member rfl
    rcases waits asset member with free | mine | same
    · exact absurd (free.symm.trans owned) nofun
    · exact absurd (Option.some.inj (owned.symm.trans mine)) other
    · exact same
  cases before : s.shared.asset? id with
  | some asset =>
    have here := Rows.find?_key before
    exact before ▸ unchanged asset (List.mem_append_left _ here.1) here.2
  | none =>
    cases after : t.shared.asset? id with
    | none => rfl
    | some asset =>
      have there := Rows.find?_key after
      have same := unchanged asset (List.mem_append_right _ there.1) there.2
      exact after.symm.trans (same.trans before)

theorem asset?_updateAsset {id other : UUID} {change : Asset → Asset}
    (keeps : ∀ asset, (change asset).id = asset.id) :
    (db.updateAsset id change).asset? other =
      (db.asset? other).map fun row => if row.id = id then change row else row :=
  Rows.find?_updateKey fun asset same => (keeps asset).trans same

theorem asset?_updateAsset_other {id other : UUID} {change : Asset → Asset}
    (keeps : ∀ asset, (change asset).id = asset.id) (different : other ≠ id) :
    (db.updateAsset id change).asset? other = db.asset? other :=
  Rows.find?_updateKey_other (fun asset same => (keeps asset).trans same) different

theorem granted_other {label : Nat × Action} {grants : Grants} {q : Nat} (other : q ≠ label.1) :
    granted s label t grants q = grants q := by
  obtain ⟨p, action⟩ := label
  cases action with
  | lockAsset id => exact Function.update_of_ne other ..
  | _ => rfl

/-- The lock is the way to the point behind it. -/
theorem program_trashLocked {asset : Asset}
    (chosen : program mediaEncryptionEnabled db phase action = some outcome)
    (arrives : outcome.arrival = .trashLocked asset) :
    action = .lockAsset asset.id ∧ outcome.result db = db := by
  cases action with
  | lockAsset id =>
    simp only [program] at chosen
    split at chosen
    · rename_i loaded
      split_ifs at chosen with same
      cases chosen
      cases arrives
      exact ⟨same ▸ rfl, rfl⟩
    · cases chosen
      contradiction
    · contradiction
  | commit fresh now =>
    simp only [program] at chosen
    split at chosen
    · split at chosen
      · rename_i result
        cases chosen
        obtain ⟨id, rfl⟩ | rfl | ⟨stored, id, rfl⟩ := (commit_own result).2
        · contradiction
        · contradiction
        · contradiction
      · cases chosen
        contradiction
    · contradiction
  | stop =>
    cases chosen
    contradiction
  | initializeKey | finish =>
    simp only [program] at chosen
    split at chosen
    · cases chosen
      contradiction
    · contradiction
  | authenticate user writer | lockUser | checkUser | disable now =>
    simp only [program] at chosen
    split at chosen
    · split_ifs at chosen <;> (cases chosen; contradiction)
    · contradiction
  | delete user =>
    simp only [program] at chosen
    split at chosen
    · cases chosen
      contradiction
    · contradiction
  | loadTrash user id =>
    simp only [program] at chosen
    split at chosen
    · split_ifs at chosen
      obtain ⟨loaded, _, rfl⟩ := Option.map_eq_some_iff.mp chosen
      contradiction
    · contradiction
  | trash now =>
    simp only [program] at chosen
    split at chosen
    · split at chosen <;> (cases chosen; contradiction)
    · contradiction

theorem step_attended (s : Writers × Grants) (label : Nat × Action) (t : Writers × Grants)
    (attended : Attended s) (stepped : grantedStep mediaEncryptionEnabled s label = some t) :
    Attended t := by
  obtain ⟨taken, noted⟩ := noted_iff.mp stepped
  obtain ⟨moved, waits⟩ := lockedStep_iff.mp taken
  have guarded : Guarded locks (fun _ => True) Knows t.1 :=
    attended.guarded.step moved fun outcome chosen => ⟨program_keeps chosen, trivial,
      program_arrives (attended.guarded.session label.1) chosen,
      fun _ apart other => program_others apart other chosen⟩
  refine ⟨guarded, fun q asset behind => ?_⟩
  obtain ⟨outcome, chosen, acted⟩ := Option.bind_eq_some_iff.mp moved
  rw [Store.act_locals acted] at behind
  by_cases same : q = label.1
  · subst same
    rw [Function.update_self] at behind
    obtain ⟨locks, unchanged⟩ := program_trashLocked chosen behind
    rw [noted, Store.act_shared acted, unchanged]
    simp only [granted, locks, Function.update_self]
  · rw [Function.update_of_ne same] at behind
    have owned : s.1.owner (.asset asset.id) = some q :=
      attended.guarded.held.owned q _ (by rw [behind]; rfl)
    rw [noted, granted_other same, attended.current q asset behind, waits.kept owned same]

/-- What the flush of a loaded active instance makes of the row. -/
theorem trashAsset_row {asset : Asset} {now : Timestamp} {after : Database}
    (active : asset.lifecycleState = .active) (trashed : trashAsset db asset now = some after) :
    1 ≤ db.retentionDays asset.userId ∧ ∃ change, after = db.updateAsset asset.id change ∧
      (∀ row, (change row).id = row.id) ∧ ∀ row, (change row).lifecycleState = .trashed := by
  rcases trashAsset_some trashed with ⟨already, _⟩ | ⟨_, _, retention, written⟩
  · exact absurd (active.symm.trans already) nofun
  · refine ⟨retention, _, written, fun _ => rfl, fun row => ?_⟩
    exact flush_of_ne fun same => absurd (active.symm.trans same.symm) nofun

theorem trashAsset_writes {asset row : Asset} (now : Timestamp) (found : db.asset? asset.id = some row)
    (active : asset.lifecycleState = .active) (retention : 1 ≤ db.retentionDays asset.userId) :
    ∃ after, trashAsset db asset now = some after := by
  simp only [trashAsset, found, Asset.trashes_iff.mpr ⟨active, retention⟩, Option.some.injEq, exists_eq']

/-- The endpoint owns the row, so its write waits for nobody. -/
theorem trash_lockedStep {p : Nat} {asset : Asset} {now : Timestamp} {after : Database}
    (behind : s.locals p = .trashLocked asset) (owned : s.owner (.asset asset.id) = some p)
    (active : asset.lifecycleState = .active) (trashed : trashAsset s.shared asset now = some after) :
    lockedStep mediaEncryptionEnabled s (p, .trash now) = some (s.finish p after .idle) := by
  refine lockedStep_iff.mpr ⟨?_, fun other _ => ?_⟩
  · simp only [step, Store.step, program, behind, trashed]
    rfl
  · obtain ⟨_, change, rfl, keeps, _⟩ := trashAsset_row active trashed
    by_cases same : other.id = asset.id
    · exact .inr (.inl (same ▸ owned))
    · exact .inr (.inr (asset?_updateAsset_other keeps same))

theorem trashes_active_iff (s : Writers × Grants) (label : Nat × Action) (attended : Attended s) :
    TrashesActive mediaEncryptionEnabled s label ↔ Fresh s label := by
  obtain ⟨p, action⟩ := label
  have knows := attended.guarded.session p
  constructor
  · intro trashes
    unfold Fresh
    split
    · rename_i now asset same behind
      intro retention row found
      dsimp only at same behind
      subst same
      rw [behind] at knows
      have active : asset.lifecycleState = .active := knows
      have owned : s.1.owner (.asset asset.id) = some p :=
        attended.guarded.held.owned p _ (by rw [behind]; rfl)
      obtain ⟨after, trashed⟩ := trashAsset_writes now found active retention
      by_cases already : row.lifecycleState = .trashed
      · exact .inr already
      have moved : Trashes s.1.shared after asset.id := by
        obtain ⟨_, change, rfl, keeps, state⟩ := trashAsset_row active trashed
        refine ⟨⟨change row, ?_, state row⟩, fun other there => ?_⟩
        · rw [Option.mem_def, asset?_updateAsset keeps, Option.mem_def.mp found, Option.map_some,
            if_pos (Rows.find?_key found).2]
        · cases Option.some.inj (found.symm.trans there)
          exact already
      have taken : lockedStep mediaEncryptionEnabled s.1 (p, .trash now) = some (s.1.finish p after .idle) :=
        trash_lockedStep behind owned active trashed
      obtain ⟨grant, remembered, _, found'⟩ := trashes _ taken asset.id moved
      have kept := attended.current p asset behind
      cases Option.some.inj ((found.symm.trans kept.symm).trans remembered)
      exact .inl (found'.trans active.symm)
    · trivial
  · intro fresh
    unfold TrashesActive
    split
    · rename_i now same
      dsimp only at same
      subst same
      intro t taken id moved
      obtain ⟨outcome, chosen, acted⟩ := Option.bind_eq_some_iff.mp (lockedStep_iff.mp taken).1
      rw [Store.act_shared acted] at moved
      simp only [program] at chosen
      split at chosen
      · rename_i asset behind
        split at chosen
        · rename_i after trashed
          cases chosen
          simp only [Fresh, behind] at fresh
          rw [behind] at knows
          obtain ⟨retention, change, rfl, keeps, _⟩ := trashAsset_row knows trashed
          obtain ⟨⟨row, found, state⟩, before⟩ := moved
          by_cases same : id = asset.id
          · subst same
            rw [Outcome.result, Option.mem_def, asset?_updateAsset keeps] at found
            obtain ⟨stored, there, rfl⟩ := Option.map_eq_some_iff.mp found
            have active := (fresh retention stored there).resolve_right (before stored there)
            refine ⟨stored, ?_, (Rows.find?_key there).2, active.trans knows⟩
            rw [Option.mem_def, attended.current p asset behind, there]
          · rw [Outcome.result, Option.mem_def, asset?_updateAsset_other keeps same] at found
            exact absurd state (before row found)
        · cases chosen
          obtain ⟨⟨row, found, state⟩, before⟩ := moved
          exact absurd state (before row found)
      · contradiction
    · trivial

/-- In every run, the trash endpoints trash revisions that they have found active behind
their locks, if and only if no instance that they are about to write from is stale. -/
theorem trash_of_active_revisions (db : Database) (labels : List (Nat × Action)) :
    Along (grantedStep mediaEncryptionEnabled) (TrashesActive mediaEncryptionEnabled)
        (start db, fun _ => none) labels ↔
      Along (grantedStep mediaEncryptionEnabled) Fresh (start db, fun _ => none) labels := by
  have initial : Attended (start db, fun _ => none) := by
    refine ⟨Guarded.idle trivial trivial (fun _ relies => relies) fun _ relies => relies, ?_⟩
    intro p asset behind
    contradiction
  refine along_iff_condition ?_ trashes_active_iff initial
  exact fun s label t attended _ stepped => step_attended s label t attended stepped

/-- A user with a file of two versions, 5 and 6. -/
def twoVersions : Database :=
  { twoPhotos with
    assets := [{ photo 5 .superseded with logicalId := 7, supersededAt := some 50 },
      { photo 6 .active with logicalId := 7, version := 2 }] }

/-- Session 0 has loaded version 6 to trash it, and session 1 rolls back to version 5. -/
def rollbackBeforeTrash : List (Nat × Action) :=
  [(0, .loadTrash 1 6), (1, .authenticate 1 (.rollback 6 5))] ++ fencedWriter 1 100 ++
    [(0, .lockAsset 6)]

/-- The row is superseded when its lock is granted; the instance says that it is active,
and the revision is due for its purge thirty days later. -/
theorem superseded_revision_is_trashed :
    ∃ s, run (grantedStep true) (start twoVersions, fun _ => none) rollbackBeforeTrash = some s ∧
      s.1.shared.assets.map Asset.lifecycleState = [.active, .superseded] ∧
      ¬ TrashesActive true s (0, .trash 110) ∧
      ∃ t, lockedStep true s.1 (0, .trash 110) = some t ∧
        t.shared.assets.map (fun asset => (asset.lifecycleState, asset.purgeAfter)) =
          [(.active, none), (.trashed, some (110 + 30 * 86400))] := by
  have stale : (run (grantedStep true) (start twoVersions, fun _ => none) rollbackBeforeTrash).any
      fun s => s.1.shared.assets.map Asset.lifecycleState = [.active, .superseded] ∧
        (∀ row ∈ s.2 0, row.lifecycleState = .superseded) ∧
        (lockedStep true s.1 (0, .trash 110)).any fun t => Trashes s.1.shared t.shared 6 ∧
          t.shared.assets.map (fun asset => (asset.lifecycleState, asset.purgeAfter)) =
            [(.active, none), (.trashed, some (110 + 30 * 86400))] := by
    decide
  obtain ⟨s, reached, found⟩ := (Option.any_eq_true _ _).mp stale
  obtain ⟨states, grant, later⟩ := of_decide_eq_true found
  obtain ⟨t, taken, trashed⟩ := (Option.any_eq_true _ _).mp later
  obtain ⟨moved, due⟩ := of_decide_eq_true trashed
  refine ⟨s, reached, states, fun trashes => ?_, t, taken, due⟩
  obtain ⟨row, remembered, _, active⟩ := trashes t taken 6 moved
  exact absurd (active.symm.trans (grant row remembered)) nofun

end Drivebound.Lifecycle
