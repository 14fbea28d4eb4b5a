import Drivebound.Core.History
import Drivebound.Core.Rows
import Drivebound.Monitoring.Pass

/-! What a monitor commits against what the workers have committed since it loaded the rows. -/
namespace Drivebound.Monitoring
open Sessions Run

/-- The session has locked the row of an asset to write its statuses. -/
def Works : Phase → UUID → Prop
  | .working work, asset => work.task.asset = asset
  | .failed id, asset => id = asset
  | _, _ => False

instance (phase : Phase) (asset : UUID) : Decidable (Works phase asset) := by
  cases phase <;> unfold Works <;> infer_instance

/-- What the step of a worker commits. -/
def workerWrites : Phase → Action → List Write
  | .working work, .finish ending => ((work.ended ending).map (work.writes ++ ·)).getD []
  | .failed id, .commitFailed => [(.protection id, .failed)]
  | _, _ => []

/-- For every session, the columns that workers have committed since it loaded them. -/
abbrev Since := Nat → List Cell

/-- The statuses of replicas that the next select of the pass loads. -/
def Pass.loads (pass : Pass) (db : Database) : List Cell :=
  pass.left.head?.toList.flatMap fun asset =>
    (loadReplicas db asset).map fun replica => .replica asset.id replica.id

def since (s : Sessions) (label : Nat × Action) (_ : Sessions) (committed : Since) : Since := fun p =>
  if p = label.1 then
    match label.2, s.locals label.1 with
    | .begin _ _, _ => []
    | .loadReplicas, .monitor pass => (committed p).filter (· ∉ pass.loads s.shared)
    | _, _ => committed p
  else (workerWrites (s.locals label.1) label.2).map Prod.fst ++ committed p

variable (autoProtectUploads : Bool)

abbrev notedStep : Sessions × Since → Nat × Action → Option (Sessions × Since) :=
  noted (step autoProtectUploads) since

/-- No step of a monitor changes a status that a worker has committed since the monitor loaded
it. -/
def KeepsResults (s : Sessions × Since) (label : Nat × Action) : Prop :=
  match s.1.locals label.1 with
  | .monitor _ => ∀ t, step autoProtectUploads s.1 label = some t → ∀ cell ∈ s.2 label.1,
      t.shared.status? cell = s.1.shared.status? cell
  | _ => True

/-- What a step of a pass assigns. -/
def Pass.assigns (pass : Pass) (action : Action) : List Write :=
  match action, pass.stage, pass.left with
  | .verify healthy, .verifying _ (id :: _) _, asset :: _ =>
    [(.replica asset.id id, if healthy then .verified else .failed)]
  | .decide, .verifying ok [] healthy, asset :: _ => (pass.decide autoProtectUploads asset ok healthy).1
  | .queue waiting, .queueing, asset :: _ =>
    if pass.due asset waiting then [(.restore asset.id, .queued)] else []
  | .publish _ true, .publishing, asset :: _ => [(.restore asset.id, .failed)]
  | _, _, _ => []

/-- The assignment changes what was loaded. -/
def Pass.ChangesLoaded (pass : Pass) (write : Write) : Prop :=
  ∃ column ∈ pass.instances, column.cell = write.1 ∧ column.loaded ≠ write.2

/-- A change of an asset or of its replicas that is not flushed. -/
def Unflushed (phase : Phase) (asset : UUID) : Prop :=
  match phase with
  | .monitor pass => ∃ column ∈ pass.instances, column.Dirty ∧ column.cell.asset = asset
  | _ => False

/-- The asset whose row a worker locks. -/
def lockedAsset? : Phase → Action → Option UUID
  | .loading task, .lockAsset => some task.asset
  | .failing id, .lockAsset => some id
  | _, _ => none

/-- A monitor changes no status of an asset on which a worker works, and none that a worker has
committed since it was loaded; and a worker does not lock an asset while a monitor has a
change of its statuses to flush. -/
def Alone (s : Sessions × Since) (label : Nat × Action) : Prop :=
  (match s.1.locals label.1 with
    | .monitor pass => ∀ write ∈ pass.assigns autoProtectUploads label.2, pass.ChangesLoaded write →
        write.1 ∉ s.2 label.1 ∧ ∀ q ∈ s.1.owner (.asset write.1.asset), ¬ Works (s.1.locals q) write.1.asset
    | _ => True) ∧
  ∀ asset ∈ lockedAsset? (s.1.locals label.1) label.2, ∀ q, ¬ Unflushed (s.1.locals q) asset

/-- The rows that a session has locked. -/
def holding : Phase → Row → Prop
  | .monitor pass, row => row ∈ pass.locked
  | .working work, row => row = .asset work.task.asset ∨ ∃ write ∈ work.writes, write.1.row = row
  | .failed id, row => row = .asset id
  | _, _ => False

def Knows (_ : Database) : Phase → Prop
  | .monitor pass => ∀ write ∈ pass.writes, write.1.row ∈ pass.locked
  | .working work => ∀ write ∈ work.writes, write.1.asset = work.task.asset
  | _ => True

/-- What a monitor has flushed, and what it is going to, was committed by no worker since. -/
structure Undisturbed (s : Sessions × Since) : Prop where
  sound : Sound holding (fun _ => True) Knows s.1
  flushed : ∀ p pass, s.1.locals p = .monitor pass → ∀ write ∈ pass.writes, write.1 ∉ s.2 p
  unflushed : ∀ p pass, s.1.locals p = .monitor pass → ∀ column ∈ pass.instances, column.Dirty →
    column.cell ∉ s.2 p ∧ ∀ q, ¬ Works (s.1.locals q) column.cell.asset

variable {autoProtectUploads : Bool} {db : Database} {pass : Pass} {phase : Phase} {action : Action}
  {outcome : Step}

section Rows

theorem asset?_map {change : Asset → Asset} {id : UUID} (keeps : ∀ row, (change row).id = row.id) :
    (db.assets.map change).find? (·.id = id) = (db.asset? id).map change :=
  Rows.find?_key_map keeps

/-- A write changes its column and no other. -/
theorem status?_write {cell : Cell} {write : Write} (other : write.1 ≠ cell) :
    (db.write write).status? cell = db.status? cell := by
  obtain ⟨written, status⟩ := write
  -- A row that is found is found rewritten; its other column is as it was.
  have asset {change : Asset → Asset} (keeps : ∀ row, (change row).id = row.id) {id : UUID}
      {column : Asset → Status} (same : ∀ row, row.id = id → column (change row) = column row) :
      ((db.assets.map change).find? (·.id = id)).map column = (db.asset? id).map column := by
    rw [asset?_map keeps, Option.map_map]
    cases found : db.asset? id with
    | none => rfl
    | some row => exact congrArg some (same row (Rows.find?_key found).2)
  cases written with
  | protection a =>
    cases cell with
    | protection b =>
      refine asset (fun row => by split <;> rfl) fun row named => ?_
      rw [if_neg (fun same => other (congrArg Cell.protection (same.symm.trans named)))]
    | restore b => exact asset (fun row => by split <;> rfl) fun row _ => by split <;> rfl
    | replica b id => rfl
  | restore a =>
    cases cell with
    | protection b => exact asset (fun row => by split <;> rfl) fun row _ => by split <;> rfl
    | restore b =>
      refine asset (fun row => by split <;> rfl) fun row named => ?_
      rw [if_neg (fun same => other (congrArg Cell.restore (same.symm.trans named)))]
    | replica b id => rfl
  | replica a id =>
    cases cell with
    | protection b => rfl
    | restore b => rfl
    | replica b key =>
      have found : (db.write (.replica a id, status)).replicas.find? (fun row => row.id = key ∧ row.assetId = b) =
          (db.replicas.find? fun row => row.id = key ∧ row.assetId = b).map fun row =>
            if row.id = id ∧ row.assetId = a then { row with status } else row := by
        apply Rows.find?_map_stable
        intro row _
        split <;> rfl
      dsimp only [Database.status?]
      rw [found, Option.map_map]
      cases searched : db.replicas.find? fun row => row.id = key ∧ row.assetId = b with
      | none => rfl
      | some row =>
        have holds := List.find?_some searched
        simp only [decide_eq_true_eq] at holds
        obtain ⟨named, owner⟩ := holds
        have apart : ¬ (row.id = id ∧ row.assetId = a) := by
          rintro ⟨rfl, rfl⟩
          exact other (by rw [named, owner])
        simp only [Option.map_some, Function.comp_apply, if_neg apart]

theorem status?_commit {cell : Cell} {writes : List Write} (others : ∀ write ∈ writes, write.1 ≠ cell) :
    (db.commit writes).status? cell = db.status? cell := by
  unfold Database.commit
  induction writes generalizing db with
  | nil => rfl
  | cons write rest ih =>
    rw [List.foldl_cons, ih fun later member => others later (List.mem_cons_of_mem _ member)]
    exact status?_write (others write List.mem_cons_self)

end Rows

section Passes

/-- A column of the pass is as it was, up to what is assigned to it and what was flushed. -/
theorem Pass.assign_dirty {writes : List Write} {column : Attribute}
    (member : column ∈ (pass.assign writes).instances) (dirty : column.Dirty) :
    (∃ old ∈ pass.instances, old.cell = column.cell ∧ old.Dirty) ∨
      ∃ write ∈ writes, write.1 = column.cell ∧ pass.ChangesLoaded write := by
  obtain ⟨old, there, rfl⟩ := List.mem_map.mp member
  split at dirty
  · rename_i write found
    have named : write.1 = old.cell := by simpa using List.find?_some found
    refine .inr ⟨write, List.mem_of_find?_eq_some found, named, old, there, named.symm, Ne.symm dirty⟩
  · exact .inl ⟨old, there, rfl, dirty⟩

theorem Pass.flushRow_dirty {row : Row} {column : Attribute}
    (member : column ∈ (pass.flushRow row).instances) (dirty : column.Dirty) : column ∈ pass.instances := by
  obtain ⟨old, there, rfl⟩ := List.mem_map.mp member
  split at dirty
  · exact absurd rfl dirty
  · rename_i spared
    rwa [if_neg spared]

theorem Pass.flushRow_writes {row : Row} {write : Write} (member : write ∈ (pass.flushRow row).writes) :
    write ∈ pass.writes ∨ write.1.row = row ∧
      ∃ column ∈ pass.instances, column.cell = write.1 ∧ column.Dirty := by
  rcases List.mem_append.mp member with before | flushed
  · exact .inl before
  · obtain ⟨column, chosen, rfl⟩ := List.mem_map.mp flushed
    obtain ⟨there, holds⟩ := List.mem_filter.mp chosen
    obtain ⟨same, dirty⟩ := of_decide_eq_true holds
    exact .inr ⟨same, column, there, rfl, dirty⟩

/-- What a step of a pass leaves to flush and has flushed. -/
structure Follows (autoProtectUploads : Bool) (action : Action) (pass pass' : Pass) : Prop where
  dirty : ∀ column ∈ pass'.instances, column.Dirty →
    (∃ old ∈ pass.instances, old.cell = column.cell ∧ old.Dirty) ∨
      ∃ write ∈ pass.assigns autoProtectUploads action, write.1 = column.cell ∧ pass.ChangesLoaded write
  writes : ∀ write ∈ pass'.writes, write ∈ pass.writes ∨
    ∃ column ∈ pass.instances, column.cell = write.1 ∧ column.Dirty

/-- A step of a monitor commits what was flushed, or no status at all. -/
structure MonitorStep (autoProtectUploads : Bool) (db : Database) (pass : Pass) (action : Action)
    (outcome : Step) : Prop where
  result : ∀ cell, (∀ write ∈ pass.writes, write.1 ≠ cell) →
    (outcome.result db).status? cell = db.status? cell
  owes : Knows db (.monitor pass) → Owes holding (fun _ => True) Knows db (.monitor pass) outcome
  arrival : outcome.arrival = .idle ∨
    ∃ pass', outcome.arrival = .monitor pass' ∧ Follows autoProtectUploads action pass pass'

theorem Follows.same {pass' : Pass} (instances : pass'.instances = pass.instances)
    (writes : pass'.writes = pass.writes) : Follows autoProtectUploads action pass pass' := by
  refine ⟨fun column member dirty => .inl ⟨column, instances ▸ member, rfl, dirty⟩, fun write member => ?_⟩
  exact .inl (writes ▸ member)

/-- Moving on, with nothing flushed and nothing committed. -/
theorem MonitorStep.moves {pass' : Pass} {published : Database} (tasks : ∃ tasks, published = { db with tasks })
    (writes : pass'.writes = pass.writes) (locked : pass'.locked = pass.locked)
    (follows : Follows autoProtectUploads action pass pass') :
    MonitorStep autoProtectUploads db pass action (.stay published (.monitor pass')) := by
  obtain ⟨tasks, rfl⟩ := tasks
  refine ⟨fun cell _ => by cases cell <;> rfl, fun knows => ?_, .inr ⟨pass', rfl, follows⟩⟩
  refine ⟨trivial, ?_, fun row held => ?_, fun phase _ known => ?_⟩
  · intro write member
    rw [writes] at member
    rw [locked]
    exact knows write member
  · have inside : row ∈ pass'.locked := held
    rwa [locked] at inside
  · cases phase <;> exact known

/-- An assignment of the step, with what else it changes of the pass. -/
theorem Follows.assigned {writes : List Write} {pass' : Pass}
    (assigns : pass.assigns autoProtectUploads action = writes)
    (instances : pass'.instances = (pass.assign writes).instances) (same : pass'.writes = pass.writes) :
    Follows autoProtectUploads action pass pass' := by
  refine ⟨fun column member dirty => ?_, fun write member => .inl (same ▸ member)⟩
  rw [instances] at member
  rw [assigns]
  exact Pass.assign_dirty member dirty

/-- The end of a transaction of the pass. -/
theorem MonitorStep.commits {phase : Phase} (ends : phase = .idle ∨ ∃ pass', phase = .monitor pass' ∧
      pass'.instances = pass.instances ∧ pass'.writes = [] ∧ pass'.locked = []) :
    MonitorStep autoProtectUploads db pass action (.finish (db.commit pass.writes) phase) := by
  refine ⟨fun cell => status?_commit, fun _ => ⟨trivial, ?_, fun row held => ?_, fun other _ known => ?_⟩, ?_⟩
  · obtain rfl | ⟨pass', rfl, _, writes, _⟩ := ends
    · trivial
    · intro write member
      rw [writes] at member
      exact absurd member List.not_mem_nil
  · obtain rfl | ⟨pass', rfl, _, _, locked⟩ := ends
    · exact held
    · have inside : row ∈ pass'.locked := held
      rw [locked] at inside
      exact absurd inside List.not_mem_nil
  · cases other <;> exact known
  · obtain rfl | ⟨pass', rfl, instances, writes, _⟩ := ends
    · exact .inl rfl
    · refine .inr ⟨pass', rfl, ?_, ?_⟩
      · exact fun column member dirty => .inl ⟨column, instances ▸ member, rfl, dirty⟩
      · intro write member
        rw [writes] at member
        exact absurd member List.not_mem_nil

theorem Pass.goOn_keeps (pass : Pass) (stage : Option Stage) : (pass.goOn stage).instances = pass.instances ∧
    (pass.goOn stage).writes = pass.writes ∧ (pass.goOn stage).locked = pass.locked := by
  cases stage <;> exact ⟨rfl, rfl, rfl⟩

theorem monitorStep_steps (chosen : monitorStep autoProtectUploads db pass action = some outcome) :
    MonitorStep autoProtectUploads db pass action outcome := by
  have here : ∃ tasks, db = { db with tasks } := ⟨db.tasks, rfl⟩
  cases action with
  | storage available =>
    simp only [monitorStep] at chosen
    split at chosen
    · cases chosen
      exact .moves here rfl rfl (.same rfl rfl)
    · contradiction
  | openEvent | resolveEvents =>
    simp only [monitorStep] at chosen
    split at chosen
    · split_ifs at chosen
      cases chosen
      exact .moves here rfl rfl (.same rfl rfl)
    · contradiction
  | loadReplicas =>
    simp only [monitorStep] at chosen
    split at chosen
    · split_ifs at chosen
      cases chosen
      refine .moves here rfl rfl ⟨fun column member dirty => ?_, fun _ member => .inl member⟩
      rcases List.mem_append.mp member with before | new
      · exact .inl ⟨column, before, rfl, dirty⟩
      · obtain ⟨replica, _, rfl⟩ := List.mem_map.mp new
        exact absurd rfl dirty
    · contradiction
  | readOriginal ok =>
    simp only [monitorStep] at chosen
    split at chosen
    · split at chosen <;> (cases chosen; exact .moves here rfl rfl (.same rfl rfl))
    · contradiction
  | verify healthy =>
    simp only [monitorStep] at chosen
    split at chosen
    · rename_i stage left
      cases chosen
      refine .moves here rfl rfl (.assigned ?_ rfl rfl)
      simp only [Pass.assigns, stage, left]
    · contradiction
  | decide =>
    simp only [monitorStep] at chosen
    split at chosen
    · rename_i stage left
      cases chosen
      obtain ⟨instances, writes, locked⟩ := Pass.goOn_keeps _ _
      refine .moves here writes locked (.assigned ?_ instances writes)
      simp only [Pass.assigns, stage, left]
    · contradiction
  | queue waiting =>
    simp only [monitorStep] at chosen
    split at chosen
    · rename_i stage left
      split_ifs at chosen with _ due
      · cases chosen
        refine .moves here rfl rfl (.assigned ?_ rfl rfl)
        simp only [Pass.assigns, stage, left, due, if_true]
      · cases chosen
        exact .moves here rfl rfl (.same rfl rfl)
    · contradiction
  | flush row =>
    simp only [monitorStep] at chosen
    split_ifs at chosen
    cases chosen
    refine ⟨fun cell _ => rfl, fun knows => ⟨fun write member => ?_, fun other held => ?_⟩, .inr ⟨_, rfl, ?_⟩⟩
    · rcases Pass.flushRow_writes member with before | ⟨same, _⟩
      · exact List.mem_cons_of_mem row (knows write before)
      · rw [same]
        exact List.mem_cons_self
    · rcases List.mem_cons.mp held with rfl | before
      · exact .inl rfl
      · exact .inr before
    · refine ⟨fun column member dirty => .inl ⟨column, Pass.flushRow_dirty member dirty, rfl, dirty⟩, ?_⟩
      intro write member
      exact (Pass.flushRow_writes member).imp_right And.right
  | commit =>
    simp only [monitorStep] at chosen
    split_ifs at chosen
    split at chosen
    · cases chosen
      exact .commits (.inl rfl)
    · cases chosen
      exact .commits (.inr ⟨_, rfl, rfl, rfl, rfl⟩)
    · cases chosen
      exact .commits (.inr ⟨_, rfl, rfl, rfl, rfl⟩)
    · contradiction
  | publish delivered raised =>
    have published (task : Task) : ∃ tasks, (if delivered then { db with tasks := db.tasks ++ [task] } else db) =
        { db with tasks } := by
      split
      · exact ⟨_, rfl⟩
      · exact ⟨db.tasks, rfl⟩
    simp only [monitorStep] at chosen
    split at chosen
    · rename_i stage left
      cases raised with
      | true =>
        cases chosen
        refine .moves (published _) rfl rfl (.assigned ?_ rfl rfl)
        simp only [Pass.assigns, stage, left]
      | false =>
        cases chosen
        exact .moves (published _) rfl rfl (.same rfl rfl)
    · cases raised with
      | true =>
        cases chosen
        obtain ⟨tasks, same⟩ := published (.protect _)
        rw [same]
        refine ⟨fun cell _ => by cases cell <;> rfl, fun _ => ?_, .inl rfl⟩
        exact ⟨trivial, trivial, fun _ held => held, fun other _ known => by cases other <;> exact known⟩
      | false =>
        cases chosen
        exact .moves (published _) rfl rfl (.same rfl rfl)
    · contradiction
  | _ => contradiction

end Passes

theorem Works.holding {asset : UUID} (works : Works phase asset) : holding phase (.asset asset) := by
  cases phase with
  | working work => exact .inl (congrArg Row.asset works).symm
  | failed id => exact (congrArg Row.asset works).symm
  | idle | monitor pass | loading task | failing id => exact works.elim

section Workers

theorem Work.ended_asset {work : Work} {ending : Ending} {statuses : List Write}
    (ended : work.ended ending = some statuses) : ∀ write ∈ statuses,
      write.1.asset = work.task.asset ∧ write.1.row = .asset work.task.asset := by
  obtain ⟨task, candidates, writes, added⟩ := work
  cases task with
  | protect asset =>
    cases ending with
    | ensured desired =>
      cases ended
      simp only [List.forall_mem_singleton]
      exact ⟨rfl, rfl⟩
    | _ => contradiction
  | restore asset =>
    cases ending with
    | ensured desired => contradiction
    | restored =>
      simp only [Work.ended] at ended
      split_ifs at ended
      · cases ended
        simp only [List.forall_mem_cons]
        exact ⟨⟨rfl, rfl⟩, ⟨rfl, rfl⟩, fun _ never => absurd never List.not_mem_nil⟩
      · cases ended
        simp only [List.forall_mem_singleton]
        exact ⟨rfl, rfl⟩
    | unusable =>
      cases ended
      simp only [List.forall_mem_cons]
      exact ⟨⟨rfl, rfl⟩, ⟨rfl, rfl⟩, fun _ never => absurd never List.not_mem_nil⟩
    | interrupted =>
      cases ended
      simp only [List.forall_mem_singleton]
      exact ⟨rfl, rfl⟩

/-- A worker commits statuses of the asset that it works on, in rows that it has locked. -/
theorem workerWrites_locked {write : Write} (knows : Knows db phase)
    (member : write ∈ workerWrites phase action) : holding phase write.1.row ∧ Works phase write.1.asset := by
  unfold workerWrites at member
  split at member
  · rename_i work ending
    cases ended : work.ended ending with
    | none =>
      rw [ended] at member
      exact absurd member List.not_mem_nil
    | some statuses =>
      rw [ended] at member
      rcases List.mem_append.mp member with before | last
      · exact ⟨.inr ⟨write, before, rfl⟩, (knows write before).symm⟩
      · obtain ⟨asset, row⟩ := Work.ended_asset ended write last
        exact ⟨.inl row, asset.symm⟩
  · rw [List.mem_singleton.mp member]
    exact ⟨rfl, rfl⟩
  · exact absurd member List.not_mem_nil

theorem workStep_owes {work : Work} (knows : Knows db (.working work))
    (chosen : workStep db work action = some outcome) :
    Owes holding (fun _ => True) Knows db (.working work) outcome := by
  have others {after : Database} : ∀ other, (∀ row, holding (.working work) row → ¬ holding other row) →
      Knows db other → Knows after other := fun other _ known => by cases other <;> exact known
  cases action with
  | writeReplica id ok =>
    simp only [workStep] at chosen
    split at chosen
    · cases chosen
      refine ⟨fun write member => ?_, fun row held => ?_⟩
      · rcases List.mem_append.mp member with before | new
        · exact knows write before
        · rw [List.mem_singleton.mp new]
          rfl
      · rcases held with asset | ⟨write, member, same⟩
        · exact .inr (.inl asset)
        · rcases List.mem_append.mp member with before | new
          · exact .inr (.inr ⟨write, before, same⟩)
          · rw [List.mem_singleton.mp new] at same
            exact .inl same.symm
    · contradiction
  | addReplica id =>
    simp only [workStep] at chosen
    split at chosen
    · split_ifs at chosen
      cases chosen
      exact ⟨trivial, knows, fun _ held => held, others⟩
    · contradiction
  | finish ending =>
    obtain ⟨statuses, _, rfl⟩ := Option.map_eq_some_iff.mp chosen
    exact ⟨trivial, trivial, fun _ held => held, others⟩
  | rollback =>
    simp only [workStep] at chosen
    split at chosen
    · cases chosen
      exact ⟨trivial, trivial, fun _ held => held, others⟩
    · contradiction
  | _ => contradiction

theorem startWork_knows (db : Database) (task : Task) : Knows db (.working (startWork db task)) := by
  cases task <;> simp only [Knows, startWork, List.forall_mem_singleton] <;> rfl

theorem startWork_holding {task : Task} {row : Row} (held : holding (.working (startWork db task)) row) :
    row = .asset task.asset := by
  rcases held with asset | ⟨write, member, same⟩
  · exact asset
  · cases task <;> (rw [List.mem_singleton.mp member] at same; exact same.symm)

end Workers

theorem program_owes (knows : Knows db phase)
    (chosen : program autoProtectUploads db phase action = some outcome) :
    Owes holding (fun _ => True) Knows db phase outcome := by
  have others {after : Database} : ∀ other, (∀ row, holding phase row → ¬ holding other row) →
      Knows db other → Knows after other := fun other _ known => by cases other <;> exact known
  unfold program at chosen
  split_ifs at chosen
  · cases chosen
    exact ⟨trivial, trivial, fun _ held => held, others⟩
  cases phase with
  | idle =>
    dsimp only at chosen
    split at chosen
    · cases chosen
      refine .quiet trivial ?_ fun row held => absurd held List.not_mem_nil
      exact fun write member => absurd member List.not_mem_nil
    · split_ifs at chosen
      cases chosen
      exact .quiet trivial trivial fun _ held => held
    · contradiction
  | monitor pass => exact (monitorStep_steps chosen).owes knows
  | loading task =>
    dsimp only at chosen
    split at chosen
    · split at chosen
      · cases chosen
        exact ⟨startWork_knows db task, fun row held => .inl (startWork_holding held)⟩
      · cases chosen
        exact .rollback trivial trivial fun _ held => held
    · contradiction
  | working work => exact workStep_owes knows chosen
  | failing id =>
    dsimp only at chosen
    split at chosen
    · split at chosen
      · cases chosen
        exact ⟨trivial, fun row held => .inl held⟩
      · cases chosen
        exact .rollback trivial trivial fun _ held => held
    · contradiction
  | failed id =>
    dsimp only at chosen
    split at chosen
    · cases chosen
      exact ⟨trivial, trivial, fun _ held => held, others⟩
    · contradiction

/-- A session works on the asset that it has worked on, or has just locked. -/
theorem program_works {asset : UUID} (chosen : program autoProtectUploads db phase action = some outcome)
    (works : Works outcome.arrival asset) :
    Works phase asset ∨ lockedAsset? phase action = some asset := by
  unfold program at chosen
  split_ifs at chosen
  · cases chosen
    exact works.elim
  cases phase with
  | idle =>
    dsimp only at chosen
    split at chosen
    · cases chosen
      exact works.elim
    · split_ifs at chosen
      cases chosen
      exact works.elim
    · contradiction
  | monitor pass =>
    rcases (monitorStep_steps chosen).arrival with idle | ⟨pass', arrives, _⟩
    · rw [idle] at works
      exact works.elim
    · rw [arrives] at works
      exact works.elim
  | loading task =>
    dsimp only at chosen
    split at chosen
    · split at chosen
      · cases chosen
        exact .inr (congrArg some works)
      · cases chosen
        exact works.elim
    · contradiction
  | working work =>
    cases action with
    | writeReplica id ok =>
      simp only [workStep] at chosen
      split at chosen
      · cases chosen
        exact .inl works
      · contradiction
    | addReplica id =>
      simp only [workStep] at chosen
      split at chosen
      · split_ifs at chosen
        cases chosen
        exact .inl works
      · contradiction
    | finish ending =>
      obtain ⟨statuses, _, rfl⟩ := Option.map_eq_some_iff.mp chosen
      exact works.elim
    | rollback =>
      simp only [workStep] at chosen
      split at chosen
      · cases chosen
        exact works.elim
      · contradiction
    | _ => contradiction
  | failing id =>
    dsimp only at chosen
    split at chosen
    · split at chosen
      · cases chosen
        exact .inr (congrArg some works)
      · cases chosen
        exact works.elim
    · contradiction
  | failed id =>
    dsimp only at chosen
    split at chosen
    · cases chosen
      exact works.elim
    · contradiction

theorem loadAssets_clean {assets : List Asset} : ∀ column ∈ loadAssets assets, ¬ column.Dirty := by
  intro column member
  obtain ⟨asset, _, here⟩ := List.mem_flatMap.mp member
  simp only [List.mem_cons, List.not_mem_nil, or_false] at here
  rcases here with rfl | rfl <;> exact fun dirty => dirty rfl

/-- A pass begins with nothing to write, and goes on from where it was. -/
theorem program_monitor {pass' : Pass} (chosen : program autoProtectUploads db phase action = some outcome)
    (arrives : outcome.arrival = .monitor pass') :
    (∃ pass, phase = .monitor pass ∧ Follows autoProtectUploads action pass pass') ∨
      (pass'.writes = [] ∧ ∀ column ∈ pass'.instances, ¬ column.Dirty) := by
  unfold program at chosen
  split_ifs at chosen
  · cases chosen
    contradiction
  cases phase with
  | idle =>
    dsimp only at chosen
    split at chosen
    · cases chosen
      cases arrives
      exact .inr ⟨rfl, loadAssets_clean⟩
    · split_ifs at chosen
      cases chosen
      contradiction
    · contradiction
  | monitor pass =>
    rcases (monitorStep_steps chosen).arrival with idle | ⟨other, there, follows⟩
    · exact absurd (idle.symm.trans arrives) nofun
    · cases there.symm.trans arrives
      exact .inl ⟨pass, rfl, follows⟩
  | loading task =>
    dsimp only at chosen
    split at chosen
    · split at chosen <;> (cases chosen; contradiction)
    · contradiction
  | working work =>
    cases action with
    | writeReplica id ok =>
      simp only [workStep] at chosen
      split at chosen
      · cases chosen
        contradiction
      · contradiction
    | addReplica id =>
      simp only [workStep] at chosen
      split at chosen
      · split_ifs at chosen
        cases chosen
        contradiction
      · contradiction
    | finish ending =>
      obtain ⟨statuses, _, rfl⟩ := Option.map_eq_some_iff.mp chosen
      contradiction
    | rollback =>
      simp only [workStep] at chosen
      split at chosen
      · cases chosen
        contradiction
      · contradiction
    | _ => contradiction
  | failing id =>
    dsimp only at chosen
    split at chosen
    · split at chosen <;> (cases chosen; contradiction)
    · contradiction
  | failed id =>
    dsimp only at chosen
    split at chosen
    · cases chosen
      contradiction
    · contradiction

/-- A session's own step adds nothing to its record. -/
theorem since_self {s t : Sessions} {label : Nat × Action} {committed : Since} :
    ∀ cell ∈ since s label t committed label.1, cell ∈ committed label.1 := by
  intro cell member
  rw [since, if_pos rfl] at member
  split at member
  · exact absurd member List.not_mem_nil
  · exact (List.mem_filter.mp member).1
  · exact member

/-- The other sessions note what a worker commits. -/
theorem since_other {s t : Sessions} {label : Nat × Action} {committed : Since} {p : Nat}
    (other : p ≠ label.1) : ∀ cell ∈ since s label t committed p,
      cell ∈ committed p ∨ ∃ write ∈ workerWrites (s.locals label.1) label.2, write.1 = cell := by
  intro cell member
  rw [since, if_neg other] at member
  rcases List.mem_append.mp member with new | before
  · exact .inr (List.mem_map.mp new)
  · exact .inl before

theorem step_undisturbed (s : Sessions × Since) (label : Nat × Action) (t : Sessions × Since)
    (undisturbed : Undisturbed s) (alone : Alone autoProtectUploads s label)
    (stepped : notedStep autoProtectUploads s label = some t) : Undisturbed t := by
  obtain ⟨moved, recorded⟩ := noted_iff.mp stepped
  have sound := undisturbed.sound.step moved fun outcome chosen =>
    program_owes (undisturbed.sound.session label.1) chosen
  obtain ⟨outcome, chosen, acted⟩ := Option.bind_eq_some_iff.mp moved
  have locals := Store.act_locals acted
  have self : t.1.locals label.1 = outcome.arrival := by rw [locals, Function.update_self]
  have others (q : Nat) (other : q ≠ label.1) : t.1.locals q = s.1.locals q := by
    rw [locals, Function.update_of_ne other]
  have locked {write : Write} (member : write ∈ workerWrites (s.1.locals label.1) label.2) :=
    workerWrites_locked (undisturbed.sound.session label.1) member
  -- What the moved pass has to flush was so before, or is assigned now.
  have mine {pass' : Pass} (arrives : outcome.arrival = .monitor pass') : ∀ column ∈ pass'.instances,
      column.Dirty → column.cell ∉ s.2 label.1 ∧ ∀ q, ¬ Works (s.1.locals q) column.cell.asset := by
    intro column member dirty
    rcases program_monitor chosen arrives with ⟨pass, here, follows⟩ | ⟨_, clean⟩
    · rcases follows.dirty column member dirty with ⟨old, there, same, before⟩ | ⟨write, assigned, same, changes⟩
      · rw [← same]
        exact undisturbed.unflushed label.1 pass here old there before
      · rw [← same]
        have condition := alone.1
        rw [here] at condition
        obtain ⟨fresh, unlocked⟩ := condition write assigned changes
        refine ⟨fresh, fun q works => unlocked q ?_ works⟩
        exact undisturbed.sound.owned q _ works.holding
    · exact absurd dirty (clean column member)
  refine ⟨sound, fun q pass at' write member => ?_, fun q pass at' column member dirty => ⟨?_, fun r works => ?_⟩⟩
  · rw [recorded]
    by_cases same : q = label.1
    · subst same
      refine fun noted => absurd (since_self _ noted) ?_
      rw [self] at at'
      rcases program_monitor chosen at' with ⟨before, here, follows⟩ | ⟨none, _⟩
      · rcases follows.writes write member with old | ⟨column, there, named, dirty⟩
        · exact undisturbed.flushed label.1 before here write old
        · rw [← named]
          exact (undisturbed.unflushed label.1 before here column there dirty).1
      · rw [none] at member
        exact absurd member List.not_mem_nil
    · rw [others q same] at at'
      intro noted
      rcases since_other same _ noted with before | ⟨other, written, named⟩
      · exact undisturbed.flushed q pass at' write member before
      · have held : holding (s.1.locals q) write.1.row := by
          have knows := undisturbed.sound.session q
          rw [at'] at knows ⊢
          exact knows write member
        exact same (undisturbed.sound.exclusive held (named ▸ (locked written).1))
  · rw [recorded]
    by_cases same : q = label.1
    · subst same
      rw [self] at at'
      exact fun noted => (mine at' column member dirty).1 (since_self _ noted)
    · rw [others q same] at at'
      obtain ⟨fresh, unlocked⟩ := undisturbed.unflushed q pass at' column member dirty
      intro noted
      rcases since_other same _ noted with before | ⟨other, written, named⟩
      · exact fresh before
      · exact unlocked label.1 (named ▸ (locked written).2)
  · by_cases same : q = label.1
    · subst same
      by_cases again : r = label.1
      · rw [again, at'] at works
        exact works
      · rw [others r again] at works
        rw [self] at at'
        exact (mine at' column member dirty).2 r works
    · rw [others q same] at at'
      obtain ⟨_, unlocked⟩ := undisturbed.unflushed q pass at' column member dirty
      by_cases moves : r = label.1
      · rw [moves, self] at works
        rcases program_works chosen works with before | grants
        · exact unlocked label.1 before
        · refine alone.2 _ grants q ?_
          rw [at']
          exact ⟨column, member, dirty, rfl⟩
      · rw [others r moves] at works
        exact unlocked r works

/-- A monitor commits nothing but what it has flushed. -/
theorem keepsResults_of_undisturbed (s : Sessions × Since) (label : Nat × Action)
    (undisturbed : Undisturbed s) : KeepsResults autoProtectUploads s label := by
  unfold KeepsResults
  split
  · rename_i pass here
    intro t moved cell committed
    obtain ⟨outcome, chosen, acted⟩ := Option.bind_eq_some_iff.mp moved
    rw [Store.act_shared acted]
    rw [here] at chosen
    unfold program at chosen
    split_ifs at chosen
    · cases chosen
      rfl
    · apply (monitorStep_steps chosen).result
      rintro write member rfl
      exact undisturbed.flushed label.1 pass here write member committed
  · trivial

/-- In every interleaving in which monitors and workers leave each other's changes alone, the
monitors never overwrite what a worker has committed. -/
theorem monitor_keeps_results (db : Database) (labels : List (Nat × Action))
    (alone : Along (notedStep autoProtectUploads) (Alone autoProtectUploads) (start db, fun _ => []) labels) :
    Along (notedStep autoProtectUploads) (KeepsResults autoProtectUploads) (start db, fun _ => []) labels := by
  have initial : Undisturbed (start db, fun _ => []) := by
    refine ⟨.idle trivial trivial fun _ held => held, fun p pass here => ?_, fun p pass here => ?_⟩
    · contradiction
    · contradiction
  exact along_of_invariant step_undisturbed (fun s label undisturbed _ =>
    keepsResults_of_undisturbed s label undisturbed) initial alone

/-- `Alone` among the first `n` sessions. -/
def AloneBelow (autoProtectUploads : Bool) (n : Nat) (s : Sessions × Since) (label : Nat × Action) : Prop :=
  (match s.1.locals label.1 with
    | .monitor pass => ∀ write ∈ pass.assigns autoProtectUploads label.2, pass.ChangesLoaded write →
        write.1 ∉ s.2 label.1 ∧ ∀ q ∈ s.1.owner (.asset write.1.asset), ¬ Works (s.1.locals q) write.1.asset
    | _ => True) ∧
  ∀ asset ∈ lockedAsset? (s.1.locals label.1) label.2, ∀ q < n, ¬ Unflushed (s.1.locals q) asset

instance (pass : Pass) (write : Write) : Decidable (pass.ChangesLoaded write) :=
  inferInstanceAs (Decidable (∃ column ∈ pass.instances, _ ∧ _))

instance (phase : Phase) (asset : UUID) : Decidable (Unflushed phase asset) := by
  cases phase <;> unfold Unflushed <;> infer_instance

instance (n : Nat) (s : Sessions × Since) (label : Nat × Action) :
    Decidable (AloneBelow autoProtectUploads n s label) := by
  unfold AloneBelow
  have first : Decidable (match s.1.locals label.1 with
    | .monitor pass => ∀ write ∈ pass.assigns autoProtectUploads label.2, pass.ChangesLoaded write →
        write.1 ∉ s.2 label.1 ∧ ∀ q ∈ s.1.owner (.asset write.1.asset), ¬ Works (s.1.locals q) write.1.asset
    | _ => True) := by
    split <;> infer_instance
  exact instDecidableAnd

/-- The sessions that take no step do not matter. -/
theorem alone_of_below {n : Nat} {db : Database} {labels : List (Nat × Action)}
    (few : ∀ label ∈ labels, label.1 < n)
    (alone : Along (notedStep autoProtectUploads) (AloneBelow autoProtectUploads n) (start db, fun _ => []) labels) :
    Along (notedStep autoProtectUploads) (Alone autoProtectUploads) (start db, fun _ => []) labels := by
  have below : Along (notedStep autoProtectUploads) (fun _ label => label.1 < n) (start db, fun _ => []) labels :=
    along_of_forall _ few
  refine along_of_invariant (I := fun s => ∀ q ≥ n, s.1.locals q = .idle) ?_ ?_ (fun _ _ => rfl) (alone.and below)
  · intro s label t idle met stepped q beyond
    obtain ⟨outcome, _, acted⟩ := Option.bind_eq_some_iff.mp (noted_iff.mp stepped).1
    rw [Store.act_locals acted, Function.update_of_ne (Nat.ne_of_gt (Nat.lt_of_lt_of_le met.2 beyond))]
    exact idle q beyond
  · rintro s label idle ⟨⟨assigns, locks⟩, _⟩
    refine ⟨assigns, fun asset grants q => ?_⟩
    by_cases below : q < n
    · exact locks asset grants q below
    · rw [idle q (Nat.not_lt.mp below)]
      exact fun unflushed => unflushed

/-- An asset with a verified copy. -/
def protectedAsset : Database where
  assets := [⟨5, 1, true, true, .protected, .notRequested⟩]
  replicas := [⟨7, 5, .verified⟩]
  tasks := []

/-- The original is missing; the restoration that the monitor queues ends before the pass does. -/
def fastRestore : List (Nat × Action) :=
  [(0, .begin none true), (0, .storage true), (0, .loadReplicas), (0, .readOriginal (some false)),
    (0, .verify true), (0, .decide), (0, .flush (.replica 7)), (0, .queue false), (0, .flush (.asset 5)),
    (0, .commit), (0, .publish true false), (1, .start (.restore 5)), (1, .lockAsset),
    (1, .writeReplica 7 true), (1, .finish .restored), (0, .commit)]

theorem monitor_keeps_results_fast_restore :
    Along (notedStep true) (KeepsResults true) (start protectedAsset, fun _ => []) fastRestore ∧
      ∃ s, run (step true) (start protectedAsset) fastRestore = some s ∧
        s.shared.status? (.restore 5) = some .restored := by
  have restored : (run (step true) (start protectedAsset) fastRestore).any fun s =>
      s.shared.status? (.restore 5) = some .restored := by
    decide
  obtain ⟨s, reached, status⟩ := (Option.any_eq_true _ _).mp restored
  refine ⟨?_, s, reached, of_decide_eq_true status⟩
  exact monitor_keeps_results protectedAsset fastRestore (alone_of_below (n := 2) (by decide) (by decide))

/-- An asset that was just uploaded. -/
def unprotectedAsset : Database where
  assets := [⟨5, 1, true, true, .unprotected, .notRequested⟩]
  replicas := []
  tasks := []

/-- The protection that the monitor queues ends before the monitor flushes its own status. -/
def fastProtection : List (Nat × Action) :=
  [(0, .begin none true), (0, .storage true), (0, .loadReplicas), (0, .readOriginal (some true)),
    (0, .decide), (0, .publish true false), (1, .start (.protect 5)), (1, .lockAsset),
    (1, .addReplica 9), (1, .finish (.ensured 1)), (0, .flush (.asset 5))]

theorem queued_protection_is_overwritten :
    ∃ s, run (notedStep true) (start unprotectedAsset, fun _ => []) fastProtection = some s ∧
      s.1.shared.status? (.protection 5) = some .protected ∧ .protection 5 ∈ s.2 0 ∧
      ¬ KeepsResults true s (0, .commit) ∧
      ∃ t, step true s.1 (0, .commit) = some t ∧ t.shared.status? (.protection 5) = some .pending := by
  have overwritten : (run (notedStep true) (start unprotectedAsset, fun _ => []) fastProtection).any fun s =>
      s.1.shared.status? (.protection 5) = some .protected ∧ .protection 5 ∈ s.2 0 ∧
        (match s.1.locals 0 with | .monitor _ => true | _ => false) = true ∧
        (step true s.1 (0, .commit)).any fun t => t.shared.status? (.protection 5) = some .pending := by
    decide
  obtain ⟨s, reached, holds⟩ := (Option.any_eq_true _ _).mp overwritten
  obtain ⟨worker, noted, monitors, later⟩ := of_decide_eq_true holds
  obtain ⟨t, taken, last⟩ := (Option.any_eq_true _ _).mp later
  have pending := of_decide_eq_true last
  refine ⟨s, reached, worker, noted, fun keeps => ?_, t, taken, pending⟩
  unfold KeepsResults at keeps
  dsimp only at keeps
  split at keeps
  · have same := keeps t taken _ noted
    exact absurd ((pending.symm.trans same).trans worker) nofun
  · rename_i other
    split at monitors
    · rename_i pass here
      exact other pass here
    · contradiction

end Drivebound.Monitoring
