import Drivebound.Catalog
import Drivebound.Core.Sessions

/-! `monitor_storage` next to `protect_asset` and `restore_asset`. A monitor loads every active
asset once and goes through them in one session. What it assigns is flushed with its next
statement, which locks the rows that it changes, and committed with the pass or with an automatic
restore. A worker locks the row of its asset first. What is read from drives, events and the
policy is an input of the steps. -/
namespace Drivebound.Monitoring
open Sessions

/-- The words of `protection_status`, `restore_status` and of the `status` of a replica. -/
inductive Status where
  | unprotected | pending | protecting | «protected» | degraded
  | notRequested | queued | restoring | restored
  | verified | failed
  deriving DecidableEq, Repr

structure Asset where
  id : UUID
  userId : UUID
  /-- `lifecycle_state == "active"` -/
  active : Bool
  /-- `storage_source == "managed"` -/
  managed : Bool
  protectionStatus : Status
  restoreStatus : Status
  deriving DecidableEq, Repr

/-- `verification_status` is always assigned with `status`. -/
structure Replica where
  id : UUID
  assetId : UUID
  status : Status
  deriving DecidableEq, Repr

inductive Task where
  | protect (asset : UUID)
  | restore (asset : UUID)
  deriving DecidableEq, Repr

def Task.asset : Task → UUID
  | .protect asset | .restore asset => asset

structure Database where
  assets : List Asset
  replicas : List Replica
  /-- Tasks that were published; a broker may deliver one more than once. -/
  tasks : List Task
  deriving DecidableEq, Repr

/-- A status column of a row. -/
inductive Cell where
  | protection (asset : UUID)
  | restore (asset : UUID)
  | replica (asset id : UUID)
  deriving DecidableEq, Repr

inductive Row where
  | asset (id : UUID)
  | replica (id : UUID)
  deriving DecidableEq, Repr

def Cell.asset : Cell → UUID
  | .protection asset | .restore asset | .replica asset _ => asset

def Cell.row : Cell → Row
  | .protection asset | .restore asset => .asset asset
  | .replica _ id => .replica id

abbrev Write := Cell × Status

namespace Database

def asset? (db : Database) (id : UUID) : Option Asset := db.assets.find? (·.id = id)

def status? (db : Database) : Cell → Option Status
  | .protection asset => (db.asset? asset).map Asset.protectionStatus
  | .restore asset => (db.asset? asset).map Asset.restoreStatus
  | .replica asset id =>
    (db.replicas.find? fun row => row.id = id ∧ row.assetId = asset).map Replica.status

def write (db : Database) : Write → Database
  | (.protection id, status) =>
    { db with assets := db.assets.map fun row =>
        if row.id = id then { row with protectionStatus := status } else row }
  | (.restore id, status) =>
    { db with assets := db.assets.map fun row =>
        if row.id = id then { row with restoreStatus := status } else row }
  | (.replica asset id, status) =>
    { db with replicas := db.replicas.map fun row =>
        if row.id = id ∧ row.assetId = asset then { row with status } else row }

/-- What a commit makes of the rows. -/
def commit (db : Database) (writes : List Write) : Database := writes.foldl write db

end Database

/-- A column of a loaded instance. -/
structure Attribute where
  cell : Cell
  loaded : Status
  assigned : Status
  deriving DecidableEq, Repr

/-- The next flush writes it. -/
def Attribute.Dirty (column : Attribute) : Prop := column.assigned ≠ column.loaded

instance : DecidablePred Attribute.Dirty := fun column =>
  inferInstanceAs (Decidable (column.assigned ≠ column.loaded))

/-- Where a pass is with the first of its assets. -/
inductive Stage where
  /-- The top of the loop; the commit of the pass where no asset is left. -/
  | visiting
  /-- `_open_recovery_event`, after which the loop goes on. -/
  | opening
  | selecting
  | reading (replicas : List UUID)
  | verifying (originalOk : Bool) (left : List UUID) (healthy : Bool)
  /-- The select of `queue_automatic_restore`. -/
  | queueing
  | committing
  | publishing
  /-- The publication has raised. -/
  | unpublished
  /-- `protect_asset_task.delay` -/
  | protecting
  /-- The select of the events of a healthy asset. -/
  | resolving
  deriving DecidableEq, Repr

structure Pass where
  repair : Bool
  left : List Asset
  instances : List Attribute
  /-- Rows of replicas with an `UPDATE` to come, be it of `verified_at` alone. -/
  touched : List UUID
  /-- What was flushed, and the rows that are locked by it. -/
  writes : List Write
  locked : List Row
  stage : Stage
  deriving DecidableEq, Repr

namespace Pass

def assign (pass : Pass) (writes : List Write) : Pass :=
  { pass with instances := pass.instances.map fun column =>
      match writes.find? (·.1 = column.cell) with
      | some write => { column with assigned := write.2 }
      | none => column }

/-- The value of an column as the pass sees it. -/
def value? (pass : Pass) (cell : Cell) : Option Status :=
  (pass.instances.find? (·.cell = cell)).map Attribute.assigned

/-- The stages whose next statement is a query or the commit, which flush first. -/
def flushes (pass : Pass) : Bool :=
  match pass.stage with
  | .opening | .selecting | .queueing | .committing | .unpublished | .resolving => true
  | .visiting => pass.left.isEmpty
  | .reading _ | .verifying _ _ _ | .publishing | .protecting => false

def Clean (pass : Pass) : Prop := (∀ column ∈ pass.instances, ¬ column.Dirty) ∧ pass.touched = []

instance (pass : Pass) : Decidable pass.Clean := inferInstanceAs (Decidable (_ ∧ _))

def Changes (pass : Pass) (row : Row) : Prop :=
  (∃ column ∈ pass.instances, column.cell.row = row ∧ column.Dirty) ∨
    ∃ id ∈ pass.touched, row = .replica id

instance (pass : Pass) (row : Row) : Decidable (pass.Changes row) := inferInstanceAs (Decidable (_ ∨ _))

/-- The `UPDATE` of a row, with the columns that differ from what was loaded. -/
def flushRow (pass : Pass) (row : Row) : Pass :=
  { pass with
    instances := pass.instances.map fun column =>
      if column.cell.row = row then { column with loaded := column.assigned } else column
    touched := pass.touched.filter fun id => row ≠ .replica id
    writes := pass.writes ++ (pass.instances.filter fun column =>
      column.cell.row = row ∧ column.Dirty).map fun column => (column.cell, column.assigned)
    locked := row :: pass.locked }

def next (pass : Pass) : Pass := { pass with left := pass.left.tail, stage := .visiting }

/-- After a commit; the instances stay as they are. -/
def committed (pass : Pass) (stage : Stage) : Pass := { pass with writes := [], locked := [], stage }

/-- The branches at the end of an iteration: what they assign and where they go on. -/
def decide (autoProtectUploads : Bool) (pass : Pass) (asset : Asset) (originalOk healthy : Bool) :
    List Write × Option Stage :=
  if !originalOk && healthy && asset.managed then
    if pass.repair then ([], some .queueing) else ([], some .opening)
  else if !originalOk && !healthy then
    ([(.restore asset.id, .failed), (.protection asset.id, .failed)], some .opening)
  else if pass.repair && originalOk && autoProtectUploads &&
      (!healthy || pass.value? (.protection asset.id) != some .protected) then
    ([(.protection asset.id, .pending)], some .protecting)
  else if originalOk && healthy then ([], some .resolving)
  else ([], none)

/-- `automatic_restore_retry_due` -/
def due (pass : Pass) (asset : Asset) (waiting : Bool) : Bool :=
  !waiting || pass.value? (.restore asset.id) == some .failed

def goOn (pass : Pass) : Option Stage → Pass
  | some stage => { pass with stage }
  | none => pass.next

end Pass

/-- A worker behind the lock of its asset. -/
structure Work where
  task : Task
  /-- The verified replicas that a restoration has selected. -/
  candidates : List UUID
  writes : List Write
  added : List Replica
  deriving DecidableEq, Repr

/-- How many copies a worker has verified. -/
def Work.verified (work : Work) : Nat :=
  (work.writes.filter fun write => write.2 = .verified).length + work.added.length

inductive Phase where
  | idle
  | monitor (pass : Pass)
  | loading (task : Task)
  | working (work : Work)
  /-- `protect_asset` has rolled back. -/
  | failing (asset : UUID)
  | failed (asset : UUID)
  deriving DecidableEq, Repr

/-- How a worker ends. -/
inductive Ending where
  /-- `ensure_asset_replicas` returns under a policy of so many copies. -/
  | ensured (desired : Nat)
  | restored
  /-- No candidate of a restoration is usable. -/
  | unusable
  /-- A restoration is interrupted by a drive or a failed write. -/
  | interrupted
  deriving DecidableEq, Repr

inductive Action where
  | begin (user : Option UUID) (repair : Bool)
  /-- `require_storage_path` and `require_storage` -/
  | storage (available : Bool)
  | openEvent
  | loadReplicas
  /-- The checksum of the original, or an `OSError`. -/
  | readOriginal (ok : Option Bool)
  | verify (healthy : Bool)
  | decide
  /-- `waiting`: an event was queued less than 15 minutes ago. -/
  | queue (waiting : Bool)
  | flush (row : Row)
  | commit
  /-- A publication that raises may have been delivered. -/
  | publish (delivered raised : Bool)
  | resolveEvents
  | start (task : Task)
  | lockAsset
  | writeReplica (id : UUID) (ok : Bool)
  | addReplica (id : UUID)
  | finish (ending : Ending)
  /-- An exception of `ensure_asset_replicas`. -/
  | rollback
  | commitFailed
  /-- Any other exception, and a crash. -/
  | stop
  deriving DecidableEq, Repr

/-- The statuses that the end of a worker writes to its asset. -/
def Work.ended (work : Work) : Ending → Option (List Write)
  | .ensured desired =>
    match work.task with
    | .protect asset =>
      some [(.protection asset, if desired ≤ work.verified then .protected else .degraded)]
    | .restore _ => none
  | .restored =>
    match work.task with
    | .restore asset =>
      if work.verified = 0 then none
      else if work.writes.any (·.2 = .failed) then
        some [(.restore asset, .restored), (.protection asset, .degraded)]
      else some [(.restore asset, .restored)]
    | .protect _ => none
  | .unusable =>
    match work.task with
    | .restore asset => some [(.restore asset, .failed), (.protection asset, .failed)]
    | .protect _ => none
  | .interrupted =>
    match work.task with
    | .restore asset => some [(.restore asset, .failed)]
    | .protect _ => none

abbrev Step := Outcome Database Phase Row

/-- The columns of the assets that a pass loads first. -/
def loadAssets (assets : List Asset) : List Attribute :=
  assets.flatMap fun asset =>
    [⟨.protection asset.id, asset.protectionStatus, asset.protectionStatus⟩,
      ⟨.restore asset.id, asset.restoreStatus, asset.restoreStatus⟩]

def loadReplicas (db : Database) (asset : Asset) : List Replica :=
  db.replicas.filter (·.assetId = asset.id)

variable (autoProtectUploads : Bool)

/-- The statements of `monitor_storage` and `queue_automatic_restore`. -/
def monitorStep (db : Database) (pass : Pass) : Action → Option Step
  | .storage available =>
    match pass.stage, pass.left with
    | .visiting, _ :: _ =>
      some (.stay db (.monitor { pass with stage := if available then .selecting else .opening }))
    | _, _ => none
  | .openEvent =>
    match pass.stage with
    | .opening => if pass.Clean then some (.stay db (.monitor pass.next)) else none
    | _ => none
  | .loadReplicas =>
    match pass.stage, pass.left with
    | .selecting, asset :: _ =>
      if pass.Clean then
        let replicas := loadReplicas db asset
        some (.stay db (.monitor { pass with
          instances := pass.instances ++ replicas.map fun replica =>
            ⟨.replica asset.id replica.id, replica.status, replica.status⟩
          stage := .reading (replicas.map Replica.id) }))
      else none
    | _, _ => none
  | .readOriginal ok =>
    match pass.stage with
    | .reading replicas =>
      match ok with
      | some ok => some (.stay db (.monitor { pass with stage := .verifying ok replicas false }))
      | none => some (.stay db (.monitor { pass with stage := .opening }))
    | _ => none
  | .verify healthy =>
    match pass.stage, pass.left with
    | .verifying ok (id :: left) found, asset :: _ =>
      some (.stay db (.monitor { pass.assign [(.replica asset.id id, if healthy then .verified else .failed)] with
        touched := id :: pass.touched
        stage := .verifying ok left (found || healthy) }))
    | _, _ => none
  | .decide =>
    match pass.stage, pass.left with
    | .verifying ok [] healthy, asset :: _ =>
      let (writes, stage) := pass.decide autoProtectUploads asset ok healthy
      some (.stay db (.monitor ((pass.assign writes).goOn stage)))
    | _, _ => none
  | .queue waiting =>
    match pass.stage, pass.left with
    | .queueing, asset :: _ =>
      if ¬ pass.Clean then none
      else if pass.due asset waiting then
        some (.stay db (.monitor { pass.assign [(.restore asset.id, .queued)] with stage := .committing }))
      else some (.stay db (.monitor pass.next))
    | _, _ => none
  | .flush row =>
    if pass.flushes ∧ pass.Changes row then some (.lock row (.monitor (pass.flushRow row))) else none
  | .commit =>
    if ¬ pass.Clean then none
    else
      let after := db.commit pass.writes
      match pass.stage, pass.left with
      | .visiting, [] => some (.finish after .idle)
      | .committing, _ => some (.finish after (.monitor (pass.committed .publishing)))
      | .unpublished, _ => some (.finish after (.monitor (pass.committed .visiting).next))
      | _, _ => none
  | .publish delivered raised =>
    match pass.stage, pass.left with
    | .publishing, asset :: _ =>
      let published := if delivered then { db with tasks := db.tasks ++ [.restore asset.id] } else db
      if raised then
        some (.stay published (.monitor { pass.assign [(.restore asset.id, .failed)] with stage := .unpublished }))
      else some (.stay published (.monitor pass.next))
    | .protecting, asset :: _ =>
      let published := if delivered then { db with tasks := db.tasks ++ [.protect asset.id] } else db
      -- The exception leaves the pass.
      if raised then some (.finish published .idle) else some (.stay published (.monitor pass.next))
    | _, _ => none
  | .resolveEvents =>
    match pass.stage with
    | .resolving => if pass.Clean then some (.stay db (.monitor pass.next)) else none
    | _ => none
  | _ => none

/-- `active_asset_for_write` finds the asset behind its lock. -/
def activeAsset? (db : Database) (id : UUID) : Option Asset :=
  db.assets.find? fun asset => asset.id = id ∧ asset.active

def startWork (db : Database) (task : Task) : Work where
  task := task
  candidates := match task with
    | .protect _ => []
    | .restore asset => (db.replicas.filter fun replica =>
        replica.assetId = asset ∧ replica.status = .verified).map Replica.id
  writes := match task with
    | .protect asset => [(.protection asset, .protecting)]
    | .restore asset => [(.restore asset, .restoring)]
  added := []

/-- A row of a replica that the worker has loaded. -/
def Work.Loads (work : Work) (db : Database) (id : UUID) : Prop :=
  match work.task with
  | .protect asset => ∃ replica ∈ db.replicas, replica.id = id ∧ replica.assetId = asset
  | .restore _ => id ∈ work.candidates

instance (work : Work) (db : Database) (id : UUID) : Decidable (work.Loads db id) := by
  unfold Work.Loads
  split <;> infer_instance

/-- The statements of `protect_asset` and `restore_asset` behind their locks. -/
def workStep (db : Database) (work : Work) : Action → Option Step
  | .writeReplica id ok =>
    if work.Loads db id then
      some (.lock (.replica id) (.working { work with
        writes := work.writes ++ [(.replica work.task.asset id, if ok then .verified else .failed)] }))
    else none
  | .addReplica id =>
    match work.task with
    | .protect asset =>
      if id ∈ db.replicas.map Replica.id then none
      else some (.stay db (.working { work with added := work.added ++ [⟨id, asset, .verified⟩] }))
    | .restore _ => none
  | .finish ending =>
    (work.ended ending).map fun statuses =>
      let after := db.commit (work.writes ++ statuses)
      .finish { after with replicas := after.replicas ++ work.added } .idle
  | .rollback =>
    match work.task with
    | .protect asset => some (.finish db (.failing asset))
    | .restore _ => none
  | _ => none

def program (db : Database) (phase : Phase) (action : Action) : Option Step :=
  if action = .stop then some (.finish db .idle)
  else
    match phase with
    | .idle =>
      match action with
      | .begin user repair =>
        let assets := db.assets.filter fun asset => asset.active ∧ user.all (· = asset.userId)
        some (.stay db (.monitor ⟨repair, assets, loadAssets assets, [], [], [], .visiting⟩))
      | .start task => if task ∈ db.tasks then some (.stay db (.loading task)) else none
      | _ => none
    | .monitor pass => monitorStep autoProtectUploads db pass action
    | .loading task =>
      match action with
      | .lockAsset =>
        match activeAsset? db task.asset with
        | some _ => some (.lock (.asset task.asset) (.working (startWork db task)))
        | none => some (.finish db .idle)
      | _ => none
    | .working work => workStep db work action
    | .failing id =>
      match action with
      | .lockAsset =>
        match activeAsset? db id with
        | some _ => some (.lock (.asset id) (.failed id))
        | none => some (.finish db .idle)
      | _ => none
    | .failed id =>
      match action with
      | .commitFailed => some (.finish (db.commit [(.protection id, .failed)]) .idle)
      | _ => none

abbrev Sessions := Store Database Phase Row Nat

abbrev step : Sessions → Nat × Action → Option Sessions := Store.step (program autoProtectUploads)

/-- No pass and no worker runs. -/
def start (db : Database) : Sessions := Store.idle db .idle

end Drivebound.Monitoring
