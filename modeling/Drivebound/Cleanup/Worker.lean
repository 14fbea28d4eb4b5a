import Drivebound.Cleanup.Job
import Drivebound.Core.Sessions

/-! The sessions that write deletion jobs: workers (`cleanup_account_deletion` with
`process_account_deletion_batch`), dispatchers, and `delete_account` from the job it
prepares to the publication it records. A session holds on to its instance of the job:
a commit leaves it as it is, a rollback expires it, and only an expired instance is
loaded anew by a select. What the unlinks and the sweep of a batch come to is left to
the steps, and so is which rows are locked by others and skipped. -/
namespace Drivebound.Cleanup
open Sessions

/-- A row of `assets` or `upload_sessions`. -/
structure Owned where
  id : UUID
  userId : UUID
  deriving DecidableEq, Repr

structure Database where
  users : List UUID
  assets : List Owned
  uploads : List Owned
  jobs : List AccountDeletionJob
  deriving DecidableEq, Repr

namespace Database

def job? (db : Database) (id : UUID) : Option AccountDeletionJob := db.jobs.find? (·.id = id)

def setJob (db : Database) (id : UUID) (change : AccountDeletionJob → AccountDeletionJob) :
    Database :=
  { db with jobs := Rows.updateKey AccountDeletionJob.id id change db.jobs }

def addJob (db : Database) (job : AccountDeletionJob) : Database :=
  { db with jobs := db.jobs ++ [job] }

def deleteUpload (db : Database) (id : UUID) : Database :=
  { db with uploads := db.uploads.filter (·.id ≠ id) }

def deleteAsset (db : Database) (id : UUID) : Database :=
  { db with assets := db.assets.filter (·.id ≠ id) }

/-- The row of the user with all that hangs on it. -/
def deleteUser (db : Database) (user : UUID) : Database :=
  { db with
    users := db.users.filter (· ≠ user)
    assets := db.assets.filter (·.userId ≠ user)
    uploads := db.uploads.filter (·.userId ≠ user) }

/-- The two counts before a completion. -/
def hasRows (db : Database) (user : UUID) : Bool :=
  db.assets.any (·.userId = user) || db.uploads.any (·.userId = user)

end Database

/-- A claimed job; `held` is the instance of its row, or `none` where it is expired. -/
structure Lease where
  job : UUID
  token : UUID
  held : Option AccountDeletionJob
  deriving DecidableEq, Repr

def Lease.expire (lease : Lease) : Lease := { lease with held := none }

/-- The selects of the job under its row lock. -/
inductive Point where
  /-- The first statement of an iteration after which `left` more follow. -/
  | top (left : Nat)
  /-- Before the counts; the row of the user is locked already. -/
  | final (left : Nat) (user : UUID)
  | failed (code : String)
  | retained (count : Nat)
  /-- After the loop. -/
  | closing
  deriving DecidableEq, Repr

/-- Where the loop goes on with so many iterations left. -/
def Point.iterate : Nat → Point
  | 0 => .closing
  | left + 1 => .top left

inductive Origin where
  | deleteAccount | reconcile
  deriving DecidableEq, Repr

/-- Who records a publication: a dispatcher with the jobs that follow, or
`delete_account` with the instance that it has prepared. -/
inductive Publisher where
  | dispatcher (rest : List UUID)
  | request (held : AccountDeletionJob)
  deriving DecidableEq, Repr

inductive Phase where
  | idle
  | received (job : UUID)
  | claiming (job : UUID)
  /-- Between two transactions, or before the lock of the job. -/
  | between (lease : Lease) (point : Point)
  | locked (lease : Lease) (point : Point)
  | selected (lease : Lease) (job : AccountDeletionJob) (point : Point)
  | purgingUpload (lease : Lease) (job : AccountDeletionJob) (left : Nat) (upload : UUID)
  | purgingAsset (lease : Lease) (job : AccountDeletionJob) (left : Nat) (asset : UUID)
  | finalizing (lease : Lease) (left : Nat) (user : UUID)
  /-- There were no rows left to count. -/
  | sweeping (lease : Lease) (job : AccountDeletionJob) (left : Nat) (user : UUID)
  /-- The row of the user is locked. -/
  | requesting (origin : Origin) (user : UUID)
  | preparing (origin : Origin) (user : UUID) (existing : Option UUID)
  | dispatching (due : List UUID)
  | accepted (held : AccountDeletionJob)
  | publishing (publisher : Publisher) (job : UUID) (published : Bool)
  | recording (publisher : Publisher) (job : UUID) (published : Bool)
  | advancing (publisher : Publisher) (held : AccountDeletionJob) (published : Bool)
  /-- A writer that publishes catalog rows under the lock of the user's row. -/
  | writing (user : UUID)
  deriving DecidableEq, Repr

inductive LockKey where
  | user (id : UUID)
  | job (id : UUID)
  | upload (id : UUID)
  | asset (id : UUID)
  deriving DecidableEq, Repr

inductive Action where
  | receive (job : UUID)
  | lockJob
  | claim (now : Timestamp) (token : UUID)
  | select
  | takeUpload (id : UUID)
  | takeAsset (id : UUID)
  /-- Neither select has found a row that is not locked. -/
  | finalize
  /-- The row and its files are gone. -/
  | purge (now : Timestamp) (retained : Nat)
  /-- The asset has noncanonical paths, and it stays. -/
  | retain (count : Nat)
  | lockUser
  | count
  | complete (now : Timestamp) (orphans : Nat)
  /-- Any exception inside the `try`, a failed commit included. -/
  | fail (code : String)
  /-- The commit after one of the last three selects. -/
  | resolve (now : Timestamp)
  | request (origin : Origin) (user : UUID)
  | prepare
  | accept (now : Timestamp) (id : UUID)
  | due (now : Timestamp)
  | publish (published : Bool)
  | record (now : Timestamp)
  | write (user : UUID)
  | insertAsset (id : UUID)
  | insertUpload (id : UUID)
  /-- A refusal, a return, or a crash. -/
  | stop
  deriving DecidableEq, Repr

variable (settings : Settings)

/-- The `WHERE` of the selects of the job. -/
def Point.matches (point : Point) (token : UUID) (row : AccountDeletionJob) : Bool :=
  match point with
  | .top _ | .final _ _ => row.leaseToken = some token
  | .failed _ | .retained _ => row.status = .running ∧ row.leaseToken = some token
  | .closing => true

def Point.isTop : Point → Bool
  | .top _ => true
  | _ => false

abbrev Step := Outcome Database Phase LockKey

/-- `session.scalar(select(AccountDeletionJob)…with_for_update())`. -/
def selectJob (db : Database) (lease : Lease) (point : Point) : Step :=
  match (db.job? lease.job).filter (point.matches lease.token) with
  | none => .finish db .idle
  | some row =>
    if point.isTop = true ∧ (lease.held.getD row).subjectId = none then .finish db .idle
    else .stay db (.selected lease (lease.held.getD row) point)

/-- What an iteration assigns to the job when it has purged something. -/
def AccountDeletionJob.renewed (job : AccountDeletionJob) (now : Timestamp) : AccountDeletionJob :=
  { job with failureCount := 0, leaseExpiresAt := some (now + settings.leaseSeconds) }

def AccountDeletionJob.reviewed (job : AccountDeletionJob) (now : Timestamp) (count : Nat)
    (code : String) : AccountDeletionJob :=
  { job with
    status := .manualReview
    retainedLegacyPaths := job.retainedLegacyPaths + count
    leaseToken := none
    leaseExpiresAt := none
    lastErrorCode := some code
    lastErrorAt := some now }

def AccountDeletionJob.completed (job : AccountDeletionJob) (now : Timestamp) :
    AccountDeletionJob :=
  { job with
    status := .completed
    completedAt := some now
    subjectId := none
    leaseToken := none
    leaseExpiresAt := none
    nextAttemptAt := now }

/-- What the handler of an exception, the retained paths of an asset and the end of the
loop assign to the job; `None` where nothing is written. -/
def resolveJob (now : Timestamp) (token : UUID) (job : AccountDeletionJob) :
    Point → Option AccountDeletionJob
  | .failed code =>
    some { job with
      status := .retry
      leaseToken := none
      leaseExpiresAt := none
      lastErrorCode := some code
      lastErrorAt := some now
      failureCount := job.failureCount + 1
      nextAttemptAt := now + retryDelay settings (job.failureCount + 1) }
  | .retained count => some (job.reviewed now count "noncanonical_legacy_path")
  | .closing =>
    if job.status = .running ∧ job.leaseToken = some token then
      some { job with
        status := .pending
        leaseToken := none
        leaseExpiresAt := none
        nextAttemptAt := now }
    else none
  | .top _ | .final _ _ => none

/-- The phases of the `try` with the lease that they go on under. -/
def Phase.attempt : Phase → Option Lease
  | .selected lease _ (.top _) | .selected lease _ (.final _ _)
  | .between lease (.final _ _) | .locked lease (.final _ _)
  | .purgingUpload lease _ _ _ | .purgingAsset lease _ _ _
  | .finalizing lease _ _ | .sweeping lease _ _ _ => some lease
  | _ => none

/-- Flush and commit of an instance of the job. -/
def Database.writeJob (db : Database) (id : UUID) (loaded assigned : AccountDeletionJob) : Database :=
  db.setJob id (AccountDeletionJob.flush loaded assigned)

/-- `prepare_account_deletion` as far as the job goes, and the commit. -/
def acceptJob (db : Database) (now : Timestamp) (id user : UUID) (existing : Option UUID) :
    Option (Database × AccountDeletionJob) :=
  match existing.bind db.job? with
  | some job => some (db, job)
  | none =>
    if (db.job? id).isSome ∨ ¬ user ∈ db.users ∨ db.jobs.any (·.subjectId = some user) then none
    else some (db.addJob (newJob settings id user now), newJob settings id user now)

def program (db : Database) (phase : Phase) : Action → Option Step
  | .receive job =>
    match phase with
    | .idle => some (.stay db (.received job))
    | _ => none
  | .lockJob =>
    match phase with
    | .received job => some (.lock (.job job) (.claiming job))
    | .between lease point => some (.lock (.job lease.job) (.locked lease point))
    | .publishing publisher job published =>
      some (.lock (.job job) (.recording publisher job published))
    | _ => none
  | .claim now token =>
    match phase with
    | .claiming id =>
      match (db.job? id).bind (claimAccountDeletionJob settings now token) with
      | none => some (.finish db .idle)
      | some claimed =>
        some (.finish (db.setJob id fun _ => claimed)
          (.between ⟨id, token, some claimed⟩ (.iterate settings.batchSize)))
    | _ => none
  | .select =>
    match phase with
    | .locked lease point => some (selectJob db lease point)
    | .recording publisher id published =>
      match db.job? id, publisher with
      | none, .dispatcher rest => some (.stay db (.dispatching rest))
      | none, .request _ => some (.finish db .idle)
      | some row, .dispatcher _ => some (.stay db (.advancing publisher row published))
      | some _, .request held => some (.stay db (.advancing publisher held published))
    | _ => none
  | .takeUpload id =>
    match phase with
    | .selected lease job (.top left) =>
      if db.uploads.any (fun row => row.id = id ∧ some row.userId = job.subjectId) then
        some (.lock (.upload id) (.purgingUpload lease job left id))
      else none
    | _ => none
  | .takeAsset id =>
    match phase with
    | .selected lease job (.top left) =>
      if db.assets.any (fun row => row.id = id ∧ some row.userId = job.subjectId) then
        some (.lock (.asset id) (.purgingAsset lease job left id))
      else none
    | _ => none
  | .purge now retained =>
    match phase with
    | .purgingUpload lease job left id =>
      let purged := { job.renewed settings now with uploadsPurged := job.uploadsPurged + 1 }
      some (.finish ((db.deleteUpload id).writeJob lease.job job purged)
        (.between { lease with held := some purged } (.iterate left)))
    | .purgingAsset lease job left id =>
      let purged := { job.renewed settings now with
        assetsPurged := job.assetsPurged + 1
        retainedLegacyPaths := job.retainedLegacyPaths + retained }
      some (.finish ((db.deleteAsset id).writeJob lease.job job purged)
        (.between { lease with held := some purged } (.iterate left)))
    | _ => none
  | .retain count =>
    match phase with
    | .purgingAsset lease _ _ _ => some (.finish db (.between lease.expire (.retained count)))
    | _ => none
  | .finalize =>
    match phase with
    | .selected lease job (.top left) =>
      job.subjectId.map fun user => .finish db (.finalizing lease.expire left user)
    | _ => none
  | .lockUser =>
    match phase with
    | .finalizing lease left user => some (.lock (.user user) (.between lease (.final left user)))
    | _ => none
  | .count =>
    match phase with
    | .selected lease job (.final left user) =>
      if db.hasRows user then some (.finish db (.between lease.expire (.iterate left)))
      else some (.stay db (.sweeping lease job left user))
    | _ => none
  | .complete now orphans =>
    match phase with
    | .sweeping lease job _ user =>
      if orphans = 0 then
        some (.finish ((db.deleteUser user).writeJob lease.job job (job.completed now)) .idle)
      else
        some (.finish (db.writeJob lease.job job
          (job.reviewed now orphans "account_namespace_requires_review")) .idle)
    | _ => none
  | .fail code => phase.attempt.map fun lease => .finish db (.between lease.expire (.failed code))
  | .resolve now =>
    match phase with
    | .selected _ _ (.top _) | .selected _ _ (.final _ _) => none
    | .selected lease job point =>
      match resolveJob settings now lease.token job point with
      | some assigned => some (.finish (db.writeJob lease.job job assigned) .idle)
      | none => some (.finish db .idle)
    | _ => none
  | .request origin user =>
    match phase with
    | .idle => some (.lock (.user user) (.requesting origin user))
    | _ => none
  | .prepare =>
    match phase with
    | .requesting origin user =>
      match db.jobs.find? (·.subjectId = some user) with
      | some job => some (.lock (.job job.id) (.preparing origin user (some job.id)))
      | none => some (.stay db (.preparing origin user none))
    | _ => none
  | .accept now id =>
    match phase with
    | .preparing origin user existing =>
      (acceptJob settings db now id user existing).map fun (db', job) =>
        .finish db' (match origin with
          | .deleteAccount => .accepted job
          | .reconcile => .idle)
    | _ => none
  | .due now =>
    match phase with
    | .idle => some (.stay db (.dispatching (dueAccountDeletionJobIds db.jobs now 100)))
    | _ => none
  | .publish published =>
    match phase with
    | .dispatching (id :: rest) => some (.stay db (.publishing (.dispatcher rest) id published))
    | .accepted held => some (.stay db (.publishing (.request held) held.id published))
    | _ => none
  | .record now =>
    match phase with
    | .advancing publisher job published =>
      match recordAccountDeletionPublish settings now published job, publisher with
      | none, .dispatcher rest => some (.stay db (.dispatching rest))
      | none, .request _ => some (.finish db .idle)
      | some recorded, .dispatcher rest =>
        some (.finish (db.writeJob job.id job recorded) (.dispatching rest))
      | some recorded, .request _ => some (.finish (db.writeJob job.id job recorded) .idle)
    | _ => none
  | .write user =>
    match phase with
    | .idle => some (.lock (.user user) (.writing user))
    | _ => none
  | .insertAsset id =>
    match phase with
    | .writing user =>
      if user ∈ db.users ∧ ¬ db.assets.any (·.id = id) then
        some (.finish { db with assets := db.assets ++ [⟨id, user⟩] } .idle)
      else none
    | _ => none
  | .insertUpload id =>
    match phase with
    | .writing user =>
      if user ∈ db.users ∧ ¬ db.uploads.any (·.id = id) then
        some (.finish { db with uploads := db.uploads ++ [⟨id, user⟩] } .idle)
      else none
    | _ => none
  | .stop => some (.finish db .idle)

abbrev Jobs := Store Database Phase LockKey Nat

abbrev step : Jobs → Nat × Action → Option Jobs := Store.step (program settings)

def start (db : Database) : Jobs := Store.idle db .idle

/-- The lease of a worker that has claimed its job. -/
def Phase.lease : Phase → Option Lease
  | .between lease _ | .locked lease _ | .selected lease _ _ | .purgingUpload lease _ _ _
  | .purgingAsset lease _ _ _ | .finalizing lease _ _ | .sweeping lease _ _ _ => some lease
  | _ => none

/-- The row of `account_deletion_jobs` that may be written next. -/
def Phase.writes : Phase → Option UUID
  | .claiming id => some id
  | .selected lease _ _ | .purgingUpload lease _ _ _ | .purgingAsset lease _ _ _
  | .sweeping lease _ _ _ => some lease.job
  | .advancing _ held _ => some held.id
  | _ => none

section Rows

variable {settings} {db : Database} {id other : UUID} {row loaded assigned : AccountDeletionJob}

theorem job?_writeJob_other (different : other ≠ id) :
    (db.writeJob id loaded assigned).job? other = db.job? other :=
  Rows.find?_updateKey_other (fun _ same => same) different

theorem job?_claim {now : Timestamp} {token : UUID} {claimed : AccountDeletionJob}
    (found : db.job? id = some row)
    (granted : claimAccountDeletionJob settings now token row = some claimed) :
    (db.setJob id fun _ => claimed).job? id = some claimed := by
  have key : claimed.id = id := (claim_spec granted).2.1.trans (Rows.find?_key found).2
  exact Rows.find?_updateKey_self (fun _ _ => key) found

theorem job?_addJob {job : AccountDeletionJob} (found : db.job? other = some row) :
    (db.addJob job).job? other = some row := by
  simp only [Database.job?, Database.addJob, List.find?_append] at found ⊢
  rw [found, Option.some_or]

end Rows

/-- The actions that may end in a commit with a change. -/
def Action.changes : Action → Bool
  | .claim _ _ | .purge _ _ | .complete _ _ | .resolve _ | .accept _ _ | .record _
  | .insertAsset _ | .insertUpload _ => true
  | _ => false

variable {settings} {db : Database} {phase : Phase} {action : Action} {outcome : Step}

theorem selectJob_result (db : Database) (lease : Lease) (point : Point) :
    (selectJob db lease point).result db = db := by
  unfold selectJob
  split
  · rfl
  · split <;> rfl

theorem program_quiet (chosen : program settings db phase action = some outcome)
    (quiet : action.changes = false) : outcome.result db = db := by
  cases action with
  | claim | purge | complete | resolve | accept | record | insertAsset | insertUpload => contradiction
  | select =>
    simp only [program] at chosen
    split at chosen
    · cases chosen
      exact selectJob_result ..
    · split at chosen <;> cases chosen <;> rfl
    · contradiction
  | finalize =>
    simp only [program] at chosen
    split at chosen
    · obtain ⟨user, _, rfl⟩ := Option.map_eq_some_iff.mp chosen
      rfl
    · contradiction
  | fail code =>
    obtain ⟨lease, _, rfl⟩ := Option.map_eq_some_iff.mp chosen
    rfl
  | takeUpload | takeAsset | count =>
    simp only [program] at chosen
    split at chosen
    · split at chosen <;> cases chosen <;> rfl
    · contradiction
  | prepare =>
    simp only [program] at chosen
    split at chosen
    · split at chosen <;> cases chosen <;> rfl
    · contradiction
  | receive | retain | lockUser | request | due | write =>
    simp only [program] at chosen
    split at chosen
    · cases chosen
      rfl
    · contradiction
  | lockJob =>
    simp only [program] at chosen
    split at chosen <;> cases chosen <;> rfl
  | publish =>
    simp only [program] at chosen
    split at chosen <;> cases chosen <;> rfl
  | stop =>
    cases chosen
    rfl

/-- A step writes the row of one job at most; the others stay, and a job may be new. -/
theorem program_jobs (chosen : program settings db phase action = some outcome) {id : UUID}
    (other : phase.writes ≠ some id) {row : AccountDeletionJob} (found : db.job? id = some row) :
    (outcome.result db).job? id = some row := by
  by_cases changes : action.changes = false
  · rw [program_quiet chosen changes]
    exact found
  have written : ∀ {changed : Database} {target : UUID} {loaded assigned : AccountDeletionJob},
      phase.writes = some target → changed.jobs = db.jobs →
      (changed.writeJob target loaded assigned).job? id = some row := by
    intro changed target loaded assigned writes same
    have different : id ≠ target := fun equal => other (equal ▸ writes)
    rw [job?_writeJob_other different, Database.job?, same]
    exact found
  cases action with
  | claim now token =>
    simp only [program] at chosen
    split at chosen
    · rename_i target
      have different : id ≠ target := fun equal => other (equal ▸ rfl)
      split at chosen
      · cases chosen
        exact found
      · rename_i claimed granted
        cases chosen
        obtain ⟨before, present, claims⟩ := Option.bind_eq_some_iff.mp granted
        have key : claimed.id = target :=
          (claim_spec claims).2.1.trans (Rows.find?_key present).2
        exact (Rows.find?_updateKey_other (fun _ _ => key) different).trans found
    · contradiction
  | purge now retained =>
    simp only [program] at chosen
    split at chosen
    · cases chosen
      exact written rfl rfl
    · cases chosen
      exact written rfl rfl
    · contradiction
  | complete now orphans =>
    simp only [program] at chosen
    split at chosen
    · split at chosen <;> cases chosen <;> exact written rfl rfl
    · contradiction
  | resolve now =>
    simp only [program] at chosen
    split at chosen
    · contradiction
    · contradiction
    · split at chosen
      · cases chosen
        exact written rfl rfl
      · cases chosen
        exact found
    · contradiction
  | accept now new =>
    simp only [program] at chosen
    split at chosen
    · obtain ⟨⟨db', job⟩, accepted, rfl⟩ := Option.map_eq_some_iff.mp chosen
      unfold acceptJob at accepted
      split at accepted
      · cases accepted
        exact found
      · split at accepted
        · contradiction
        · cases accepted
          exact job?_addJob found
    · contradiction
  | record now =>
    simp only [program] at chosen
    split at chosen
    · split at chosen
      · cases chosen
        exact found
      · cases chosen
        exact found
      · cases chosen
        exact written rfl rfl
      · cases chosen
        exact written rfl rfl
    · contradiction
  | insertAsset id =>
    simp only [program] at chosen
    split at chosen
    · split at chosen
      · cases chosen
        exact found
      · contradiction
    · contradiction
  | insertUpload id =>
    simp only [program] at chosen
    split at chosen
    · split at chosen
      · cases chosen
        exact found
      · contradiction
    · contradiction
  | _ => exact absurd rfl changes

def Point.holds : Point → LockKey → Prop
  | .final _ user, k => k = .user user
  | _, _ => False

def Holding : Phase → LockKey → Prop
  | .claiming id, k | .recording _ id _, k => k = .job id
  | .between _ point, k => point.holds k
  | .locked lease point, k | .selected lease _ point, k => k = .job lease.job ∨ point.holds k
  | .purgingUpload lease _ _ id, k => k = .job lease.job ∨ k = .upload id
  | .purgingAsset lease _ _ id, k => k = .job lease.job ∨ k = .asset id
  | .sweeping lease _ _ user, k => k = .job lease.job ∨ k = .user user
  | .advancing _ held _, k => k = .job held.id
  | .requesting _ user, k | .preparing _ user _, k | .writing user, k => k = .user user
  | _, _ => False

theorem writes_held {id : UUID} (writes : phase.writes = some id) : Holding phase (.job id) := by
  cases phase with
  | claiming job =>
    cases writes
    rfl
  | selected lease job point =>
    cases writes
    exact .inl rfl
  | purgingUpload lease job left upload =>
    cases writes
    exact .inl rfl
  | purgingAsset lease job left asset =>
    cases writes
    exact .inl rfl
  | sweeping lease job left user =>
    cases writes
    exact .inl rfl
  | advancing publisher held published =>
    cases writes
    rfl
  | idle | received | between | locked | finalizing | requesting | preparing | dispatching |
    accepted | publishing | recording | writing => contradiction

/-- The locks that the next program point relies on are held. -/
def Keeps (phase : Phase) : Step → Prop
  | .stay _ l => ∀ k, Holding l k → Holding phase k
  | .lock k l => ∀ k', Holding l k' → k' = k ∨ Holding phase k'
  | .share _ l => ∀ k, Holding l k → Holding phase k
  | .finish _ l => ∀ k, ¬ Holding l k

theorem iterate_quiet (left : Nat) (k : LockKey) : ¬ (Point.iterate left).holds k := by
  cases left <;> exact id

theorem program_keeps
    (named : ∀ held id published, phase = .recording (.request held) id published → held.id = id)
    (chosen : program settings db phase action = some outcome) : Keeps phase outcome := by
  cases action with
  | lockJob =>
    simp only [program] at chosen
    split at chosen
    · cases chosen
      exact fun _ held => .inl held
    · cases chosen
      exact fun _ held => held
    · cases chosen
      exact fun _ held => .inl held
    · contradiction
  | claim now token =>
    simp only [program] at chosen
    split at chosen
    · split at chosen <;> cases chosen
      · exact fun _ held => held
      · exact iterate_quiet _
    · contradiction
  | select =>
    simp only [program] at chosen
    split at chosen
    · cases chosen
      unfold selectJob
      split
      · exact fun _ held => held
      · split <;> exact fun _ held => held
    · split at chosen
      · cases chosen
        exact fun _ held => held.elim
      · cases chosen
        exact fun _ held => held
      · rename_i row _ found
        cases chosen
        have key := (Rows.find?_key found).2
        exact fun k held => held.trans (congrArg LockKey.job key)
      · rename_i held _
        cases chosen
        exact fun k holding => holding.trans (congrArg LockKey.job (named held _ _ rfl))
    · contradiction
  | takeUpload id =>
    simp only [program] at chosen
    split at chosen
    · split at chosen <;> cases chosen
      exact fun k held => held.elim (fun job => .inr (.inl job)) .inl
    · contradiction
  | takeAsset id =>
    simp only [program] at chosen
    split at chosen
    · split at chosen <;> cases chosen
      exact fun k held => held.elim (fun job => .inr (.inl job)) .inl
    · contradiction
  | finalize =>
    simp only [program] at chosen
    split at chosen
    · obtain ⟨user, _, rfl⟩ := Option.map_eq_some_iff.mp chosen
      exact fun _ held => held
    · contradiction
  | purge now retained =>
    simp only [program] at chosen
    split at chosen <;> cases chosen <;> exact iterate_quiet _
  | count =>
    simp only [program] at chosen
    split at chosen
    · split at chosen <;> cases chosen
      · exact iterate_quiet _
      · exact fun _ held => held
    · contradiction
  | complete | insertAsset | insertUpload =>
    simp only [program] at chosen
    split at chosen
    · split at chosen <;> cases chosen <;> exact fun _ held => held
    · contradiction
  | fail code =>
    obtain ⟨lease, _, rfl⟩ := Option.map_eq_some_iff.mp chosen
    exact fun _ held => held
  | resolve now =>
    simp only [program] at chosen
    split at chosen
    · contradiction
    · contradiction
    · split at chosen <;> cases chosen <;> exact fun _ held => held
    · contradiction
  | prepare =>
    simp only [program] at chosen
    split at chosen
    · split at chosen <;> cases chosen
      · exact fun _ held => .inr held
      · exact fun _ held => held
    · contradiction
  | accept now id =>
    simp only [program] at chosen
    split at chosen
    · rename_i origin user existing
      obtain ⟨⟨db', job⟩, accepted, rfl⟩ := Option.map_eq_some_iff.mp chosen
      cases origin <;> exact fun _ held => held
    · contradiction
  | publish published =>
    simp only [program] at chosen
    split at chosen <;> cases chosen <;> exact fun _ held => held
  | record now =>
    simp only [program] at chosen
    split at chosen
    · split at chosen <;> cases chosen
      · exact fun _ held => held.elim
      · exact fun _ held => held
      · exact fun _ held => held
      · exact fun _ held => held
    · contradiction
  | receive | retain | due =>
    simp only [program] at chosen
    split at chosen
    · cases chosen
      exact fun _ held => held
    · contradiction
  | lockUser | request | write =>
    simp only [program] at chosen
    split at chosen
    · cases chosen
      exact fun _ held => .inl held
    · contradiction
  | stop =>
    cases chosen
    exact fun _ held => held

def oneAssetABatch : Settings := ⟨1, 10, 30, 3600, 0⟩

/-- A user with one asset, and the job. -/
def oneJob : Database := ⟨[1], [⟨5, 1⟩], [], [newJob oneAssetABatch 9 1 0]⟩

/-- A worker claims the job and completes it. -/
def completeJob (q : Nat) (now token : Nat) : List (Nat × Action) :=
  [(q, .receive 9), (q, .lockJob), (q, .claim now token), (q, .lockJob), (q, .select),
    (q, .finalize), (q, .lockUser), (q, .lockJob), (q, .select), (q, .count), (q, .complete now 0)]

end Drivebound.Cleanup
