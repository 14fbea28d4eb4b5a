import Drivebound.Account.Ledger
import Drivebound.Core.Sessions

/-! `delete_account` with `prepare_account_deletion`, and
`reconcile_suppression_ledger`. A request authenticates against the ledger and the
database before it waits for the lock of its user's row. The marker is put into
the ledger before the commit; from then on every way a transaction can end leaves
it there. Locks are held until the transaction ends. -/
namespace Drivebound.Account
open Sessions

structure User where
  id : UUID
  disabledAt : Option Timestamp
  deriving DecidableEq, Repr

structure AccountDeletionJob where
  id : UUID
  /-- Erased when the cleanup is complete. -/
  subjectId : Option UUID
  requestedAt : Timestamp
  deriving DecidableEq, Repr

/-- What is committed, and the ledger directory. -/
structure Registry where
  users : List User
  jobs : List AccountDeletionJob
  ledger : Ledger
  deriving DecidableEq, Repr

inductive Phase where
  | idle
  /-- `reject_suppressed_account` has let the account pass. -/
  | unsuppressed (user : UUID)
  /-- The instance that `current_auth` has loaded stays in the session. -/
  | authenticated (user : User)
  | locked (user : User)
  /-- The job is in the session; `created` where the request has added it. -/
  | prepared (user : UUID) (job : AccountDeletionJob) (created : Bool)
  | recorded (user : UUID) (job : AccountDeletionJob) (created : Bool)
  | ledgerRead (records : List Marker)
  /-- The markers still to replay and the jobs added so far. -/
  | replaying (missing : List Marker) (added : List AccountDeletionJob)
  | replayLocked (user : UUID) (record : Marker) (missing : List Marker)
      (added : List AccountDeletionJob)
  /-- The worker that has cleaned up finishes the job under the user's lock. -/
  | completing (user : UUID)
  deriving DecidableEq, Repr

inductive LockKey where
  | user (id : UUID)
  deriving DecidableEq, Repr

inductive Action where
  | checkLedger (user : UUID)
  | loadUser
  | lockUser
  /-- Wrong confirmation, password or code, rate limits, failed audit events. -/
  | refuse
  | prepare (job : UUID) (now : Timestamp)
  | writeMarker
  /-- The marker write fails: with the file in place or without. -/
  | failMarker (published : Bool)
  | commit (now : Timestamp)
  | failCommit
  | crash
  | readLedger
  | selectMissing
  | lockRecord
  | skipRecord
  | replay
  | commitReplay (now : Timestamp)
  | lockForCompletion (user : UUID)
  | complete
  deriving DecidableEq, Repr

def Registry.user? (r : Registry) (id : UUID) : Option User := r.users.find? (·.id = id)

def Registry.job? (r : Registry) (subject : UUID) : Option AccountDeletionJob :=
  r.jobs.find? (·.subjectId = some subject)

/-- The lockout of `prepare_account_deletion`. -/
def Registry.disable (r : Registry) (subjects : List UUID) (now : Timestamp) : Registry :=
  { r with users := r.users.map fun user =>
      if user.id ∈ subjects then { user with disabledAt := some now } else user }

/-- The cleanup deletes the user's row and erases the subject of the job. -/
def Registry.complete (r : Registry) (subject : UUID) : Registry :=
  { r with
    users := r.users.filter (·.id ≠ subject)
    jobs := r.jobs.map fun job =>
      if job.subjectId = some subject then { job with subjectId := none } else job }

def Registry.addJobs (r : Registry) (jobs : List AccountDeletionJob) : Registry :=
  { r with jobs := r.jobs ++ jobs }

variable (fingerprint : UUID → String)

def marker (user : UUID) (job : AccountDeletionJob) : Marker :=
  ⟨job.id, fingerprint user, job.requestedAt⟩

abbrev Step := Outcome Registry Phase LockKey

/-- `delete_account` from the lock on, up to the marker: an existing job is used
again, otherwise one is added under a new id. -/
def prepareDeletion (r : Registry) (cached : User) (job : UUID) (now : Timestamp) : Option Step :=
  match r.user? cached.id, r.job? cached.id with
  | none, _ => some (.finish r .idle)
  | some _, some existing =>
    if cached.disabledAt.isSome then some (.finish r .idle)
    else some (.stay r (.prepared cached.id existing false))
  | some _, none =>
    if r.jobs.any (·.id = job) then none
    else some (.stay r (.prepared cached.id ⟨job, some cached.id, now⟩ true))

/-- `asyncio.to_thread(write_suppression_marker, …)` that returns. -/
def recordMarker (r : Registry) (user : UUID) (job : AccountDeletionJob) (created : Bool) : Step :=
  match writeSuppressionMarker r.ledger (marker fingerprint user job) with
  | some ledger => .stay { r with ledger } (.recorded user job created)
  | none => .finish r .idle

/-- A marker write that raises and the rollback. -/
def failMarker (r : Registry) (user : UUID) (job : AccountDeletionJob) (published : Bool) : Step :=
  match writeSuppressionMarker r.ledger (marker fingerprint user job) with
  | some ledger => .finish (if published then { r with ledger } else r) .idle
  | none => .finish r .idle

def commitDeletion (r : Registry) (user : UUID) (job : AccountDeletionJob) (created : Bool)
    (now : Timestamp) : Step :=
  if created then .finish ((r.addJobs [job]).disable [user] now) .idle else .finish r .idle

/-- One record of `reconcile_suppression_ledger`, under the user's lock. -/
def replayRecord (r : Registry) (user : UUID) (record : Marker) (missing : List Marker)
    (added : List AccountDeletionJob) : Option Step :=
  match r.user? user, (r.jobs ++ added).find? (·.subjectId = some user) with
  | none, _ | some _, some _ => some (.stay r (.replaying missing added))
  | some _, none =>
    if (r.jobs ++ added).any (·.id = record.jobId) then none
    else some (.stay r (.replaying missing
      (added ++ [⟨record.jobId, some user, record.requestedAt⟩])))

def program (r : Registry) (phase : Phase) : Action → Option Step
  | .checkLedger user =>
    match phase, suppressionSubjectIsDenied r.ledger (fingerprint user) with
    | .idle, some false => some (.stay r (.unsuppressed user))
    | .idle, _ => some (.stay r .idle)
    | _, _ => none
  | .loadUser =>
    match phase with
    | .unsuppressed user =>
      match r.user? user with
      | some loaded =>
        if loaded.disabledAt.isSome then some (.finish r .idle)
        else some (.stay r (.authenticated loaded))
      | none => some (.finish r .idle)
    | _ => none
  | .lockUser =>
    match phase with
    | .authenticated user => some (.lock (.user user.id) (.locked user))
    | _ => none
  | .refuse =>
    match phase with
    | .locked _ => some (.finish r .idle)
    | _ => none
  | .prepare job now =>
    match phase with
    | .locked cached => prepareDeletion r cached job now
    | _ => none
  | .writeMarker =>
    match phase with
    | .prepared user job created => some (recordMarker fingerprint r user job created)
    | _ => none
  | .failMarker published =>
    match phase with
    | .prepared user job _ => some (failMarker fingerprint r user job published)
    | _ => none
  | .commit now =>
    match phase with
    | .recorded user job created => some (commitDeletion r user job created now)
    | _ => none
  | .failCommit =>
    match phase with
    | .recorded _ _ _ => some (.finish r .idle)
    | _ => none
  | .crash => some (.finish r .idle)
  | .readLedger =>
    match phase, readSuppressionMarkers r.ledger with
    | .idle, some records => some (.stay r (.ledgerRead records))
    | _, _ => none
  | .selectMissing =>
    match phase with
    | .ledgerRead records =>
      some (.stay r (.replaying (records.filter fun record =>
        r.jobs.all (·.id ≠ record.jobId)) []))
    | _ => none
  | .lockRecord =>
    match phase with
    | .replaying (record :: missing) added =>
      match r.users.find? (fingerprint ·.id = record.subjectFingerprint) with
      | some user => some (.lock (.user user.id) (.replayLocked user.id record missing added))
      | none => none
    | _ => none
  | .skipRecord =>
    match phase with
    | .replaying (record :: missing) added =>
      if r.users.all (fingerprint ·.id ≠ record.subjectFingerprint) then
        some (.stay r (.replaying missing added))
      else none
    | _ => none
  | .replay =>
    match phase with
    | .replayLocked user record missing added => replayRecord r user record missing added
    | _ => none
  | .commitReplay now =>
    match phase with
    | .replaying [] added =>
      some (.finish ((r.addJobs added).disable (added.filterMap (·.subjectId)) now) .idle)
    | _ => none
  | .lockForCompletion user =>
    match phase with
    | .idle => some (.lock (.user user) (.completing user))
    | _ => none
  | .complete =>
    match phase with
    | .completing user => some (.finish (r.complete user) .idle)
    | _ => none

/-- Requests and reconcilers, numbered by `τ`. -/
abbrev Requests (τ : Type) := Store Registry Phase LockKey τ

abbrev step {τ : Type} [DecidableEq τ] : Requests τ → τ × Action → Option (Requests τ) :=
  Store.step (program fingerprint)

end Drivebound.Account
