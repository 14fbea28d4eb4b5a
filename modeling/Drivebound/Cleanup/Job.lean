import Drivebound.Core.Attributes
import Drivebound.Core.Rows
import Drivebound.Erasure.Database
import Mathlib

/-! Rows of `account_deletion_jobs` with the functions of `services/account_deletion.py`
that lease, schedule and publish them. A function that assigns to an instance returns
the instance; `setJob` writes it back. -/
namespace Drivebound.Cleanup
open Attributes
open Erasure (JobStatus)

structure Settings where
  batchSize : Nat
  leaseSeconds : Nat
  retryBaseSeconds : Nat
  retryMaxSeconds : Nat
  quiescenceSeconds : Nat
  deriving DecidableEq, Repr

structure AccountDeletionJob where
  id : UUID
  subjectId : Option UUID
  status : JobStatus
  attemptCount : Nat
  failureCount : Nat
  assetsPurged : Nat
  uploadsPurged : Nat
  retainedLegacyPaths : Nat
  requestedAt : Timestamp
  notBefore : Timestamp
  nextAttemptAt : Timestamp
  leaseToken : Option UUID
  leaseExpiresAt : Option Timestamp
  lastErrorCode : Option String
  lastErrorAt : Option Timestamp
  completedAt : Option Timestamp
  deriving DecidableEq, Repr

namespace AccountDeletionJob

/-- The `UPDATE` of a row by an instance that was loaded as `loaded` and assigned to. -/
def flush (loaded assigned stored : AccountDeletionJob) : AccountDeletionJob where
  id := stored.id
  subjectId := Attributes.flush loaded.subjectId assigned.subjectId stored.subjectId
  status := Attributes.flush loaded.status assigned.status stored.status
  attemptCount := Attributes.flush loaded.attemptCount assigned.attemptCount stored.attemptCount
  failureCount := Attributes.flush loaded.failureCount assigned.failureCount stored.failureCount
  assetsPurged := Attributes.flush loaded.assetsPurged assigned.assetsPurged stored.assetsPurged
  uploadsPurged := Attributes.flush loaded.uploadsPurged assigned.uploadsPurged stored.uploadsPurged
  retainedLegacyPaths := Attributes.flush loaded.retainedLegacyPaths assigned.retainedLegacyPaths
    stored.retainedLegacyPaths
  requestedAt := Attributes.flush loaded.requestedAt assigned.requestedAt stored.requestedAt
  notBefore := Attributes.flush loaded.notBefore assigned.notBefore stored.notBefore
  nextAttemptAt := Attributes.flush loaded.nextAttemptAt assigned.nextAttemptAt stored.nextAttemptAt
  leaseToken := Attributes.flush loaded.leaseToken assigned.leaseToken stored.leaseToken
  leaseExpiresAt :=
    Attributes.flush loaded.leaseExpiresAt assigned.leaseExpiresAt stored.leaseExpiresAt
  lastErrorCode := Attributes.flush loaded.lastErrorCode assigned.lastErrorCode stored.lastErrorCode
  lastErrorAt := Attributes.flush loaded.lastErrorAt assigned.lastErrorAt stored.lastErrorAt
  completedAt := Attributes.flush loaded.completedAt assigned.completedAt stored.completedAt

@[simp] theorem flush_id (loaded assigned stored : AccountDeletionJob) :
    (flush loaded assigned stored).id = stored.id := rfl

@[simp] theorem flush_status (loaded assigned stored : AccountDeletionJob) :
    (flush loaded assigned stored).status =
      Attributes.flush loaded.status assigned.status stored.status := rfl

@[simp] theorem flush_leaseToken (loaded assigned stored : AccountDeletionJob) :
    (flush loaded assigned stored).leaseToken =
      Attributes.flush loaded.leaseToken assigned.leaseToken stored.leaseToken := rfl

@[simp] theorem flush_subjectId (loaded assigned stored : AccountDeletionJob) :
    (flush loaded assigned stored).subjectId =
      Attributes.flush loaded.subjectId assigned.subjectId stored.subjectId := rfl

/-- An instance that still shows the stored row is written back as it is. -/
theorem flush_stored (stored assigned : AccountDeletionJob) (same : assigned.id = stored.id) :
    flush stored assigned stored = assigned := by
  simp only [flush, Attributes.flush_fresh, ← same]

end AccountDeletionJob

/-- `min(base * 2 ** min(max(attempt - 1, 0), 10), maximum)`. -/
def retryDelay (settings : Settings) (attempt : Nat) : Nat :=
  min (settings.retryBaseSeconds * 2 ^ min (attempt - 1) 10) settings.retryMaxSeconds

/-- The job of `prepare_account_deletion`. -/
def newJob (settings : Settings) (id subject : UUID) (now : Timestamp) : AccountDeletionJob :=
  { id, subjectId := some subject, status := .pending
    attemptCount := 0, failureCount := 0, assetsPurged := 0, uploadsPurged := 0
    retainedLegacyPaths := 0, requestedAt := now, notBefore := now + settings.quiescenceSeconds
    nextAttemptAt := now, leaseToken := none, leaseExpiresAt := none, lastErrorCode := none
    lastErrorAt := none, completedAt := none }

/-- The statuses that `claim_account_deletion_job` and the due query select. -/
def IsOpen (status : JobStatus) : Prop :=
  status = .pending ∨ status = .queued ∨ status = .retry ∨ status = .running

instance : DecidablePred IsOpen := fun _ => inferInstanceAs (Decidable (_ ∨ _))

/-- `claim_account_deletion_job` up to its commit; `None` is a refusal. -/
def claimAccountDeletionJob (settings : Settings) (now : Timestamp) (token : UUID)
    (job : AccountDeletionJob) : Option AccountDeletionJob :=
  if ¬ IsOpen job.status ∨ now < job.notBefore ∨
      (job.status ≠ .queued ∧ now < job.nextAttemptAt) then none
  else if job.status = .running ∧ job.leaseExpiresAt.any (now < ·) then none
  else some { job with
    status := .running
    leaseToken := some token
    leaseExpiresAt := some (now + settings.leaseSeconds)
    attemptCount := job.attemptCount + 1
    lastErrorCode := none }

/-- The `WHERE` of `due_account_deletion_job_ids`. -/
def IsDue (now : Timestamp) (job : AccountDeletionJob) : Prop :=
  IsOpen job.status ∧ job.notBefore ≤ now ∧ job.nextAttemptAt ≤ now ∧
    (job.status ≠ .running ∨ job.leaseExpiresAt.all (· ≤ now))

instance (now : Timestamp) : DecidablePred (IsDue now) := fun _ =>
  inferInstanceAs (Decidable (_ ∧ _))

/-- The `ORDER BY` of `due_account_deletion_job_ids`. -/
def Earlier (one other : AccountDeletionJob) : Prop :=
  one.nextAttemptAt < other.nextAttemptAt ∨
    (one.nextAttemptAt = other.nextAttemptAt ∧ one.requestedAt ≤ other.requestedAt)

instance : DecidableRel Earlier := fun _ _ => inferInstanceAs (Decidable (_ ∨ _))

def dueAccountDeletionJobIds (jobs : List AccountDeletionJob) (now : Timestamp) (limit : Nat) :
    List UUID :=
  (((jobs.filter (IsDue now ·)).insertionSort Earlier).take limit).map AccountDeletionJob.id

/-- The statuses that `record_account_deletion_publish` advances. -/
def IsPublishable (status : JobStatus) : Prop :=
  status = .pending ∨ status = .queued ∨ status = .retry

instance : DecidablePred IsPublishable := fun _ => inferInstanceAs (Decidable (_ ∨ _))

/-- `record_account_deletion_publish` on the instance that its select returns. -/
def recordAccountDeletionPublish (settings : Settings) (now : Timestamp) (published : Bool)
    (job : AccountDeletionJob) : Option AccountDeletionJob :=
  if ¬ IsPublishable job.status then none
  else if published then
    some { job with
      leaseToken := none
      leaseExpiresAt := none
      status := .queued
      nextAttemptAt := now + settings.leaseSeconds
      lastErrorCode := none }
  else
    some { job with
      leaseToken := none
      leaseExpiresAt := none
      status := .retry
      failureCount := job.failureCount + 1
      lastErrorCode := some "broker_publish_failed"
      lastErrorAt := some now
      nextAttemptAt := now + retryDelay settings (job.failureCount + 1) }

theorem mem_dueAccountDeletionJobIds {jobs : List AccountDeletionJob} {now : Timestamp}
    {limit : Nat} {id : UUID} (due : id ∈ dueAccountDeletionJobIds jobs now limit) :
    ∃ job ∈ jobs, job.id = id ∧ IsDue now job := by
  obtain ⟨job, member, rfl⟩ := List.mem_map.mp due
  have sorted := List.mem_of_mem_take member
  have kept := ((List.perm_insertionSort Earlier _).mem_iff).mp sorted
  obtain ⟨present, passes⟩ := List.mem_filter.mp kept
  exact ⟨job, present, rfl, of_decide_eq_true passes⟩

/-- A due job can be claimed at that time. -/
theorem IsDue.claimable {settings : Settings} {now : Timestamp} {token : UUID}
    {job : AccountDeletionJob} (due : IsDue now job) :
    (claimAccountDeletionJob settings now token job).isSome = true := by
  obtain ⟨isOpen, ready, scheduled, expired⟩ := due
  have allowed : ¬ (¬ IsOpen job.status ∨ now < job.notBefore ∨
      (job.status ≠ .queued ∧ now < job.nextAttemptAt)) := by
    rintro (closed | early | ⟨_, early⟩)
    · exact closed isOpen
    · exact absurd early (Nat.not_lt.mpr ready)
    · exact absurd early (Nat.not_lt.mpr scheduled)
  have unleased : ¬ (job.status = .running ∧ job.leaseExpiresAt.any (now < ·)) := by
    rintro ⟨running, leased⟩
    rcases expired with other | passed
    · exact other running
    · cases lease : job.leaseExpiresAt with
      | none => simp [lease] at leased
      | some expiry =>
        simp only [lease, Option.any_some, decide_eq_true_eq, Option.all_some] at leased passed
        exact absurd leased (Nat.not_lt.mpr passed)
  simp only [claimAccountDeletionJob, if_neg allowed, if_neg unleased, Option.isSome_some]

/-- A claimed job was open, and it is running with the claim's token. -/
theorem claim_spec {settings : Settings} {now : Timestamp} {token : UUID}
    {job claimed : AccountDeletionJob}
    (granted : claimAccountDeletionJob settings now token job = some claimed) :
    IsOpen job.status ∧ claimed.id = job.id ∧ claimed.status = .running ∧
      claimed.leaseToken = some token ∧ claimed.subjectId = job.subjectId := by
  unfold claimAccountDeletionJob at granted
  split at granted
  · contradiction
  rename_i allowed
  split at granted
  · contradiction
  cases granted
  have isOpen : IsOpen job.status := by
    by_contra closed
    exact allowed (.inl closed)
  exact ⟨isOpen, rfl, rfl, rfl, rfl⟩

/-- A recorded publication leaves a job queued or to be retried, without lease. -/
theorem record_spec {settings : Settings} {now : Timestamp} {published : Bool}
    {job recorded : AccountDeletionJob}
    (advanced : recordAccountDeletionPublish settings now published job = some recorded) :
    IsPublishable job.status ∧ recorded.id = job.id ∧
      (recorded.status = .queued ∨ recorded.status = .retry) ∧ recorded.leaseToken = none ∧
      recorded.subjectId = job.subjectId := by
  unfold recordAccountDeletionPublish at advanced
  split at advanced
  · contradiction
  rename_i publishable
  split at advanced
  · cases advanced
    exact ⟨not_not.mp publishable, rfl, .inl rfl, rfl, rfl⟩
  · cases advanced
    exact ⟨not_not.mp publishable, rfl, .inr rfl, rfl, rfl⟩

end Drivebound.Cleanup
