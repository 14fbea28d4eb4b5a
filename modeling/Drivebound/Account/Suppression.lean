import Drivebound.Account.Deletion
import Drivebound.Core.Run

/-! When the suppression ledger stays readable. A marker names the job that its
request has in hand; a request that finds no job row adds one under a new id, even
where the ledger already holds a marker of the account whose job row was rolled
back. As long as no request does that, a job and the account's marker agree from
the moment the job is in a session. -/
namespace Drivebound.Account
open Sessions Run

variable {fingerprint : UUID → String}

/-- No two markers have one subject, and `read_suppression_markers` accepts them. -/
def Readable (r : Registry) : Prop :=
  (r.ledger.map Marker.subjectFingerprint).Nodup ∧
    readSuppressionMarkers r.ledger = some r.ledger

/-- A deletion request that adds a job, since its account has none, finds no marker
of the account in the ledger. -/
def CreatesUnmarked (fingerprint : UUID → String) {τ : Type} (s : Requests τ)
    (label : τ × Action) : Prop :=
  match s.locals label.1, label.2 with
  | .locked user, .prepare _ _ => s.shared.user? user.id ≠ none → s.shared.job? user.id = none →
    ∀ m ∈ s.shared.ledger, m.subjectFingerprint ≠ fingerprint user.id
  | _, _ => True

instance {τ : Type} (s : Requests τ) : DecidablePred (CreatesUnmarked fingerprint s) :=
  fun label => by
    unfold CreatesUnmarked
    split <;> infer_instance

/-- The job is the account's only one, among the committed ones and those added in
the session, and has all of the account's markers. -/
structure Settled (fingerprint : UUID → String) (r : Registry) (added : List AccountDeletionJob)
    (subject : UUID) (job : AccountDeletionJob) : Prop where
  owned : job.subjectId = some subject
  markers : OnlyJob r.ledger (fingerprint subject) job.id
  sole : ∀ other ∈ r.jobs ++ added, other.subjectId = some subject → other.id = job.id

structure Consistent (fingerprint : UUID → String) (r : Registry) : Prop where
  unambiguous : Unambiguous r.ledger
  files : FilesUnique r.ledger
  jobs : ∀ job ∈ r.jobs, ∀ subject ∈ job.subjectId, Settled fingerprint r [] subject job

def AllSettled (fingerprint : UUID → String) (r : Registry) (added : List AccountDeletionJob) :
    Prop :=
  ∀ job ∈ added, ∃ subject, Settled fingerprint r added subject job

def Knows (fingerprint : UUID → String) (r : Registry) : Phase → Prop
  | .prepared user job _ | .recorded user job _ => Settled fingerprint r [] user job
  | .ledgerRead records => ∀ m ∈ records, m ∈ r.ledger
  | .replaying missing added =>
    (∀ m ∈ missing, m ∈ r.ledger) ∧ AllSettled fingerprint r added
  | .replayLocked user record missing added =>
    (record ∈ r.ledger ∧ fingerprint user = record.subjectFingerprint) ∧
      (∀ m ∈ missing, m ∈ r.ledger) ∧ AllSettled fingerprint r added
  | .idle | .unsuppressed _ | .authenticated _ | .locked _ | .completing _ => True

/-- The accounts whose locks a session relies on. -/
def Holds : Phase → UUID → Prop
  | .locked user, subject => subject = user.id
  | .prepared user _ _, subject | .recorded user _ _, subject | .completing user, subject =>
    subject = user
  | .replaying _ added, subject => ∃ job ∈ added, job.subjectId = some subject
  | .replayLocked user _ _ added, subject =>
    subject = user ∨ ∃ job ∈ added, job.subjectId = some subject
  | .idle, _ | .unsuppressed _, _ | .authenticated _, _ | .ledgerRead _, _ => False

def Holding (phase : Phase) : LockKey → Prop
  | .user subject => Holds phase subject

/-- The account gets no marker and no job. -/
structure Spares (fingerprint : UUID → String) (r r' : Registry) (subject : UUID) : Prop where
  markers : ∀ m ∈ r'.ledger, m.subjectFingerprint = fingerprint subject → m ∈ r.ledger
  jobs : ∀ job ∈ r'.jobs, job.subjectId = some subject →
    ∃ old ∈ r.jobs, old.subjectId = some subject ∧ old.id = job.id

variable {r r' : Registry}

theorem Spares.of_same {subject : UUID} (ledger : r'.ledger = r.ledger)
    (jobs : r'.jobs = r.jobs) : Spares fingerprint r r' subject where
  markers _ member _ := ledger ▸ member
  jobs job member owned := ⟨job, jobs ▸ member, owned, rfl⟩

theorem Settled.spared {subject : UUID} {job : AccountDeletionJob}
    (settled : Settled fingerprint r added subject job)
    (spares : Spares fingerprint r r' subject) : Settled fingerprint r' added subject job where
  owned := settled.owned
  markers m member same := settled.markers m (spares.markers m member same) same
  sole other member owned := by
    rcases List.mem_append.mp member with committed | staged
    · obtain ⟨old, here, before, same⟩ := spares.jobs other committed owned
      rw [← same]
      exact settled.sole old (List.mem_append_left _ here) before
    · exact settled.sole other (List.mem_append_right _ staged) owned

/-- A session stands every change that spares the accounts it has locked. -/
theorem Knows.spared {phase : Phase} (knows : Knows fingerprint r phase)
    (grows : ∀ m ∈ r.ledger, m ∈ r'.ledger)
    (spares : ∀ subject, Holds phase subject → Spares fingerprint r r' subject) :
    Knows fingerprint r' phase := by
  have all : ∀ added, AllSettled fingerprint r added →
      (∀ subject, (∃ job ∈ added, job.subjectId = some subject) → Holds phase subject) →
      AllSettled fingerprint r' added := by
    intro added settled held job member
    obtain ⟨subject, known⟩ := settled job member
    exact ⟨subject, known.spared (spares subject (held subject ⟨job, member, known.owned⟩))⟩
  cases phase with
  | prepared user job created | recorded user job created =>
    exact Settled.spared knows (spares user rfl)
  | ledgerRead records => exact fun m member => grows m (knows m member)
  | replaying missing added =>
    exact ⟨fun m member => grows m (knows.1 m member), all added knows.2 fun _ held => held⟩
  | replayLocked user record missing added =>
    obtain ⟨⟨present, same⟩, sound, settled⟩ := knows
    exact ⟨⟨grows _ present, same⟩, fun m member => grows m (sound m member),
      all added settled fun _ held => .inr held⟩
  | idle | unsuppressed | authenticated | locked | completing => trivial

/-- A change that leaves the ledger and the jobs. -/
theorem Consistent.of_same (consistent : Consistent fingerprint r)
    (ledger : r'.ledger = r.ledger) (jobs : r'.jobs = r.jobs) : Consistent fingerprint r' where
  unambiguous := ledger ▸ consistent.unambiguous
  files := ledger ▸ consistent.files
  jobs job member subject owned :=
    (consistent.jobs job (jobs ▸ member) subject owned).spared (.of_same ledger jobs)

section Markers

variable {ledger : Ledger} {user : UUID} {job : AccountDeletionJob}

/-- A marker of one account is none of another account. -/
theorem spares_of_record (injective : Function.Injective fingerprint)
    (written : writeSuppressionMarker r.ledger (marker fingerprint user job) = some ledger)
    {other : UUID} (different : other ≠ user) :
    Spares fingerprint r { r with ledger } other where
  markers m member same := by
    rcases (mem_writeSuppressionMarker written).mp member with rfl | old
    · have equal : user = other := injective same
      exact absurd equal.symm different
    · exact old
  jobs job member owned := ⟨job, member, owned, rfl⟩

theorem grows_of_record
    (written : writeSuppressionMarker r.ledger (marker fingerprint user job) = some ledger) :
    ∀ m ∈ r.ledger, m ∈ ledger :=
  fun _ here => (mem_writeSuppressionMarker written).mpr (.inr here)

/-- The written marker is the one of the account's only job. -/
theorem Settled.record (settled : Settled fingerprint r [] user job)
    (written : writeSuppressionMarker r.ledger (marker fingerprint user job) = some ledger) :
    Settled fingerprint { r with ledger } [] user job where
  owned := settled.owned
  markers m member same := by
    rcases (mem_writeSuppressionMarker written).mp member with rfl | old
    · rfl
    · exact settled.markers m old same
  sole := settled.sole

theorem Consistent.record (injective : Function.Injective fingerprint)
    (consistent : Consistent fingerprint r)
    (written : writeSuppressionMarker r.ledger (marker fingerprint user job) = some ledger)
    (settled : Settled fingerprint r [] user job) :
    Consistent fingerprint { r with ledger } where
  unambiguous m here n there same := by
    have only := settled.markers
    rcases (mem_writeSuppressionMarker written).mp here with rfl | oldM <;>
      rcases (mem_writeSuppressionMarker written).mp there with rfl | oldN
    · rfl
    · exact (only n oldN same.symm).symm
    · exact only m oldM same
    · exact consistent.unambiguous m oldM n oldN same
  files := writeSuppressionMarker_unique consistent.files written
  jobs other member subject owned := by
    have known := consistent.jobs other member subject owned
    by_cases same : subject = user
    · -- The account's committed job is the one whose marker is written.
      subst same
      have equal : other.id = job.id :=
        settled.sole other (List.mem_append_left _ member) owned
      refine ⟨owned, ?_, known.sole⟩
      rw [equal]
      exact (settled.record written).markers
    · exact known.spared (spares_of_record injective written same)

end Markers

/-- Committing the jobs of a session that holds their accounts' locks. -/
theorem Consistent.addJobs {added : List AccountDeletionJob}
    (consistent : Consistent fingerprint r) (settled : AllSettled fingerprint r added) :
    Consistent fingerprint (r.addJobs added) where
  unambiguous := consistent.unambiguous
  files := consistent.files
  jobs job member subject owned := by
    have sole : ∀ other ∈ r.jobs ++ added, other.subjectId = some subject → other.id = job.id := by
      intro other there also
      rcases List.mem_append.mp member with old | new
      · rcases List.mem_append.mp there with otherOld | otherNew
        · exact (consistent.jobs job old subject owned).sole other
            (List.mem_append_left _ otherOld) also
        · obtain ⟨known, of_other⟩ := settled other otherNew
          cases of_other.owned.symm.trans also
          exact (of_other.sole job (List.mem_append_left _ old) owned).symm
      · obtain ⟨known, of_job⟩ := settled job new
        cases of_job.owned.symm.trans owned
        exact of_job.sole other there also
    refine ⟨owned, ?_, fun other there => sole other (by simpa [Registry.addJobs] using there)⟩
    rcases List.mem_append.mp member with old | new
    · exact (consistent.jobs job old subject owned).markers
    · obtain ⟨known, of_job⟩ := settled job new
      cases of_job.owned.symm.trans owned
      exact of_job.markers

/-- Committed jobs of other accounts spare this one. -/
theorem spares_of_addJobs {added : List AccountDeletionJob} {subject : UUID}
    (others : ∀ job ∈ added, job.subjectId ≠ some subject) :
    Spares fingerprint r (r.addJobs added) subject where
  markers _ member _ := member
  jobs job member owned := by
    rcases List.mem_append.mp member with old | new
    · exact ⟨job, old, owned, rfl⟩
    · exact absurd owned (others job new)

/-- The end of a cleanup takes jobs away from accounts. -/
theorem spares_of_complete {user subject : UUID} :
    Spares fingerprint r (r.complete user) subject where
  markers _ member _ := member
  jobs job member owned := by
    obtain ⟨old, here, same⟩ := List.mem_map.mp member
    split at same
    · rw [← same] at owned
      contradiction
    · rw [← same] at owned ⊢
      exact ⟨old, here, owned, rfl⟩

theorem Consistent.complete {user : UUID} (consistent : Consistent fingerprint r) :
    Consistent fingerprint (r.complete user) where
  unambiguous := consistent.unambiguous
  files := consistent.files
  jobs job member subject owned := by
    obtain ⟨old, here, same⟩ := List.mem_map.mp member
    split at same
    · rw [← same] at owned
      contradiction
    · rw [← same] at owned ⊢
      exact (consistent.jobs old here subject owned).spared spares_of_complete

abbrev LedgerOwes (fingerprint : UUID → String) (r : Registry) (phase : Phase) : Step → Prop :=
  Owes Holding (Consistent fingerprint) (Knows fingerprint) r phase

/-- A transaction ends after a change to the accounts that it has locked. -/
theorem owes_finish {phase : Phase} (consistent : Consistent fingerprint r')
    (grows : ∀ m ∈ r.ledger, m ∈ r'.ledger)
    (spares : ∀ subject, ¬ Holds phase subject → Spares fingerprint r r' subject) :
    LedgerOwes fingerprint r phase (.finish r' .idle) := by
  refine ⟨consistent, trivial, fun ⟨_⟩ held => held, fun m apart knows => ?_⟩
  refine knows.spared grows fun subject held => ?_
  exact spares subject fun mine => apart (.user subject) mine held

theorem owes_rollback {phase : Phase} (consistent : Consistent fingerprint r) :
    LedgerOwes fingerprint r phase (.finish r .idle) :=
  Owes.rollback consistent trivial fun ⟨_⟩ held => held

theorem prepareDeletion_owes {cached : User} {id : UUID} (consistent : Consistent fingerprint r)
    (unmarked : r.user? cached.id ≠ none → r.job? cached.id = none →
      ∀ m ∈ r.ledger, m.subjectFingerprint ≠ fingerprint cached.id)
    (chosen : prepareDeletion r cached id now = some outcome) :
    LedgerOwes fingerprint r (.locked cached) outcome := by
  unfold prepareDeletion at chosen
  split at chosen
  · cases chosen
    exact owes_rollback consistent
  · rename_i user existing present found
    split at chosen
    · cases chosen
      exact owes_rollback consistent
    · cases chosen
      have owned : existing.subjectId = some cached.id := by
        simpa using List.find?_some found
      have member : existing ∈ r.jobs := List.mem_of_find?_eq_some found
      exact Owes.quiet consistent (consistent.jobs existing member cached.id owned)
        fun _ held => held
  · rename_i user present absent
    split at chosen
    · contradiction
    · cases chosen
      refine Owes.quiet consistent ⟨rfl, ?_, ?_⟩ fun _ held => held
      · intro m member same
        exact absurd same (unmarked (by simp [present]) absent m member)
      · intro other member owned
        rw [List.append_nil] at member
        exact absurd owned (by simpa using List.find?_eq_none.mp absent other member)

theorem recordMarker_owes {user : UUID} {job : AccountDeletionJob}
    (injective : Function.Injective fingerprint) (consistent : Consistent fingerprint r)
    (settled : Settled fingerprint r [] user job) :
    LedgerOwes fingerprint r (.prepared user job created)
      (recordMarker fingerprint r user job created) := by
  unfold recordMarker
  split
  · rename_i ledger written
    refine ⟨consistent.record injective written settled, settled.record written,
      fun ⟨_⟩ held => held, fun m apart knows => ?_⟩
    refine knows.spared (grows_of_record written) fun subject held => ?_
    exact spares_of_record injective written fun same => apart (.user subject) same held
  · exact owes_rollback consistent

theorem failMarker_owes {user : UUID} {job : AccountDeletionJob}
    (injective : Function.Injective fingerprint) (consistent : Consistent fingerprint r)
    (settled : Settled fingerprint r [] user job) :
    LedgerOwes fingerprint r (.prepared user job created)
      (failMarker fingerprint r user job published) := by
  unfold failMarker
  split
  · rename_i ledger written
    split
    · exact owes_finish (consistent.record injective written settled) (grows_of_record written)
        fun subject unlocked => spares_of_record injective written unlocked
    · exact owes_rollback consistent
  · exact owes_rollback consistent

/-- A commit adds the jobs of the session and disables their accounts. -/
theorem commit_owes {phase : Phase} {added : List AccountDeletionJob} {subjects : List UUID}
    (consistent : Consistent fingerprint r) (settled : AllSettled fingerprint r added)
    (locked : ∀ job ∈ added, ∀ subject, job.subjectId = some subject → Holds phase subject) :
    LedgerOwes fingerprint r phase (.finish ((r.addJobs added).disable subjects now) .idle) := by
  refine owes_finish ((consistent.addJobs settled).of_same rfl rfl) (fun _ here => here) ?_
  intro subject unlocked
  have spares : Spares fingerprint r (r.addJobs added) subject :=
    spares_of_addJobs fun job member owned => unlocked (locked job member subject owned)
  exact ⟨spares.markers, spares.jobs⟩

theorem commitDeletion_owes {user : UUID} {job : AccountDeletionJob}
    (consistent : Consistent fingerprint r) (settled : Settled fingerprint r [] user job) :
    LedgerOwes fingerprint r (.recorded user job created)
      (commitDeletion r user job created now) := by
  unfold commitDeletion
  split
  · refine commit_owes consistent (fun other member => ⟨user, ?_⟩) fun other member subject owned => ?_
    · obtain rfl := List.mem_singleton.mp member
      refine ⟨settled.owned, settled.markers, fun known there owned => ?_⟩
      rcases List.mem_append.mp there with old | new
      · exact settled.sole known (List.mem_append_left _ old) owned
      · rw [List.mem_singleton.mp new]
    · rw [List.mem_singleton.mp member] at owned
      exact Option.some.inj (owned.symm.trans settled.owned)
  · exact owes_rollback consistent

theorem replayRecord_owes {user : UUID} {record : Marker} {missing : List Marker}
    {added : List AccountDeletionJob} (consistent : Consistent fingerprint r)
    (knows : Knows fingerprint r (.replayLocked user record missing added))
    (chosen : replayRecord r user record missing added = some outcome) :
    LedgerOwes fingerprint r (.replayLocked user record missing added) outcome := by
  obtain ⟨⟨present, same⟩, sound, settled⟩ := knows
  unfold replayRecord at chosen
  split at chosen
  · cases chosen
    exact Owes.quiet consistent ⟨sound, settled⟩ fun ⟨_⟩ held => .inr held
  · cases chosen
    exact Owes.quiet consistent ⟨sound, settled⟩ fun ⟨_⟩ held => .inr held
  · rename_i found absent
    split at chosen
    · contradiction
    cases chosen
    have unowned : ∀ other ∈ r.jobs ++ added, other.subjectId ≠ some user := by
      intro other member
      simpa using List.find?_eq_none.mp absent other member
    refine Owes.quiet consistent ⟨sound, fun job member => ?_⟩ ?_
    · rcases List.mem_append.mp member with old | new
      · obtain ⟨subject, known⟩ := settled job old
        refine ⟨subject, known.owned, known.markers, fun other there owned => ?_⟩
        rw [← List.append_assoc] at there
        rcases List.mem_append.mp there with before | last
        · exact known.sole other before owned
        · rw [List.mem_singleton.mp last] at owned
          cases owned
          exact absurd known.owned (unowned job (List.mem_append_right _ old))
      · obtain rfl := List.mem_singleton.mp new
        refine ⟨user, rfl, fun m member' equal => ?_, fun other there owned => ?_⟩
        · -- The record is the account's marker, and all of them name its job.
          exact consistent.unambiguous m member' record present (equal.trans same)
        · rw [← List.append_assoc] at there
          rcases List.mem_append.mp there with before | last
          · exact absurd owned (unowned other before)
          · rw [List.mem_singleton.mp last]
    · rintro ⟨subject⟩ ⟨job, member, owned⟩
      rcases List.mem_append.mp member with old | new
      · exact .inr ⟨job, old, owned⟩
      · rw [List.mem_singleton.mp new] at owned
        exact .inl (Option.some.inj owned).symm

theorem program_owes {phase : Phase} (injective : Function.Injective fingerprint)
    (consistent : Consistent fingerprint r) (knows : Knows fingerprint r phase)
    (unmarked : ∀ user job now, phase = .locked user → action = .prepare job now →
      r.user? user.id ≠ none → r.job? user.id = none →
        ∀ m ∈ r.ledger, m.subjectFingerprint ≠ fingerprint user.id)
    (chosen : program fingerprint r phase action = some outcome) :
    LedgerOwes fingerprint r phase outcome := by
  cases action with
  | checkLedger user =>
    simp only [program] at chosen
    split at chosen
    · cases chosen
      exact Owes.quiet consistent trivial fun ⟨_⟩ held => held
    · cases chosen
      exact Owes.quiet consistent trivial fun ⟨_⟩ held => held
    · contradiction
  | loadUser =>
    simp only [program] at chosen
    split at chosen
    · split at chosen
      · split at chosen
        · cases chosen
          exact owes_rollback consistent
        · cases chosen
          exact Owes.quiet consistent trivial fun ⟨_⟩ held => held
      · cases chosen
        exact owes_rollback consistent
    · contradiction
  | lockUser =>
    simp only [program] at chosen
    split at chosen
    · cases chosen
      exact ⟨trivial, fun ⟨_⟩ held => .inl (congrArg LockKey.user held)⟩
    · contradiction
  | refuse =>
    simp only [program] at chosen
    split at chosen
    · cases chosen
      exact owes_rollback consistent
    · contradiction
  | prepare job now =>
    simp only [program] at chosen
    split at chosen
    · rename_i cached
      exact prepareDeletion_owes consistent (unmarked cached job now rfl rfl) chosen
    · contradiction
  | writeMarker =>
    simp only [program] at chosen
    split at chosen
    · cases chosen
      exact recordMarker_owes injective consistent knows
    · contradiction
  | failMarker published =>
    simp only [program] at chosen
    split at chosen
    · cases chosen
      exact failMarker_owes injective consistent knows
    · contradiction
  | commit now =>
    simp only [program] at chosen
    split at chosen
    · cases chosen
      exact commitDeletion_owes consistent knows
    · contradiction
  | failCommit =>
    simp only [program] at chosen
    split at chosen
    · cases chosen
      exact owes_rollback consistent
    · contradiction
  | crash =>
    cases chosen
    exact owes_rollback consistent
  | readLedger =>
    simp only [program] at chosen
    split at chosen
    · rename_i records read
      cases chosen
      rw [readSuppressionMarkers_some consistent.unambiguous] at read
      refine Owes.quiet consistent (fun m member => ?_) fun ⟨_⟩ held => held
      rwa [Option.some.inj read]
    · contradiction
  | selectMissing =>
    simp only [program] at chosen
    split at chosen
    · cases chosen
      refine Owes.quiet consistent ⟨fun m member => ?_, nofun⟩ fun ⟨_⟩ held => ?_
      · exact knows m (List.mem_of_mem_filter member)
      · obtain ⟨job, member, _⟩ := held
        contradiction
    · contradiction
  | lockRecord =>
    simp only [program] at chosen
    split at chosen
    · rename_i record missing added
      split at chosen
      · rename_i user found
        cases chosen
        have same : fingerprint user.id = record.subjectFingerprint := by
          simpa using List.find?_some found
        obtain ⟨sound, settled⟩ := knows
        refine ⟨⟨⟨sound record (List.mem_cons_self ..), same⟩,
          fun m member => sound m (List.mem_cons_of_mem _ member), settled⟩, ?_⟩
        rintro ⟨subject⟩ (rfl | held)
        · exact .inl rfl
        · exact .inr held
      · contradiction
    · contradiction
  | skipRecord =>
    simp only [program] at chosen
    split at chosen
    · split_ifs at chosen
      cases chosen
      obtain ⟨sound, settled⟩ := knows
      exact Owes.quiet consistent
        ⟨fun m member => sound m (List.mem_cons_of_mem _ member), settled⟩ fun ⟨_⟩ held => held
    · contradiction
  | replay =>
    simp only [program] at chosen
    split at chosen
    · exact replayRecord_owes consistent knows chosen
    · contradiction
  | commitReplay now =>
    simp only [program] at chosen
    split at chosen
    · cases chosen
      exact commit_owes consistent knows.2 fun job member subject owned => ⟨job, member, owned⟩
    · contradiction
  | lockForCompletion user =>
    simp only [program] at chosen
    split at chosen
    · cases chosen
      exact ⟨trivial, fun ⟨_⟩ held => .inl (congrArg LockKey.user held)⟩
    · contradiction
  | complete =>
    simp only [program] at chosen
    split at chosen
    · cases chosen
      exact owes_finish consistent.complete (fun _ here => here) fun _ _ => spares_of_complete
    · contradiction

variable {τ : Type} [DecidableEq τ]

abbrev Deleting (fingerprint : UUID → String) : Requests τ → Prop :=
  Sound Holding (Consistent fingerprint) (Knows fingerprint)

theorem step_deleting (injective : Function.Injective fingerprint) (s : Requests τ)
    (label : τ × Action) (s' : Requests τ) (sound : Deleting fingerprint s)
    (unmarked : CreatesUnmarked fingerprint s label)
    (stepped : step fingerprint s label = some s') : Deleting fingerprint s' := by
  refine sound.step stepped ?_
  intro outcome chosen
  refine program_owes injective sound.global (sound.session label.1) ?_ chosen
  intro user job now locked prepare
  simpa only [CreatesUnmarked, locked, prepare] using unmarked

/-- No request is running. -/
def start (r : Registry) : Requests τ := Store.idle r .idle

/-- In every run of deletion requests, reconciliations, failures and crashes in which
no request adds a job for an account that already has a marker, the ledger holds one
marker at most for an account and is readable in every state. -/
theorem suppression_ledger_stays_readable (injective : Function.Injective fingerprint)
    {r : Registry} (consistent : Consistent fingerprint r) {labels : List (τ × Action)}
    (unmarked : Along (step fingerprint) (CreatesUnmarked fingerprint) (start r) labels)
    (reached : run (step fingerprint) (start r) labels = some t) : Readable t.shared := by
  have initial : Deleting fingerprint (start r : Requests τ) :=
    Sound.idle consistent trivial fun ⟨_⟩ held => held
  have sound := invariant (step_deleting injective) initial unmarked reached
  have unambiguous := sound.global.unambiguous
  exact ⟨unambiguous.fingerprints sound.global.files, readSuppressionMarkers_some unambiguous⟩

/-- Two accounts and an empty ledger. -/
def twoAccounts : Registry := ⟨[⟨1, none⟩, ⟨2, none⟩], [], []⟩

def shownFingerprint (user : UUID) : String := String.ofList (List.replicate user 'f')

theorem shownFingerprint_injective : Function.Injective shownFingerprint := by
  intro one two same
  have lists : List.replicate one 'f' = List.replicate two 'f' := String.ofList_injective same
  simpa using congrArg List.length lists

theorem twoAccounts_consistent : Consistent shownFingerprint twoAccounts :=
  ⟨nofun, List.nodup_nil, nofun⟩

/-- A deletion request up to the lock of its user's row. -/
def authenticate (t : Nat) (user : UUID) : List (Nat × Action) :=
  [(t, .checkLedger user), (t, .loadUser)]

/-- A deletion request from the lock on, up to the marker. -/
def record (t : Nat) (job : UUID) (now : Timestamp) : List (Nat × Action) :=
  [(t, .lockUser), (t, .prepare job now), (t, .writeMarker)]

/-- The commit of the first request fails and its marker is replayed before the
second request of the account, and one of another account, get their locks. -/
theorem suppression_ledger_stays_readable_replayed :
    ∃ t, run (step shownFingerprint) (start twoAccounts)
        (authenticate 0 1 ++ authenticate 1 1 ++ authenticate 2 2 ++ record 0 10 5 ++
          [(0, .failCommit), (3, .readLedger), (3, .selectMissing), (3, .lockRecord),
            (3, .replay), (3, .commitReplay 6)] ++ record 1 11 7 ++ [(1, .commit 7)] ++
          record 2 12 8 ++ [(2, .commit 8)]) = some t ∧
      t.shared.ledger.length = 2 ∧ Readable t.shared := by
  have finishes : (run (step shownFingerprint) (start twoAccounts)
      (authenticate 0 1 ++ authenticate 1 1 ++ authenticate 2 2 ++ record 0 10 5 ++
        [(0, .failCommit), (3, .readLedger), (3, .selectMissing), (3, .lockRecord),
          (3, .replay), (3, .commitReplay 6)] ++ record 1 11 7 ++ [(1, .commit 7)] ++
        record 2 12 8 ++ [(2, .commit 8)])).any fun t => t.shared.ledger.length = 2 := by decide
  obtain ⟨t, reached, two⟩ := (Option.any_eq_true _ _).mp finishes
  refine ⟨t, reached, of_decide_eq_true two, ?_⟩
  exact suppression_ledger_stays_readable shownFingerprint_injective twoAccounts_consistent
    (by decide) reached

/-- Two requests of one account authenticate before either writes a marker. The
first loses its commit, the second finds no job row and writes a marker under a new
id: the ledger is rejected, also for the other account. -/
theorem second_request_makes_ledger_unreadable :
    ∃ t, run (step shownFingerprint) (start twoAccounts)
        (authenticate 0 1 ++ authenticate 1 1 ++ record 0 10 5 ++ [(0, .failCommit)] ++
          record 1 11 6 ++ [(1, .commit 6)]) = some t ∧
      ¬ Readable t.shared ∧
      suppressionSubjectIsDenied t.shared.ledger (shownFingerprint 2) = none := by
  have violated : (run (step shownFingerprint) (start twoAccounts)
      (authenticate 0 1 ++ authenticate 1 1 ++ record 0 10 5 ++ [(0, .failCommit)] ++
        record 1 11 6 ++ [(1, .commit 6)])).any fun t =>
      readSuppressionMarkers t.shared.ledger = none ∧
        suppressionSubjectIsDenied t.shared.ledger (shownFingerprint 2) = none := by decide
  obtain ⟨t, reached, violated⟩ := (Option.any_eq_true _ _).mp violated
  obtain ⟨rejected, denied⟩ := of_decide_eq_true violated
  refine ⟨t, reached, fun readable => ?_, denied⟩
  have accepted := readable.2
  rw [rejected] at accepted
  contradiction

end Drivebound.Account
