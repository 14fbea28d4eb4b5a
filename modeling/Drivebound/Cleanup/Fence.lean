import Drivebound.Cleanup.Worker

/-! The lease of a deletion job as a fence. Every select of a batch but the last asks
for the token of the lease, so what follows it under the row lock is fenced; the select
after the loop asks for the job only, and what it returns is the instance that the worker
holds, which still shows the lease however the row has changed. -/
namespace Drivebound.Cleanup
open Sessions Run Attributes
open Erasure (JobStatus)

/-- The row still carries a token that the last select of a batch returns, and a
request that records its publication finds a job that can be published. -/
def LeaseKept (db : Database) (phase : Phase) (action : Action) : Prop :=
  match action, phase with
  | .resolve _, .selected lease job .closing =>
    job.status = .running ∧ job.leaseToken = some lease.token →
      ∀ row ∈ db.job? lease.job, row.leaseToken = some lease.token
  | .record _, .advancing (.request _) held _ =>
    IsPublishable held.status → ∀ row ∈ db.job? held.id, IsPublishable row.status
  | _, _ => True

instance (db : Database) (phase : Phase) : DecidablePred (LeaseKept db phase) := fun action => by
  unfold LeaseKept
  split <;> infer_instance

/-- Statuses that an operator only takes a job out of. -/
def Terminal (status : JobStatus) : Prop := status = .completed ∨ status = .manualReview

structure Gone (db : Database) (user : UUID) : Prop where
  absent : user ∉ db.users
  rows : db.hasRows user = false

/-- What a step of the session at `phase` may do. -/
structure FencedStep (db : Database) (phase : Phase) (db' : Database) : Prop where
  /-- Only the owner of the lease commits changes. -/
  owner : ∀ lease ∈ phase.lease, db' ≠ db →
    ∃ row, db.job? lease.job = some row ∧ row.leaseToken = some lease.token
  terminal : ∀ id row, db.job? id = some row → Terminal row.status → db'.job? id = some row
  completed : ∀ id row new, db.job? id = some row → db'.job? id = some new →
    row.status ≠ .completed → new.status = .completed →
    ∀ user, row.subjectId = some user → Gone db' user
  gone : ∀ user, Gone db user → Gone db' user

structure Consistent (db : Database) : Prop where
  unique : (db.jobs.map AccountDeletionJob.id).Nodup
  leased : ∀ id row, db.job? id = some row → row.leaseToken ≠ none → row.status = .running

/-- The instance shows the lease. -/
def Shows (lease : Lease) (job : AccountDeletionJob) : Prop :=
  job.status = .running ∧ job.leaseToken = some lease.token

/-- The subject of a job, until it is completed. -/
def Subject (db : Database) (id : UUID) (subject : Option UUID) : Prop :=
  ∃ row, db.job? id = some row ∧ (row.status = .completed ∨ row.subjectId = subject)

structure Leased (db : Database) (lease : Lease) : Prop where
  row : ∃ row, db.job? lease.job = some row
  held : ∀ job ∈ lease.held, Shows lease job ∧ Subject db lease.job job.subjectId

/-- The row carries the token of the lease. -/
structure Owns (db : Database) (lease : Lease) (job : AccountDeletionJob) : Prop where
  held : Shows lease job
  row : ∃ row, db.job? lease.job = some row ∧ row.leaseToken = some lease.token ∧
    row.subjectId = job.subjectId

def Point.user : Point → Option UUID
  | .final _ user => some user
  | _ => none

def Knows (db : Database) : Phase → Prop
  | .between lease point | .locked lease point =>
    Leased db lease ∧ ∀ user ∈ point.user, Subject db lease.job (some user)
  | .selected lease _ .closing => ∃ row, db.job? lease.job = some row
  | .selected lease job point => Owns db lease job ∧ ∀ user ∈ point.user, job.subjectId = some user
  | .purgingUpload lease job _ _ | .purgingAsset lease job _ _ => Owns db lease job
  | .finalizing lease _ user => Leased db lease ∧ Subject db lease.job (some user)
  | .sweeping lease job _ user =>
    Owns db lease job ∧ job.subjectId = some user ∧ db.hasRows user = false
  | .publishing (.request held) id _ | .recording (.request held) id _ => held.id = id
  | .advancing (.dispatcher _) held _ => db.job? held.id = some held
  | _ => True

variable {settings : Settings} {db db' : Database} {phase : Phase} {action : Action} {outcome : Step}

/-- What happens to a row that is written: it was open, it keeps its subject unless it
is completed, and its subject is gone then. -/
structure Fate (db' : Database) (row new : AccountDeletionJob) : Prop where
  before : ¬ Terminal row.status
  leased : new.leaseToken ≠ none → new.status = .running
  subject : new.status ≠ .completed → new.subjectId = row.subjectId
  gone : new.status = .completed → ∀ user, row.subjectId = some user → Gone db' user

/-- What a step does to the jobs. -/
structure Effect (db db' : Database) : Prop where
  rows : ∀ id row, db.job? id = some row →
    ∃ new, db'.job? id = some new ∧ (new = row ∨ Fate db' row new)
  fresh : ∀ id new, db.job? id = none → db'.job? id = some new → new.leaseToken = none
  unique : (db.jobs.map AccountDeletionJob.id).Nodup → (db'.jobs.map AccountDeletionJob.id).Nodup

theorem Effect.refl (db : Database) : Effect db db :=
  ⟨fun _ row found => ⟨row, found, .inl rfl⟩, fun _ _ none found => by rw [none] at found; contradiction,
    fun unique => unique⟩

theorem Effect.same (same : db'.jobs = db.jobs) : Effect db db' := by
  have lookup : ∀ id, db'.job? id = db.job? id := fun id => by rw [Database.job?, same, Database.job?]
  refine ⟨fun id row found => ⟨row, (lookup id).trans found, .inl rfl⟩, fun id new none found => ?_,
    fun unique => same ▸ unique⟩
  rw [lookup, none] at found
  contradiction

theorem Effect.consistent (effect : Effect db db') (consistent : Consistent db) : Consistent db' := by
  refine ⟨effect.unique consistent.unique, fun id row found leased => ?_⟩
  cases before : db.job? id with
  | none => exact absurd (effect.fresh id row before found) leased
  | some old =>
    obtain ⟨new, there, fate⟩ := effect.rows id old before
    cases there.symm.trans found
    rcases fate with same | fate
    · exact consistent.leased id old before (same ▸ leased) ▸ same ▸ rfl
    · exact fate.leased leased

theorem Effect.subject (effect : Effect db db') {id : UUID} {subject : Option UUID}
    (known : Subject db id subject) : Subject db' id subject := by
  obtain ⟨row, found, fits⟩ := known
  obtain ⟨new, there, rfl | fate⟩ := effect.rows id row found
  · exact ⟨new, there, fits⟩
  · refine ⟨new, there, ?_⟩
    by_cases completed : new.status = .completed
    · exact .inl completed
    · refine .inr ((fate.subject completed).trans (fits.resolve_left fun done => ?_))
      exact fate.before (.inl done)

/-- Writing the row of one job. -/
theorem Effect.written {changed : Database} {id : UUID} {change : AccountDeletionJob → AccountDeletionJob}
    (same : changed.jobs = db.jobs) (keeps : ∀ row : AccountDeletionJob, row.id = id → (change row).id = id)
    (fate : ∀ row, db.job? id = some row → Fate (changed.setJob id change) row (change row)) :
    Effect db (changed.setJob id change) := by
  have lookup : ∀ id, changed.job? id = db.job? id := fun id => by
    rw [Database.job?, same, Database.job?]
  refine ⟨fun other row found => ?_, fun other new absent found => ?_, fun unique => ?_⟩
  · by_cases equal : other = id
    · subst equal
      exact ⟨change row, Rows.find?_updateKey_self keeps ((lookup other).trans found),
        .inr (fate row found)⟩
    · exact ⟨row, (Rows.find?_updateKey_other keeps equal).trans ((lookup other).trans found), .inl rfl⟩
  · have missing : changed.job? other = none := (lookup other).trans absent
    have none : (changed.setJob id change).job? other = none := by
      rw [Database.job?, Database.setJob, Rows.find?_updateKey keeps]
      exact congrArg (Option.map _) missing
    rw [none] at found
    contradiction
  · rw [Database.setJob, Rows.updateKey_keys keeps, same]
    exact unique

/-- What another session sees of a step: the rows under its locks stay. -/
structure Spares (db db' : Database) (m : Phase) : Prop where
  effect : Effect db db'
  locked : ∀ id row, Holding m (.job id) → db.job? id = some row → db'.job? id = some row
  counted : ∀ user, Holding m (.user user) → db.hasRows user = false → db'.hasRows user = false

theorem Leased.effect {lease : Lease} (leased : Leased db lease) (effect : Effect db db') :
    Leased db' lease := by
  obtain ⟨row, found⟩ := leased.row
  obtain ⟨new, there, _⟩ := effect.rows lease.job row found
  exact ⟨⟨new, there⟩, fun job held => ⟨(leased.held job held).1, effect.subject (leased.held job held).2⟩⟩

theorem Owns.spare {m : Phase} {lease : Lease} {job : AccountDeletionJob} (owns : Owns db lease job)
    (spares : Spares db db' m) (holding : Holding m (.job lease.job)) : Owns db' lease job := by
  obtain ⟨row, found, token, subject⟩ := owns.row
  exact ⟨owns.held, row, spares.locked lease.job row holding found, token, subject⟩

theorem Knows.spare {m : Phase} (knows : Knows db m) (spares : Spares db db' m) : Knows db' m := by
  cases m with
  | between lease point =>
    exact ⟨knows.1.effect spares.effect, fun user known => spares.effect.subject (knows.2 user known)⟩
  | locked lease point =>
    exact ⟨knows.1.effect spares.effect, fun user known => spares.effect.subject (knows.2 user known)⟩
  | selected lease job point =>
    cases point with
    | closing =>
      obtain ⟨row, found⟩ := knows
      obtain ⟨new, there, _⟩ := spares.effect.rows lease.job row found
      exact ⟨new, there⟩
    | top left => exact ⟨knows.1.spare spares (.inl rfl), knows.2⟩
    | final left user => exact ⟨knows.1.spare spares (.inl rfl), knows.2⟩
    | failed code => exact ⟨knows.1.spare spares (.inl rfl), knows.2⟩
    | retained count => exact ⟨knows.1.spare spares (.inl rfl), knows.2⟩
  | purgingUpload lease job left id => exact Owns.spare knows spares (.inl rfl)
  | purgingAsset lease job left id => exact Owns.spare knows spares (.inl rfl)
  | finalizing lease left user =>
    exact ⟨knows.1.effect spares.effect, spares.effect.subject knows.2⟩
  | sweeping lease job left user =>
    obtain ⟨owns, subject, counted⟩ := knows
    exact ⟨owns.spare spares (.inl rfl), subject, spares.counted user (.inr rfl) counted⟩
  | publishing publisher id published => cases publisher <;> exact knows
  | recording publisher id published => cases publisher <;> exact knows
  | advancing publisher held published =>
    cases publisher with
    | dispatcher rest => exact spares.locked held.id held rfl knows
    | request _ => trivial
  | idle | received | claiming | requesting | preparing | dispatching | accepted | writing => trivial

/-- Only a writer of catalog rows lets a user have more of them. -/
theorem program_counts (chosen : program settings db phase action = some outcome) {user : UUID}
    (none : db.hasRows user = false) :
    (outcome.result db).hasRows user = false ∨ phase = .writing user := by
  have fewer : ∀ {changed : Database}, (∀ row ∈ changed.assets, row ∈ db.assets) →
      (∀ row ∈ changed.uploads, row ∈ db.uploads) → changed.hasRows user = false := by
    intro changed assets uploads
    simp only [Database.hasRows, Bool.or_eq_false_iff, List.any_eq_false] at none ⊢
    exact ⟨fun row member => none.1 row (assets row member),
      fun row member => none.2 row (uploads row member)⟩
  by_cases changes : action.changes = false
  · rw [program_quiet chosen changes]
    exact .inl none
  cases action with
  | claim now token =>
    simp only [program] at chosen
    split at chosen
    · split at chosen <;> cases chosen <;> exact .inl none
    · contradiction
  | purge now retained =>
    simp only [program] at chosen
    split at chosen
    · cases chosen
      exact .inl (fewer (fun _ member => member) fun _ member => (List.mem_filter.mp member).1)
    · cases chosen
      exact .inl (fewer (fun _ member => (List.mem_filter.mp member).1) fun _ member => member)
    · contradiction
  | complete now orphans =>
    simp only [program] at chosen
    split at chosen
    · split at chosen <;> cases chosen
      · exact .inl (fewer (fun _ member => (List.mem_filter.mp member).1)
          fun _ member => (List.mem_filter.mp member).1)
      · exact .inl none
    · contradiction
  | resolve now =>
    simp only [program] at chosen
    split at chosen
    · contradiction
    · contradiction
    · split at chosen <;> cases chosen <;> exact .inl none
    · contradiction
  | accept now new =>
    simp only [program] at chosen
    split at chosen
    · obtain ⟨⟨db', job⟩, accepted, rfl⟩ := Option.map_eq_some_iff.mp chosen
      unfold acceptJob at accepted
      split at accepted
      · cases accepted
        exact .inl none
      · split at accepted
        · contradiction
        · cases accepted
          exact .inl none
    · contradiction
  | record now =>
    simp only [program] at chosen
    split at chosen
    · split at chosen <;> cases chosen <;> exact .inl none
    · contradiction
  | insertAsset id =>
    simp only [program] at chosen
    split at chosen
    · rename_i owner
      split at chosen
      · cases chosen
        by_cases same : owner = user
        · exact .inr (congrArg Phase.writing same)
        · refine .inl ?_
          simp only [Database.hasRows, Bool.or_eq_false_iff] at none ⊢
          simp [none.1, none.2, Outcome.result, same]
      · contradiction
    · contradiction
  | insertUpload id =>
    simp only [program] at chosen
    split at chosen
    · rename_i owner
      split at chosen
      · cases chosen
        by_cases same : owner = user
        · exact .inr (congrArg Phase.writing same)
        · refine .inl ?_
          simp only [Database.hasRows, Bool.or_eq_false_iff] at none ⊢
          simp [none.1, none.2, Outcome.result, same]
      · contradiction
    · contradiction
  | _ => exact absurd rfl changes

/-- What a step does, seen from a session that shares no lock with the one that moves. -/
theorem program_spares (chosen : program settings db phase action = some outcome)
    (effect : Effect db (outcome.result db)) {m : Phase}
    (apart : ∀ k, Holding phase k → ¬ Holding m k) : Spares db (outcome.result db) m := by
  refine ⟨effect, fun id row holding found => ?_, fun user holding none => ?_⟩
  · refine program_jobs chosen (fun writes => ?_) found
    exact apart _ (writes_held writes) holding
  · rcases program_counts chosen none with fewer | writing
    · exact fewer
    · subst writing
      exact absurd holding (apart _ rfl)

/-- A status that is assigned replaces the one that the instance shows. -/
theorem Shows.assigned {lease : Lease} {job : AccountDeletionJob} (shows : Shows lease job)
    (assigned row : AccountDeletionJob) (status : assigned.status ≠ .running)
    (token : assigned.leaseToken = none) :
    (AccountDeletionJob.flush job assigned row).status = assigned.status ∧
      (AccountDeletionJob.flush job assigned row).leaseToken = none := by
  constructor
  · exact flush_of_ne (by rw [shows.1]; exact status)
  · rw [AccountDeletionJob.flush_leaseToken, token]
    exact flush_of_ne (by rw [shows.2]; exact nofun)

/-- The owner of a lease ends it, and keeps the subject. -/
theorem ending_fate {lease : Lease} {job assigned row : AccountDeletionJob} (shows : Shows lease job)
    (running : row.status = .running) (status : assigned.status ≠ .running)
    (token : assigned.leaseToken = none) (unfinished : assigned.status ≠ .completed)
    (subject : assigned.subjectId = job.subjectId) :
    Fate db' row (AccountDeletionJob.flush job assigned row) := by
  obtain ⟨written, unleased⟩ := shows.assigned assigned row status token
  refine ⟨?_, fun leased => absurd unleased leased, fun _ => ?_, fun completed => ?_⟩
  · rw [running]
    rintro (done | review) <;> contradiction
  · rw [AccountDeletionJob.flush_subjectId, subject, flush_untouched]
  · exact absurd (written.symm.trans completed) unfinished

/-- The owner of a lease goes on under it. -/
theorem renewing_fate {job assigned row : AccountDeletionJob} (running : row.status = .running)
    (status : assigned.status = job.status) (subject : assigned.subjectId = job.subjectId) :
    Fate db' row (AccountDeletionJob.flush job assigned row) := by
  have kept : (AccountDeletionJob.flush job assigned row).status = .running := by
    rw [AccountDeletionJob.flush_status, status, flush_untouched, running]
  refine ⟨?_, fun _ => kept, fun _ => ?_, fun completed => ?_⟩
  · rw [running]
    rintro (done | review) <;> contradiction
  · rw [AccountDeletionJob.flush_subjectId, subject, flush_untouched]
  · rw [kept] at completed
    contradiction

/-- A job is completed for a subject that is gone. -/
theorem completing_fate {lease : Lease} {job row : AccountDeletionJob} {now : Timestamp} {user : UUID}
    (shows : Shows lease job) (running : row.status = .running) (subject : row.subjectId = some user)
    (gone : Gone db' user) : Fate db' row (AccountDeletionJob.flush job (job.completed now) row) := by
  obtain ⟨written, unleased⟩ := shows.assigned (job.completed now) row nofun rfl
  refine ⟨?_, fun leased => absurd unleased leased, fun other => absurd written other, ?_⟩
  · rw [running]
    rintro (done | review) <;> contradiction
  · intro _ other same
    cases subject.symm.trans same
    exact gone

/-- A publication that is recorded for a job that can be published. -/
theorem recording_fate {now : Timestamp} {published : Bool} {held recorded row : AccountDeletionJob}
    (advanced : recordAccountDeletionPublish settings now published held = some recorded)
    (publishable : IsPublishable row.status) (unleased : row.leaseToken = none) :
    Fate db' row (AccountDeletionJob.flush held recorded row) := by
  obtain ⟨_, _, status, token, subject⟩ := record_spec advanced
  have still : IsPublishable (AccountDeletionJob.flush held recorded row).status := by
    rcases flush_cases held.status recorded.status row.status with stored | assigned
    · rw [AccountDeletionJob.flush_status, stored]
      exact publishable
    · rw [AccountDeletionJob.flush_status, assigned]
      rcases status with queued | retry
      · exact .inr (.inl queued)
      · exact .inr (.inr retry)
  refine ⟨?_, fun leased => absurd ?_ leased, fun _ => ?_, fun completed => ?_⟩
  · rintro (done | review)
    · rw [done] at publishable
      rcases publishable with pending | queued | retry <;> contradiction
    · rw [review] at publishable
      rcases publishable with pending | queued | retry <;> contradiction
  · rw [AccountDeletionJob.flush_leaseToken, token, unleased]
    rcases flush_cases held.leaseToken none none with stored | assigned <;> assumption
  · rw [AccountDeletionJob.flush_subjectId, subject, flush_untouched]
  · rw [completed] at still
    rcases still with pending | queued | retry <;> contradiction

theorem Owns.running {lease : Lease} {job row : AccountDeletionJob} (owns : Owns db lease job)
    (consistent : Consistent db) (found : db.job? lease.job = some row) :
    row.status = .running ∧ row.subjectId = job.subjectId := by
  obtain ⟨stored, there, token, subject⟩ := owns.row
  cases there.symm.trans found
  exact ⟨consistent.leased _ row found (by rw [token]; exact nofun), subject⟩

theorem Consistent.unleased {id : UUID} {row : AccountDeletionJob} (consistent : Consistent db)
    (found : db.job? id = some row) (publishable : IsPublishable row.status) :
    row.leaseToken = none := by
  by_contra leased
  rw [consistent.leased id row found leased] at publishable
  rcases publishable with pending | queued | retry <;> contradiction

theorem claim_fate {now : Timestamp} {token : UUID} {row claimed : AccountDeletionJob}
    (granted : claimAccountDeletionJob settings now token row = some claimed) :
    Fate db' row claimed := by
  obtain ⟨isOpen, _, status, _, subject⟩ := claim_spec granted
  refine ⟨?_, fun _ => status, fun _ => subject, fun completed => ?_⟩
  · rintro (done | review)
    · rw [done] at isOpen
      rcases isOpen with h | h | h | h <;> contradiction
    · rw [review] at isOpen
      rcases isOpen with h | h | h | h <;> contradiction
  · rw [status] at completed
    contradiction

theorem Effect.added {job : AccountDeletionJob} (absent : db.job? job.id = none)
    (unleased : job.leaseToken = none) : Effect db (db.addJob job) := by
  refine ⟨fun id row found => ⟨row, job?_addJob found, .inl rfl⟩, fun id new missing found => ?_,
    fun unique => ?_⟩
  · simp only [Database.job?, Database.addJob, List.find?_append] at missing found
    rw [missing, Option.none_or] at found
    have same := List.mem_of_find?_eq_some found
    rw [List.mem_singleton.mp same]
    exact unleased
  · have other : job.id ∉ db.jobs.map AccountDeletionJob.id := by
      intro member
      obtain ⟨row, present, same⟩ := List.mem_map.mp member
      exact List.find?_eq_none.mp absent row present (decide_eq_true same)
    rw [Database.addJob, List.map_append]
    refine List.nodup_append.mpr ⟨unique, List.nodup_singleton _, fun id here new there => ?_⟩
    rw [List.map_singleton, List.mem_singleton] at there
    rintro rfl
    exact other (there ▸ here)

/-- What a step does to the jobs. -/
theorem program_effect (consistent : Consistent db) (knows : Knows db phase)
    (kept : LeaseKept db phase action) (chosen : program settings db phase action = some outcome) :
    Effect db (outcome.result db) := by
  by_cases changes : action.changes = false
  · rw [program_quiet chosen changes]
    exact .refl db
  cases action with
  | claim now token =>
    simp only [program] at chosen
    split at chosen
    · rename_i id
      split at chosen
      · cases chosen
        exact .refl db
      · rename_i claimed granted
        cases chosen
        obtain ⟨row, found, claims⟩ := Option.bind_eq_some_iff.mp granted
        refine Effect.written rfl (fun _ _ => ?_) fun other same => ?_
        · exact (claim_spec claims).2.1.trans (Rows.find?_key found).2
        · cases found.symm.trans same
          exact claim_fate claims
    · contradiction
  | purge now retained =>
    simp only [program] at chosen
    split at chosen
    · cases chosen
      refine Effect.written rfl (fun _ same => same) fun row found => ?_
      exact renewing_fate (Owns.running knows consistent found).1 rfl rfl
    · cases chosen
      refine Effect.written rfl (fun _ same => same) fun row found => ?_
      exact renewing_fate (Owns.running knows consistent found).1 rfl rfl
    · contradiction
  | complete now orphans =>
    simp only [program] at chosen
    split at chosen
    · rename_i lease job left user
      obtain ⟨owns, subject, counted⟩ := knows
      split at chosen
      · cases chosen
        refine Effect.written rfl (fun _ same => same) fun row found => ?_
        obtain ⟨running, same⟩ := owns.running consistent found
        refine completing_fate owns.held running (same.trans subject) ⟨?_, ?_⟩
        · intro member
          exact of_decide_eq_true (List.mem_filter.mp member).2 rfl
        · simp [Database.hasRows, Database.deleteUser, Database.setJob, List.any_filter]
      · cases chosen
        refine Effect.written rfl (fun _ same => same) fun row found => ?_
        exact ending_fate owns.held (owns.running consistent found).1 (fun same => by cases same) rfl
          (fun same => by cases same) rfl
    · contradiction
  | resolve now =>
    simp only [program] at chosen
    split at chosen
    · contradiction
    · contradiction
    · rename_i lease job point notTop notFinal
      split at chosen
      · rename_i assigned resolved
        cases chosen
        refine Effect.written rfl (fun _ same => same) fun row found => ?_
        cases point with
        | top | final => contradiction
        | failed code =>
          cases resolved
          exact ending_fate knows.1.held (knows.1.running consistent found).1 (fun same => by cases same) rfl
            (fun same => by cases same) rfl
        | retained count =>
          cases resolved
          exact ending_fate knows.1.held (knows.1.running consistent found).1 (fun same => by cases same) rfl
            (fun same => by cases same) rfl
        | closing =>
          simp only [resolveJob] at resolved
          split at resolved
          · rename_i shows
            cases resolved
            have token := kept shows row found
            have running := consistent.leased _ row found (by rw [token]; intro same; cases same)
            exact ending_fate shows running (fun same => by cases same) rfl (fun same => by cases same) rfl
          · contradiction
      · cases chosen
        exact .refl db
    · contradiction
  | accept now new =>
    simp only [program] at chosen
    split at chosen
    · obtain ⟨⟨db', job⟩, accepted, rfl⟩ := Option.map_eq_some_iff.mp chosen
      unfold acceptJob at accepted
      split at accepted
      · cases accepted
        exact .refl db
      · split at accepted
        · contradiction
        · rename_i absent
          cases accepted
          refine Effect.added ?_ rfl
          by_contra present
          exact absent (.inl (Option.isSome_iff_ne_none.mpr present))
    · contradiction
  | record now =>
    simp only [program] at chosen
    split at chosen
    · rename_i publisher held published
      split at chosen
      · cases chosen
        exact .refl db
      · cases chosen
        exact .refl db
      · rename_i recorded rest advanced
        cases chosen
        refine Effect.written rfl (fun _ same => same) fun row found => ?_
        have known : db.job? held.id = some held := knows
        cases known.symm.trans found
        have publishable := (record_spec advanced).1
        exact recording_fate advanced publishable (consistent.unleased found publishable)
      · rename_i recorded _ advanced
        cases chosen
        refine Effect.written rfl (fun _ same => same) fun row found => ?_
        have publishable := kept (record_spec advanced).1 row found
        exact recording_fate advanced publishable (consistent.unleased found publishable)
    · contradiction
  | insertAsset id =>
    simp only [program] at chosen
    split at chosen
    · split at chosen
      · cases chosen
        exact .same rfl
      · contradiction
    · contradiction
  | insertUpload id =>
    simp only [program] at chosen
    split at chosen
    · split at chosen
      · cases chosen
        exact .same rfl
      · contradiction
    · contradiction
  | _ => exact absurd rfl changes

theorem iterate_user (left : Nat) : (Point.iterate left).user = none := by
  cases left <;> rfl

theorem Leased.expire {lease : Lease} (row : ∃ row, db.job? lease.job = some row) :
    Leased db lease.expire :=
  ⟨row, nofun⟩

theorem Owns.expire {lease : Lease} {job : AccountDeletionJob} (owns : Owns db lease job) :
    Leased db lease.expire := by
  obtain ⟨row, found, _⟩ := owns.row
  exact Leased.expire ⟨row, found⟩

theorem Owns.subject {lease : Lease} {job : AccountDeletionJob} (owns : Owns db lease job) :
    Subject db lease.job job.subjectId := by
  obtain ⟨row, found, _, same⟩ := owns.row
  exact ⟨row, found, .inr same⟩

theorem attempt_row {lease : Lease} (knows : Knows db phase) (attempted : phase.attempt = some lease) :
    ∃ row, db.job? lease.job = some row := by
  have owned : ∀ {lease : Lease} {job : AccountDeletionJob}, Owns db lease job →
      ∃ row, db.job? lease.job = some row := by
    intro lease job owns
    obtain ⟨row, found, _⟩ := owns.row
    exact ⟨row, found⟩
  unfold Phase.attempt at attempted
  split at attempted
  · cases attempted
    exact owned knows.1
  · cases attempted
    exact owned knows.1
  · cases attempted
    exact knows.1.row
  · cases attempted
    exact knows.1.row
  · cases attempted
    exact owned knows
  · cases attempted
    exact owned knows
  · cases attempted
    exact knows.1.row
  · cases attempted
    exact owned knows.1
  · contradiction

/-- After the commit of an iteration the worker holds its instance as it was assigned. -/
theorem Owns.renewed {lease : Lease} {job assigned : AccountDeletionJob} (owns : Owns db lease job)
    (effect : Effect db db') (status : assigned.status = job.status)
    (token : assigned.leaseToken = job.leaseToken) (subject : assigned.subjectId = job.subjectId) :
    Leased db' { lease with held := some assigned } := by
  obtain ⟨row, found, _⟩ := effect.subject owns.subject
  refine ⟨⟨row, found⟩, fun held same => ?_⟩
  cases same
  refine ⟨⟨status.trans owns.held.1, token.trans owns.held.2⟩, ?_⟩
  rw [subject]
  exact effect.subject owns.subject

/-- The select finds the row with the token, and the instance shows the lease. -/
theorem selectJob_arrives {lease : Lease} {point : Point} (consistent : Consistent db)
    (leased : Leased db lease) (subject : ∀ user ∈ point.user, Subject db lease.job (some user)) :
    Knows db (selectJob db lease point).arrival := by
  unfold selectJob
  split
  · trivial
  rename_i row matched
  obtain ⟨found, passes⟩ := Option.filter_eq_some_iff.mp matched
  split
  · trivial
  -- Every select but the last asks for the token.
  have owns : row.leaseToken = some lease.token → Owns db lease (lease.held.getD row) := by
    intro token
    have running := consistent.leased _ row found (by rw [token]; exact nofun)
    cases held : lease.held with
    | none => exact ⟨⟨running, token⟩, row, found, token, rfl⟩
    | some job =>
      obtain ⟨shows, stored, there, subject⟩ := leased.held job held
      cases found.symm.trans there
      refine ⟨shows, row, found, token, subject.resolve_left fun completed => ?_⟩
      rw [running] at completed
      contradiction
  cases point with
  | closing => exact ⟨row, found⟩
  | top left => exact ⟨owns (of_decide_eq_true passes), nofun⟩
  | failed code => exact ⟨owns (of_decide_eq_true passes).2, nofun⟩
  | retained count => exact ⟨owns (of_decide_eq_true passes).2, nofun⟩
  | final left final =>
    have token : row.leaseToken = some lease.token := of_decide_eq_true passes
    have running := consistent.leased _ row found (by rw [token]; exact nofun)
    refine ⟨owns token, fun user same => ?_⟩
    obtain ⟨stored, there, known⟩ := subject final rfl
    cases found.symm.trans there
    cases same
    obtain ⟨other, here, _, equal⟩ := (owns token).row
    cases found.symm.trans here
    refine equal.symm.trans (known.resolve_left fun completed => ?_)
    rw [running] at completed
    contradiction

/-- What a session knows where a step arrives. -/
theorem program_arrives (consistent : Consistent db) (knows : Knows db phase)
    (effect : Effect db (outcome.result db)) (chosen : program settings db phase action = some outcome) :
    Knows (outcome.result db) outcome.arrival := by
  cases action with
  | lockJob =>
    simp only [program] at chosen
    split at chosen
    · cases chosen
      trivial
    · cases chosen
      exact knows
    · rename_i publisher id published
      cases chosen
      cases publisher with
      | dispatcher rest => trivial
      | request held => exact knows
    · contradiction
  | claim now token =>
    simp only [program] at chosen
    split at chosen
    · split at chosen
      · cases chosen
        trivial
      · rename_i id _ claimed granted
        cases chosen
        obtain ⟨row, found, claims⟩ := Option.bind_eq_some_iff.mp granted
        have stored := job?_claim found claims
        refine ⟨⟨⟨claimed, stored⟩, fun job held => ?_⟩, ?_⟩
        · cases held
          obtain ⟨_, _, status, leased, _⟩ := claim_spec claims
          exact ⟨⟨status, leased⟩, claimed, stored, .inr rfl⟩
        · rw [iterate_user]
          intro _ same
          cases same
    · contradiction
  | select =>
    simp only [program] at chosen
    split at chosen
    · rename_i lease point
      cases chosen
      rw [selectJob_result]
      exact selectJob_arrives consistent knows.1 knows.2
    · split at chosen
      · cases chosen
        trivial
      · cases chosen
        trivial
      · rename_i row _ found
        cases chosen
        have key := (Rows.find?_key found).2
        exact (congrArg db.job? key).trans found
      · cases chosen
        trivial
    · contradiction
  | takeUpload id =>
    simp only [program] at chosen
    split at chosen
    · split at chosen
      · cases chosen
        exact knows.1
      · contradiction
    · contradiction
  | takeAsset id =>
    simp only [program] at chosen
    split at chosen
    · split at chosen
      · cases chosen
        exact knows.1
      · contradiction
    · contradiction
  | finalize =>
    simp only [program] at chosen
    split at chosen
    · obtain ⟨user, subject, rfl⟩ := Option.map_eq_some_iff.mp chosen
      have owns := knows.1
      exact ⟨owns.expire, subject ▸ owns.subject⟩
    · contradiction
  | purge now retained =>
    simp only [program] at chosen
    split at chosen
    · cases chosen
      refine ⟨Owns.renewed knows effect rfl rfl rfl, ?_⟩
      rw [iterate_user]
      intro _ same
      cases same
    · cases chosen
      refine ⟨Owns.renewed knows effect rfl rfl rfl, ?_⟩
      rw [iterate_user]
      intro _ same
      cases same
    · contradiction
  | retain count =>
    simp only [program] at chosen
    split at chosen
    · cases chosen
      exact ⟨Owns.expire knows, fun _ same => by cases same⟩
    · contradiction
  | lockUser =>
    simp only [program] at chosen
    split at chosen
    · cases chosen
      refine ⟨knows.1, fun user same => ?_⟩
      cases same
      exact knows.2
    · contradiction
  | count =>
    simp only [program] at chosen
    split at chosen
    · split at chosen
      · cases chosen
        refine ⟨knows.1.expire, ?_⟩
        rw [iterate_user]
        intro _ same
        cases same
      · rename_i none
        cases chosen
        exact ⟨knows.1, knows.2 _ rfl, Bool.eq_false_iff.mpr none⟩
    · contradiction
  | complete now orphans =>
    simp only [program] at chosen
    split at chosen
    · split at chosen <;> cases chosen <;> trivial
    · contradiction
  | fail code =>
    obtain ⟨lease, attempted, rfl⟩ := Option.map_eq_some_iff.mp chosen
    exact ⟨Leased.expire (attempt_row knows attempted), fun _ same => by cases same⟩
  | resolve now =>
    simp only [program] at chosen
    split at chosen
    · contradiction
    · contradiction
    · split at chosen <;> cases chosen <;> trivial
    · contradiction
  | prepare =>
    simp only [program] at chosen
    split at chosen
    · split at chosen <;> cases chosen <;> trivial
    · contradiction
  | accept now id =>
    simp only [program] at chosen
    split at chosen
    · rename_i origin user existing
      obtain ⟨⟨db', job⟩, accepted, rfl⟩ := Option.map_eq_some_iff.mp chosen
      cases origin <;> trivial
    · contradiction
  | publish published =>
    simp only [program] at chosen
    split at chosen
    · cases chosen
      trivial
    · cases chosen
      rfl
    · contradiction
  | record now =>
    simp only [program] at chosen
    split at chosen
    · split at chosen <;> cases chosen <;> trivial
    · contradiction
  | receive | request | due | write =>
    simp only [program] at chosen
    split at chosen
    · cases chosen
      trivial
    · contradiction
  | insertAsset | insertUpload =>
    simp only [program] at chosen
    split at chosen
    · split at chosen <;> cases chosen
      trivial
    · contradiction
  | stop =>
    cases chosen
    trivial

theorem program_owes (consistent : Consistent db) (knows : Knows db phase)
    (kept : LeaseKept db phase action) (chosen : program settings db phase action = some outcome) :
    Owes Holding Consistent Knows db phase outcome := by
  have effect := program_effect consistent knows kept chosen
  have arrives := program_arrives consistent knows effect chosen
  have keeps : Keeps phase outcome := program_keeps (fun held id published same => by
    subst same
    exact knows) chosen
  have others : ∀ m, (∀ k, Holding phase k → ¬ Holding m k) → Knows db m →
      Knows (outcome.result db) m :=
    fun m apart held => held.spare (program_spares chosen effect apart)
  cases outcome with
  | stay r l => exact ⟨effect.consistent consistent, arrives, keeps, others⟩
  | lock k l => exact ⟨arrives, keeps⟩
  | share k l => exact ⟨arrives, keeps⟩
  | finish r l => exact ⟨effect.consistent consistent, arrives, keeps, others⟩

/-- Only the owner of the lease commits changes. -/
theorem program_owner (knows : Knows db phase) (kept : LeaseKept db phase action)
    (chosen : program settings db phase action = some outcome) {lease : Lease}
    (leased : lease ∈ phase.lease) (changed : outcome.result db ≠ db) :
    ∃ row, db.job? lease.job = some row ∧ row.leaseToken = some lease.token := by
  have owned : ∀ {job : AccountDeletionJob}, Owns db lease job →
      ∃ row, db.job? lease.job = some row ∧ row.leaseToken = some lease.token := by
    intro job owns
    obtain ⟨row, present, token, _⟩ := owns.row
    exact ⟨row, present, token⟩
  have changes : ¬ action.changes = false := fun quiet => changed (program_quiet chosen quiet)
  cases action with
  | claim | accept | record | insertAsset | insertUpload =>
    simp only [program] at chosen
    split at chosen
    · contradiction
    · contradiction
  | purge now retained =>
    simp only [program] at chosen
    split at chosen
    · cases leased
      exact owned knows
    · cases leased
      exact owned knows
    · contradiction
  | complete now orphans =>
    simp only [program] at chosen
    split at chosen
    · cases leased
      exact owned knows.1
    · contradiction
  | resolve now =>
    simp only [program] at chosen
    split at chosen
    · contradiction
    · contradiction
    · rename_i point notTop notFinal
      split at chosen
      · rename_i assigned resolved
        cases leased
        cases point with
        | top | final => contradiction
        | failed code => exact owned knows.1
        | retained count => exact owned knows.1
        | closing =>
          obtain ⟨row, found⟩ := knows
          simp only [resolveJob] at resolved
          split at resolved
          · rename_i shows
            exact ⟨row, found, kept shows row found⟩
          · contradiction
      · cases chosen
        exact absurd rfl changed
    · contradiction
  | _ => exact absurd rfl changes

/-- Nobody adds a row for a user that is gone. -/
theorem program_gone (chosen : program settings db phase action = some outcome) {user : UUID}
    (gone : Gone db user) : Gone (outcome.result db) user := by
  have users : (outcome.result db).users = db.users ∨
      ∃ deleted, (outcome.result db).users = db.users.filter (· ≠ deleted) := by
    by_cases changes : action.changes = false
    · rw [program_quiet chosen changes]
      exact .inl rfl
    cases action with
    | complete now orphans =>
      simp only [program] at chosen
      split at chosen
      · rename_i deleted
        split at chosen <;> cases chosen
        · exact .inr ⟨deleted, rfl⟩
        · exact .inl rfl
      · contradiction
    | claim now token =>
      simp only [program] at chosen
      split at chosen
      · split at chosen <;> cases chosen <;> exact .inl rfl
      · contradiction
    | purge now retained =>
      simp only [program] at chosen
      split at chosen <;> cases chosen <;> exact .inl rfl
    | resolve now =>
      simp only [program] at chosen
      split at chosen
      · contradiction
      · contradiction
      · split at chosen <;> cases chosen <;> exact .inl rfl
      · contradiction
    | accept now new =>
      simp only [program] at chosen
      split at chosen
      · obtain ⟨⟨db', job⟩, accepted, rfl⟩ := Option.map_eq_some_iff.mp chosen
        unfold acceptJob at accepted
        split at accepted
        · cases accepted
          exact .inl rfl
        · split at accepted <;> cases accepted
          exact .inl rfl
      · contradiction
    | record now =>
      simp only [program] at chosen
      split at chosen
      · split at chosen <;> cases chosen <;> exact .inl rfl
      · contradiction
    | insertAsset id =>
      simp only [program] at chosen
      split at chosen
      · split at chosen <;> cases chosen
        exact .inl rfl
      · contradiction
    | insertUpload id =>
      simp only [program] at chosen
      split at chosen
      · split at chosen <;> cases chosen
        exact .inl rfl
      · contradiction
    | _ => exact absurd rfl changes
  constructor
  · intro member
    rcases users with same | ⟨deleted, fewer⟩
    · exact gone.absent (same ▸ member)
    · rw [fewer] at member
      exact gone.absent (List.mem_filter.mp member).1
  · rcases program_counts chosen gone.rows with none | writing
    · exact none
    · subst writing
      cases action with
      | insertAsset id | insertUpload id =>
        simp only [program] at chosen
        split at chosen
        · rename_i allowed
          exact absurd allowed.1 gone.absent
        · contradiction
      | stop =>
        cases chosen
        exact gone.rows
      | _ => contradiction

/-- A step under the condition is fenced. -/
theorem program_fenced (consistent : Consistent db) (knows : Knows db phase)
    (kept : LeaseKept db phase action) (chosen : program settings db phase action = some outcome) :
    FencedStep db phase (outcome.result db) := by
  have effect := program_effect consistent knows kept chosen
  constructor
  · intro lease leased changed
    exact program_owner knows kept chosen leased changed
  · intro id row found terminal
    obtain ⟨new, there, rfl | fate⟩ := effect.rows id row found
    · exact there
    · exact absurd terminal fate.before
  · intro id row new found there uncompleted completed user subject
    obtain ⟨other, here, same | fate⟩ := effect.rows id row found
    · cases here.symm.trans there
      exact absurd (same ▸ completed) uncompleted
    · cases here.symm.trans there
      exact fate.gone completed user subject
  · intro user gone
    exact program_gone chosen gone

abbrev Leasing : Jobs → Prop := Sound Holding Consistent Knows

/-- The condition on the steps of a run. -/
abbrev StepKept (s : Jobs) (label : Nat × Action) : Prop :=
  LeaseKept s.shared (s.locals label.1) label.2

/-- What holds of every step of a run. -/
def StepFenced (settings : Settings) (s : Jobs) (label : Nat × Action) : Prop :=
  ∀ s', step settings s label = some s' → FencedStep s.shared (s.locals label.1) s'.shared

theorem step_leasing (s : Jobs) (label : Nat × Action) (s' : Jobs) (leasing : Leasing s)
    (kept : StepKept s label) (stepped : step settings s label = some s') : Leasing s' := by
  refine leasing.step stepped fun outcome chosen => ?_
  exact program_owes leasing.global (leasing.session label.1) kept chosen

theorem step_fenced (s : Jobs) (label : Nat × Action) (leasing : Leasing s)
    (kept : StepKept s label) : StepFenced settings s label := by
  intro s' stepped
  obtain ⟨outcome, chosen, acted⟩ := Option.bind_eq_some_iff.mp stepped
  rw [Store.act_shared acted]
  exact program_fenced leasing.global (leasing.session label.1) kept chosen

/-- In every run in which a row still carries the token that the last select of a batch
returns, the steps are fenced; and what the due query returns can be claimed. -/
theorem lease_fences {db : Database} (consistent : Consistent db) {labels : List (Nat × Action)}
    (kept : Along (step settings) StepKept (start db) labels) :
    Along (step settings) (StepFenced settings) (start db) labels ∧
      ∀ t, run (step settings) (start db) labels = some t →
        ∀ now limit token, ∀ id ∈ dueAccountDeletionJobIds t.shared.jobs now limit,
          ((t.shared.job? id).bind (claimAccountDeletionJob settings now token)).isSome := by
  have initial : Leasing (start db) := Sound.idle consistent trivial fun _ held => held
  refine ⟨along_of_invariant step_leasing step_fenced initial kept, fun t reached => ?_⟩
  intro now limit token id due
  have unique := (invariant step_leasing initial kept reached).global.unique
  obtain ⟨job, member, rfl, isDue⟩ := mem_dueAccountDeletionJobIds due
  have found : t.shared.job? job.id = some job := (Rows.find?_key_iff unique).mpr ⟨member, rfl⟩
  rw [found, Option.bind_some]
  exact isDue.claimable

theorem oneJob_consistent : Consistent oneJob := by
  refine ⟨List.nodup_singleton 9, fun id row found leased => ?_⟩
  have member := List.mem_of_find?_eq_some found
  rw [List.mem_singleton.mp member] at leased
  exact absurd rfl leased

/-- A worker claims the job and purges the asset; its batch is over. -/
def purgeOne (q : Nat) (now token : Nat) : List (Nat × Action) :=
  [(q, .receive 9), (q, .lockJob), (q, .claim now token), (q, .lockJob), (q, .select),
    (q, .takeAsset 5), (q, .purge now 0)]

/-- The select and the commit after the loop. -/
def closeBatch (q : Nat) (now : Nat) : List (Nat × Action) :=
  [(q, .lockJob), (q, .select), (q, .resolve now)]

/-- Two batches, one after the other. -/
theorem lease_fences_two_batches :
    Along (step oneAssetABatch) (StepFenced oneAssetABatch) (start oneJob)
        (purgeOne 0 0 100 ++ closeBatch 0 1 ++ completeJob 1 2 200) ∧
      ∃ t, run (step oneAssetABatch) (start oneJob)
          (purgeOne 0 0 100 ++ closeBatch 0 1 ++ completeJob 1 2 200) = some t ∧
        (t.shared.job? 9).map (·.status) = some .completed := by
  refine ⟨(lease_fences oneJob_consistent (by decide)).1, ?_⟩
  have completes : (run (step oneAssetABatch) (start oneJob)
      (purgeOne 0 0 100 ++ closeBatch 0 1 ++ completeJob 1 2 200)).any fun t =>
        (t.shared.job? 9).map (·.status) = some .completed := by
    decide
  obtain ⟨t, reached, status⟩ := (Option.any_eq_true _ _).mp completes
  exact ⟨t, reached, of_decide_eq_true status⟩

/-- A worker that is paused after its batch outlives its lease: another one completes
the job, and the first one makes it pending again. -/
theorem paused_worker_reopens_job :
    ∃ s t, run (step oneAssetABatch) (start oneJob) (purgeOne 0 0 100 ++ completeJob 1 20 200) = some s ∧
      (s.shared.job? 9).map (fun job => (job.status, job.leaseToken)) = some (.completed, none) ∧
      run (step oneAssetABatch) s (closeBatch 0 30) = some t ∧
      (t.shared.job? 9).map (·.status) = some .pending := by
  have reopens : (run (step oneAssetABatch) (start oneJob)
      (purgeOne 0 0 100 ++ completeJob 1 20 200)).any fun s =>
        (s.shared.job? 9).map (fun job => (job.status, job.leaseToken)) = some (.completed, none) ∧
        (run (step oneAssetABatch) s (closeBatch 0 30)).any fun t =>
          (t.shared.job? 9).map (·.status) = some .pending := by
    decide
  obtain ⟨s, reached, found⟩ := (Option.any_eq_true _ _).mp reopens
  obtain ⟨completed, later⟩ := of_decide_eq_true found
  obtain ⟨t, following, pending⟩ := (Option.any_eq_true _ _).mp later
  exact ⟨s, t, reached, completed, following, of_decide_eq_true pending⟩

end Drivebound.Cleanup
