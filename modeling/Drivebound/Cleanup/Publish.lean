import Drivebound.Cleanup.Worker
import Drivebound.Core.History
import Mathlib

/-! What `record_account_deletion_publish` does to a job that a worker has written
between the decision to publish it and the callback. The callback looks at the status
only: it spares a job that is running, completed or under review, but one that a worker
has made pending or put off looks like one that was never picked up. -/
namespace Drivebound.Cleanup
open Sessions Run Attributes
open Erasure (JobStatus)

/-- For each session, the jobs that a worker has written since the session decided what
to publish, with the status it left, unless a later callback has written the job. -/
abbrev Standing := Nat → UUID → Option JobStatus

/-- What a write leaves to stand: a callback takes the job over, a worker leaves the
status of the row. -/
def left (s' : Jobs) (id : UUID) : Action → Option JobStatus
  | .record _ => none
  | _ => (s'.shared.job? id).map (·.status)

/-- The due query of a dispatcher and the commit of `delete_account` are the decisions;
whoever writes a job otherwise is a worker or a callback. -/
def note (s : Jobs) (label : Nat × Action) (s' : Jobs) (h : Standing) : Standing :=
  match (s.locals label.1).writes, label.2 with
  | none, .due _ | none, .accept _ _ => Function.update h label.1 fun _ => none
  | none, _ => h
  | some id, action =>
    if s'.shared.job? id = s.shared.job? id then h
    else fun q => Function.update (h q) id (left s' id action)

/-- Where a worker has written the job since the decision: it left the job in a status
that a dispatcher does not advance, and `delete_account` had accepted it in such a one. -/
def Decisive (written : UUID → Option JobStatus) (phase : Phase) (action : Action) : Prop :=
  match action, phase with
  | .record _, .advancing (.dispatcher _) held _ => ∀ status ∈ written held.id, ¬ IsPublishable status
  | .record _, .advancing (.request _) held _ =>
    written held.id ≠ none → ¬ IsPublishable held.status
  | _, _ => True

instance (written : UUID → Option JobStatus) : (phase : Phase) → DecidablePred (Decisive written phase)
  | .advancing (.dispatcher _) held _, .record _ =>
    have : Decidable (∀ status ∈ written held.id, ¬ IsPublishable status) := Option.decidableForallMem ..
    inferInstanceAs (Decidable (∀ status ∈ written held.id, ¬ IsPublishable status))
  | .advancing (.request _) held _, .record _ =>
    inferInstanceAs (Decidable (written held.id ≠ none → ¬ IsPublishable held.status))
  | .idle, .record _ | .received _, .record _ | .claiming _, .record _ | .between .., .record _
  | .locked .., .record _ | .selected .., .record _ | .purgingUpload .., .record _ | .purgingAsset .., .record _
  | .finalizing .., .record _ | .sweeping .., .record _ | .requesting .., .record _ | .preparing .., .record _
  | .dispatching _, .record _ | .accepted _, .record _ | .publishing .., .record _ | .recording .., .record _
  | .writing _, .record _ => isTrue trivial
  | _, .receive _ | _, .lockJob | _, .claim .. | _, .select | _, .takeUpload _ | _, .takeAsset _ | _, .finalize
  | _, .purge .. | _, .retain _ | _, .lockUser | _, .count | _, .complete .. | _, .fail _ | _, .resolve _
  | _, .request .. | _, .prepare | _, .accept .. | _, .due _ | _, .publish _ | _, .write _ | _, .insertAsset _
  | _, .insertUpload _ | _, .stop => isTrue trivial

/-- A callback leaves a job that a worker has written as the worker left it. -/
def Spared (db : Database) (written : UUID → Option JobStatus) (phase : Phase) (action : Action)
    (db' : Database) : Prop :=
  ∀ now publisher held published, action = .record now → phase = .advancing publisher held published →
    ∀ status ∈ written held.id,
      ∃ row, db.job? held.id = some row ∧ row.status = status ∧ db'.job? held.id = some row

/-- What a publisher knows: a dispatcher holds the row that it has selected. -/
def Bound (db : Database) : Phase → Prop
  | .publishing (.request held) id _ | .recording (.request held) id _ => held.id = id
  | .advancing (.dispatcher _) held _ => db.job? held.id = some held
  | _ => True

variable {settings : Settings} {db : Database} {phase : Phase} {action : Action} {outcome : Step}

theorem program_bound (bound : Bound db phase)
    (chosen : program settings db phase action = some outcome) :
    Bound (outcome.result db) outcome.arrival := by
  cases action with
  | lockJob =>
    simp only [program] at chosen
    split at chosen
    · cases chosen
      trivial
    · cases chosen
      trivial
    · rename_i publisher id published
      cases chosen
      cases publisher with
      | dispatcher rest => trivial
      | request held => exact bound
    · contradiction
  | select =>
    simp only [program] at chosen
    split at chosen
    · cases chosen
      unfold selectJob
      split
      · trivial
      · split <;> trivial
    · split at chosen
      · cases chosen
        trivial
      · cases chosen
        trivial
      · rename_i row _ found
        cases chosen
        have key := (Rows.find?_key found).2
        exact (congrArg db.job? key).trans found
      · cases chosen
        trivial
    · contradiction
  | publish published =>
    simp only [program] at chosen
    split at chosen
    · cases chosen
      trivial
    · cases chosen
      rfl
    · contradiction
  | finalize =>
    simp only [program] at chosen
    split at chosen
    · obtain ⟨user, subject, rfl⟩ := Option.map_eq_some_iff.mp chosen
      trivial
    · contradiction
  | fail code =>
    obtain ⟨lease, attempted, rfl⟩ := Option.map_eq_some_iff.mp chosen
    trivial
  | resolve now =>
    simp only [program] at chosen
    split at chosen
    · contradiction
    · contradiction
    · split at chosen <;> cases chosen <;> trivial
    · contradiction
  | accept now id =>
    simp only [program] at chosen
    split at chosen
    · rename_i origin user existing
      obtain ⟨⟨db', job⟩, accepted, rfl⟩ := Option.map_eq_some_iff.mp chosen
      cases origin <;> trivial
    · contradiction
  | claim | takeUpload | takeAsset | count | complete | prepare | record | insertAsset | insertUpload =>
    simp only [program] at chosen
    split at chosen
    · split at chosen <;> cases chosen <;> trivial
    · contradiction
  | purge | receive | retain | lockUser | request | due | write =>
    simp only [program] at chosen
    split at chosen <;> cases chosen <;> trivial
  | stop =>
    cases chosen
    trivial

theorem bound_owes (bound : Bound db phase)
    (chosen : program settings db phase action = some outcome) :
    Owes Holding (fun _ => True) Bound db phase outcome := by
  have arrives := program_bound bound chosen
  have keeps : Keeps phase outcome := program_keeps (fun held id published same => by
    subst same
    exact bound) chosen
  have others : ∀ m, (∀ k, Holding phase k → ¬ Holding m k) → Bound db m →
      Bound (outcome.result db) m := by
    intro m apart known
    cases m with
    | advancing publisher held published =>
      cases publisher with
      | dispatcher rest =>
        refine program_jobs chosen (fun writes => ?_) known
        exact apart _ (writes_held writes) rfl
      | request _ => trivial
    | publishing publisher id published => cases publisher <;> exact known
    | recording publisher id published => cases publisher <;> exact known
    | _ => trivial
  cases outcome with
  | stay r l => exact ⟨trivial, arrives, keeps, others⟩
  | lock k l => exact ⟨arrives, keeps⟩
  | share k l => exact ⟨arrives, keeps⟩
  | finish r l => exact ⟨trivial, arrives, keeps, others⟩

abbrev Publishing (settings : Settings) : Jobs × Standing → Nat × Action → Option (Jobs × Standing) :=
  noted (step settings) note

/-- What stands after a step stood before, and the row was not written, or it is what the
row shows. -/
theorem note_cases {s s' : Jobs} {label : Nat × Action} {h : Standing} {q : Nat} {id : UUID}
    {status : JobStatus} (stands : status ∈ note s label s' h q id) :
    (status ∈ h q id ∧
      ((s.locals label.1).writes ≠ some id ∨ s'.shared.job? id = s.shared.job? id)) ∨
    ∃ row, s'.shared.job? id = some row ∧ row.status = status := by
  obtain ⟨p, action⟩ := label
  cases writes : (s.locals p).writes with
  | none =>
    have decided : status ∈ Function.update h p (fun _ => none) q id → status ∈ h q id := by
      intro stands
      by_cases same : q = p
      · subst same
        rw [Function.update_self] at stands
        contradiction
      · rw [Function.update_of_ne same] at stands
        exact stands
    simp only [note, writes] at stands
    refine .inl ⟨?_, .inl nofun⟩
    cases action with
    | due now => exact decided stands
    | accept now new => exact decided stands
    | _ => exact stands
  | some target =>
    simp only [note, writes] at stands
    split at stands
    · rename_i unchanged
      by_cases same : target = id
      · exact .inl ⟨stands, .inr (same ▸ unchanged)⟩
      · exact .inl ⟨stands, .inl fun equal => same (Option.some.inj equal)⟩
    · by_cases same : id = target
      · subst same
        simp only [Function.update_self, left] at stands
        split at stands
        · contradiction
        · exact .inr (Option.map_eq_some_iff.mp stands)
      · simp only [Function.update_of_ne same] at stands
        exact .inl ⟨stands, .inl fun equal => same (Option.some.inj equal).symm⟩

/-- What stands of a worker's write is what the row shows. -/
structure Recorded (s : Jobs × Standing) : Prop where
  sound : Sound Holding (fun _ => True) Bound s.1
  standing : ∀ q id, ∀ status ∈ s.2 q id,
    ∃ row, s.1.shared.job? id = some row ∧ row.status = status

theorem step_recorded (s : Jobs × Standing) (label : Nat × Action) (t : Jobs × Standing)
    (recorded : Recorded s) (stepped : Publishing settings s label = some t) : Recorded t := by
  obtain ⟨here, history⟩ := noted_iff.mp stepped
  refine ⟨recorded.sound.step here fun outcome chosen =>
    bound_owes (recorded.sound.session label.1) chosen, ?_⟩
  obtain ⟨outcome, chosen, acted⟩ := Option.bind_eq_some_iff.mp here
  intro q id status stands
  rw [history] at stands
  rcases note_cases stands with ⟨stood, other | unchanged⟩ | shown
  · obtain ⟨row, found, same⟩ := recorded.standing q id status stood
    refine ⟨row, ?_, same⟩
    rw [Store.act_shared acted]
    exact program_jobs chosen other found
  · obtain ⟨row, found, same⟩ := recorded.standing q id status stood
    exact ⟨row, unchanged.trans found, same⟩
  · exact shown

/-- The condition on the steps of a run. -/
abbrev StepDecisive (s : Jobs × Standing) (label : Nat × Action) : Prop :=
  Decisive (s.2 label.1) (s.1.locals label.1) label.2

/-- What holds of every step of a run. -/
def StepSpared (settings : Settings) (s : Jobs × Standing) (label : Nat × Action) : Prop :=
  ∀ t, Publishing settings s label = some t →
    Spared s.1.shared (s.2 label.1) (s.1.locals label.1) label.2 t.1.shared

theorem record_refused {now : Timestamp} {published : Bool} {job : AccountDeletionJob}
    (refused : ¬ IsPublishable job.status) :
    recordAccountDeletionPublish settings now published job = none := if_pos refused

theorem step_spared (s : Jobs × Standing) (label : Nat × Action) (recorded : Recorded s)
    (decisive : StepDecisive s label) : StepSpared settings s label := by
  intro t stepped now publisher held published action phase status stands
  obtain ⟨here, _⟩ := noted_iff.mp stepped
  obtain ⟨outcome, chosen, acted⟩ := Option.bind_eq_some_iff.mp here
  obtain ⟨row, found, same⟩ := recorded.standing label.1 held.id status stands
  refine ⟨row, found, same, ?_⟩
  rw [Store.act_shared acted]
  have refused : ¬ IsPublishable held.status := by
    simp only [StepDecisive, Decisive, action, phase] at decisive
    cases publisher with
    | request accepted => exact decisive (by rw [Option.mem_def.mp stands]; exact nofun)
    | dispatcher rest =>
      have bound : Bound s.1.shared (s.1.locals label.1) := recorded.sound.session label.1
      rw [phase] at bound
      cases bound.symm.trans found
      exact same ▸ decisive status stands
  rw [phase, action] at chosen
  cases publisher with
  | dispatcher rest =>
    simp only [program, record_refused refused] at chosen
    cases chosen
    exact found
  | request accepted =>
    simp only [program, record_refused refused] at chosen
    cases chosen
    exact found

/-- In every run in which the last write of a worker before a callback was decisive, the
callback leaves the job as the worker left it. -/
theorem publish_spares_workers {db : Database} {labels : List (Nat × Action)}
    (decisive : Along (Publishing settings) StepDecisive (start db, fun _ _ => none) labels) :
    Along (Publishing settings) (StepSpared settings) (start db, fun _ _ => none) labels := by
  have initial : Recorded (start db, fun _ _ => none) :=
    ⟨Sound.idle trivial trivial fun _ held => held, nofun⟩
  exact along_of_invariant (fun s label t recorded _ => step_recorded s label t recorded)
    step_spared initial decisive

/-- A dispatcher up to its publication, and its callback. -/
def publishJob (q : Nat) (now : Nat) : List (Nat × Action) := [(q, .due now), (q, .publish true)]

def callBack (q : Nat) (now : Nat) : List (Nat × Action) :=
  [(q, .lockJob), (q, .select), (q, .record now)]

/-- A worker that claims the job and fails. -/
def failJob (q : Nat) (now token : Nat) : List (Nat × Action) :=
  [(q, .receive 9), (q, .lockJob), (q, .claim now token), (q, .lockJob), (q, .select),
    (q, .fail "OSError"), (q, .lockJob), (q, .select), (q, .resolve now)]

/-- The job is completed before the callback. -/
theorem publish_spares_completed_job :
    Along (Publishing oneAssetABatch) (StepSpared oneAssetABatch)
        (start { oneJob with assets := [] }, fun _ _ => none)
        (publishJob 0 0 ++ completeJob 1 1 100 ++ callBack 0 2) ∧
      ∃ t, run (Publishing oneAssetABatch) (start { oneJob with assets := [] }, fun _ _ => none)
          (publishJob 0 0 ++ completeJob 1 1 100 ++ callBack 0 2) = some t ∧
        t.2 0 9 = some .completed ∧ (t.1.shared.job? 9).map (·.status) = some .completed := by
  refine ⟨publish_spares_workers (by decide), ?_⟩
  have completes : (run (Publishing oneAssetABatch)
      (start { oneJob with assets := [] }, fun _ _ => none)
      (publishJob 0 0 ++ completeJob 1 1 100 ++ callBack 0 2)).any fun t =>
        t.2 0 9 = some .completed ∧ (t.1.shared.job? 9).map (·.status) = some .completed := by
    decide
  obtain ⟨t, reached, status⟩ := (Option.any_eq_true _ _).mp completes
  exact ⟨t, reached, of_decide_eq_true status⟩

/-- `delete_account` from the lock of the user's row to the publication. -/
def requestDeletion (q : Nat) (now : Nat) : List (Nat × Action) :=
  [(q, .request .deleteAccount 1), (q, .prepare), (q, .accept now 9), (q, .publish true)]

/-- A dispatcher's callback takes away the error and the next attempt of a worker that
has failed, and the one of `delete_account` queues a job that is completed. -/
theorem late_callback_overwrites_worker :
    (∃ s t, run (step oneAssetABatch) (start oneJob) (publishJob 0 0 ++ failJob 1 1 100) = some s ∧
      (s.shared.job? 9).map (fun job => (job.status, job.nextAttemptAt, job.lastErrorCode)) =
        some (.retry, 31, some "OSError") ∧
      run (step oneAssetABatch) s (callBack 0 2) = some t ∧
      (t.shared.job? 9).map (fun job => (job.status, job.nextAttemptAt, job.lastErrorCode)) =
        some (.queued, 12, none)) ∧
    ∃ s t, run (step oneAssetABatch) (start ⟨[1], [], [], []⟩)
        (requestDeletion 0 0 ++ completeJob 1 1 100) = some s ∧
      (s.shared.job? 9).map (·.status) = some .completed ∧
      run (step oneAssetABatch) s (callBack 0 2) = some t ∧
      (t.shared.job? 9).map (·.status) = some .queued := by
  have retried : (run (step oneAssetABatch) (start oneJob) (publishJob 0 0 ++ failJob 1 1 100)).any
      fun s => (s.shared.job? 9).map (fun job => (job.status, job.nextAttemptAt, job.lastErrorCode)) =
          some (.retry, 31, some "OSError") ∧
        (run (step oneAssetABatch) s (callBack 0 2)).any fun t =>
          (t.shared.job? 9).map (fun job => (job.status, job.nextAttemptAt, job.lastErrorCode)) =
            some (.queued, 12, none) := by
    decide
  have completed : (run (step oneAssetABatch) (start ⟨[1], [], [], []⟩)
      (requestDeletion 0 0 ++ completeJob 1 1 100)).any
      fun s => (s.shared.job? 9).map (·.status) = some .completed ∧
        (run (step oneAssetABatch) s (callBack 0 2)).any fun t =>
          (t.shared.job? 9).map (·.status) = some .queued := by
    decide
  constructor
  · obtain ⟨s, reached, found⟩ := (Option.any_eq_true _ _).mp retried
    obtain ⟨before, later⟩ := of_decide_eq_true found
    obtain ⟨t, following, after⟩ := (Option.any_eq_true _ _).mp later
    exact ⟨s, t, reached, before, following, of_decide_eq_true after⟩
  · obtain ⟨s, reached, found⟩ := (Option.any_eq_true _ _).mp completed
    obtain ⟨before, later⟩ := of_decide_eq_true found
    obtain ⟨t, following, after⟩ := (Option.any_eq_true _ _).mp later
    exact ⟨s, t, reached, before, following, of_decide_eq_true after⟩

end Drivebound.Cleanup
