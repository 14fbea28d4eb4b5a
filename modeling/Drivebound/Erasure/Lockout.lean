import Drivebound.Core.Rows
import Drivebound.Core.Run
import Drivebound.Erasure.Credentials

/-! What is left of an account's row once its deletion is committed. Secrets are erased
by assigning `None` to an instance that may have been loaded before the row was locked,
so a secret that another request stored in between is not part of the `UPDATE`; and a
request that waits for the lock behind the deletion writes through its old instance. -/
namespace Drivebound.Erasure
open Sessions Run Attributes

/-- A deletion that locks out shows every stored secret, and a second factor is set up
for an account without deletion job only (or the CHECK constraint refuses it). -/
def SeesSecrets (db : Database) (phase : Phase) (action : Action) : Prop :=
  match action, phase with
  | .commit _, .confirmed .deleteAccount user | .commit _, .confirmed .replayMarker user =>
    db.job? user.current.id = none → ∀ row ∈ db.user? user.current.id, Shows user.loaded row
  | .commit _, .confirmed .setupMfa user =>
    db.job? user.current.id = none ∨ user.loaded.pendingTotpSessionId = some user.session
  | _, _ => True

instance (db : Database) (phase : Phase) : DecidablePred (SeesSecrets db phase) := fun action => by
  unfold SeesSecrets
  split <;> infer_instance

/-- The row of an account that can be used. -/
structure Usable (user : User) : Prop where
  enabled : user.disabledAt = none
  password : ∃ value, user.passwordHash = .digest value
  complete : user.Complete

/-- An account is usable or locked out. -/
structure Sane (user : User) : Prop where
  usable : user.disabledAt = none → Usable user
  lockedOut : user.disabledAt.isSome = true → LockedOut user ∧ user.Complete

structure Consistent (db : Database) : Prop where
  unique : (db.users.map User.id).Nodup
  sane : ∀ user ∈ db.users, Sane user
  job : ∀ user ∈ db.users, user.disabledAt.isSome = (db.job? user.id).isSome
  credentials : ∀ credential ∈ db.credentials, db.job? credential.userId = none

/-- The instance shows what was loaded, but for the second factor's last step. -/
def Unassigned (user : Instance) : Prop :=
  ∃ step, user.current = { user.loaded with totpLastUsedStep := step }

/-- The instance was loaded while the account could be used; the replay of a marker also
loads accounts that have their job already. -/
def LoadedUsable (db : Database) (endpoint : Endpoint) (user : Instance) : Prop :=
  Usable user.loaded ∨ endpoint = .replayMarker ∧ (db.job? user.current.id).isSome = true

def Knows (db : Database) : Phase → Prop
  | .idle => True
  | .authenticated endpoint user | .locked endpoint user =>
    Unassigned user ∧ LoadedUsable db endpoint user
  | .selected .confirmMfa user | .confirmed .confirmMfa user =>
    Unassigned user ∧ db.user? user.current.id = some user.current ∧ user.loaded = user.current
  | .selected .storeUpload user | .confirmed .storeUpload user =>
    Unassigned user ∧ ∀ row ∈ db.user? user.current.id, row.disabledAt = none
  | .selected endpoint user | .confirmed endpoint user =>
    Unassigned user ∧ LoadedUsable db endpoint user

def Holding : Phase → LockKey → Prop
  | .locked _ user, k | .selected _ user, k | .confirmed _ user, k => k = .user user.current.id
  | _, _ => False

variable {db db' : Database}

theorem Consistent.user? (consistent : Consistent db) {row : User} (member : row ∈ db.users) :
    db.user? row.id = some row :=
  (Rows.find?_key_iff consistent.unique).mpr ⟨member, rfl⟩

theorem Consistent.locked_of_job (consistent : Consistent db) {row : User}
    (member : row ∈ db.users) (some : (db.job? row.id).isSome = true) :
    LockedOut row ∧ row.Complete :=
  (consistent.sane row member).lockedOut ((consistent.job row member).trans some)

/-- The requests that another one interferes with see that their own row stays as it
is, and that jobs stay. -/
structure Spares (db db' : Database) (m : Phase) : Prop where
  row : ∀ endpoint user, m = .selected endpoint user ∨ m = .confirmed endpoint user →
    db'.user? user.current.id = db.user? user.current.id
  jobs : ∀ subject, (db.job? subject).isSome = true → (db'.job? subject).isSome = true

theorem LoadedUsable.spare {endpoint : Endpoint} {user : Instance}
    (loaded : LoadedUsable db endpoint user)
    (jobs : ∀ subject, (db.job? subject).isSome = true → (db'.job? subject).isSome = true) :
    LoadedUsable db' endpoint user := by
  rcases loaded with usable | ⟨replay, job⟩
  · exact .inl usable
  · exact .inr ⟨replay, jobs _ job⟩

theorem Knows.spare {m : Phase} (knows : Knows db m) (spares : Spares db db' m) :
    Knows db' m := by
  cases m with
  | idle => trivial
  | authenticated endpoint user => exact ⟨knows.1, knows.2.spare spares.jobs⟩
  | locked endpoint user => exact ⟨knows.1, knows.2.spare spares.jobs⟩
  | selected endpoint user =>
    have same := spares.row endpoint user (.inl rfl)
    cases endpoint with
    | confirmMfa => exact ⟨knows.1, same.trans knows.2.1, knows.2.2⟩
    | storeUpload =>
      refine ⟨knows.1, fun row found => ?_⟩
      rw [same] at found
      exact knows.2 row found
    | deleteAccount | replayMarker | changePassword | setupMfa | disableMfa =>
      exact ⟨knows.1, knows.2.spare spares.jobs⟩
  | confirmed endpoint user =>
    have same := spares.row endpoint user (.inr rfl)
    cases endpoint with
    | confirmMfa => exact ⟨knows.1, same.trans knows.2.1, knows.2.2⟩
    | storeUpload =>
      refine ⟨knows.1, fun row found => ?_⟩
      rw [same] at found
      exact knows.2 row found
    | deleteAccount | replayMarker | changePassword | setupMfa | disableMfa =>
      exact ⟨knows.1, knows.2.spare spares.jobs⟩

theorem user?_setUser {id other : UUID} {change : User → User}
    (keeps : ∀ user, (change user).id = user.id) :
    (db.setUser id change).user? other =
      (db.user? other).map fun user => if user.id = id then change user else user := by
  refine Rows.find?_key_map fun user => ?_
  split
  · exact keeps user
  · rfl

theorem user?_setUser_other {id other : UUID} {change : User → User}
    (keeps : ∀ user, (change user).id = user.id) (different : other ≠ id) :
    (db.setUser id change).user? other = db.user? other := by
  rw [user?_setUser keeps]
  cases found : db.user? other with
  | none => rfl
  | some row =>
    have key := (Rows.find?_key found).2
    simp only [Option.map_some, if_neg (key ▸ different : row.id ≠ id)]

/-- The consistency after one row was rewritten. -/
theorem Consistent.setUser (consistent : Consistent db) {id : UUID} {change : User → User}
    (keeps : ∀ user, (change user).id = user.id)
    (state : ∀ row, db.user? id = some row → (change row).disabledAt.isSome = row.disabledAt.isSome)
    (sane : ∀ row, db.user? id = some row → Sane (change row)) :
    Consistent (db.setUser id change) where
  unique := by
    have ids : (db.setUser id change).users.map User.id = db.users.map User.id := by
      simp only [Database.setUser, List.map_map]
      apply List.map_congr_left
      intro user _
      simp only [Function.comp_apply]
      split
      · exact keeps user
      · rfl
    rw [ids]
    exact consistent.unique
  sane user member := by
    obtain ⟨row, there, rfl⟩ := List.mem_map.mp member
    by_cases same : row.id = id
    · rw [if_pos same]
      exact sane row (same ▸ consistent.user? there)
    · rw [if_neg same]
      exact consistent.sane row there
  job user member := by
    obtain ⟨row, there, rfl⟩ := List.mem_map.mp member
    by_cases same : row.id = id
    · rw [if_pos same, keeps row]
      have before := consistent.job row there
      exact (state row (same ▸ consistent.user? there)).trans before
    · rw [if_neg same]
      exact consistent.job row there
  credentials := consistent.credentials

/-- Attributes written to a usable row leave it usable, unless they are the lockout's. -/
theorem flush_usable {loaded assigned row : User} (usable : Usable row)
    (enabled : assigned.disabledAt = loaded.disabledAt)
    (password : assigned.passwordHash = loaded.passwordHash ∨
      ∃ value, assigned.passwordHash = .digest value)
    (complete : (User.flush loaded assigned row).Complete) :
    Usable (User.flush loaded assigned row) := by
  constructor
  · have same : (User.flush loaded assigned row).disabledAt = row.disabledAt := by
      simp only [User.flush, enabled, flush_untouched]
    exact same.trans usable.enabled
  · obtain ⟨stored, digest⟩ := usable.password
    rcases password with same | ⟨value, new⟩
    · refine ⟨stored, ?_⟩
      simp only [User.flush, same, flush_untouched]
      exact digest
    · rcases flush_cases loaded.passwordHash assigned.passwordHash row.passwordHash with old | written
      · exact ⟨stored, old.trans digest⟩
      · exact ⟨value, written.trans new⟩
  · exact complete

/-- What an endpoint may assign to the columns of the lockout. -/
theorem assign_keeps {endpoint : Endpoint} {user : Instance} {values : Values}
    (unassigned : Unassigned user) (chosen : assign endpoint user values = some assigned) :
    assigned.disabledAt = user.loaded.disabledAt ∧
      (assigned.passwordHash = user.loaded.passwordHash ∨
        ∃ value, assigned.passwordHash = .digest value) := by
  obtain ⟨step, shown⟩ := unassigned
  have disabledAt : user.current.disabledAt = user.loaded.disabledAt := by rw [shown]
  have passwordHash : user.current.passwordHash = user.loaded.passwordHash := by rw [shown]
  cases endpoint with
  | changePassword =>
    cases chosen
    exact ⟨disabledAt, .inr ⟨_, rfl⟩⟩
  | setupMfa | disableMfa =>
    cases chosen
    exact ⟨disabledAt, .inl passwordHash⟩
  | confirmMfa | storeUpload =>
    simp only [assign] at chosen
    split at chosen
    · cases chosen
      exact ⟨disabledAt, .inl passwordHash⟩
    · contradiction
  | deleteAccount | replayMarker => contradiction

/-- A second factor that is set up behind a deletion breaks the CHECK constraint where
the instance shows a pending one of the same session. -/
theorem setup_refused {user : Instance} {values : Values} {row : User}
    (unassigned : Unassigned user) (locked : LockedOut row ∧ row.Complete)
    (pending : user.loaded.pendingTotpSessionId = some user.session)
    (chosen : assign .setupMfa user values = some assigned)
    (complete : (User.flush user.loaded assigned row).Complete) :
    LockedOut (User.flush user.loaded assigned row) := by
  obtain ⟨step, shown⟩ := unassigned
  obtain ⟨lockedOut, whole⟩ := locked
  cases chosen
  have gone : row.pendingTotpSessionId = none := by
    have chain := whole.1
    rw [lockedOut.pendingTotp] at chain
    simpa using (chain.1.trans chain.2).symm
  have session : (User.flush user.loaded
      { user.current with
        pendingTotpSecretEncrypted := some values.secret
        pendingTotpExpiresAt := some (values.now + 600)
        pendingTotpSessionId := some user.session } row).pendingTotpSessionId = none := by
    simp only [User.flush, pending, flush_untouched, gone]
  constructor
  · simp only [User.flush, shown, flush_untouched]
    exact lockedOut.disabled
  · simp only [User.flush, shown, flush_untouched]
    exact lockedOut.password
  · simp only [User.flush, shown, flush_untouched]
    exact lockedOut.mediaKey
  · simp only [User.flush, shown, flush_untouched]
    exact lockedOut.totp
  · have chain := complete.1
    rw [session] at chain
    simpa using chain.1.trans chain.2

abbrev RowOwes (db : Database) (phase : Phase) (outcome : Step) : Prop :=
  Owes Holding Consistent Knows db phase outcome

theorem owes_rollback {phase : Phase} (consistent : Consistent db) :
    RowOwes db phase (.finish db .idle) :=
  Owes.rollback consistent trivial fun _ held => held

/-- The row of a committed write is usable or locked out as before. -/
theorem written_sane {endpoint : Endpoint} {user : Instance} {values : Values} {row : User}
    (consistent : Consistent db) (knows : Knows db (.confirmed endpoint user))
    (setup : endpoint = .setupMfa → db.job? user.current.id = none ∨
      user.loaded.pendingTotpSessionId = some user.session)
    (unassigned : Unassigned user) (found : db.user? user.current.id = some row)
    (chosen : assign endpoint user values = some assigned)
    (session : ¬ (endpoint.touchesSession = true ∧
      db.hasSession user.session user.current.id = false))
    (complete : (User.flush user.loaded assigned row).Complete) :
    Sane (User.flush user.loaded assigned row) := by
  obtain ⟨member, key⟩ := Rows.find?_key found
  obtain ⟨enabled, password⟩ := assign_keeps unassigned chosen
  have state : (User.flush user.loaded assigned row).disabledAt = row.disabledAt := by
    simp only [User.flush, enabled, flush_untouched]
  cases disabled : row.disabledAt with
  | none =>
    have usable := flush_usable ((consistent.sane row member).usable disabled) enabled password
      complete
    refine ⟨fun _ => usable, fun locked => ?_⟩
    rw [usable.enabled] at locked
    contradiction
  | some since =>
    have locked := (consistent.sane row member).lockedOut (by rw [disabled]; rfl)
    have job : (db.job? user.current.id).isSome = true := by
      rw [← key, ← consistent.job row member, disabled]
      rfl
    have gone : db.hasSession user.session user.current.id = false := by
      by_contra present
      obtain ⟨credential, there, same⟩ := List.any_eq_true.mp (Bool.not_eq_false _ ▸ present)
      have owner : credential.userId = user.current.id := by rw [of_decide_eq_true same]
      have unrequested := consistent.credentials credential there
      rw [owner] at unrequested
      rw [unrequested] at job
      contradiction
    cases endpoint with
    | changePassword | disableMfa => exact absurd ⟨rfl, gone⟩ session
    | confirmMfa =>
      obtain ⟨_, fresh, _⟩ := knows
      cases found.symm.trans fresh
      simp only [assign, locked.1.pendingTotp] at chosen
      split at chosen
      · rename_i pending
        exact absurd pending.1 (fun same => by cases same)
      · contradiction
    | storeUpload =>
      rw [knows.2 row found] at disabled
      contradiction
    | setupMfa =>
      rcases setup rfl with unrequested | pending
      · rw [unrequested] at job
        contradiction
      · refine ⟨fun usable => ?_, fun _ =>
          ⟨setup_refused unassigned locked pending chosen complete, complete⟩⟩
        rw [state, disabled] at usable
        contradiction
    | deleteAccount | replayMarker => contradiction

theorem commitUser_owes {endpoint : Endpoint} {user : Instance} {values : Values}
    (consistent : Consistent db) (knows : Knows db (.confirmed endpoint user))
    (setup : endpoint = .setupMfa → db.job? user.current.id = none ∨
      user.loaded.pendingTotpSessionId = some user.session) :
    RowOwes db (.confirmed endpoint user)
      (.finish (commitUser db endpoint user values) .idle) := by
  have unassigned : Unassigned user := by
    cases endpoint <;> exact knows.1
  unfold commitUser
  split
  · rename_i assigned row chosen found
    split
    · exact owes_rollback consistent
    rename_i session
    split
    · rename_i complete
      have kept : ∀ row, (User.flush user.loaded assigned row).id = row.id := fun _ => rfl
      have sane := written_sane consistent knows setup unassigned found chosen session complete
      refine ⟨consistent.setUser kept (fun other same => ?_) (fun other same => ?_), trivial,
        fun _ held => held, fun m apart held => held.spare ⟨?_, fun _ job => job⟩⟩
      · obtain ⟨enabled, _⟩ := assign_keeps unassigned chosen
        simp only [User.flush, enabled, flush_untouched]
      · cases found.symm.trans same
        exact sane
      · intro _ theirs here
        refine user?_setUser_other kept fun same => ?_
        rcases here with rfl | rfl
        · exact apart _ rfl (congrArg LockKey.user same.symm)
        · exact apart _ rfl (congrArg LockKey.user same.symm)
    · exact owes_rollback consistent
  · exact owes_rollback consistent

theorem job?_addJob {job : AccountDeletionJob} {subject other : UUID}
    (owned : job.subjectId = some subject) :
    ((db.addJob job).job? other).isSome = ((db.job? other).isSome || decide (other = subject)) := by
  by_cases same : other = subject
  · subst same
    simp [Database.job?, Database.addJob, List.find?_append, owned]
  · simp [Database.job?, Database.addJob, List.find?_append, owned, same, Ne.symm same]

theorem Sane.complete {row : User} (sane : Sane row) : row.Complete := by
  cases disabled : row.disabledAt with
  | none => exact (sane.usable disabled).complete
  | some since => exact (sane.lockedOut (by rw [disabled]; rfl)).2

/-- An erased column keeps a value only that the instance does not show. -/
theorem flush_none_isSome {α : Type} [DecidableEq α] (loaded stored : Option α) :
    (Attributes.flush loaded none stored).isSome = (loaded.isNone && stored.isSome) := by
  cases loaded with
  | none => simp
  | some value => simp [Attributes.flush]

/-- Columns that are set together are erased together. -/
theorem erased_complete {loaded current stored : User} {email token : String} {now : Timestamp}
    (shown : loaded.Complete) (there : stored.Complete) :
    (User.flush loaded (current.erased email now token) stored).Complete := by
  have absent : ∀ {α β : Type} {one : Option α} {two : Option β}, one.isSome = two.isSome →
      one.isNone = two.isNone := by
    intro α β one two same
    rw [← Option.not_isSome, ← Option.not_isSome, same]
  obtain ⟨⟨shown₁, shown₂⟩, shown₃⟩ := shown
  obtain ⟨⟨there₁, there₂⟩, there₃⟩ := there
  refine ⟨⟨?_, ?_⟩, ?_⟩
  · simp only [User.flush, User.erased, flush_none_isSome, absent shown₁, there₁]
  · simp only [User.flush, User.erased, flush_none_isSome, absent shown₂, there₂]
  · simp only [User.flush, User.erased, flush_none_isSome, absent shown₃, there₃]

theorem erased_sane {loaded current stored : User} {email token : String} {now : Timestamp}
    (usable : Usable loaded) (sane : Sane stored) (shows : Shows loaded stored) :
    Sane (User.flush loaded (current.erased email now token) stored) := by
  have locked : LockedOut (User.flush loaded (current.erased email now token) stored) :=
    (lockedOut_iff usable.enabled usable.password).mpr shows
  refine ⟨fun enabled => ?_, fun _ => ⟨locked, erased_complete usable.complete sane.complete⟩⟩
  have disabled := locked.disabled
  rw [enabled] at disabled
  contradiction

/-- The lockout of an account whose instance shows its secrets. -/
theorem prepare_consistent {loaded current : User} {request : DeletionRequest}
    (consistent : Consistent db) (usable : Usable loaded)
    (unrequested : db.job? current.id = none)
    (shows : ∀ row ∈ db.user? current.id, Shows loaded row) :
    Consistent (prepareAccountDeletion db loaded current request) ∧
      ∀ subject, ((prepareAccountDeletion db loaded current request).job? subject).isSome =
        ((db.job? subject).isSome || decide (subject = current.id)) := by
  have jobs : ∀ subject, ((prepareAccountDeletion db loaded current request).job? subject).isSome =
      ((db.job? subject).isSome || decide (subject = current.id)) := by
    intro subject
    simp only [prepareAccountDeletion, unrequested]
    exact job?_addJob rfl
  have rows : (prepareAccountDeletion db loaded current request).users = db.users.map fun row =>
      if row.id = current.id then User.flush loaded
        (current.erased (deletedEmail current.id) request.requestedAt request.token) row
      else row := by
    simp only [prepareAccountDeletion, unrequested]
    rfl
  have kept : ∀ row : User, (if row.id = current.id then User.flush loaded
      (current.erased (deletedEmail current.id) request.requestedAt request.token) row
      else row).id = row.id := by
    intro row
    split <;> rfl
  refine ⟨⟨?_, fun user member => ?_, fun user member => ?_, fun credential member => ?_⟩, jobs⟩
  · have ids : (prepareAccountDeletion db loaded current request).users.map User.id =
        db.users.map User.id := by
      rw [rows, List.map_map]
      exact List.map_congr_left fun row _ => kept row
    rw [ids]
    exact consistent.unique
  · rw [rows] at member
    obtain ⟨row, there, rfl⟩ := List.mem_map.mp member
    split
    · rename_i same
      exact erased_sane usable (consistent.sane row there)
        (shows row (same ▸ consistent.user? there))
    · exact consistent.sane row there
  · rw [jobs]
    rw [rows] at member
    obtain ⟨row, there, rfl⟩ := List.mem_map.mp member
    rw [kept]
    by_cases same : row.id = current.id
    · have locked : LockedOut (User.flush loaded
          (current.erased (deletedEmail current.id) request.requestedAt request.token) row) :=
        (lockedOut_iff usable.enabled usable.password).mpr
          (shows row (same ▸ consistent.user? there))
      rw [if_pos same, locked.disabled, decide_eq_true same, Bool.or_true]
    · rw [if_neg same, decide_eq_false same, Bool.or_false]
      exact consistent.job row there
  · have there : credential ∈ db.credentials.filter (·.userId ≠ current.id) := by
      simp only [prepareAccountDeletion, unrequested] at member
      exact member
    obtain ⟨before, other⟩ := List.mem_filter.mp there
    rw [← Option.not_isSome_iff_eq_none, jobs, consistent.credentials credential before,
      decide_eq_false (of_decide_eq_true other)]
    exact Bool.false_ne_true

theorem prepare_user?_other {loaded current : User} {request : DeletionRequest} {other : UUID}
    (unrequested : db.job? current.id = none) (different : other ≠ current.id) :
    (prepareAccountDeletion db loaded current request).user? other = db.user? other := by
  simp only [prepareAccountDeletion, unrequested]
  exact user?_setUser_other (fun _ => rfl) different

theorem commitDeletion_owes {endpoint : Endpoint} {user : Instance} {values : Values}
    (consistent : Consistent db) (loaded : LoadedUsable db endpoint user)
    (shows : db.job? user.current.id = none → ∀ row ∈ db.user? user.current.id,
      Shows user.loaded row)
    (chosen : commitDeletion db user values = some db') :
    RowOwes db (.confirmed endpoint user) (.finish db' .idle) := by
  unfold commitDeletion at chosen
  split at chosen
  · contradiction
  cases chosen
  cases requested : db.job? user.current.id with
  | some job =>
    have unchanged : prepareAccountDeletion db user.loaded user.current values.deletion = db := by
      simp only [prepareAccountDeletion, requested]
    rw [unchanged]
    exact owes_rollback consistent
  | none =>
    have usable : Usable user.loaded := by
      rcases loaded with usable | ⟨_, job⟩
      · exact usable
      · rw [requested] at job
        contradiction
    obtain ⟨consistent', jobs⟩ := prepare_consistent consistent usable requested (shows requested)
    refine ⟨consistent', trivial, fun _ held => held, fun m apart held => held.spare ⟨?_, ?_⟩⟩
    · intro _ theirs here
      refine prepare_user?_other requested fun same => ?_
      rcases here with rfl | rfl
      · exact apart _ rfl (congrArg LockKey.user same.symm)
      · exact apart _ rfl (congrArg LockKey.user same.symm)
    · intro subject job
      rw [jobs, job, Bool.true_or]

theorem selectUser_owes {endpoint : Endpoint} {user selected : Instance}
    (consistent : Consistent db) (knows : Knows db (.locked endpoint user))
    (chosen : selectUser db endpoint user = some selected) :
    RowOwes db (.locked endpoint user) (.stay db (.selected endpoint selected)) := by
  obtain ⟨unassigned, loaded⟩ := knows
  cases found : db.user? user.current.id with
  | none => cases endpoint <;> simp [selectUser, found] at chosen
  | some row =>
    cases endpoint with
    | confirmMfa =>
      simp only [selectUser, found] at chosen
      cases chosen
      have key := (Rows.find?_key found).2
      refine Owes.quiet consistent ⟨⟨row.totpLastUsedStep, rfl⟩, key ▸ found, rfl⟩ fun k held => ?_
      have same : LockKey.user row.id = .user user.current.id := congrArg LockKey.user key
      exact held.trans same
    | storeUpload =>
      simp only [selectUser, found] at chosen
      split at chosen
      · contradiction
      · rename_i enabled
        cases chosen
        refine Owes.quiet consistent ⟨unassigned, fun other same => ?_⟩ fun k held => held
        cases found.symm.trans same
        simpa using enabled
    | deleteAccount | replayMarker | changePassword | setupMfa | disableMfa =>
      simp only [selectUser, found] at chosen
      cases chosen
      exact Owes.quiet consistent ⟨unassigned, loaded⟩ fun k held => held

theorem verify_owes {endpoint : Endpoint} {user confirmed : Instance} {step : Option Nat}
    (consistent : Consistent db) (knows : Knows db (.selected endpoint user))
    (chosen : verify db endpoint user step = some confirmed) :
    RowOwes db (.selected endpoint user) (.stay db (.confirmed endpoint confirmed)) := by
  unfold verify at chosen
  split at chosen
  · rename_i proves
    rcases User.verifySecondFactor_some chosen with ⟨_, rfl⟩ | ⟨row, secret, found, _, active, proved⟩
    · refine Owes.quiet consistent ?_ fun k held => held
      cases endpoint <;> exact knows
    · cases proved
      obtain ⟨member, key⟩ := Rows.find?_key found
      -- A locked out account has no second factor that could be confirmed.
      have usable : Usable row := by
        refine (consistent.sane row member).usable ?_
        by_contra disabled
        have locked := (consistent.sane row member).lockedOut
          (Option.isSome_iff_ne_none.mpr disabled)
        exact Option.some_ne_none secret (active.symm.trans locked.1.totp)
      have shown : Unassigned { user with
          loaded := row
          current := { row with totpLastUsedStep := step <|> row.totpLastUsedStep } } :=
        ⟨_, rfl⟩
      refine Owes.quiet consistent ?_ fun k held => ?_
      · cases endpoint with
        | deleteAccount | changePassword | disableMfa => exact ⟨shown, .inl usable⟩
        | replayMarker | setupMfa | confirmMfa | storeUpload => exact absurd proves.1 nofun
      · have same : LockKey.user row.id = .user user.current.id := congrArg LockKey.user key
        exact held.trans same
  · cases chosen
    refine Owes.quiet consistent ?_ fun k held => held
    cases endpoint <;> exact knows

theorem program_owes {phase : Phase} (consistent : Consistent db) (knows : Knows db phase)
    (sees : SeesSecrets db phase action) (chosen : program db phase action = some outcome) :
    RowOwes db phase outcome := by
  cases action with
  | authenticate endpoint id session =>
    simp only [program] at chosen
    split at chosen
    · rename_i row found
      obtain ⟨member, key⟩ := Rows.find?_key found
      have shown : Unassigned ⟨row, row, session⟩ := ⟨row.totpLastUsedStep, rfl⟩
      split at chosen
      · rename_i replays
        cases chosen
        refine Owes.quiet consistent ⟨shown, ?_⟩ fun _ held => held
        cases disabled : row.disabledAt with
        | none => exact .inl ((consistent.sane row member).usable disabled)
        | some since =>
          have job := consistent.job row member
          rw [disabled] at job
          exact .inr ⟨replays, job.symm⟩
      split at chosen
      · rename_i allowed
        cases chosen
        have enabled : row.disabledAt = none := by simpa using allowed.1
        exact Owes.quiet consistent ⟨shown, .inl ((consistent.sane row member).usable enabled)⟩
          fun _ held => held
      · contradiction
    · contradiction
  | lockUser =>
    simp only [program] at chosen
    split at chosen
    · cases chosen
      exact ⟨knows, fun k held => .inl held⟩
    · contradiction
  | select =>
    simp only [program] at chosen
    split at chosen
    · split at chosen
      · rename_i selected found
        cases chosen
        exact selectUser_owes consistent knows found
      · cases chosen
        exact owes_rollback consistent
    · contradiction
  | verify step =>
    simp only [program] at chosen
    split at chosen
    · split at chosen
      · rename_i confirmed found
        cases chosen
        exact verify_owes consistent knows found
      · cases chosen
        exact owes_rollback consistent
    · contradiction
  | commit values =>
    simp only [program] at chosen
    split at chosen
    · obtain ⟨db', decided, rfl⟩ := Option.map_eq_some_iff.mp chosen
      exact commitDeletion_owes consistent knows.2 sees decided
    · obtain ⟨db', decided, rfl⟩ := Option.map_eq_some_iff.mp chosen
      exact commitDeletion_owes consistent knows.2 sees decided
    · rename_i endpoint user deletes replays
      cases chosen
      refine commitUser_owes consistent knows fun setup => ?_
      subst setup
      exact sees
    · contradiction
  | refuse =>
    cases chosen
    exact owes_rollback consistent

abbrev Erasing : Requests → Prop := Sound Holding Consistent Knows

/-- The condition on the steps of a run. -/
abbrev StepSees (s : Requests) (label : Nat × Action) : Prop :=
  SeesSecrets s.shared (s.locals label.1) label.2

theorem step_erasing (s : Requests) (label : Nat × Action) (s' : Requests) (erasing : Erasing s)
    (sees : StepSees s label) (stepped : Erasure.step s label = some s') : Erasing s' := by
  refine erasing.step stepped fun outcome chosen => ?_
  exact program_owes erasing.global (erasing.session label.1) sees chosen

def start (db : Database) : Requests := Store.idle db .idle

/-- In every run in which a deletion shows every secret that is stored when it commits,
and a second factor is set up for accounts without deletion job only, an account with a
deletion job is locked out in every state. -/
theorem deletion_erases_secrets {db : Database} (consistent : Consistent db)
    {labels : List (Nat × Action)} (sees : Along Erasure.step StepSees (start db) labels)
    (reached : run Erasure.step (start db) labels = some t) :
    ∀ user ∈ t.shared.users, t.shared.job? user.id ≠ none → LockedOut user := by
  have initial : Erasing (start db) := Sound.idle consistent trivial fun _ held => held
  have erasing := invariant step_erasing initial sees reached
  intro user member requested
  exact (erasing.global.locked_of_job member (Option.isSome_iff_ne_none.mpr requested)).1

/-- An account with a password and two sign-ins, with or without second factor. -/
def oneAccount (totp : Option String) : Database :=
  { users := [
      { id := 1, email := "a@b.c", passwordHash := .digest "p", passwordEnabled := true
        passwordSetAt := some 0, displayName := none, onboardingCompletedAt := none
        emailVerifiedAt := some 0, totpSecretEncrypted := totp, totpEnabledAt := totp.map fun _ => 0
        totpLastUsedStep := none, pendingTotpSecretEncrypted := none, pendingTotpExpiresAt := none
        pendingTotpSessionId := none, mediaKeyEncrypted := none, mediaKeyVersion := 1
        disabledAt := none }]
    credentials := [⟨.authSession, 100, 1⟩, ⟨.authSession, 101, 1⟩]
    shareLinks := [], albums := [], albumInvites := [], albumMembers := [], auditEvents := []
    assets := [], jobs := [] }

def drawn (now : Timestamp) : Values :=
  { now, passwordDigest := "q", secret := "s", step := some 1, mediaKey := "k"
    deletion := ⟨now, 10, "t", 60⟩ }

/-- A request from the lock of the account's row on. -/
def finishRequest (q : Nat) (now : Timestamp) : List (Nat × Action) :=
  [(q, .lockUser), (q, .select), (q, .verify (some 1)), (q, .commit (drawn now))]

theorem oneAccount_consistent (totp : Option String) : Consistent (oneAccount totp) := by
  have usable : ∀ user ∈ (oneAccount totp).users, Usable user := by
    intro user member
    rw [List.mem_singleton.mp member]
    refine ⟨rfl, ⟨"p", rfl⟩, ⟨rfl, rfl⟩, ?_⟩
    cases totp <;> rfl
  refine ⟨List.nodup_singleton 1, fun user member => ⟨fun _ => usable user member, fun locked => ?_⟩,
    fun user member => ?_, fun _ _ => rfl⟩
  · rw [(usable user member).enabled] at locked
    contradiction
  · rw [(usable user member).enabled]
    rfl

/-- A second factor is set up again after the deletion has loaded the account; the check
of the old one loads the row anew. -/
def setupBeforeDeletion : List (Nat × Action) :=
  [(0, .authenticate .deleteAccount 1 100), (1, .authenticate .setupMfa 1 101)] ++
    finishRequest 1 5 ++ finishRequest 0 6

theorem deletion_erases_secrets_confirmed :
    ∃ t, run Erasure.step (start (oneAccount (some "f"))) setupBeforeDeletion = some t ∧
      t.shared.job? 1 ≠ none ∧
      ∀ user ∈ t.shared.users, t.shared.job? user.id ≠ none → LockedOut user := by
  have deletes : (run Erasure.step (start (oneAccount (some "f"))) setupBeforeDeletion).any
      fun t => t.shared.job? 1 ≠ none := by decide
  obtain ⟨t, reached, requested⟩ := (Option.any_eq_true _ _).mp deletes
  refine ⟨t, reached, of_decide_eq_true requested, ?_⟩
  exact deletion_erases_secrets (oneAccount_consistent _) (by decide) reached

/-- The first upload stores the account's key after the deletion has loaded the row. -/
def uploadBeforeDeletion : List (Nat × Action) :=
  [(0, .authenticate .deleteAccount 1 100), (1, .authenticate .storeUpload 1 101)] ++
    finishRequest 1 5 ++ finishRequest 0 6

/-- The deletion commits, and the account's media key is still there. -/
theorem deletion_leaves_new_media_key :
    ∃ t, run Erasure.step (start (oneAccount none)) uploadBeforeDeletion = some t ∧
      ∃ user ∈ t.shared.users, t.shared.job? user.id ≠ none ∧
        user.mediaKeyEncrypted = some "k" ∧ ¬ LockedOut user := by
  have keeps : (run Erasure.step (start (oneAccount none)) uploadBeforeDeletion).any fun t =>
      ∃ user ∈ t.shared.users, t.shared.job? user.id ≠ none ∧ user.mediaKeyEncrypted = some "k" := by
    decide
  obtain ⟨t, reached, found⟩ := (Option.any_eq_true _ _).mp keeps
  obtain ⟨user, member, requested, key⟩ := of_decide_eq_true found
  refine ⟨t, reached, user, member, requested, key, fun locked => ?_⟩
  rw [locked.mediaKey] at key
  contradiction

end Drivebound.Erasure
