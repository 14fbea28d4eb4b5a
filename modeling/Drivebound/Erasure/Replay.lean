import Drivebound.Account.Ledger
import Drivebound.Erasure.Lockout

/-! `reconcile_suppression_ledger` on a restored database, before any request runs. A
marker is replayed for an account that is present and has no job yet; an account that
has a job already is left as the database has it, so the replay is as good as the
lockout that was committed with that job. -/
namespace Drivebound.Erasure
open Account (Marker Ledger readSuppressionMarkers readSuppressionMarkers_some Unambiguous)
open Sessions Run

/-- What a replay draws for each marker, and `account_deletion_quiescence_seconds`. -/
structure ReplaySettings where
  token : UUID → String
  quiescence : Nat

def ReplaySettings.request (settings : ReplaySettings) (record : Marker) : DeletionRequest :=
  ⟨record.requestedAt, record.jobId, settings.token record.jobId, settings.quiescence⟩

variable (fingerprint : UUID → String) (settings : ReplaySettings)

/-- One record of the loop; `users` are the accounts that were loaded before it. The
session is alone, so its instances show what is stored. -/
def replayRecord (users : List User) (db : Database) (record : Marker) : Database :=
  match users.find? (fingerprint ·.id = record.subjectFingerprint) with
  | none => db
  | some user =>
    match db.user? user.id with
    | none => db
    | some locked => prepareAccountDeletion db locked locked (settings.request record)

/-- The markers whose job is not in the database. -/
def missingMarkers (db : Database) (markers : List Marker) : List Marker :=
  markers.filter fun record => db.jobs.all (·.id ≠ record.jobId)

/-- `reconcile_suppression_ledger` and the commit; `none` is the `RuntimeError` for an
invalid ledger. -/
def reconcileSuppressionLedger (ledger : Ledger) (db : Database) : Option Database :=
  (readSuppressionMarkers ledger).map fun markers =>
    (missingMarkers db markers).foldl (replayRecord fingerprint settings db.users) db

/-- The account has a marker. -/
def Listed (ledger : Ledger) (id : UUID) : Prop :=
  ∃ record ∈ ledger, record.subjectFingerprint = fingerprint id

/-- The rows of one account, and whether it has a job. -/
structure SameAccount (db db' : Database) (id : UUID) : Prop where
  user : db'.user? id = db.user? id
  credentials : db'.credentials.filter (·.userId = id) = db.credentials.filter (·.userId = id)
  assets : db'.assets.filter (·.userId = id) = db.assets.filter (·.userId = id)
  job : (db'.job? id).isSome = (db.job? id).isSome

/-- Locked out, without sessions or other credentials. -/
structure Erased (db : Database) (user : User) : Prop where
  row : LockedOut user
  credentials : ∀ credential ∈ db.credentials, credential.userId ≠ user.id

/-- What the replay promises. -/
structure Reconciled (ledger : Ledger) (db db' : Database) : Prop where
  listed : ∀ id user, db'.user? id = some user → Listed fingerprint ledger id →
    Erased db' user ∧ db'.job? id ≠ none
  purging : ∀ id, Listed fingerprint ledger id → db.job? id = none → db'.job? id ≠ none →
    ∀ asset ∈ db'.assets, asset.userId = id → asset.lifecycleState = .purging
  unlisted : ∀ id, ¬ Listed fingerprint ledger id → SameAccount db db' id
  again : reconcileSuppressionLedger fingerprint settings ledger db' = some db'

/-- A database of the system as it may be restored. User ids are a key, and a job that
a marker names belongs to the account of the marker, as long as this is there. -/
structure Snapshot (ledger : Ledger) (db : Database) : Prop where
  users : (db.users.map User.id).Nodup
  jobs : ∀ record ∈ ledger, (∃ job ∈ db.jobs, job.id = record.jobId) →
    ∀ user ∈ db.users, fingerprint user.id = record.subjectFingerprint → db.job? user.id ≠ none

variable {fingerprint settings} {db db' : Database} {ledger : Ledger}

theorem SameAccount.refl (db : Database) (id : UUID) : SameAccount db db id := ⟨rfl, rfl, rfl, rfl⟩

theorem SameAccount.trans {db'' : Database} {id : UUID} (first : SameAccount db db' id)
    (second : SameAccount db' db'' id) : SameAccount db db'' id :=
  ⟨second.user.trans first.user, second.credentials.trans first.credentials,
    second.assets.trans first.assets, second.job.trans first.job⟩

/-- The lockout of an account leaves the other accounts as they are. -/
theorem prepare_others {loaded current : User} {request : DeletionRequest} {other : UUID}
    (different : other ≠ current.id) :
    SameAccount db (prepareAccountDeletion db loaded current request) other := by
  cases requested : db.job? current.id with
  | some job =>
    simp only [prepareAccountDeletion, requested]
    exact .refl db other
  | none =>
    refine ⟨prepare_user?_other requested different, ?_, ?_, ?_⟩
    · simp only [prepareAccountDeletion, requested]
      have : ∀ credential : Credential, (decide (credential.userId = other) &&
          decide (credential.userId ≠ current.id)) = decide (credential.userId = other) := by
        intro credential
        by_cases same : credential.userId = other
        · simp [same, different]
        · simp [same]
      simp only [Database.purgeAssets, Database.setUser, Database.redactAudit,
        Database.revokeCredentials, Database.revokeSharing, Database.addJob, List.filter_filter, this]
    · simp only [prepareAccountDeletion, requested, Database.purgeAssets, Database.setUser,
        Database.redactAudit, Database.revokeCredentials, Database.revokeSharing, Database.addJob]
      refine Rows.filter_map_spared (fun asset _ => ?_) fun asset _ owned => ?_
      · split <;> rfl
      · have owner : asset.userId = other := of_decide_eq_true owned
        exact if_neg (owner ▸ different)
    · simp only [prepareAccountDeletion, requested]
      have jobs : ((db.addJob (request.job current.id)).job? other).isSome =
          ((db.job? other).isSome || decide (other = current.id)) := job?_addJob rfl
      rw [decide_eq_false different, Bool.or_false] at jobs
      exact jobs

/-- The lockout of an account that has no job. -/
theorem prepare_erases {row : User} (request : DeletionRequest)
    (found : db.user? row.id = some row) (requested : db.job? row.id = none) :
    (∀ user, (prepareAccountDeletion db row row request).user? row.id = some user →
      Erased (prepareAccountDeletion db row row request) user) ∧
    (prepareAccountDeletion db row row request).job? row.id ≠ none ∧
    ∀ asset ∈ (prepareAccountDeletion db row row request).assets, asset.userId = row.id →
      asset.lifecycleState = .purging := by
  have written : (prepareAccountDeletion db row row request).user? row.id =
      some (row.erased (deletedEmail row.id) request.requestedAt request.token) := by
    have kept : ∀ stored, (User.flush row (row.erased (deletedEmail row.id) request.requestedAt
        request.token) stored).id = stored.id := fun _ => rfl
    have here : (db.setUser row.id (User.flush row (row.erased (deletedEmail row.id)
        request.requestedAt request.token))).user? row.id =
          some (row.erased (deletedEmail row.id) request.requestedAt request.token) := by
      rw [user?_setUser kept, found, Option.map_some, if_pos rfl]
      exact congrArg some (User.flush_stored row _ rfl)
    simp only [prepareAccountDeletion, requested]
    exact here
  refine ⟨fun user same => ?_, ?_, fun asset member owner => ?_⟩
  · cases written.symm.trans same
    refine ⟨⟨rfl, ⟨_, rfl⟩, rfl, rfl, rfl⟩, fun credential member => ?_⟩
    simp only [prepareAccountDeletion, requested] at member
    have left : credential ∈ db.credentials.filter (·.userId ≠ row.id) := member
    exact of_decide_eq_true (List.mem_filter.mp left).2
  · simp only [prepareAccountDeletion, requested]
    have jobs : ((db.addJob (request.job row.id)).job? row.id).isSome =
        ((db.job? row.id).isSome || decide (row.id = row.id)) := job?_addJob rfl
    rw [decide_eq_true rfl, Bool.or_true] at jobs
    exact Option.isSome_iff_ne_none.mp jobs
  · simp only [prepareAccountDeletion, requested] at member
    obtain ⟨before, _, rfl⟩ := List.mem_map.mp member
    by_cases same : before.userId = row.id
    · rw [if_pos same]
    · rw [if_neg same] at owner
      exact absurd owner same

/-- An account that has a job is left as it is. -/
theorem prepare_requested {loaded current : User} {request : DeletionRequest}
    (requested : db.job? current.id ≠ none) :
    prepareAccountDeletion db loaded current request = db := by
  obtain ⟨job, found⟩ := Option.ne_none_iff_exists'.mp requested
  simp only [prepareAccountDeletion, found]

/-- What can be true of the accounts that a record is about, for an account that the
record does not change. -/
def Skips (fingerprint : UUID → String) (users : List User) (db : Database) (record : Marker) (id : UUID) : Prop :=
  ∀ user ∈ users, fingerprint user.id = record.subjectFingerprint →
    user.id ≠ id ∨ db.job? id ≠ none

theorem replayRecord_same {users : List User} {record : Marker} {id : UUID}
    (skips : Skips fingerprint users db record id) :
    SameAccount db (replayRecord fingerprint settings users db record) id := by
  unfold replayRecord
  split
  · exact .refl db id
  rename_i user found
  split
  · exact .refl db id
  rename_i locked stored
  have key := (Rows.find?_key stored).2
  have member := List.mem_of_find?_eq_some found
  have about : fingerprint user.id = record.subjectFingerprint := by
    simpa using List.find?_some found
  by_cases same : locked.id = id
  · have requested : db.job? locked.id ≠ none := by
      rcases skips user member about with different | requested
      · exact absurd (key.symm.trans same) different
      · exact same ▸ requested
    rw [prepare_requested requested]
    exact .refl db id
  · exact prepare_others fun other => same other.symm

theorem replay_same {users : List User} {records : List Marker} {id : UUID}
    (skips : ∀ record ∈ records, Skips fingerprint users db record id) :
    SameAccount db (records.foldl (replayRecord fingerprint settings users) db) id := by
  induction records generalizing db with
  | nil => exact .refl db id
  | cons record rest ih =>
    have here : SameAccount db (replayRecord fingerprint settings users db record) id :=
      replayRecord_same (skips record List.mem_cons_self)
    refine here.trans (ih fun other member user known about => ?_)
    rcases skips other (List.mem_cons_of_mem record member) user known about with different | requested
    · exact .inl different
    · refine .inr (Option.isSome_iff_ne_none.mp ?_)
      exact here.job.trans (Option.isSome_iff_ne_none.mpr requested)

/-- What the lockout has left of an account. -/
structure Replayed (db : Database) (id : UUID) : Prop where
  erased : ∀ user, db.user? id = some user → Erased db user
  job : db.job? id ≠ none
  purging : ∀ asset ∈ db.assets, asset.userId = id → asset.lifecycleState = .purging

theorem Erased.same {user : User} (erased : Erased db user) (same : SameAccount db db' user.id) :
    Erased db' user := by
  refine ⟨erased.row, fun credential member owner => ?_⟩
  have owned : credential ∈ db'.credentials.filter (·.userId = user.id) :=
    List.mem_filter.mpr ⟨member, decide_eq_true owner⟩
  rw [same.credentials] at owned
  exact erased.credentials credential (List.mem_filter.mp owned).1 owner

theorem SameAccount.symm {id : UUID} (same : SameAccount db db' id) : SameAccount db' db id :=
  ⟨same.user.symm, same.credentials.symm, same.assets.symm, same.job.symm⟩

theorem SameAccount.requested {id : UUID} (same : SameAccount db db' id)
    (requested : db.job? id ≠ none) : db'.job? id ≠ none := by
  rw [← Option.isSome_iff_ne_none] at requested ⊢
  exact same.job.trans requested

theorem Replayed.same {id : UUID} (replayed : Replayed db id) (same : SameAccount db db' id) :
    Replayed db' id := by
  constructor
  · intro user found
    have key := (Rows.find?_key found).2
    rw [same.user] at found
    exact (replayed.erased user found).same (key ▸ same)
  · exact same.requested replayed.job
  · intro asset member owner
    have owned : asset ∈ db'.assets.filter (·.userId = id) :=
      List.mem_filter.mpr ⟨member, decide_eq_true owner⟩
    rw [same.assets] at owned
    exact replayed.purging asset (List.mem_filter.mp owned).1 owner

/-- A record about a present account without job locks it out. -/
theorem replayRecord_replays (injective : Function.Injective fingerprint) {users : List User}
    {record : Marker} {row : User} (present : ∃ user ∈ users, user.id = row.id)
    (found : db.user? row.id = some row) (requested : db.job? row.id = none)
    (about : record.subjectFingerprint = fingerprint row.id) :
    Replayed (replayRecord fingerprint settings users db record) row.id := by
  have known : ∃ user, users.find? (fingerprint ·.id = record.subjectFingerprint) = some user := by
    obtain ⟨user, member, same⟩ := present
    refine Option.isSome_iff_exists.mp (List.find?_isSome.mpr ⟨user, member, ?_⟩)
    exact decide_eq_true (by rw [same, about])
  obtain ⟨user, chosen⟩ := known
  have same : fingerprint user.id = fingerprint row.id := by
    simpa [about] using List.find?_some chosen
  simp only [replayRecord, chosen, injective same, found]
  obtain ⟨erased, job, purging⟩ := prepare_erases (settings.request record) found requested
  exact ⟨erased, job, purging⟩

/-- The loop locks out a present account without job that one of its records is about. -/
theorem replay_replays (injective : Function.Injective fingerprint) {users : List User}
    {records : List Marker} {row : User} (present : ∃ user ∈ users, user.id = row.id)
    (found : db.user? row.id = some row) (requested : db.job? row.id = none)
    (listed : ∃ record ∈ records, record.subjectFingerprint = fingerprint row.id) :
    Replayed (records.foldl (replayRecord fingerprint settings users) db) row.id := by
  induction records generalizing db with
  | nil =>
    obtain ⟨record, member, _⟩ := listed
    exact absurd member List.not_mem_nil
  | cons record rest ih =>
    by_cases about : record.subjectFingerprint = fingerprint row.id
    · have here : Replayed (replayRecord fingerprint settings users db record) row.id :=
        replayRecord_replays injective present found requested about
      exact here.same (replay_same fun _ _ _ _ _ => .inr here.job)
    · have here : SameAccount db (replayRecord fingerprint settings users db record) row.id := by
        refine replayRecord_same fun user _ same => .inl fun equal => about ?_
        rw [← same, equal]
      refine ih (here.user.trans found) ?_ ?_
      · have job := here.job
        rw [requested] at job
        exact Option.isNone_iff_eq_none.mp (by simpa using job)
      · obtain ⟨other, member, same⟩ := listed
        rcases List.mem_cons.mp member with rfl | later
        · exact absurd same about
        · exact ⟨other, later, same⟩

/-- The loop changes nothing if every account it is about has a job. -/
theorem replay_settled {users : List User} {records : List Marker}
    (settled : ∀ record ∈ records, ∀ id user, fingerprint id = record.subjectFingerprint →
      db.user? id = some user → db.job? id ≠ none) :
    records.foldl (replayRecord fingerprint settings users) db = db := by
  induction records with
  | nil => rfl
  | cons record rest ih =>
    have here : replayRecord fingerprint settings users db record = db := by
      unfold replayRecord
      split
      · rfl
      rename_i user found
      split
      · rfl
      rename_i locked stored
      have about : fingerprint user.id = record.subjectFingerprint := by
        simpa using List.find?_some found
      have key := (Rows.find?_key stored).2
      exact prepare_requested (key ▸ settled record List.mem_cons_self user.id locked about stored)
    rw [List.foldl_cons, here]
    exact ih fun other member => settled other (List.mem_cons_of_mem record member)

/-- A marker of an account without job is replayed. -/
theorem Snapshot.missing (snapshot : Snapshot fingerprint ledger db) {record : Marker} {user : User}
    (listed : record ∈ ledger) (present : user ∈ db.users)
    (about : record.subjectFingerprint = fingerprint user.id) (requested : db.job? user.id = none) :
    record ∈ missingMarkers db ledger := by
  refine List.mem_filter.mpr ⟨listed, List.all_eq_true.mpr fun job member => ?_⟩
  refine decide_eq_true fun same => ?_
  exact snapshot.jobs record listed ⟨job, member, same⟩ user present about.symm requested

/-- For a valid ledger the replay of a restored database keeps its promise exactly if
the listed accounts that have a job in it are locked out there already. -/
theorem replay_locks_out (injective : Function.Injective fingerprint)
    (valid : (ledger.map Marker.subjectFingerprint).Nodup) (snapshot : Snapshot fingerprint ledger db) :
    ∃ db', reconcileSuppressionLedger fingerprint settings ledger db = some db' ∧
      (Reconciled fingerprint settings ledger db db' ↔
        ∀ user ∈ db.users, Listed fingerprint ledger user.id → db.job? user.id ≠ none →
          Erased db user) := by
  have unambiguous : Unambiguous ledger := fun m here n there same =>
    congrArg Marker.jobId (List.inj_on_of_nodup_map valid here there same)
  have readable : ∀ db, reconcileSuppressionLedger fingerprint settings ledger db =
      some ((missingMarkers db ledger).foldl (replayRecord fingerprint settings db.users) db) := by
    intro db
    rw [reconcileSuppressionLedger, readSuppressionMarkers_some unambiguous, Option.map_some]
  refine ⟨_, readable db, ?_⟩
  generalize after : (missingMarkers db ledger).foldl (replayRecord fingerprint settings db.users) db
    = db'
  -- An account that had a job, and one that is not there, stay as they are.
  have requested : ∀ id, db.job? id ≠ none → SameAccount db db' id := by
    rintro id job
    rw [← after]
    exact replay_same fun _ _ _ _ _ => .inr job
  have absent : ∀ id, db.user? id = none → SameAccount db db' id := by
    intro id missing
    rw [← after]
    refine replay_same fun _ _ user member _ => .inl fun same => ?_
    exact List.find?_eq_none.mp missing user member (decide_eq_true same)
  have replayed : ∀ id row, db.user? id = some row → Listed fingerprint ledger id →
      db.job? id = none → Replayed db' id := by
    rintro id row found ⟨record, listed, about⟩ unrequested
    obtain ⟨member, rfl⟩ := Rows.find?_key found
    rw [← after]
    refine replay_replays injective ⟨row, member, rfl⟩ found unrequested ⟨record, ?_, about⟩
    exact snapshot.missing listed member about unrequested
  have jobs : ∀ id user, db'.user? id = some user → Listed fingerprint ledger id →
      db'.job? id ≠ none := by
    intro id user found listed
    by_cases unrequested : db.job? id = none
    · cases before : db.user? id with
      | none =>
        rw [(absent id before).user, before] at found
        contradiction
      | some row => exact (replayed id row before listed unrequested).job
    · exact (requested id unrequested).requested unrequested
  constructor
  · intro reconciled user member listed job
    have same := requested user.id job
    have found : db.user? user.id = some user :=
      (Rows.find?_key_iff snapshot.users).mpr ⟨member, rfl⟩
    exact (reconciled.listed user.id user (same.user.trans found) listed).1.same same.symm
  · intro lockedOut
    constructor
    · intro id user found listed
      refine ⟨?_, jobs id user found listed⟩
      by_cases unrequested : db.job? id = none
      · cases before : db.user? id with
        | none =>
          rw [(absent id before).user, before] at found
          contradiction
        | some row => exact (replayed id row before listed unrequested).erased user found
      · have same := requested id unrequested
        rw [same.user] at found
        obtain ⟨member, rfl⟩ := Rows.find?_key found
        exact (lockedOut user member listed unrequested).same same
    · intro id listed unrequested created asset member owner
      cases before : db.user? id with
      | none => exact absurd ((absent id before).symm.requested created) (not_not_intro unrequested)
      | some row => exact (replayed id row before listed unrequested).purging asset member owner
    · intro id unlisted
      rw [← after]
      refine replay_same fun record member user _ about => .inl fun same => unlisted ?_
      exact ⟨record, (List.mem_filter.mp member).1, by rw [← about, same]⟩
    · rw [readable db']
      refine congrArg some (replay_settled fun record member id user about found => ?_)
      exact jobs id user found ⟨record, (List.mem_filter.mp member).1, about.symm⟩

/-- A fingerprint for the examples: as many marks as the id. -/
def tally (id : UUID) : String := String.ofList (List.replicate id '1')

theorem tally_injective : Function.Injective tally := by
  intro id other same
  have marks : List.replicate id '1' = List.replicate other '1' := String.ofList_injective same
  simpa using congrArg List.length marks

/-- The marker of the deletion of `finishRequest 0 6`. -/
def oneMarker : Ledger := [⟨10, tally 1, 6⟩]

def replaySettings : ReplaySettings := ⟨fun _ => "t", 60⟩

/-- A copy of the account from before its deletion is restored. -/
theorem replay_locks_out_restored :
    ∃ db', reconcileSuppressionLedger tally replaySettings oneMarker (oneAccount (some "f")) =
        some db' ∧
      Reconciled tally replaySettings oneMarker (oneAccount (some "f")) db' := by
  have snapshot : Snapshot tally oneMarker (oneAccount (some "f")) :=
    ⟨List.nodup_singleton _, fun _ _ job => absurd job (by rintro ⟨_, member, _⟩; cases member)⟩
  have valid : (oneMarker.map Marker.subjectFingerprint).Nodup := List.nodup_singleton _
  obtain ⟨db', replayed, promise⟩ := replay_locks_out tally_injective valid snapshot
  exact ⟨db', replayed, promise.mpr fun _ _ _ requested => absurd rfl requested⟩

/-- A copy from after a deletion that has left the media key is restored. -/
theorem replay_leaves_media_key :
    ∃ t, run Erasure.step (start (oneAccount none)) uploadBeforeDeletion = some t ∧
      Snapshot tally oneMarker t.shared ∧
      ∃ db', reconcileSuppressionLedger tally replaySettings oneMarker t.shared = some db' ∧
        ∃ user ∈ db'.users, Listed tally oneMarker user.id ∧ user.mediaKeyEncrypted = some "k" := by
  have keeps : (run Erasure.step (start (oneAccount none)) uploadBeforeDeletion).any fun t =>
      (t.shared.users.map User.id).Nodup ∧ (∀ user ∈ t.shared.users, t.shared.job? user.id ≠ none) ∧
      (reconcileSuppressionLedger tally replaySettings oneMarker t.shared).any fun db' =>
        ∃ user ∈ db'.users, user.id = 1 ∧ user.mediaKeyEncrypted = some "k" := by
    decide
  obtain ⟨t, reached, found⟩ := (Option.any_eq_true _ _).mp keeps
  obtain ⟨unique, requested, left⟩ := of_decide_eq_true found
  obtain ⟨db', replayed, shows⟩ := (Option.any_eq_true _ _).mp left
  obtain ⟨user, member, one, key⟩ := of_decide_eq_true shows
  refine ⟨t, reached, ⟨unique, fun _ _ _ user present _ => requested user present⟩, db', replayed,
    user, member, ⟨_, List.mem_singleton_self _, ?_⟩, key⟩
  rw [one]

end Drivebound.Erasure
