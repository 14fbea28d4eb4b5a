import Drivebound.Lifecycle.Writers
import Drivebound.Sync.Ownership

/-! The rows of a deleted account. A writer that locks the row of its user runs to its
commit before the deletion or finds the account disabled. The trash endpoint locks the
asset only, and its select returns the instance that it has loaded before the deletion:
the asset is still active in it. -/
namespace Drivebound.Lifecycle
open Attributes Checked Sessions Run
open Sync (Within Owner OwnAssets)
open Uploads (UploadSession)

/-- A trash endpoint that writes its asset finds its account there. -/
def Unraced (db : Database) (phase : Phase) (action : Action) : Prop :=
  match action, phase with
  | .trash _, .trashLocked asset =>
    1 ≤ db.retentionDays asset.userId → ∀ row ∈ db.asset? asset.id, ¬ db.Deleted row.userId
  | _, _ => True

instance (db : Database) (phase : Phase) : DecidablePred (Unraced db phase) := fun action => by
  unfold Unraced
  split <;> infer_instance

/-- The assets of a deleted account are left as they are, and none is added; nor is an
upload session. -/
structure Fenced (db db' : Database) : Prop where
  assets : ∀ asset ∈ db'.assets, db.Deleted asset.userId → asset ∈ db.assets
  uploads : ∀ upload ∈ db'.uploads, db.Deleted upload.userId →
    ∃ row ∈ db.uploads, row.id = upload.id ∧ row.userId = upload.userId
  deleted : ∀ user, db.Deleted user → db'.Deleted user

structure Consistent (db : Database) : Prop where
  unique : (db.assets.map Asset.id).Nodup
  purging : ∀ asset ∈ db.assets, db.Deleted asset.userId → asset.lifecycleState = .purging

def Knows (db : Database) : Phase → Prop
  | .fenced user _ => db.Enabled user
  | .trashing asset | .trashLocked asset => asset.lifecycleState = .active
  | _ => True

def locks : Locks Phase LockKey where
  exclusive
    | .locked user writer, k | .fenced user writer, k => writer.exclusive = true ∧ k = .user user
    | .trashLocked asset, k => k = .asset asset.id
    | .deleting user locked, k => k = .user user ∨ ∃ id ∈ locked, k = .asset id
    | _, _ => False
  shared
    | .locked user writer, k | .fenced user writer, k => writer.exclusive = false ∧ k = .user user
    | _, _ => False

variable {mediaEncryptionEnabled : Bool} {db db' : Database} {phase : Phase} {action : Action}
  {outcome : Step}

theorem Enabled.not_deleted {user : UUID} (enabled : db.Enabled user) : ¬ db.Deleted user := by
  rintro ⟨row, found, disabled⟩
  obtain ⟨other, there, none⟩ := enabled
  cases Option.some.inj (Option.mem_def.mp found ▸ Option.mem_def.mp there)
  exact disabled none

theorem user?_setUser {user other : UUID} {change : User → User}
    (keeps : ∀ row, row.id = user → (change row).id = user) :
    (db.setUser user change).user? other =
      (db.user? other).map fun row => if row.id = user then change row else row :=
  Rows.find?_updateKey keeps

/-- What a step may do to the rows. -/
structure Effect (db db' : Database) : Prop where
  fenced : Fenced db db'
  unique : (db'.assets.map Asset.id).Nodup
  purging : ∀ asset ∈ db'.assets, db'.Deleted asset.userId → ¬ db.Deleted asset.userId →
    asset.lifecycleState = .purging

theorem Effect.consistent (effect : Effect db db') (consistent : Consistent db) : Consistent db' := by
  refine ⟨effect.unique, fun asset member deleted => ?_⟩
  by_cases before : db.Deleted asset.userId
  · exact consistent.purging asset (effect.fenced.assets asset member before) before
  · exact effect.purging asset member deleted before

/-- A change of the rows of one account that can be used. -/
theorem Effect.of_own {user : UUID} (consistent : Consistent db) (enabled : db.Enabled user)
    (users : db'.users = db.users) (assets : Within user db.assets db'.assets)
    (uploads : ∀ upload ∈ db'.uploads, upload.userId = user ∨
      ∃ row ∈ db.uploads, row.id = upload.id ∧ row.userId = upload.userId) : Effect db db' := by
  have same : ∀ id, db'.Deleted id ↔ db.Deleted id := fun id => by
    simp only [Database.Deleted, Database.user?, users]
  have other : ∀ id, db.Deleted id → id ≠ user := by
    rintro id deleted rfl
    exact Enabled.not_deleted enabled deleted
  refine ⟨⟨fun asset member deleted => ?_, fun upload member deleted => ?_, fun id => (same id).mpr⟩,
    assets.unique consistent.unique, fun asset member deleted before => ?_⟩
  · exact assets.others consistent.unique asset member (other _ deleted)
  · exact (uploads upload member).resolve_left (other _ deleted)
  · exact absurd ((same _).mp deleted) before

theorem Effect.refl (consistent : Consistent db) : Effect db db :=
  ⟨⟨fun _ member _ => member, fun upload member _ => ⟨upload, member, rfl, rfl⟩, fun _ deleted => deleted⟩,
    consistent.unique, fun _ _ deleted before => absurd deleted before⟩

/-- What a fenced transaction changes: rows of its user. -/
structure Own (user : UUID) (db db' : Database) : Prop where
  users : db'.users = db.users
  assets : Within user db.assets db'.assets
  uploads : ∀ upload ∈ db'.uploads, upload.userId = user ∨
    ∃ row ∈ db.uploads, row.id = upload.id ∧ row.userId = upload.userId

theorem Own.of_assets {user : UUID} (users : db'.users = db.users)
    (assets : Within user db.assets db'.assets) (uploads : db'.uploads = db.uploads) :
    Own user db db' :=
  ⟨users, assets, fun upload member => .inr ⟨upload, uploads ▸ member, rfl, rfl⟩⟩

theorem updateUpload_sessions {id : UUID} {change : UploadSession → UploadSession}
    (keeps : ∀ upload, (change upload).id = upload.id ∧ (change upload).userId = upload.userId) :
    ∀ upload ∈ (db.updateUpload id change).uploads,
      ∃ row ∈ db.uploads, row.id = upload.id ∧ row.userId = upload.userId := by
  intro upload member
  obtain ⟨row, there, rfl⟩ := List.mem_map.mp member
  refine ⟨row, there, ?_⟩
  split
  · exact ⟨(keeps row).1.symm, (keeps row).2.symm⟩
  · exact ⟨rfl, rfl⟩

theorem updateUpload_own {user id : UUID} {change : UploadSession → UploadSession}
    (keeps : ∀ upload, (change upload).id = upload.id ∧ (change upload).userId = upload.userId) :
    Own user db (db.updateUpload id change) :=
  ⟨rfl, .refl .., fun upload member => .inr (updateUpload_sessions keeps upload member)⟩

theorem createUpload_own {user : UUID} {upload : UploadSession}
    (created : createUpload db user upload = some db') : Own user db db' := by
  unfold createUpload at created
  split at created
  · cases created
    exact .of_assets rfl (.refl ..) rfl
  · obtain ⟨rows, inserted, rfl⟩ := Option.map_eq_some_iff.mp created
    have appended := (insertRow_ok (toOption_some_iff.mp inserted)).1
    refine ⟨rfl, .refl .., fun row member => ?_⟩
    rw [appended] at member
    rcases List.mem_append.mp member with before | new
    · exact .inr ⟨row, before, rfl, rfl⟩
    · rw [List.mem_singleton.mp new]
      exact .inl rfl

theorem appendUpload_own {user id : UUID} {bytes : Nat} {stored : Asset} {now : Timestamp}
    {next : Phase} (appended : appendUpload db user id bytes stored now = some (db', next)) :
    Own user db db' ∧
      (next = .idle ∨ next = .loaded user (.persist stored none false (some id))) := by
  unfold appendUpload at appended
  split at appended
  · contradiction
  split_ifs at appended
  · cases appended
    exact ⟨updateUpload_own fun _ => ⟨rfl, rfl⟩, .inl rfl⟩
  · cases appended
    exact ⟨updateUpload_own fun _ => ⟨rfl, rfl⟩, .inl rfl⟩
  · cases appended
    exact ⟨updateUpload_own fun _ => ⟨rfl, rfl⟩, .inr rfl⟩

theorem persistManagedAsset_own {user : UUID} {stored : Asset} {logicalId : Option UUID}
    {forceNewVersion : Bool}
    (persisted : persistManagedAsset db user stored logicalId forceNewVersion = some db') :
    Own user db db' := by
  unfold persistManagedAsset at persisted
  split at persisted
  · cases persisted
    exact .of_assets rfl (.refl ..) rfl
  · obtain ⟨rows, inserted, rfl⟩ := Option.map_eq_some_iff.mp persisted
    exact .of_assets rfl (.insert (toOption_some_iff.mp inserted) rfl) rfl

theorem restore_own {user id : UUID} (restored : restoreAssetFromTrash db user id = some db') :
    Own user db db' := by
  unfold restoreAssetFromTrash at restored
  split at restored
  · contradiction
  rename_i asset found
  split_ifs at restored
  cases restored
  have holds := List.find?_some found
  simp only [decide_eq_true_eq] at holds
  refine .of_assets rfl (.update ⟨asset, List.mem_of_find?_eq_some found, holds⟩ ?_ ?_ ?_) rfl
  · exact fun _ => rfl
  · exact fun _ => rfl
  · exact fun _ => rfl

theorem supersedeRevisions_within {user : UUID} {target : Asset} {now : Timestamp}
    {assets : List Asset} : Within user assets (supersedeRevisions user target now assets) := by
  refine .map ?_ ?_ ?_ ?_
  · intro asset
    split <;> rfl
  · intro asset
    split <;> rfl
  · intro asset
    split <;> rfl
  · intro _ asset _ other
    refine if_neg fun previous => other ?_
    exact (of_decide_eq_true previous).1

theorem rollback_own {user current target : UUID} {now : Timestamp}
    (rolled : rollbackAsset db user current target now = some db') : Own user db db' := by
  unfold rollbackAsset at rolled
  split at rolled
  · rename_i present chosen _ found
    have holds := List.find?_some found
    simp only [decide_eq_true_eq] at holds
    split_ifs at rolled
    · cases rolled
      exact .of_assets rfl (.refl ..) rfl
    · cases rolled
      refine .of_assets rfl (supersedeRevisions_within.trans
        (.update ?_ (fun _ => rfl) (fun _ => rfl) fun _ => rfl)) rfl
      obtain ⟨row, there, id, owner, _⟩ :=
        supersedeRevisions_within.kept chosen (List.mem_of_find?_eq_some found)
      exact ⟨row, there, id.trans holds.1, owner.trans holds.2⟩
  · contradiction

theorem push_own {root : Sync.SyncRoot} {user : UUID} {after : Sync.SyncDb} (owner : root.userId = user)
    (own : OwnAssets (db.view root) after) : Own user db (db.put after) := by
  refine .of_assets rfl ?_ rfl
  have within : Within root.userId db.assets after.assets := own.within
  exact owner ▸ within

theorem commit_own {user : UUID} {writer : Writer} {fresh : Sync.FreshIds} {now : Timestamp}
    {next : Phase}
    (committed : writer.commit mediaEncryptionEnabled db user fresh now = some (db', next)) :
    Own user db db' ∧ ((∃ id, next = .finishing id) ∨ next = .idle ∨
      ∃ stored id, next = .loaded user (.persist stored none false (some id))) := by
  cases writer with
  | createUpload upload =>
    obtain ⟨after, created, same⟩ := Option.map_eq_some_iff.mp committed
    cases same
    exact ⟨createUpload_own created, .inr (.inl rfl)⟩
  | appendUpload id bytes stored =>
    obtain ⟨own, idle | persist⟩ := appendUpload_own committed
    · exact ⟨own, .inr (.inl idle)⟩
    · exact ⟨own, .inr (.inr ⟨stored, id, persist⟩)⟩
  | persist stored logicalId forceNewVersion upload =>
    simp only [Writer.commit] at committed
    split at committed
    · contradiction
    obtain ⟨after, persisted, same⟩ := Option.map_eq_some_iff.mp committed
    cases same
    refine ⟨persistManagedAsset_own persisted, ?_⟩
    cases upload with
    | none => exact .inr (.inl rfl)
    | some id => exact .inl ⟨id, rfl⟩
  | push root cursor clientId inputs =>
    simp only [Writer.commit] at committed
    split at committed
    · contradiction
    rename_i root found
    have holds := List.find?_some found
    simp only [decide_eq_true_eq] at holds
    obtain ⟨batch, applied, same⟩ := Option.map_eq_some_iff.mp committed
    cases same
    refine ⟨push_own holds.2 ?_, .inr (.inl rfl)⟩
    exact (Sync.applyOperations_own (toOption_some_iff.mp applied)).2
  | resolve conflict choice =>
    simp only [Writer.commit] at committed
    split at committed
    · contradiction
    rename_i root found
    have holds := List.find?_some found
    simp only [decide_eq_true_eq] at holds
    obtain ⟨after, resolved, same⟩ := Option.map_eq_some_iff.mp committed
    cases same
    refine ⟨push_own holds.2 ?_, .inr (.inl rfl)⟩
    exact Sync.resolveConflict_own (toOption_some_iff.mp resolved)
  | restore asset =>
    obtain ⟨after, restored, same⟩ := Option.map_eq_some_iff.mp committed
    cases same
    exact ⟨restore_own restored, .inr (.inl rfl)⟩
  | rollback asset version =>
    obtain ⟨after, rolled, same⟩ := Option.map_eq_some_iff.mp committed
    cases same
    exact ⟨rollback_own rolled, .inr (.inl rfl)⟩

/-- What a step makes of the rows. -/
inductive Changes (mediaEncryptionEnabled : Bool) (db : Database) : Phase → Action → Database → Prop
  | same (phase : Phase) (action : Action) : Changes mediaEncryptionEnabled db phase action db
  | committed {user : UUID} {writer : Writer} {fresh : Sync.FreshIds} {now : Timestamp}
      {after : Database} {next : Phase}
      (result : writer.commit mediaEncryptionEnabled db user fresh now = some (after, next)) :
      Changes mediaEncryptionEnabled db (.fenced user writer) (.commit fresh now) after
  | finished (id : UUID) :
      Changes mediaEncryptionEnabled db (.finishing id) .finish
        (db.updateUpload id fun upload => { upload with status := .complete })
  | initialized (user : UUID) (writer : Writer) :
      Changes mediaEncryptionEnabled db (.fenced user writer) .initializeKey
        (db.setUser user fun row => { row with hasMediaKey := true })
  | trashed {asset : Asset} {now : Timestamp} {after : Database}
      (result : trashAsset db asset now = some after) :
      Changes mediaEncryptionEnabled db (.trashLocked asset) (.trash now) after
  | disabled {user : UUID} {locked : List UUID} {now : Timestamp} (enabled : db.Enabled user) :
      Changes mediaEncryptionEnabled db (.deleting user locked) (.disable now)
        (prepareAccountDeletion db user now)

theorem program_changes (chosen : program mediaEncryptionEnabled db phase action = some outcome) :
    Changes mediaEncryptionEnabled db phase action (outcome.result db) := by
  cases action with
  | authenticate user writer =>
    simp only [program] at chosen
    split at chosen
    · split_ifs at chosen
      cases chosen
      exact .same ..
    · contradiction
  | loadTrash user id =>
    simp only [program] at chosen
    split at chosen
    · split_ifs at chosen
      obtain ⟨asset, _, rfl⟩ := Option.map_eq_some_iff.mp chosen
      exact .same ..
    · contradiction
  | lockUser =>
    simp only [program] at chosen
    split at chosen
    · split_ifs at chosen <;> (cases chosen; exact .same ..)
    · contradiction
  | checkUser =>
    simp only [program] at chosen
    split at chosen
    · split_ifs at chosen <;> (cases chosen; exact .same ..)
    · contradiction
  | initializeKey =>
    simp only [program] at chosen
    split at chosen
    · cases chosen
      exact .initialized ..
    · contradiction
  | commit fresh now =>
    simp only [program] at chosen
    split at chosen
    · split at chosen
      · rename_i result
        cases chosen
        exact .committed result
      · cases chosen
        exact .same ..
    · contradiction
  | finish =>
    simp only [program] at chosen
    split at chosen
    · cases chosen
      exact .finished ..
    · contradiction
  | lockAsset id =>
    simp only [program] at chosen
    split at chosen
    · split_ifs at chosen
      cases chosen
      exact .same ..
    · cases chosen
      exact .same ..
    · contradiction
  | trash now =>
    simp only [program] at chosen
    split at chosen
    · split at chosen
      · rename_i result
        cases chosen
        exact .trashed result
      · cases chosen
        exact .same ..
    · contradiction
  | delete user =>
    simp only [program] at chosen
    split at chosen
    · cases chosen
      exact .same ..
    · contradiction
  | disable now =>
    simp only [program] at chosen
    split at chosen
    · split_ifs at chosen with enabled
      · cases chosen
        exact .disabled enabled
      · cases chosen
        exact .same ..
    · contradiction
  | stop =>
    cases chosen
    exact .same ..

/-- A change of the media key leaves the accounts enabled or deleted as they are. -/
theorem setUser_disabledAt {user id : UUID} {change : User → User}
    (keepsId : ∀ row, (change row).id = row.id)
    (keeps : ∀ row, (change row).disabledAt = row.disabledAt) :
    ((db.setUser user change).user? id).map (·.disabledAt) = (db.user? id).map (·.disabledAt) := by
  rw [user?_setUser fun row same => (keepsId row).trans same, Option.map_map]
  refine Option.map_congr fun row _ => ?_
  dsimp only [Function.comp_apply]
  split
  · exact keeps row
  · rfl

theorem enabled_iff {id : UUID} :
    db.Enabled id ↔ (db.user? id).map (·.disabledAt) = some none := by
  simp only [Database.Enabled, Option.mem_def, Option.map_eq_some_iff]

theorem deleted_iff {id : UUID} :
    db.Deleted id ↔ ∃ at_, (db.user? id).map (·.disabledAt) = some (some at_) := by
  simp only [Database.Deleted, Option.mem_def, Option.map_eq_some_iff, Option.ne_none_iff_exists']
  constructor
  · rintro ⟨row, found, stamp, same⟩
    exact ⟨stamp, row, found, same⟩
  · rintro ⟨stamp, row, found, same⟩
    exact ⟨row, found, stamp, same⟩

theorem Effect.of_users (consistent : Consistent db)
    (users : ∀ id, (db'.user? id).map (·.disabledAt) = (db.user? id).map (·.disabledAt))
    (assets : db'.assets = db.assets) (uploads : db'.uploads = db.uploads) : Effect db db' := by
  have same : ∀ id, db'.Deleted id ↔ db.Deleted id := fun id => by
    simp only [deleted_iff, users]
  refine ⟨⟨fun asset member _ => assets ▸ member, fun upload member _ => ?_, fun id => (same id).mpr⟩,
    assets ▸ consistent.unique, fun asset _ deleted before => absurd ((same _).mp deleted) before⟩
  exact ⟨upload, uploads ▸ member, rfl, rfl⟩

theorem prepareAccountDeletion_user? {user id : UUID} {now : Timestamp} :
    (prepareAccountDeletion db user now).user? id =
      (db.user? id).map fun row => if row.id = user then { row with disabledAt := some now } else row :=
  Rows.find?_updateKey fun _ same => same

theorem prepareAccountDeletion_effect {user : UUID} {now : Timestamp} (consistent : Consistent db)
    (enabled : db.Enabled user) : Effect db (prepareAccountDeletion db user now) := by
  refine ⟨⟨fun asset member deleted => ?_, fun upload member _ => ⟨upload, member, rfl, rfl⟩,
    fun id deleted => ?_⟩, ?_, fun asset member deleted before => ?_⟩
  · obtain ⟨row, there, rfl⟩ := List.mem_map.mp member
    split at deleted
    · rename_i mine
      exact absurd (mine ▸ deleted) (Enabled.not_deleted enabled)
    · rename_i other
      rwa [if_neg other]
  · obtain ⟨row, there, disabled⟩ := deleted
    refine ⟨_, prepareAccountDeletion_user?.trans (congrArg _ there), ?_⟩
    dsimp only
    split
    · exact nofun
    · exact disabled
  · have ids : (prepareAccountDeletion db user now).assets.map Asset.id = db.assets.map Asset.id :=
      purgeWithAccount_ids user now db.assets
    exact ids ▸ consistent.unique
  · obtain ⟨row, there, rfl⟩ := List.mem_map.mp member
    split
    · rfl
    · rename_i other
      rw [if_neg other] at deleted before
      obtain ⟨stored, present, disabled⟩ := deleted
      obtain ⟨kept, here, rfl⟩ :=
        Option.map_eq_some_iff.mp (prepareAccountDeletion_user?.symm.trans present)
      have apart : kept.id ≠ user := (Rows.find?_key here).2 ▸ other
      rw [if_neg apart] at disabled
      exact absurd ⟨kept, here, disabled⟩ before

/-- A trash endpoint that writes, writes the row of the asset that it has loaded. -/
theorem trashAsset_cases {asset : Asset} {now : Timestamp} {after : Database}
    (trashed : trashAsset db asset now = some after) :
    after = db ∨ ∃ row change, db.asset? asset.id = some row ∧ 1 ≤ db.retentionDays asset.userId ∧
      after = db.updateAsset asset.id change ∧ (∀ stored, (change stored).id = stored.id) ∧
      (∀ stored, (change stored).userId = stored.userId) ∧
      ∀ stored, (change stored).checksum = stored.checksum := by
  rcases trashAsset_some trashed with ⟨_, same⟩ | ⟨_, ⟨row, found⟩, retention, written⟩
  · exact .inl same
  · exact .inr ⟨row, _, found, retention, written, fun _ => rfl, fun _ => rfl, fun _ => rfl⟩

theorem trashAsset_effect {asset : Asset} {now : Timestamp} {after : Database}
    (consistent : Consistent db) (trashed : trashAsset db asset now = some after)
    (unraced : Unraced db (.trashLocked asset) (.trash now)) : Effect db after := by
  rcases trashAsset_cases trashed with rfl | ⟨row, change, found, retention, rfl, keepsId, keepsOwner, keepsContent⟩
  · exact .refl consistent
  have spared := unraced retention row found
  have here := Rows.find?_key found
  have within : Within row.userId db.assets (db.updateAsset asset.id change).assets :=
    .update ⟨row, here.1, here.2, rfl⟩ keepsId keepsOwner keepsContent
  refine ⟨⟨fun other member deleted => ?_, fun upload member _ => ⟨upload, member, rfl, rfl⟩,
    fun _ deleted => deleted⟩, within.unique consistent.unique,
    fun _ _ deleted before => absurd deleted before⟩
  refine within.others consistent.unique other member ?_
  rintro same
  exact spared (same ▸ deleted)

theorem program_effect (consistent : Consistent db) (knows : Knows db phase)
    (unraced : Unraced db phase action)
    (chosen : program mediaEncryptionEnabled db phase action = some outcome) :
    Effect db (outcome.result db) := by
  have changes := program_changes chosen
  generalize outcome.result db = after at changes
  cases changes with
  | same => exact .refl consistent
  | committed result =>
    have own := (commit_own result).1
    exact .of_own consistent knows own.users own.assets own.uploads
  | finished id =>
    refine ⟨⟨fun _ member _ => member, fun upload member _ => ?_, fun _ deleted => deleted⟩,
      consistent.unique, fun _ _ deleted before => absurd deleted before⟩
    refine updateUpload_sessions ?_ upload member
    exact fun _ => ⟨rfl, rfl⟩
  | initialized user writer =>
    exact .of_users consistent (fun id => setUser_disabledAt (fun _ => rfl) fun _ => rfl) rfl rfl
  | trashed result => exact trashAsset_effect consistent result unraced
  | disabled enabled => exact prepareAccountDeletion_effect consistent enabled

/-- A deletion alone takes the account away. -/
theorem program_enabled {id : UUID}
    (chosen : program mediaEncryptionEnabled db phase action = some outcome) (enabled : db.Enabled id) :
    (outcome.result db).Enabled id ∨ ∃ locked, phase = .deleting id locked := by
  have changes := program_changes chosen
  generalize outcome.result db = after at changes
  cases changes with
  | same => exact .inl enabled
  | committed result =>
    have users := (commit_own result).1.users
    refine .inl ?_
    simpa only [Database.Enabled, Database.user?, users] using enabled
  | finished => exact .inl enabled
  | initialized user writer =>
    refine .inl (enabled_iff.mpr ((setUser_disabledAt ?_ ?_).trans (enabled_iff.mp enabled)))
    · exact fun _ => rfl
    · exact fun _ => rfl
  | trashed result =>
    rcases trashAsset_cases result with rfl | ⟨row, change, _, _, rfl, _⟩
    · exact .inl enabled
    · exact .inl enabled
  | @disabled user locked now =>
    by_cases same : id = user
    · exact .inr ⟨locked, same ▸ rfl⟩
    · obtain ⟨row, found, disabled⟩ := enabled
      have there := Rows.find?_key found
      refine .inl ⟨row, prepareAccountDeletion_user?.trans ?_, disabled⟩
      rw [Option.mem_def.mp found, Option.map_some, if_neg (there.2 ▸ same)]

theorem program_keeps (chosen : program mediaEncryptionEnabled db phase action = some outcome) :
    locks.Keeps phase outcome := by
  cases action with
  | authenticate user writer =>
    simp only [program] at chosen
    split at chosen
    · split_ifs at chosen
      cases chosen
      exact ⟨fun _ relies => relies, fun _ relies => relies⟩
    · contradiction
  | loadTrash user id =>
    simp only [program] at chosen
    split at chosen
    · split_ifs at chosen
      obtain ⟨asset, _, rfl⟩ := Option.map_eq_some_iff.mp chosen
      exact ⟨fun _ relies => relies, fun _ relies => relies⟩
    · contradiction
  | lockUser =>
    simp only [program] at chosen
    split at chosen
    · split_ifs at chosen with exclusive
      · cases chosen
        refine ⟨fun _ relies => .inl relies.2, fun _ relies => ?_⟩
        exact absurd (exclusive.symm.trans relies.1) nofun
      · cases chosen
        refine ⟨fun _ relies => ?_, fun _ relies => .inl relies.2⟩
        exact absurd relies.1 exclusive
    · contradiction
  | checkUser =>
    simp only [program] at chosen
    split at chosen
    · split_ifs at chosen
      · cases chosen
        exact ⟨fun _ relies => relies, fun _ relies => relies⟩
      · cases chosen
        exact ⟨fun _ relies => relies, fun _ relies => relies⟩
    · contradiction
  | initializeKey =>
    simp only [program] at chosen
    split at chosen
    · cases chosen
      exact ⟨fun _ relies => relies, fun _ relies => relies⟩
    · contradiction
  | commit fresh now =>
    simp only [program] at chosen
    split at chosen
    · split at chosen
      · rename_i result
        cases chosen
        obtain ⟨id, rfl⟩ | rfl | ⟨stored, id, rfl⟩ := (commit_own result).2
        · exact ⟨fun _ relies => relies, fun _ relies => relies⟩
        · exact ⟨fun _ relies => relies, fun _ relies => relies⟩
        · exact ⟨fun _ relies => relies, fun _ relies => relies⟩
      · cases chosen
        exact ⟨fun _ relies => relies, fun _ relies => relies⟩
    · contradiction
  | finish =>
    simp only [program] at chosen
    split at chosen
    · cases chosen
      exact ⟨fun _ relies => relies, fun _ relies => relies⟩
    · contradiction
  | lockAsset id =>
    simp only [program] at chosen
    split at chosen
    · split_ifs at chosen with same
      cases chosen
      exact ⟨fun _ relies => .inl (same ▸ relies), fun _ relies => relies⟩
    · cases chosen
      refine ⟨fun k relies => ?_, fun _ relies => relies⟩
      obtain user | ⟨other, locked, rfl⟩ := relies
      · exact .inr (.inl user)
      · rcases List.mem_cons.mp locked with rfl | before
        · exact .inl rfl
        · exact .inr (.inr ⟨other, before, rfl⟩)
    · contradiction
  | trash now =>
    simp only [program] at chosen
    split at chosen
    · split at chosen
      · cases chosen
        exact ⟨fun _ relies => relies, fun _ relies => relies⟩
      · cases chosen
        exact ⟨fun _ relies => relies, fun _ relies => relies⟩
    · contradiction
  | delete user =>
    simp only [program] at chosen
    split at chosen
    · cases chosen
      refine ⟨fun k relies => ?_, fun _ relies => relies⟩
      exact relies.elim .inl fun ⟨_, never, _⟩ => absurd never List.not_mem_nil
    · contradiction
  | disable now =>
    simp only [program] at chosen
    split at chosen
    · split_ifs at chosen
      · cases chosen
        exact ⟨fun _ relies => relies, fun _ relies => relies⟩
      · cases chosen
        exact ⟨fun _ relies => relies, fun _ relies => relies⟩
    · contradiction
  | stop =>
    cases chosen
    exact ⟨fun _ relies => relies, fun _ relies => relies⟩

theorem program_arrives (knows : Knows db phase)
    (chosen : program mediaEncryptionEnabled db phase action = some outcome) :
    Knows (outcome.result db) outcome.arrival := by
  cases action with
  | authenticate user writer =>
    simp only [program] at chosen
    split at chosen
    · split_ifs at chosen
      cases chosen
      trivial
    · contradiction
  | loadTrash user id =>
    simp only [program] at chosen
    split at chosen
    · split_ifs at chosen
      obtain ⟨asset, found, rfl⟩ := Option.map_eq_some_iff.mp chosen
      have holds := List.find?_some found
      simp only [decide_eq_true_eq] at holds
      exact holds.2.2
    · contradiction
  | lockUser =>
    simp only [program] at chosen
    split at chosen
    · split_ifs at chosen <;> (cases chosen; trivial)
    · contradiction
  | checkUser =>
    simp only [program] at chosen
    split at chosen
    · split_ifs at chosen with enabled
      · cases chosen
        exact enabled
      · cases chosen
        trivial
    · contradiction
  | initializeKey =>
    simp only [program] at chosen
    split at chosen
    · cases chosen
      trivial
    · contradiction
  | commit fresh now =>
    simp only [program] at chosen
    split at chosen
    · split at chosen
      · rename_i result
        cases chosen
        obtain ⟨id, rfl⟩ | rfl | ⟨stored, id, rfl⟩ := (commit_own result).2 <;> trivial
      · cases chosen
        trivial
    · contradiction
  | finish =>
    simp only [program] at chosen
    split at chosen
    · cases chosen
      trivial
    · contradiction
  | lockAsset id =>
    simp only [program] at chosen
    split at chosen
    · split_ifs at chosen
      cases chosen
      exact knows
    · cases chosen
      trivial
    · contradiction
  | trash now =>
    simp only [program] at chosen
    split at chosen
    · split at chosen <;> (cases chosen; trivial)
    · contradiction
  | delete user =>
    simp only [program] at chosen
    split at chosen
    · cases chosen
      trivial
    · contradiction
  | disable now =>
    simp only [program] at chosen
    split at chosen
    · split_ifs at chosen <;> (cases chosen; trivial)
    · contradiction
  | stop =>
    cases chosen
    trivial

/-- A writer behind the fence keeps its account: a deletion that could take it away would
own the row that the writer has locked. -/
theorem program_others {other : Phase} (apart : locks.Apart phase other) (knows : Knows db other)
    (chosen : program mediaEncryptionEnabled db phase action = some outcome) :
    Knows (outcome.result db) other := by
  cases other with
  | fenced user writer =>
    rcases program_enabled chosen knows with kept | ⟨locked, rfl⟩
    · exact kept
    · have conflict := (apart (.user user)).1 (.inl rfl)
      cases mode : writer.exclusive with
      | true => exact absurd ⟨mode, rfl⟩ conflict.1
      | false => exact absurd ⟨mode, rfl⟩ conflict.2
  | _ => exact knows

abbrev StepUnraced (s : Writers) (label : Nat × Action) : Prop :=
  Unraced s.shared (s.locals label.1) label.2

/-- Every account that is deleted before a step keeps its assets as they are and gets no
asset and no upload session. -/
def StepFenced (mediaEncryptionEnabled : Bool) (s : Writers) (label : Nat × Action) : Prop :=
  ∀ t, step mediaEncryptionEnabled s label = some t → Fenced s.shared t.shared

abbrev Invariant (s : Writers) : Prop := Guarded locks Consistent Knows s

theorem step_invariant (s : Writers) (label : Nat × Action) (t : Writers) (invariant : Invariant s)
    (unraced : StepUnraced s label) (stepped : step mediaEncryptionEnabled s label = some t) :
    Invariant t := by
  refine invariant.step stepped fun outcome chosen => ?_
  have knows := invariant.session label.1
  exact ⟨program_keeps chosen,
    (program_effect invariant.global knows unraced chosen).consistent invariant.global,
    program_arrives knows chosen, fun _ apart other => program_others apart other chosen⟩

/-- A trash endpoint that writes a row of a deleted account takes it out of `purging`. -/
theorem trash_unfenced {asset row : Asset} (now : Timestamp) (consistent : Consistent db)
    (found : db.asset? asset.id = some row) (deleted : db.Deleted row.userId)
    (active : asset.lifecycleState = .active) (retention : 1 ≤ db.retentionDays asset.userId) :
    ∃ after, trashAsset db asset now = some after ∧ ¬ Fenced db after := by
  have here := Rows.find?_key found
  have writes : trashAsset db asset now = some (db.updateAsset asset.id
      (flushTrash asset (asset.trash (db.retentionDays asset.userId) "web" now))) := by
    simp only [trashAsset, found, Asset.trashes_iff.mpr ⟨active, retention⟩]
  refine ⟨_, writes, fun fenced => ?_⟩
  have written := List.mem_map_of_mem (f := fun stored : Asset =>
    if stored.id = asset.id then
      flushTrash asset (asset.trash (db.retentionDays asset.userId) "web" now) stored
    else stored) here.1
  rw [if_pos here.2] at written
  have before := consistent.purging _ (fenced.assets _ written deleted) deleted
  simp only [flushTrash, Asset.trash, flush, active] at before
  contradiction

theorem step_fenced_iff (s : Writers) (label : Nat × Action) (invariant : Invariant s) :
    StepFenced mediaEncryptionEnabled s label ↔ StepUnraced s label := by
  have knows := invariant.session label.1
  constructor
  · intro fenced
    obtain ⟨p, action⟩ := label
    change Unraced s.shared (s.locals p) action
    unfold Unraced
    split
    · rename_i now asset atLock
      intro retention row found deleted
      have active : asset.lifecycleState = .active := by
        rw [atLock] at knows
        exact knows
      obtain ⟨after, trashed, raced⟩ :=
        trash_unfenced now invariant.global found deleted active retention
      refine raced (fenced (s.finish p after .idle) ?_)
      simp only [step, Store.step, program, atLock, trashed]
      rfl
    · trivial
  · intro unraced t stepped
    obtain ⟨outcome, chosen, acted⟩ := Option.bind_eq_some_iff.mp stepped
    rw [Store.act_shared acted]
    exact (program_effect invariant.global knows unraced chosen).fenced

/-- In every run, the account of a deletion that has committed stays as the deletion left
it, if and only if no trash endpoint has locked an asset of it and goes on to write. -/
theorem deleted_account_is_fenced {db : Database} (consistent : Consistent db)
    (labels : List (Nat × Action)) :
    Along (step mediaEncryptionEnabled) (StepFenced mediaEncryptionEnabled) (start db) labels ↔
      Along (step mediaEncryptionEnabled) StepUnraced (start db) labels := by
  have initial : Invariant (start db) :=
    Guarded.idle consistent trivial (fun _ relies => relies) fun _ relies => relies
  exact along_iff_condition step_invariant step_fenced_iff initial

/-- An asset of user 1. -/
def photo (id : UUID) (state : LifecycleState) : Asset where
  id := id
  userId := 1
  logicalId := id
  version := 1
  lifecycleState := state
  supersededAt := none
  trashedAt := none
  purgeAfter := none
  deletedBy := none
  originalPath := ""
  checksum := ""
  storageChecksum := ""
  encryptionVersion := 0
  fileSize := 0
  thumbnailPath := none
  previewPath := none
  storageSource := .managed
  originalFilename := none

/-- A user with an active asset and a trashed one. -/
def twoPhotos : Database where
  users := [⟨1, none, true⟩]
  retentionDays _ := 30
  assets := [photo 5 .active, photo 6 .trashed]
  uploads := []
  roots := []
  items := []
  operations := []
  conflicts := []

theorem twoPhotos_consistent : Consistent twoPhotos := by
  refine ⟨by decide, fun asset member deleted => ?_⟩
  have enabled : ∀ asset ∈ twoPhotos.assets, ¬ twoPhotos.Deleted asset.userId := by decide
  exact absurd deleted (enabled asset member)

/-- The deletion of user 1, whose assets are 5 and 6. -/
def deleteUser (p : Nat) (now : Timestamp) : List (Nat × Action) :=
  [(p, .delete 1), (p, .lockAsset 5), (p, .lockAsset 6), (p, .disable now)]

/-- A fenced writer from the lock to the commit. -/
def fencedWriter (p : Nat) (now : Timestamp) : List (Nat × Action) :=
  [(p, .lockUser), (p, .checkUser), (p, .commit ⟨90, 91, 92, 93⟩ now)]

/-- A restore and a trash before the deletion, and a restore that reaches the lock after it. -/
theorem deleted_account_is_fenced_late_restore :
    ∃ labels, Along (step true) (StepFenced true) (start twoPhotos) labels ∧
      ∃ t, run (step true) (start twoPhotos) labels = some t ∧ t.shared.Deleted 1 ∧
        t.shared.assets.map (fun asset => (asset.lifecycleState, asset.purgeAfter)) =
          [(.purging, some 200), (.purging, some 200)] := by
  refine ⟨[(0, .authenticate 1 (.restore 6)), (1, .loadTrash 1 5), (2, .authenticate 1 (.restore 5))] ++
    fencedWriter 0 100 ++ [(1, .lockAsset 5), (1, .trash 110)] ++ deleteUser 3 200 ++
    [(2, .lockUser), (2, .checkUser)],
    (deleted_account_is_fenced twoPhotos_consistent _).mpr (by decide), ?_⟩
  have purges : (run (step true) (start twoPhotos)
      ([(0, .authenticate 1 (.restore 6)), (1, .loadTrash 1 5), (2, .authenticate 1 (.restore 5))] ++
        fencedWriter 0 100 ++ [(1, .lockAsset 5), (1, .trash 110)] ++ deleteUser 3 200 ++
        [(2, .lockUser), (2, .checkUser)])).any fun t =>
      t.shared.Deleted 1 ∧ t.shared.assets.map (fun asset => (asset.lifecycleState, asset.purgeAfter)) =
        [(.purging, some 200), (.purging, some 200)] := by
    decide
  obtain ⟨t, reached, found⟩ := (Option.any_eq_true _ _).mp purges
  exact ⟨t, reached, of_decide_eq_true found⟩

/-- The trash endpoint has loaded the asset before the deletion: its locking select gives
it back as it was, and the asset leaves `purging` and is due thirty days later. -/
theorem late_trash_undoes_erasure :
    ∃ s t, run (step true) (start twoPhotos) ((0, .loadTrash 1 5) :: deleteUser 1 200) = some s ∧
      s.shared.Deleted 1 ∧
      s.shared.assets.map (fun asset => (asset.lifecycleState, asset.purgeAfter)) =
        [(.purging, some 200), (.purging, some 200)] ∧
      run (step true) s [(0, .lockAsset 5), (0, .trash 201)] = some t ∧
      t.shared.assets.map (fun asset => (asset.lifecycleState, asset.purgeAfter)) =
        [(.trashed, some (201 + 30 * 86400)), (.purging, some 200)] := by
  have undoes : (run (step true) (start twoPhotos) ((0, .loadTrash 1 5) :: deleteUser 1 200)).any
      fun s => s.shared.Deleted 1 ∧
        s.shared.assets.map (fun asset => (asset.lifecycleState, asset.purgeAfter)) =
          [(.purging, some 200), (.purging, some 200)] ∧
        (run (step true) s [(0, .lockAsset 5), (0, .trash 201)]).any fun t =>
          t.shared.assets.map (fun asset => (asset.lifecycleState, asset.purgeAfter)) =
            [(.trashed, some (201 + 30 * 86400)), (.purging, some 200)] := by
    decide
  obtain ⟨s, reached, found⟩ := (Option.any_eq_true _ _).mp undoes
  obtain ⟨deleted, purging, later⟩ := of_decide_eq_true found
  obtain ⟨t, following, trashed⟩ := (Option.any_eq_true _ _).mp later
  exact ⟨s, t, reached, deleted, purging, following, of_decide_eq_true trashed⟩

end Drivebound.Lifecycle
