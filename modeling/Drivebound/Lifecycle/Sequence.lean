import Drivebound.Lifecycle.Fences
import Drivebound.Sync.Integrity

/-! The requests and jobs that change assets, executed one after the other: uploads, pushes
and resolutions, the lifecycle endpoints, the purge and the deletion of accounts. Each is a
transaction with the tables of assets that it flushes on its way. -/
namespace Drivebound.Lifecycle
open Attributes Checked Run
open Sync (Choice Spare FreshIds Keyed SyncConflict SyncItem SyncOperation SyncOperationInput SyncRoot)

inductive Call where
  /-- `persist_managed_asset` as `upload` and `finalize_upload` call it, with the columns of
  the new row. -/
  | upload (user : UUID) (stored : Asset)
  | push (user root : UUID) (clientId : String) (inputs : List (SyncOperationInput × FreshIds))
  | resolve (user conflict : UUID) (choice : Choice) (fresh : FreshIds)
  | trash (user asset : UUID)
  | restore (user asset : UUID)
  | rollback (user asset version : UUID)
  /-- `safely_purge_asset`; `removed` says that every path could be unlinked. -/
  | purge (asset : UUID) (removed : Bool)
  | deleteAccount (user : UUID)
  /-- The end of a deletion job. -/
  | eraseAccount (user : UUID)
  deriving DecidableEq, Repr

inductive Ending where
  | committed (after : Database)
  /-- Refused by a check, and rolled back. -/
  | refused
  /-- An `IntegrityError`. -/
  | violated

structure Transaction where
  flushes : List (List Asset)
  ending : Ending

def Transaction.refused : Transaction := ⟨[], .refused⟩

/-- A transaction of one flush, unless it is refused before. -/
def Transaction.once : Option Database → Transaction
  | some after => ⟨[after.assets], .committed after⟩
  | none => .refused

def Ending.ofSync (db : Database) : Except Failure Sync.SyncDb → Ending
  | .ok after => .committed (db.put after)
  | .error (.valueError _) => .refused
  | .error .integrityError => .violated

namespace Database

def root? (db : Database) (user id : UUID) : Option SyncRoot :=
  db.roots.find? fun row => row.id = id ∧ row.userId = user

/-- An asset of the user, as an endpoint selects it. -/
def ownAsset? (db : Database) (user id : UUID) : Option Asset :=
  db.assets.find? fun asset => asset.id = id ∧ asset.userId = user

/-- `asset_id` of an item is `ON DELETE SET NULL`. -/
def dropAsset (db : Database) (id : UUID) : Database :=
  { db with
    assets := db.assets.filter (·.id ≠ id)
    items := db.items.map fun item =>
      if item.assetId = some id then { item with assetId := none } else item }

/-- The foreign keys of a user are `ON DELETE CASCADE`. -/
def dropUser (db : Database) (user : UUID) : Database :=
  let mine (rootId : UUID) : Bool := db.roots.any fun root => root.id = rootId ∧ root.userId = user
  { db with
    users := db.users.filter (·.id ≠ user)
    assets := db.assets.filter (·.userId ≠ user)
    uploads := db.uploads.filter (·.userId ≠ user)
    roots := db.roots.filter (·.userId ≠ user)
    items := db.items.filter (!mine ·.rootId)
    operations := db.operations.filter (!mine ·.rootId)
    conflicts := db.conflicts.filter (!mine ·.rootId) }

end Database

def uploadAsset (db : Database) (user : UUID) (stored : Asset) : Transaction :=
  if ¬ db.Enabled user then .refused
  else
    match persistManagedAsset db user stored none false with
    | some after => ⟨[after.assets], .committed after⟩
    | none => ⟨[], .violated⟩

def pushOperations (db : Database) (user root : UUID) (clientId : String)
    (inputs : List (SyncOperationInput × FreshIds)) (now : Timestamp) : Transaction :=
  match db.root? user root with
  | none => .refused
  | some root =>
    if ¬ db.Enabled user ∨ root.active = false then .refused
    else
      { flushes := Sync.pushFlushes clientId now ⟨root.cursor, db.view root, [], []⟩ inputs
        ending := .ofSync db
          ((Sync.applyOperations (db.view root) root.cursor clientId inputs now).map Sync.Batch.db) }

def resolveSyncConflict (db : Database) (user conflict : UUID) (choice : Choice) (fresh : FreshIds)
    (now : Timestamp) : Transaction :=
  match db.conflicts.find? (·.id = conflict) with
  | none => .refused
  | some conflict =>
    match db.root? user conflict.rootId with
    | none => .refused
    | some root =>
      if ¬ db.Enabled user then .refused
      else
        { flushes := Sync.resolveFlushes (db.view root) conflict choice fresh now
          ending := .ofSync db (Sync.resolveConflict (db.view root) conflict choice fresh now) }

/-- `move_to_trash` and `delete_asset`: nothing comes between the load and the lock. -/
def moveToTrash (db : Database) (user id : UUID) (now : Timestamp) : Option Database :=
  match db.assets.find? fun asset => asset.id = id ∧ asset.userId = user ∧ asset.lifecycleState = .active with
  | none => none
  | some asset => trashAsset db asset now

def rollbackToVersion (db : Database) (user asset version : UUID) (now : Timestamp) : Transaction :=
  match rollbackAsset db user asset version now, db.ownAsset? user version with
  | some after, some target =>
    -- The deactivated revisions are flushed before the target is activated.
    ⟨[supersedeRevisions user target now db.assets, after.assets], .committed after⟩
  | _, _ => .refused

/-- The rows that `safely_purge_asset` writes; `removed` tells whether every file of the asset
could be unlinked. -/
def safelyPurgeAsset (db : Database) (id : UUID) (removed : Bool) (now : Timestamp) : Transaction :=
  match db.asset? id with
  | none => .refused
  | some asset =>
    if ¬ IsPurgeDue now asset then .refused
    else
      let purging := db.updateAsset id fun asset => { asset with lifecycleState := .purging }
      let after := if removed then purging.dropAsset id else purging
      ⟨[purging.assets, after.assets], .committed after⟩

def finishAccountDeletion (db : Database) (user : UUID) : Option Database :=
  if db.Enabled user ∨ db.assets.any (·.userId = user) = true ∨ db.uploads.any (·.userId = user) = true then
    none
  else some (db.dropUser user)

def Call.transaction (db : Database) (now : Timestamp) : Call → Transaction
  | .upload user stored => uploadAsset db user stored
  | .push user root clientId inputs => pushOperations db user root clientId inputs now
  | .resolve user conflict choice fresh => resolveSyncConflict db user conflict choice fresh now
  | .trash user asset => .once (if db.Enabled user then moveToTrash db user asset now else none)
  | .restore user asset =>
    .once (if db.Enabled user then restoreAssetFromTrash db user asset else none)
  | .rollback user asset version =>
    if db.Enabled user then rollbackToVersion db user asset version now else .refused
  | .purge asset removed => safelyPurgeAsset db asset removed now
  | .deleteAccount user =>
    .once (if db.Enabled user then some (prepareAccountDeletion db user now) else none)
  | .eraseAccount user => .once (finishAccountDeletion db user)

/-- What `uuid.uuid4()` gives a transaction is not in use. -/
def Call.Draws (db : Database) : Call → Prop
  | .upload _ stored => stored.id ∉ db.assets.map Asset.id ∧
    stored.logicalId ∉ db.assets.map Asset.logicalId ∧ stored.logicalId ∉ db.items.map SyncItem.logicalId
  | .push _ _ _ inputs =>
    let fresh := inputs.map Prod.snd
    Spare (db.assets.map Asset.id) (fresh.map FreshIds.asset) ∧
      Spare (db.items.map SyncItem.id) (fresh.map FreshIds.item) ∧
      Spare (db.operations.map SyncOperation.id) (fresh.map FreshIds.operation) ∧
      Spare (db.conflicts.map SyncConflict.id) (fresh.map FreshIds.conflict)
  | .resolve _ _ _ fresh =>
    fresh.asset ∉ db.assets.map Asset.id ∧ fresh.item ∉ db.items.map SyncItem.id
  | _ => True

instance (db : Database) : DecidablePred (Call.Draws db) := fun call => by
  cases call <;> unfold Call.Draws <;> infer_instance

/-- The database after a call; what is not committed is rolled back. -/
def Call.next (db : Database) (now : Timestamp) (call : Call) : Database :=
  match (call.transaction db now).ending with
  | .committed after => after
  | .refused | .violated => db

def request (db : Database) (label : Call × Timestamp) : Option Database :=
  if label.1.Draws db then some (label.1.next db label.2) else none

/-- No request was served yet. -/
def emptyCatalogue (users : List User) (roots : List SyncRoot) (uploads : List Uploads.UploadSession)
    (retentionDays : UUID → Nat) : Database where
  users := users
  retentionDays := retentionDays
  assets := []
  uploads := uploads
  roots := roots
  items := []
  operations := []
  conflicts := []

/-- The constraints of the tables that the calls write. -/
structure Constrained (db : Database) : Prop where
  allowed : Allowed db.assets
  keyed : Keyed db.items db.operations

/-- The constraints hold at every flush and at the commit, and no insertion violates one. -/
structure Transaction.Conforms (transaction : Transaction) : Prop where
  flushes : ∀ table ∈ transaction.flushes, Allowed table
  unviolated : transaction.ending ≠ .violated
  commits : ∀ after, transaction.ending = .committed after → Constrained after

variable {db : Database}

theorem Transaction.Conforms.refused : Transaction.refused.Conforms :=
  ⟨fun _ never => absurd never List.not_mem_nil, nofun, nofun⟩

theorem Transaction.Conforms.once {result : Option Database}
    (constrained : ∀ after ∈ result, Constrained after) : (Transaction.once result).Conforms := by
  cases result with
  | none => exact .refused
  | some after =>
    have here := constrained after rfl
    refine ⟨fun table member => ?_, nofun, fun other same => ?_⟩
    · rw [List.mem_singleton.mp member]
      exact here.allowed
    · cases same
      exact here

/-- A transaction that changes assets alone. -/
theorem Transaction.Conforms.of_assets {result : Option Database} (constrained : Constrained db)
    (assets : ∀ after ∈ result, Allowed after.assets ∧ after.items = db.items ∧
      after.operations = db.operations) : (Transaction.once result).Conforms := by
  refine .once fun after same => ?_
  obtain ⟨allowed, items, operations⟩ := assets after same
  exact ⟨allowed, items ▸ operations ▸ constrained.keyed⟩

/-- An upload starts a history of its own. -/
theorem persistManagedAsset_allowed (user : UUID) {stored : Asset} (allowed : Allowed db.assets)
    (newId : stored.id ∉ db.assets.map Asset.id) (newItem : stored.logicalId ∉ db.assets.map Asset.logicalId) :
    ∃ after, persistManagedAsset db user stored none false = some after ∧ Allowed after.assets ∧
      after.items = db.items ∧ after.operations = db.operations := by
  unfold persistManagedAsset
  split_ifs
  · exact ⟨db, rfl, allowed, rfl, rfl⟩
  · dsimp only [Option.getD_none]
    have inserted : insertRow Asset.id db.assets { stored with
        userId := user
        logicalId := stored.logicalId
        version := 1
        lifecycleState := .active
        supersededAt := none
        trashedAt := none
        purgeAfter := none
        deletedBy := none } = .ok _ := Sync.insertRow_ok_iff.mpr
      ⟨rfl, fun r member same => newId (List.mem_map.mpr ⟨r, member, same⟩)⟩
    rw [inserted]
    refine ⟨_, rfl, allowed.insert inserted ⟨Nat.one_pos, rfl, ?_, ?_⟩, rfl, rfl⟩
    · intro other member _ same
      exact absurd (List.mem_map.mpr ⟨other, member, same.2⟩) newItem
    · intro _ other member _ same
      exact absurd (List.mem_map.mpr ⟨other, member, same.2⟩) newItem

theorem uploadAsset_conforms {user : UUID} {stored : Asset} (constrained : Constrained db)
    (newId : stored.id ∉ db.assets.map Asset.id) (newItem : stored.logicalId ∉ db.assets.map Asset.logicalId) :
    (uploadAsset db user stored).Conforms := by
  unfold uploadAsset
  split
  · exact .refused
  · obtain ⟨after, persisted, allowed, items, operations⟩ := persistManagedAsset_allowed user
      constrained.allowed newId newItem
    rw [persisted]
    refine ⟨fun table member => ?_, nofun, fun other same => ?_⟩
    · rw [List.mem_singleton.mp member]
      exact allowed
    · cases same
      exact ⟨allowed, items ▸ operations ▸ constrained.keyed⟩

theorem restore_conforms {user id : UUID} (constrained : Constrained db) :
    (Transaction.once (restoreAssetFromTrash db user id)).Conforms := by
  refine .of_assets constrained fun after restored => ?_
  rw [Option.mem_def, restoreAssetFromTrash] at restored
  split at restored
  · contradiction
  · rename_i asset found
    split_ifs at restored with trashed newer
    cases restored
    refine ⟨constrained.allowed.rewrite (fun _ => rfl) fun row there named => ?_, rfl, rfl⟩
    have holds := List.find?_some found
    simp only [decide_eq_true_eq] at holds
    have member := List.mem_of_find?_eq_some found
    cases List.inj_on_of_nodup_map constrained.allowed.unique there member (named.trans holds.1.symm)
    refine constrained.allowed.fits_in_place member rfl ⟨rfl, rfl⟩ rfl rfl ?_
    intro _ other here different together active
    refine newer (List.any_eq_true.mpr ⟨other, here, decide_eq_true ?_⟩)
    exact ⟨together.1.trans holds.2, together.2, active, different⟩

/-- Superseding the other revisions of a target leaves none of them active. -/
theorem supersedeRevisions_allowed {user : UUID} {target : Asset} {now : Timestamp}
    {assets : List Asset} (allowed : Allowed assets) :
    Allowed (supersedeRevisions user target now assets) := by
  refine allowed.retire (fun asset => ?_) (fun asset _ => ?_) fun asset member => ?_
  · split <;> exact ⟨rfl, ⟨rfl, rfl⟩, rfl⟩
  · split
    · exact nofun
    · exact fun active => active
  · split
    · rename_i previous
      have retained := allowed.retained asset member
      simp only [Retained, (of_decide_eq_true previous).2.2.2] at retained
      exact retained
    · exact allowed.retained asset member

theorem supersedeRevisions_inactive {user : UUID} {target : Asset} {now : Timestamp}
    {assets : List Asset} : ∀ row ∈ supersedeRevisions user target now assets, row.id ≠ target.id →
      row.userId = user → row.logicalId = target.logicalId → row.lifecycleState ≠ .active := by
  intro row member different owner logical
  obtain ⟨asset, there, rfl⟩ := List.mem_map.mp member
  split
  · exact nofun
  · rename_i kept
    rw [if_neg kept] at different owner logical
    exact fun active => kept (decide_eq_true ⟨owner, logical, different, active⟩)

theorem rollback_conforms {user asset version : UUID} {now : Timestamp} (constrained : Constrained db) :
    (rollbackToVersion db user asset version now).Conforms := by
  unfold rollbackToVersion
  cases found : db.ownAsset? user version with
  | none => cases rollbackAsset db user asset version now <;> exact .refused
  | some target =>
    cases rolled : rollbackAsset db user asset version now with
    | none => exact .refused
    | some after =>
      have superseded : Allowed (supersedeRevisions user target now db.assets) :=
        supersedeRevisions_allowed constrained.allowed
      have final : Constrained after := by
        have holds := List.find?_some found
        simp only [decide_eq_true_eq] at holds
        have member := List.mem_of_find?_eq_some found
        unfold rollbackAsset at rolled
        split at rolled
        · rename_i present chosen _ same
          cases Option.some.inj (found.symm.trans same)
          split_ifs at rolled with _ _ _ alone
          · cases rolled
            exact constrained
          · cases rolled
            refine ⟨superseded.rewrite (fun _ => rfl) fun row there named => ?_, constrained.keyed⟩
            obtain ⟨source, before, kept⟩ := List.mem_map.mp there
            have same : row.id = source.id ∧ SameHistory row source := by
              rw [← kept]
              split <;> exact ⟨rfl, rfl, rfl⟩
            cases List.inj_on_of_nodup_map constrained.allowed.unique before member
              (same.1.symm.trans (named.trans holds.1.symm))
            refine superseded.fits_in_place there rfl ⟨rfl, rfl⟩ rfl rfl fun _ other here different together => ?_
            refine supersedeRevisions_inactive other here (same.1 ▸ different) ?_ ?_
            · exact together.1.trans (same.2.1.trans holds.2)
            · exact together.2.trans same.2.2
        · contradiction
      refine ⟨fun table flushed => ?_, nofun, fun other same => ?_⟩
      · rcases List.mem_cons.mp flushed with rfl | last
        · exact superseded
        · rw [List.mem_singleton.mp last]
          exact final.allowed
      · cases same
        exact final

theorem moveToTrash_conforms {user id : UUID} {now : Timestamp} (constrained : Constrained db) :
    (Transaction.once (moveToTrash db user id now)).Conforms := by
  refine .of_assets constrained fun after trashed => ?_
  rw [Option.mem_def, moveToTrash] at trashed
  split at trashed
  · contradiction
  · rename_i asset found
    have holds := List.find?_some found
    simp only [decide_eq_true_eq] at holds
    have member := List.mem_of_find?_eq_some found
    have allowed := constrained.allowed
    rcases trashAsset_some trashed with ⟨_, rfl⟩ | ⟨_, _, _, rfl⟩
    · exact ⟨allowed, rfl, rfl⟩
    · refine ⟨allowed.rewrite (fun _ => rfl) fun row there named => ?_, rfl, rfl⟩
      -- The instance is the row, so every assigned column is written.
      cases List.inj_on_of_nodup_map allowed.unique there member named
      refine allowed.fits_in_place member rfl ⟨rfl, rfl⟩ rfl ?_ ?_
      · simp only [Retained, flushTrash, Asset.trash, flush_fresh]
        exact ⟨(fun same => by cases same), (fun same => by cases same)⟩
      · simp only [flushTrash, Asset.trash, flush_fresh]
        intro same
        cases same

theorem prepareAccountDeletion_conforms {user : UUID} {now : Timestamp} (constrained : Constrained db) :
    (Transaction.once (some (prepareAccountDeletion db user now))).Conforms := by
  refine .of_assets constrained fun after deleted => ?_
  cases deleted
  refine ⟨constrained.allowed.retire (fun asset => ?_) (fun asset _ => ?_) fun asset member => ?_, rfl, rfl⟩
  · split <;> exact ⟨rfl, ⟨rfl, rfl⟩, rfl⟩
  · split
    · exact nofun
    · exact fun active => active
  · split
    · refine ⟨?_, nofun⟩
      cases asset.trashedAt <;> exact nofun
    · exact constrained.allowed.retained asset member

theorem dropAsset_constrained {id : UUID} (constrained : Constrained db) :
    Constrained (db.dropAsset id) := by
  have pairs : ((db.dropAsset id).items.map fun item => (item.rootId, item.logicalId)) =
      db.items.map fun item => (item.rootId, item.logicalId) := by
    rw [Database.dropAsset, List.map_map]
    refine List.map_congr_left fun item _ => ?_
    dsimp only [Function.comp_apply]
    split <;> rfl
  have keyed := constrained.keyed
  exact ⟨constrained.allowed.filter _, keyed.ids, pairs ▸ keyed.items, keyed.sequences, keyed.operations⟩

theorem safelyPurgeAsset_conforms {id : UUID} {removed : Bool} {now : Timestamp}
    (constrained : Constrained db) : (safelyPurgeAsset db id removed now).Conforms := by
  unfold safelyPurgeAsset
  split
  · exact .refused
  · rename_i asset found
    obtain ⟨member, named⟩ := Rows.find?_key found
    split
    · exact .refused
    · rename_i due
      have inTrash : asset.trashedAt ≠ none ∧ asset.purgeAfter ≠ none := by
        have retained := constrained.allowed.retained asset member
        unfold Retained at retained
        rcases (not_not.mp due).1 with trashed | purging
        · simpa only [trashed] using retained
        · simpa only [purging] using retained
      have purging : Constrained (db.updateAsset id fun asset => { asset with lifecycleState := .purging }) := by
        refine ⟨constrained.allowed.rewrite (fun _ => rfl) fun row there same => ?_, constrained.keyed⟩
        cases List.inj_on_of_nodup_map constrained.allowed.unique there member (same.trans named.symm)
        exact constrained.allowed.fits_in_place member rfl ⟨rfl, rfl⟩ rfl inTrash nofun
      have ended : Constrained (if removed then
          (db.updateAsset id fun asset => { asset with lifecycleState := .purging }).dropAsset id
          else db.updateAsset id fun asset => { asset with lifecycleState := .purging }) := by
        split
        · exact dropAsset_constrained purging
        · exact purging
      refine ⟨fun table flushed => ?_, nofun, fun other same => ?_⟩
      · rcases List.mem_cons.mp flushed with rfl | last
        · exact purging.allowed
        · rw [List.mem_singleton.mp last]
          exact ended.allowed
      · cases same
        exact ended

theorem finishAccountDeletion_conforms {user : UUID} (constrained : Constrained db) :
    (Transaction.once (finishAccountDeletion db user)).Conforms := by
  refine .once fun after erased => ?_
  rw [Option.mem_def, finishAccountDeletion] at erased
  split_ifs at erased
  cases erased
  have keyed := constrained.keyed
  refine ⟨constrained.allowed.filter _, ?_, ?_, ?_, ?_⟩
  · exact keyed.ids.sublist (List.filter_sublist.map _)
  · exact keyed.items.sublist (List.filter_sublist.map _)
  · exact keyed.sequences.sublist (List.filter_sublist.map _)
  · exact keyed.operations.sublist (List.filter_sublist.map _)

/-- A sync transaction that comes to its end is committed whole. -/
theorem Transaction.Conforms.of_sync {flushes : List (List Asset)} {result : Except Failure Sync.SyncDb}
    (flushed : ∀ table ∈ flushes, Allowed table)
    (serves : Ends (fun after => Allowed after.assets ∧ Keyed after.items after.operations)
      (fun failure => failure ≠ .integrityError) result) :
    (Transaction.mk flushes (.ofSync db result)).Conforms := by
  refine ⟨flushed, ?_, fun after same => ?_⟩
  · cases result with
    | ok after => exact nofun
    | error failure =>
      cases failure with
      | valueError message => exact nofun
      | integrityError => exact absurd rfl serves
  · cases result with
    | ok rows =>
      cases same
      exact ⟨serves.1, serves.2⟩
    | error failure => cases failure <;> contradiction

theorem pushOperations_conforms {user root : UUID} {clientId : String} {now : Timestamp}
    {inputs : List (SyncOperationInput × FreshIds)} (constrained : Constrained db)
    (draws : Call.Draws db (.push user root clientId inputs)) :
    (pushOperations db user root clientId inputs now).Conforms := by
  unfold pushOperations
  split
  · exact .refused
  · rename_i root _
    split
    · exact .refused
    · obtain ⟨assets, items, operations, conflicts⟩ := draws
      have unused : Sync.Unused (db.view root) (inputs.map Prod.snd) := ⟨assets, items, operations, conflicts⟩
      obtain ⟨flushed, serves⟩ := Sync.applyOperations_serves (db.view root) root.cursor clientId
        now constrained.allowed constrained.keyed unused
      refine .of_sync flushed ?_
      cases result : Sync.applyOperations (db.view root) root.cursor clientId inputs now with
      | ok b => exact serves.value result
      | error failure => exact serves.raised result

theorem resolveSyncConflict_conforms {user conflict : UUID} {choice : Choice} {fresh : FreshIds}
    {now : Timestamp} (constrained : Constrained db)
    (draws : Call.Draws db (.resolve user conflict choice fresh)) :
    (resolveSyncConflict db user conflict choice fresh now).Conforms := by
  unfold resolveSyncConflict
  split
  · exact .refused
  · rename_i loaded _
    split
    · exact .refused
    · rename_i root _
      split
      · exact .refused
      · obtain ⟨flushed, serves⟩ := Sync.resolveConflict_serves (db.view root) loaded choice now
          constrained.allowed constrained.keyed draws.1 draws.2
        exact .of_sync flushed serves

/-- Every call keeps the constraints, at each flush and at its commit. -/
theorem transaction_conforms {call : Call} (now : Timestamp) (constrained : Constrained db)
    (draws : call.Draws db) : (call.transaction db now).Conforms := by
  cases call with
  | upload user stored => exact uploadAsset_conforms constrained draws.1 draws.2.1
  | push user root clientId inputs => exact pushOperations_conforms constrained draws
  | resolve user conflict choice fresh => exact resolveSyncConflict_conforms constrained draws
  | trash user asset =>
    simp only [Call.transaction]
    split
    · exact moveToTrash_conforms constrained
    · exact .refused
  | restore user asset =>
    simp only [Call.transaction]
    split
    · exact restore_conforms constrained
    · exact .refused
  | rollback user asset version =>
    simp only [Call.transaction]
    split
    · exact rollback_conforms constrained
    · exact .refused
  | purge asset removed => exact safelyPurgeAsset_conforms constrained
  | deleteAccount user =>
    simp only [Call.transaction]
    split
    · exact prepareAccountDeletion_conforms constrained
    · exact .refused
  | eraseAccount user => exact finishAccountDeletion_conforms constrained

theorem next_constrained {call : Call} (now : Timestamp) (constrained : Constrained db)
    (draws : call.Draws db) : Constrained (call.next db now) := by
  have conforms := transaction_conforms now constrained draws
  unfold Call.next
  cases ended : (call.transaction db now).ending with
  | committed after => exact conforms.commits after ended
  | refused | violated => exact constrained

theorem request_constrained (db : Database) (label : Call × Timestamp) (after : Database)
    (constrained : Constrained db) (served : request db label = some after) : Constrained after := by
  unfold request at served
  split_ifs at served with draws
  cases served
  exact next_constrained label.2 constrained draws

/-- What a call writes meets the constraints wherever they are checked. -/
def CallConforms (db : Database) (label : Call × Timestamp) : Prop :=
  label.1.Draws db → (label.1.transaction db label.2).Conforms

theorem emptyCatalogue_constrained (users : List User) (roots : List SyncRoot)
    (uploads : List Uploads.UploadSession) (retentionDays : UUID → Nat) :
    Constrained (emptyCatalogue users roots uploads retentionDays) :=
  ⟨.nil, ⟨List.nodup_nil, List.nodup_nil, List.nodup_nil, List.nodup_nil⟩⟩

/-- In every run from the empty catalogue, every table that is flushed and everything that is
committed meets the constraints, and no call ends in an `IntegrityError`. -/
theorem constraints_hold_along_runs (users : List User) (roots : List SyncRoot)
    (uploads : List Uploads.UploadSession) (retentionDays : UUID → Nat)
    (calls : List (Call × Timestamp)) :
    Along request CallConforms (emptyCatalogue users roots uploads retentionDays) calls ∧
      ∀ db, run request (emptyCatalogue users roots uploads retentionDays) calls = some db →
        Constrained db := by
  have initial := emptyCatalogue_constrained users roots uploads retentionDays
  have preserves : ∀ db label after, Constrained db → True → request db label = some after →
      Constrained after := fun db label after constrained _ served =>
    request_constrained db label after constrained served
  have unconditional : Along request (fun _ _ => True)
      (emptyCatalogue users roots uploads retentionDays) calls := along_true _ calls
  refine ⟨along_of_invariant preserves ?_ initial unconditional, fun db reached => ?_⟩
  · exact fun db label constrained _ draws => transaction_conforms label.2 constrained draws
  · exact invariant preserves initial unconditional reached

end Drivebound.Lifecycle
