import Drivebound.Lifecycle.Sequence
import Drivebound.Sync.Answerable
import Drivebound.Sync.Atomicity
import Mathlib

/-! One root that is synced while the web interface uploads, trashes, restores and rolls back
the same assets. An item points at one revision, and a rollback or a restoration changes which
revision is active without a look at the item. As long as both activate what the items point
at, the desktop can move and delete every item that it is up to date with. -/
namespace Drivebound.Lifecycle
open Attributes Checked Run
open Sync (Answerable Batch Choice Feasible FreshIds Connected SyncConflict SyncDb SyncItem SyncOperation
  SyncOperationInput SyncRoot UpToDate)

/-- The calls of a root that is in use; the inputs of a push have passed the schema. -/
def Mixes (root : UUID) : Call → Prop
  | .push _ id _ inputs => id = root ∧ ∀ entry ∈ inputs, Sync.Parsed entry.1
  | .purge _ _ | .deleteAccount _ | .eraseAccount _ => False
  | _ => True

instance (root : UUID) : DecidablePred (Mixes root)
  | .push _ id _ inputs => inferInstanceAs (Decidable (id = root ∧ ∀ entry ∈ inputs, Sync.Parsed entry.1))
  | .purge _ _ | .deleteAccount _ | .eraseAccount _ => inferInstanceAs (Decidable False)
  | .upload .. | .resolve .. | .trash .. | .restore .. | .rollback .. => inferInstanceAs (Decidable True)

/-- The revision that a call makes active next to a history that is there. -/
def Call.target? (db : Database) : Call → Option Asset
  | .restore user id | .rollback user _ id => db.ownAsset? user id
  | _ => none

/-- A restored or rolled back revision is the one that the live items of its history point at. -/
def Relinks (user root : UUID) (tracked : UUID → Prop) (db : Database) (call : Call) : Prop :=
  ∀ target ∈ call.target? db, target.userId = user → tracked target.logicalId → ∀ item ∈ db.items,
    item.rootId = root → item.logicalId = target.logicalId → item.deletedAt = none →
      ∀ id ∈ item.assetId, target.id = id

instance (user root : UUID) (tracked : UUID → Prop) [DecidablePred tracked] (db : Database) :
    DecidablePred (Relinks user root tracked db) := fun call =>
  inferInstanceAs (Decidable (∀ target ∈ call.target? db, target.userId = user →
    tracked target.logicalId → ∀ item ∈ db.items, item.rootId = root →
      item.logicalId = target.logicalId → item.deletedAt = none → ∀ id ∈ item.assetId, target.id = id))

/-- What is active in the history of a live item is the item's asset. -/
def PointsAtActive (user root : UUID) (tracked : UUID → Prop) (db : Database) : Prop :=
  ∀ item ∈ db.items, item.rootId = root → tracked item.logicalId → item.deletedAt = none →
    ∀ id ∈ item.assetId, ∀ revision ∈ db.assets, revision.userId = user →
      revision.logicalId = item.logicalId → revision.lifecycleState = .active → revision.id = id

instance (user root : UUID) (tracked : UUID → Prop) [DecidablePred tracked] (db : Database) :
    Decidable (PointsAtActive user root tracked db) :=
  inferInstanceAs (Decidable (∀ item ∈ db.items, item.rootId = root → tracked item.logicalId →
    item.deletedAt = none → ∀ id ∈ item.assetId, ∀ revision ∈ db.assets, revision.userId = user →
      revision.logicalId = item.logicalId → revision.lifecycleState = .active → revision.id = id))

/-- A root in use, with the link for the histories that are tracked. -/
structure Serving (user root : UUID) (tracked : UUID → Prop) (db : Database) : Prop where
  enabled : db.Enabled user
  retention : 1 ≤ db.retentionDays user
  single : (db.roots.map SyncRoot.id).Nodup
  synced : ∃ row, db.root? user root = some row ∧ row.active = true ∧ Connected tracked (db.view row) ∧
    Answerable (db.view row)

variable {db : Database} {user root : UUID} {tracked : UUID → Prop}

theorem root?_found {row : SyncRoot} (found : db.root? user root = some row) :
    row ∈ db.roots ∧ row.id = root ∧ row.userId = user := by
  have holds := List.find?_some found
  simp only [decide_eq_true_eq] at holds
  exact ⟨List.mem_of_find?_eq_some found, holds⟩

theorem ownAsset?_found {id : UUID} {asset : Asset} (found : db.ownAsset? user id = some asset) :
    asset ∈ db.assets ∧ asset.id = id ∧ asset.userId = user := by
  have holds := List.find?_some found
  simp only [decide_eq_true_eq] at holds
  exact ⟨List.mem_of_find?_eq_some found, holds⟩

/-- A root belongs to one user. -/
theorem root?_owner {other : UUID} {row row' : SyncRoot} (single : (db.roots.map SyncRoot.id).Nodup)
    (found : db.root? user root = some row) (again : db.root? other root = some row') :
    other = user ∧ row' = row := by
  obtain ⟨member, named, owner⟩ := root?_found found
  obtain ⟨there, also, theirs⟩ := root?_found again
  cases List.inj_on_of_nodup_map single there member (also.trans named.symm)
  exact ⟨theirs.symm.trans owner, rfl⟩

/-- A call that changes assets alone, with what it may make active. -/
structure OnAssets (db after : Database) (activated : Asset → Prop) : Prop where
  rest : after = { db with assets := after.assets }
  active : ∀ revision ∈ after.assets, revision.lifecycleState = .active →
    revision ∈ db.assets ∨ activated revision

/-- Such a call keeps the link where what it makes active is what the items point at. -/
theorem Serving.assets {after : Database} {activated : Asset → Prop} (serving : Serving user root tracked db)
    (on : OnAssets db after activated) (constrained : Constrained after)
    (relinks : ∀ revision, activated revision → revision.userId = user → tracked revision.logicalId →
      ∀ item ∈ db.items, item.rootId = root → item.logicalId = revision.logicalId →
        item.deletedAt = none → ∀ id ∈ item.assetId, revision.id = id) :
    Serving user root tracked after := by
  obtain ⟨row, found, active, linked, answerable⟩ := serving.synced
  obtain ⟨_, named, owner⟩ := root?_found found
  have rest := on.rest
  have allowed := constrained.allowed
  generalize after.assets = assets at rest allowed on
  subst rest
  refine ⟨serving.enabled, serving.retention, serving.single, row, found, active, ?_, ?_⟩
  · refine ⟨allowed, constrained.keyed, linked.ids, ?_⟩
    intro item member here known live id has revision there mine logicalId state
    rcases on.active revision there state with before | new
    · exact linked.link item member here known live id has revision before mine logicalId state
    · apply relinks revision new (mine.trans owner) (logicalId ▸ known) item member (here.trans named)
      · exact logicalId.symm
      · exact live
      · exact has
  · exact ⟨answerable.mine, answerable.named, answerable.single, answerable.asked⟩

theorem OnAssets.refl (db : Database) (activated : Asset → Prop) : OnAssets db db activated :=
  ⟨rfl, fun _ member _ => .inl member⟩

/-- An upload starts a history of its own. -/
theorem persistManagedAsset_on {stored : Asset} {after : Database}
    (persisted : persistManagedAsset db user stored none false = some after) :
    OnAssets db after fun revision => revision.logicalId = stored.logicalId := by
  unfold persistManagedAsset at persisted
  split_ifs at persisted
  · cases persisted
    exact .refl ..
  · obtain ⟨rows, inserted, rfl⟩ := Option.map_eq_some_iff.mp persisted
    obtain ⟨rfl, _⟩ := insertRow_ok (toOption_some_iff.mp inserted)
    refine ⟨rfl, fun revision member _ => ?_⟩
    rcases List.mem_append.mp member with before | new
    · exact .inl before
    · rw [List.mem_singleton.mp new]
      exact .inr rfl

theorem moveToTrash_on {id : UUID} {now : Timestamp} {after : Database}
    (trashed : moveToTrash db user id now = some after) : OnAssets db after fun _ => False := by
  unfold moveToTrash at trashed
  split at trashed
  · contradiction
  · rename_i asset found
    have holds := List.find?_some found
    simp only [decide_eq_true_eq] at holds
    rcases trashAsset_some trashed with ⟨_, rfl⟩ | ⟨_, _, _, rfl⟩
    · exact .refl ..
    · refine ⟨rfl, fun revision member active => .inl ?_⟩
      obtain ⟨source, there, rfl⟩ := List.mem_map.mp member
      split at active
      · -- The loaded row was active, so the column is written.
        simp only [flushTrash, Asset.trash, flush, holds.2.2, reduceCtorEq, if_false] at active
      · rename_i spared
        rwa [if_neg spared]

/-- A revision of the history of `target`, with its key. -/
def Is (target revision : Asset) : Prop := revision.id = target.id ∧ SameHistory revision target

theorem restore_on {id : UUID} {after : Database} (allowed : Allowed db.assets)
    (restored : restoreAssetFromTrash db user id = some after) :
    OnAssets db after fun revision => ∃ target ∈ db.ownAsset? user id, Is target revision := by
  unfold restoreAssetFromTrash at restored
  split at restored
  · contradiction
  · rename_i target found
    obtain ⟨here, named, _⟩ := ownAsset?_found found
    split_ifs at restored
    cases restored
    refine ⟨rfl, fun revision member active => ?_⟩
    obtain ⟨source, there, rfl⟩ := List.mem_map.mp member
    split
    · rename_i same
      cases List.inj_on_of_nodup_map allowed.unique there here (same.trans named.symm)
      exact .inr ⟨_, found, rfl, rfl, rfl⟩
    · exact .inl there

theorem rollback_on {asset version : UUID} {now : Timestamp} {after : Database}
    (allowed : Allowed db.assets) (rolled : rollbackAsset db user asset version now = some after) :
    OnAssets db after fun revision => ∃ target ∈ db.ownAsset? user version, Is target revision := by
  unfold rollbackAsset at rolled
  split at rolled
  · rename_i current target _ found
    obtain ⟨here, named, _⟩ := ownAsset?_found found
    split_ifs at rolled
    · cases rolled
      exact .refl ..
    · cases rolled
      refine ⟨rfl, fun revision member active => ?_⟩
      obtain ⟨superseded, between, rfl⟩ := List.mem_map.mp member
      obtain ⟨source, there, rfl⟩ := List.mem_map.mp between
      by_cases chosen : source.id = version
      · cases List.inj_on_of_nodup_map allowed.unique there here (chosen.trans named.symm)
        have kept : ¬ previousRevision user target target = true := by simp [previousRevision]
        rw [if_neg kept, if_pos chosen]
        exact .inr ⟨target, found, rfl, rfl, rfl⟩
      · by_cases previous : previousRevision user target source = true
        · have spared : (source.supersede now).id ≠ version := chosen
          rw [if_pos previous, if_neg spared] at active
          contradiction
        · rw [if_neg previous, if_neg chosen]
          exact .inl there
  · contradiction

/-- The root as a transaction on it leaves it. -/
theorem Serving.put {row : SyncRoot} {after : SyncDb} (serving : Serving user root tracked db)
    (found : db.root? user root = some row) (id : after.root.id = row.id)
    (owner : after.root.userId = row.userId) (active : after.root.active = true)
    (linked : Connected tracked after) (answerable : Answerable after) :
    Serving user root tracked (db.put after) := by
  obtain ⟨member, named, mine⟩ := root?_found found
  have current : (db.put after).root? user root = some after.root := by
    have written : (if row.id = after.root.id then after.root else row) = after.root := if_pos id.symm
    refine (Rows.find?_map_only member ?_ ?_).trans (congrArg some written)
    · rw [written]
      exact decide_eq_true ⟨id.trans named, owner.trans mine⟩
    · intro other _ holds
      rw [written]
      split at holds
      · rename_i same
        rw [if_pos same]
      · rename_i different
        have same := (of_decide_eq_true holds).1
        exact absurd (same.trans (named.symm.trans id.symm)) different
  refine ⟨serving.enabled, serving.retention, ?_, after.root, current, active, ?_, ?_⟩
  · have keys : ((db.put after).roots.map SyncRoot.id) = db.roots.map SyncRoot.id :=
      Rows.updateKey_keys fun _ _ => rfl
    rw [keys]
    exact serving.single
  · exact ⟨linked.allowed, linked.keyed, linked.ids, linked.link⟩
  · exact ⟨answerable.mine, answerable.named, answerable.single, answerable.asked⟩

theorem ofSync_committed {result : Except Failure SyncDb} {after : Database}
    (ended : Ending.ofSync db result = .committed after) : ∃ rows, result = .ok rows ∧ after = db.put rows := by
  cases result with
  | ok rows =>
    cases ended
    exact ⟨rows, rfl, rfl⟩
  | error failure => cases failure <;> contradiction

theorem Serving.constrained (serving : Serving user root tracked db) : Constrained db := by
  obtain ⟨row, _, _, linked, _⟩ := serving.synced
  exact ⟨linked.allowed, linked.keyed⟩

theorem pushOperations_serving {owner id : UUID} {clientId : String} {now : Timestamp}
    {inputs : List (SyncOperationInput × FreshIds)} {after : Database}
    (serving : Serving user root tracked db) (draws : Call.Draws db (.push owner id clientId inputs))
    (mixes : Mixes root (.push owner id clientId inputs))
    (ended : (pushOperations db owner id clientId inputs now).ending = .committed after) :
    Serving user root tracked after := by
  obtain ⟨rfl, parsed⟩ := mixes
  obtain ⟨row, found, active, linked, answerable⟩ := serving.synced
  unfold pushOperations at ended
  split at ended
  · contradiction
  · rename_i other there
    obtain ⟨rfl, rfl⟩ := root?_owner serving.single found there
    split at ended
    · contradiction
    · obtain ⟨rows, result, rfl⟩ := ofSync_committed ended
      obtain ⟨b, applied, rfl⟩ := map_ok_iff.mp result
      unfold Sync.applyOperations at applied
      split_ifs at applied
      obtain ⟨last, all, finished⟩ := bind_ok_iff.mp applied
      cases finished
      obtain ⟨assets, items, operations, conflicts⟩ := draws
      have unused : Sync.Unused (db.view other) (inputs.map Prod.snd ++ []) := by
        rw [List.append_nil]
        exact ⟨assets, items, operations, conflicts⟩
      obtain ⟨linked, answerable, _, same, _⟩ := Sync.applyAll_linked (b := ⟨other.cursor, db.view other, [], []⟩)
        linked answerable parsed unused all
      have id : last.db.root.id = other.id := congrArg SyncRoot.id same
      have owner : last.db.root.userId = other.userId := congrArg SyncRoot.userId same
      have still : last.db.root.active = true := (congrArg SyncRoot.active same).trans active
      refine serving.put found id owner still ?_ ?_
      · exact ⟨linked.allowed, linked.keyed, linked.ids, linked.link⟩
      · exact ⟨answerable.mine, answerable.named, answerable.single, answerable.asked⟩

theorem resolveSyncConflict_serving {owner conflict : UUID} {choice : Choice} {fresh : FreshIds}
    {now : Timestamp} {after : Database} (serving : Serving user root tracked db)
    (draws : Call.Draws db (.resolve owner conflict choice fresh))
    (ended : (resolveSyncConflict db owner conflict choice fresh now).ending = .committed after) :
    Serving user root tracked after := by
  obtain ⟨row, found, active, linked, answerable⟩ := serving.synced
  obtain ⟨_, named, _⟩ := root?_found found
  unfold resolveSyncConflict at ended
  split at ended
  · contradiction
  · rename_i loaded present
    have member := List.mem_of_find?_eq_some present
    have here : loaded.rootId = root := (answerable.mine loaded member).trans named
    rw [here] at ended
    split at ended
    · contradiction
    · rename_i other there
      obtain ⟨rfl, rfl⟩ := root?_owner serving.single found there
      split at ended
      · contradiction
      · obtain ⟨rows, result, rfl⟩ := ofSync_committed ended
        obtain ⟨linked, answerable, cursor, advanced⟩ := Sync.resolveConflict_linked linked answerable
          member draws.1 draws.2 result
        refine serving.put found ?_ ?_ ?_ linked answerable
        · rw [advanced]
          rfl
        · rw [advanced]
          rfl
        · rw [advanced]
          exact active

/-- A call that activates `target` again, if anything. -/
theorem Serving.reactivated {after : Database} {found : Option Asset}
    (serving : Serving user root tracked db) (constrained : Constrained after)
    (on : OnAssets db after fun revision => ∃ target ∈ found, Is target revision)
    (relinks : ∀ target ∈ found, target.userId = user → tracked target.logicalId → ∀ item ∈ db.items,
      item.rootId = root → item.logicalId = target.logicalId → item.deletedAt = none →
        ∀ id ∈ item.assetId, target.id = id) : Serving user root tracked after := by
  refine serving.assets on constrained ?_
  rintro revision ⟨target, there, named, same⟩ owner known item member here logicalId live id has
  rw [named]
  rw [same.1] at owner
  rw [same.2] at known
  exact relinks target there owner known item member here (logicalId.trans same.2) live id has

theorem commit_serving {call : Call} {now : Timestamp} {after : Database}
    (serving : Serving user root tracked db) (draws : call.Draws db) (mixes : Mixes root call)
    (relinks : Relinks user root tracked db call)
    (ended : (call.transaction db now).ending = .committed after) : Serving user root tracked after := by
  have constrained := (transaction_conforms now serving.constrained draws).commits after ended
  have allowed := serving.constrained.allowed
  have once {result : Option Database} (ended : (Transaction.once result).ending = .committed after) :
      result = some after := by
    cases result with
    | none => contradiction
    | some other =>
      cases ended
      rfl
  cases call with
  | upload owner stored =>
    simp only [Call.transaction, uploadAsset] at ended
    split at ended
    · contradiction
    · split at ended
      · rename_i persisted
        cases ended
        refine serving.assets (persistManagedAsset_on persisted) constrained ?_
        intro revision logicalId _ _ item member _ same
        exact absurd (List.mem_map.mpr ⟨item, member, same.trans logicalId⟩) draws.2.2
      · contradiction
  | push owner id clientId inputs => exact pushOperations_serving serving draws mixes ended
  | resolve owner conflict choice fresh => exact resolveSyncConflict_serving serving draws ended
  | trash owner asset =>
    have trashed := once ended
    split at trashed
    · exact serving.assets (moveToTrash_on trashed) constrained fun _ never => never.elim
    · contradiction
  | restore owner asset =>
    have restored := once ended
    split at restored
    · exact serving.reactivated constrained (restore_on allowed restored) relinks
    · contradiction
  | rollback owner asset version =>
    simp only [Call.transaction, rollbackToVersion] at ended
    split at ended
    · split at ended
      · rename_i rolled _
        cases ended
        exact serving.reactivated constrained (rollback_on allowed rolled) relinks
      · contradiction
    · contradiction
  | purge asset removed => exact mixes.elim
  | deleteAccount owner => exact mixes.elim
  | eraseAccount owner => exact mixes.elim

theorem request_serving {label : Call × Timestamp} {after : Database} (serving : Serving user root tracked db)
    (mixes : Mixes root label.1) (relinks : Relinks user root tracked db label.1)
    (served : request db label = some after) : Serving user root tracked after := by
  unfold request at served
  split_ifs at served with draws
  cases served
  unfold Call.next
  cases ended : (label.1.transaction db label.2).ending with
  | committed after => exact commit_serving serving draws mixes relinks ended
  | refused | violated => exact serving

/-- What the desktop counts on for a history. In a push, a move or a delete that is up to date
takes effect, and the answer `keep_local` to an open conflict does, where it still can. -/
def Answers (user root logicalId : UUID) (db : Database) (label : Call × Timestamp) : Prop :=
  label.1.Draws db → ∀ row ∈ db.root? user root,
    match label.1 with
    | .push owner id clientId inputs => owner = user → id = root →
      ∃ after, (label.1.transaction db label.2).ending = .committed after ∧
        ∀ before entry rest b, inputs = before ++ entry :: rest →
          Sync.applyAll clientId label.2 ⟨row.cursor, db.view row, [], []⟩ before = .ok b →
          entry.1.logicalId = logicalId → UpToDate b.db clientId entry.1 →
          ∃ operation ∈ after.operations,
            operation.operationId = entry.1.operationId ∧ operation.status = .applied
    | .resolve owner id .keepLocal _ => owner = user →
      ∀ conflict ∈ db.conflicts.find? (·.id = id), conflict.status = .unresolved →
        conflict.logicalId = logicalId →
        (∃ item ∈ (db.view row).item? logicalId, item.deletedAt = none) →
        (db.view row).activeRevision? logicalId ≠ none →
        ∃ operation ∈ (db.view row).operation? conflict.localOperationId,
          Feasible (db.view row) operation →
            ∃ after, (label.1.transaction db label.2).ending = .committed after
    | _ => True

theorem Serving.days {row : SyncRoot} (serving : Serving user root tracked db)
    (found : db.root? user root = some row) : 1 ≤ (db.view row).retentionDays := by
  have days := serving.retention
  rw [← (root?_found found).2.2] at days
  exact days

theorem Serving.available {row : SyncRoot} (serving : Serving user root tracked db)
    (found : db.root? user root = some row) : (db.view row).userAvailable = true := by
  have enabled := serving.enabled
  rw [← (root?_found found).2.2] at enabled
  exact decide_eq_true enabled

theorem Serving.pushes {clientId : String} {now : Timestamp} {row : SyncRoot}
    {inputs : List (SyncOperationInput × FreshIds)} (serving : Serving user root tracked db)
    (found : db.root? user root = some row) (draws : Call.Draws db (.push user root clientId inputs))
    (parsed : ∀ entry ∈ inputs, Sync.Parsed entry.1) :
    ∃ after, (pushOperations db user root clientId inputs now).ending = .committed after ∧
      ∀ before entry rest b, inputs = before ++ entry :: rest →
        Sync.applyAll clientId now ⟨row.cursor, db.view row, [], []⟩ before = .ok b →
        tracked entry.1.logicalId → UpToDate b.db clientId entry.1 →
        ∃ operation ∈ after.operations,
          operation.operationId = entry.1.operationId ∧ operation.status = .applied := by
  obtain ⟨row', again, active, linked, answerable⟩ := serving.synced
  cases Option.some.inj (found.symm.trans again)
  obtain ⟨assets, items, operations, conflicts⟩ := draws
  have unused : Sync.Unused (db.view row) (inputs.map Prod.snd) := ⟨assets, items, operations, conflicts⟩
  obtain ⟨_, last, all, _⟩ := Sync.applyAll_serves (b := ⟨row.cursor, db.view row, [], []⟩) clientId now
    linked.allowed linked.keyed unused
  have available := serving.available found
  have applied : ∃ after : Batch, Sync.applyOperations (db.view row) row.cursor clientId inputs now = .ok after ∧
      after.db.operations = last.db.operations := by
    have still : (db.view row).root.active = true := active
    simp only [Sync.applyOperations, available, still, all, Bool.not_true, Bool.false_eq_true, if_false,
      bind, Except.bind]
    exact ⟨_, rfl, rfl⟩
  obtain ⟨after, applied, same⟩ := applied
  refine ⟨db.put after.db, ?_, ?_⟩
  · unfold pushOperations
    rw [found]
    dsimp only
    have open' : ¬ (¬ db.Enabled user ∨ row.active = false) := by
      rw [active]
      simp only [serving.enabled, not_true_eq_false, reduceCtorEq, or_self, not_false_eq_true]
    rw [if_neg open', applied]
    rfl
  · rintro before ⟨input, fresh⟩ rest b rfl begun known upToDate
    have first : Sync.Unused (db.view row) (before.map Prod.snd ++ fresh :: rest.map Prod.snd) := by
      rw [List.map_append] at unused
      exact unused
    obtain ⟨linked', _, unused', sameRoot, retention⟩ := Sync.applyAll_linked
      (b := ⟨row.cursor, db.view row, [], []⟩) linked answerable
      (fun entry member => parsed entry (List.mem_append_left _ member)) first begun
    have days : 1 ≤ b.db.retentionDays := by
      rw [retention]
      exact serving.days found
    obtain ⟨middle, operation, turn, appended, named, status⟩ := Sync.turn_applies now linked' known
      unused' days upToDate
    obtain ⟨b', middle', begun', turn', following⟩ := Sync.applyAll_split all
    cases Except.ok.inj (begun.symm.trans begun')
    cases Except.ok.inj (turn.symm.trans turn')
    obtain ⟨later, grown, _⟩ := (Sync.applyAll_appends following).added
    have recorded : operation ∈ after.db.operations := by
      rw [same, grown, appended]
      exact List.mem_append_left _ (List.mem_append_right _ List.mem_cons_self)
    exact ⟨operation, recorded, named, status⟩

theorem Serving.resolves {id logicalId : UUID} {fresh : FreshIds} {now : Timestamp} {row : SyncRoot}
    {conflict : SyncConflict} (serving : Serving user root tracked db)
    (found : db.root? user root = some row) (draws : Call.Draws db (.resolve user id .keepLocal fresh))
    (present : db.conflicts.find? (·.id = id) = some conflict) (unresolved : conflict.status = .unresolved)
    (about : conflict.logicalId = logicalId) (known : tracked logicalId) {item : SyncItem}
    (there : (db.view row).item? logicalId = some item) (live : item.deletedAt = none)
    (revision : (db.view row).activeRevision? logicalId ≠ none) :
    ∃ operation ∈ (db.view row).operation? conflict.localOperationId,
      Feasible (db.view row) operation →
        ∃ after, (resolveSyncConflict db user id .keepLocal fresh now).ending = .committed after := by
  obtain ⟨row', again, active, linked, answerable⟩ := serving.synced
  cases Option.some.inj (found.symm.trans again)
  obtain ⟨_, named, _⟩ := root?_found found
  have member : conflict ∈ (db.view row).conflicts := List.mem_of_find?_eq_some present
  obtain ⟨operation, recorded, same, rootId, subject, valid⟩ := answerable.asked conflict member unresolved
  have located : (db.view row).operation? conflict.localOperationId = some operation := by
    cases located : (db.view row).operation? conflict.localOperationId with
    | none => exact absurd (decide_eq_true ⟨same, rootId⟩) (List.find?_eq_none.mp located operation recorded)
    | some other =>
      obtain ⟨also, alike, _⟩ := Sync.operation?_found located
      exact congrArg some (List.inj_on_of_nodup_map linked.keyed.ids also recorded (alike.trans same.symm))
  refine ⟨operation, located, fun feasible => ?_⟩
  have history : operation.logicalId = logicalId := subject.trans about
  have days := serving.days found
  rw [← history] at there revision known
  obtain ⟨settled, kept⟩ := linked.keepsLocal now known valid there live revision days feasible draws.1 draws.2
  have resolved : ∃ after, Sync.resolveConflict (db.view row) conflict .keepLocal fresh now = .ok after := by
    have here : conflict.rootId = (db.view row).root.id := answerable.mine conflict member
    have available := serving.available found
    have still : (db.view row).root.active = true := active
    have listed : (db.view row).conflicts.any (fun other =>
        other.id = conflict.id ∧ other.rootId = (db.view row).root.id) = true :=
      List.any_eq_true.mpr ⟨conflict, member, decide_eq_true ⟨rfl, here⟩⟩
    simp only [Sync.resolveConflict, here, available, still, unresolved, located, kept, bind, Except.bind]
    simp only [listed, ne_eq, not_true_eq_false, if_false, Bool.not_true, Bool.false_eq_true]
    exact ⟨_, rfl⟩
  obtain ⟨after, resolved⟩ := resolved
  refine ⟨db.put after, ?_⟩
  have owned : conflict.rootId = root := (answerable.mine conflict member).trans named
  unfold resolveSyncConflict
  rw [present]
  dsimp only
  rw [owned, found]
  dsimp only
  rw [if_neg (not_not.mpr serving.enabled), resolved]
  rfl

theorem answers {label : Call × Timestamp} {logicalId : UUID} (serving : Serving user root (· = logicalId) db)
    (mixes : Mixes root label.1) : Answers user root logicalId db label := by
  intro draws row found
  obtain ⟨call, now⟩ := label
  cases call with
  | push owner id clientId inputs =>
    rintro rfl rfl
    exact serving.pushes found draws mixes.2
  | resolve owner id choice fresh =>
    cases choice with
    | keepRemote => trivial
    | keepLocal =>
      rintro rfl conflict present unresolved about ⟨item, there, live⟩ revision
      exact serving.resolves found draws present unresolved about rfl there live revision
  | _ => trivial

/-- A root that nothing was pushed to. -/
theorem emptyCatalogue_serving {users : List User} {roots : List SyncRoot}
    {uploads : List Uploads.UploadSession} {retentionDays : UUID → Nat} {row : SyncRoot}
    (enabled : (emptyCatalogue users roots uploads retentionDays).Enabled user)
    (retention : 1 ≤ retentionDays user) (single : (roots.map SyncRoot.id).Nodup)
    (found : (emptyCatalogue users roots uploads retentionDays).root? user root = some row)
    (active : row.active = true) : Serving user root tracked (emptyCatalogue users roots uploads retentionDays) := by
  obtain ⟨allowed, keyed⟩ := emptyCatalogue_constrained users roots uploads retentionDays
  have nothing {α : Type} {P : α → Prop} : ∀ a ∈ ([] : List α), P a := fun _ never => absurd never List.not_mem_nil
  refine ⟨enabled, retention, single, row, found, active, ?_, ?_⟩
  · exact ⟨allowed, keyed, List.nodup_nil, nothing⟩
  · exact ⟨nothing, nothing, nothing, nothing⟩

/-- From where on a history is linked, every run that relinks it answers for it: whatever else
was uploaded, pushed, resolved, trashed, restored or rolled back before and meanwhile. -/
theorem linked_history_answers {users : List User} {roots : List SyncRoot}
    {uploads : List Uploads.UploadSession} {retentionDays : UUID → Nat} {row : SyncRoot}
    (enabled : (emptyCatalogue users roots uploads retentionDays).Enabled user)
    (retention : 1 ≤ retentionDays user) (single : (roots.map SyncRoot.id).Nodup)
    (found : (emptyCatalogue users roots uploads retentionDays).root? user root = some row)
    (active : row.active = true) {first second : List (Call × Timestamp)}
    (mixes : ∀ label ∈ first ++ second, Mixes root label.1)
    (reached : run request (emptyCatalogue users roots uploads retentionDays) first = some db)
    {logicalId : UUID} (points : PointsAtActive user root (· = logicalId) db)
    (relinks : Along request (fun db label => Relinks user root (· = logicalId) db label.1) db second) :
    Along request (Answers user root logicalId) db second := by
  have before : Serving user root (fun _ => False) db := by
    have initial : Serving user root (fun _ => False) _ :=
      emptyCatalogue_serving enabled retention single found active
    refine invariant (fun db label after serving mixes served => ?_) initial
      (along_of_forall _ fun label member => mixes label (List.mem_append_left _ member)) reached
    exact request_serving serving mixes (fun _ _ _ never => never.elim) served
  have linked : Serving user root (· = logicalId) db := by
    obtain ⟨enabled, retention, single, row, found, active, linked, answerable⟩ := before
    obtain ⟨_, rfl, rfl⟩ := root?_found found
    refine ⟨enabled, retention, single, row, found, active, ?_, answerable⟩
    exact ⟨linked.allowed, linked.keyed, linked.ids, points⟩
  have along := relinks.and (along_of_forall db fun label member =>
    mixes label (List.mem_append_right first member))
  refine along_of_invariant (fun db label after serving met served => ?_) ?_ linked along
  · exact request_serving serving met.2 met.1 served
  · exact fun db label serving met => answers serving met.2

/-- A user with a root that nothing was pushed to. -/
def freshDesktop : Database :=
  emptyCatalogue [⟨1, none, true⟩] [⟨10, 1, 0, true, none⟩] [] fun _ => 30

def uploadPhoto (id : UUID) (checksum : String) : Call × Timestamp :=
  (.upload 1 { photo id .active with checksum }, 100)

/-- The desktop pushes its `n`-th operation, on item 30. -/
def pushOne (n : Nat) (kind : Sync.OperationKind) (baseRevision relativePath : Option String)
    (assetId : Option UUID) : Call × Timestamp :=
  (.push 1 10 "desktop" [(⟨n, n, kind, 30, baseRevision, relativePath, assetId⟩,
    ⟨200 + n, 300 + n, 400 + n, 500 + n⟩)], 100 + n)

def twoRevisions : List (Call × Timestamp) :=
  [uploadPhoto 5 "a", pushOne 1 .upsert none (some "photo") (some 5), uploadPhoto 6 "b",
    pushOne 2 .upsert (some (Sync.nextRevision 1 1)) (some "photo") (some 6)]

def moveLatest : Call × Timestamp := pushOne 3 .move (some (Sync.nextRevision 2 2)) (some "moved") none

/-- The current revision is trashed and restored, and the item is moved. -/
theorem linked_history_answers_trash_and_restore :
    ∃ db, run request freshDesktop twoRevisions = some db ∧
      Along request (Answers 1 10 30) db
        [((.trash 1 6), 150), ((.restore 1 6), 160), moveLatest] ∧
      (run request db [((.trash 1 6), 150), ((.restore 1 6), 160), moveLatest]).any fun after =>
        after.items.map SyncItem.relativePath = ["moved"] := by
  have reached : (run request freshDesktop twoRevisions).any fun db =>
      PointsAtActive 1 10 (· = 30) db ∧
      Along request (fun db label => Relinks 1 10 (· = 30) db label.1) db
        [((.trash 1 6), 150), ((.restore 1 6), 160), moveLatest] ∧
      (run request db [((.trash 1 6), 150), ((.restore 1 6), 160), moveLatest]).any fun after =>
        after.items.map SyncItem.relativePath = ["moved"] := by
    decide +kernel
  obtain ⟨db, same, holds⟩ := (Option.any_eq_true _ _).mp reached
  obtain ⟨points, relinks, moved⟩ := of_decide_eq_true holds
  refine ⟨db, same, ?_, moved⟩
  have found : freshDesktop.root? 1 10 = some ⟨10, 1, 0, true, none⟩ := rfl
  exact linked_history_answers (by decide) (by decide) (by decide) found rfl
    (by decide +kernel) same points relinks

/-- The state after a call that commits is the state that the request leaves. -/
theorem request_committed {label : Call × Timestamp} {after : Database} (draws : label.1.Draws db)
    (ended : (label.1.transaction db label.2).ending = .committed after) : request db label = some after := by
  rw [request, if_pos draws, Call.next, ended]

/-- The first revision is rolled back to, and the desktop is up to date with the second. -/
def rolledBack : List (Call × Timestamp) := twoRevisions ++ [(.rollback 1 6 5, 200)]

/-- The desktop has uploaded a revision from a stale base, and the upload is trashed. -/
def trashedUpload : List (Call × Timestamp) :=
  [uploadPhoto 5 "a", pushOne 1 .upsert none (some "photo") (some 5), uploadPhoto 6 "b",
    pushOne 2 .upsert none (some "photo") (some 6), (.trash 1 6, 200)]

def keepUpload : Call × Timestamp := (.resolve 1 502 .keepLocal ⟨80, 81, 82, 83⟩, 300)

/-- After the rollback the move is recorded as an invalid transition; and `keep_local` is
refused where the asset of the operation is in the trash. Both items are live, and their
histories have active revisions. -/
theorem stranded_items :
    (∃ db, run request freshDesktop rolledBack = some db ∧ (∀ label ∈ rolledBack, Mixes 10 label.1) ∧
      ¬ Answers 1 10 30 db moveLatest ∧
      (request db moveLatest).any fun after => after.conflicts.map SyncConflict.kind = [.invalidTransition]) ∧
    ∃ db, run request freshDesktop trashedUpload = some db ∧ (∀ label ∈ trashedUpload, Mixes 10 label.1) ∧
      db.items.map SyncItem.deletedAt = [none] ∧
      (db.assets.map fun asset => (asset.id, asset.lifecycleState)) = [(5, .active), (6, .trashed)] ∧
      db.conflicts.map (fun conflict => (conflict.id, conflict.status)) = [(502, .unresolved)] ∧
      keepUpload.1.Draws db ∧ ∀ after, (keepUpload.1.transaction db keepUpload.2).ending ≠ .committed after := by
  constructor
  · have stale : (run request freshDesktop rolledBack).any fun db => moveLatest.1.Draws db ∧
        (db.root? 1 10).any (fun row => UpToDate (db.view row) "desktop"
          ⟨3, 3, .move, 30, some (Sync.nextRevision 2 2), some "moved", none⟩) ∧
        (request db moveLatest).any (fun after => after.conflicts.map SyncConflict.kind = [.invalidTransition] ∧
          ∀ operation ∈ after.operations, operation.operationId = 3 → operation.status ≠ .applied) := by
      decide +kernel
    obtain ⟨db, reached, holds⟩ := (Option.any_eq_true _ _).mp stale
    obtain ⟨draws, upToDate, recorded⟩ := of_decide_eq_true holds
    obtain ⟨row, found, current⟩ := (Option.any_eq_true _ _).mp upToDate
    obtain ⟨last, served, refused⟩ := (Option.any_eq_true _ _).mp recorded
    obtain ⟨kinds, never⟩ := of_decide_eq_true refused
    refine ⟨db, reached, by decide +kernel, fun answers => ?_, ?_⟩
    · obtain ⟨after, ended, applied⟩ := answers draws row found rfl rfl
      cases Option.some.inj ((request_committed draws ended).symm.trans served)
      obtain ⟨operation, member, named, status⟩ := applied [] _ [] _ rfl rfl rfl (of_decide_eq_true current)
      exact never operation member named status
    · rw [served]
      exact decide_eq_true kinds
  · have refused : (run request freshDesktop trashedUpload).any fun db =>
        db.items.map SyncItem.deletedAt = [none] ∧
        (db.assets.map fun asset => (asset.id, asset.lifecycleState)) = [(5, .active), (6, .trashed)] ∧
        db.conflicts.map (fun conflict => (conflict.id, conflict.status)) = [(502, .unresolved)] ∧
        keepUpload.1.Draws db ∧
        (match (keepUpload.1.transaction db keepUpload.2).ending with
          | .committed _ => false
          | _ => true) = true := by
      decide +kernel
    obtain ⟨db, reached, holds⟩ := (Option.any_eq_true _ _).mp refused
    obtain ⟨live, assets, openConflict, draws, ended⟩ := of_decide_eq_true holds
    refine ⟨db, reached, by decide +kernel, live, assets, openConflict, draws, fun after committed => ?_⟩
    rw [committed] at ended
    contradiction

end Drivebound.Lifecycle
