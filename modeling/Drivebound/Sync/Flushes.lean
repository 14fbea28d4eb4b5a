import Mathlib.Data.List.MinMax
import Drivebound.Lifecycle.Constraints
import Drivebound.Sync.Refusals

/-! The table of assets at every flush of `apply_operations` and `resolve_conflict`, and
why it keeps the constraints: the revision that an upsert publishes comes after the
versions of its history, of which none is active any more. -/
namespace Drivebound.Sync
open Checked
open Lifecycle (Allowed Fits Retained SameHistory)

/-- The second flush of an upsert. -/
def publish (db : SyncDb) (revision : Asset) : SyncDb :=
  db.updateAsset revision.id fun asset =>
    { asset with
      lifecycleState := .active, supersededAt := none, trashedAt := none, purgeAfter := none }

def upsertFlushes (db : SyncDb) (input : SyncOperationInput) (item : Option SyncItem)
    (fresh : FreshIds) (now : Timestamp) : List (List Asset) :=
  match input.assetId, input.relativePath with
  | some assetId, some _ =>
    match db.activeAsset? assetId with
    | none => []
    | some asset =>
      let activeTarget := db.activeRevision? input.logicalId
      let superseded := supersedePrevious db activeTarget asset now
      superseded.assets ::
        match upsertRevision superseded input item asset activeTarget
            (db.highestVersion input.logicalId + 1) fresh with
        | .ok (published, revision) => [(publish published revision).assets]
        | .error _ => []
  | _, _ => []

/-- The tables that an operation flushes; a delete flushes once, after `trash_asset`. -/
def operationFlushes (db : SyncDb) (operation : SyncOperation) (input : SyncOperationInput)
    (item : Option SyncItem) (fresh : FreshIds) (now : Timestamp) : List (List Asset) :=
  match input.kind with
  | .upsert => upsertFlushes db input item fresh now
  | .move | .delete =>
    match applyItemOperation db operation input item fresh now with
    | .ok (after, _) => [after.assets]
    | .error _ => []

def turnFlushes (clientId : String) (now : Timestamp) (b : Batch)
    (entry : SyncOperationInput × FreshIds) : List (List Asset) :=
  let item := b.db.item? entry.1.logicalId
  if (duplicate? b.db clientId entry.1).isNone ∧ baseConflict entry.1 item = none then
    operationFlushes b.db (newOperation b clientId entry.1 entry.2) entry.1 item entry.2 now
  else []

/-- The tables that the loop flushes, up to an error. -/
def pushFlushes (clientId : String) (now : Timestamp) :
    Batch → List (SyncOperationInput × FreshIds) → List (List Asset)
  | _, [] => []
  | b, entry :: rest => turnFlushes clientId now b entry ++
    match applyOne clientId now b entry with
    | .ok after => pushFlushes clientId now after rest
    | .error _ => []

/-- The checks of `resolve_conflict` before it looks for the operation. -/
def resolvable (db : SyncDb) (loaded : SyncConflict) : Bool :=
  loaded.rootId = db.root.id ∧ db.userAvailable ∧ db.root.active ∧
    db.conflicts.any (fun conflict => conflict.id = loaded.id ∧ conflict.rootId = db.root.id) ∧
    loaded.status = .unresolved

/-- Only `keep_local` changes assets. -/
def resolveFlushes (db : SyncDb) (loaded : SyncConflict) (choice : Choice) (fresh : FreshIds)
    (now : Timestamp) : List (List Asset) :=
  match resolvable db loaded, choice, db.operation? loaded.localOperationId with
  | true, .keepLocal, some operation =>
    match storedInput operation with
    | .ok input => operationFlushes db operation input (db.item? operation.logicalId) fresh now
    | .error _ => []
  | _, _, _ => []

theorem le_highestVersion {db : SyncDb} {asset : Asset} (member : asset ∈ db.assets)
    (owner : asset.userId = db.root.userId) : asset.version ≤ db.highestVersion asset.logicalId := by
  apply List.le_max_of_le' 0 (x := asset.version) _ (Nat.le_refl _)
  apply List.mem_map_of_mem
  exact List.mem_filter.mpr ⟨member, decide_eq_true ⟨owner, rfl⟩⟩

/-- The history of an upsert once its active revision is out of the way: the uploaded
asset alone may be active in it. -/
structure Cleared (db : SyncDb) (logicalId : UUID) (asset : Asset) (cleared : SyncDb) : Prop where
  allowed : Allowed cleared.assets
  present : asset ∈ cleared.assets
  ids : cleared.assets.map Asset.id = db.assets.map Asset.id
  rest : cleared = { db with assets := cleared.assets }
  alone : ∀ other ∈ cleared.assets, other.userId = db.root.userId → other.logicalId = logicalId →
    other.lifecycleState = .active → other.id = asset.id
  below : ∀ other ∈ cleared.assets, other.userId = db.root.userId → other.logicalId = logicalId →
    other.version ≤ db.highestVersion logicalId

theorem activeAsset?_found {db : SyncDb} {id : UUID} {asset : Asset}
    (found : db.activeAsset? id = some asset) : asset ∈ db.assets ∧ asset.id = id ∧
      asset.userId = db.root.userId ∧ asset.lifecycleState = .active := by
  have holds := List.find?_some found
  simp only [decide_eq_true_eq] at holds
  exact ⟨List.mem_of_find?_eq_some found, holds⟩

theorem activeRevision?_found {db : SyncDb} {logicalId : UUID} {asset : Asset}
    (found : db.activeRevision? logicalId = some asset) : asset ∈ db.assets ∧
      asset.userId = db.root.userId ∧ asset.logicalId = logicalId ∧ asset.lifecycleState = .active := by
  have holds := List.find?_some found
  simp only [decide_eq_true_eq] at holds
  exact ⟨List.mem_of_find?_eq_some found, holds⟩

/-- The active revision of a history is found if there is one. -/
theorem activeRevision?_eq {db : SyncDb} {asset : Asset} (allowed : Allowed db.assets)
    (member : asset ∈ db.assets) (owner : asset.userId = db.root.userId)
    (active : asset.lifecycleState = .active) : db.activeRevision? asset.logicalId = some asset := by
  cases found : db.activeRevision? asset.logicalId with
  | none =>
    have missing := List.find?_eq_none.mp found asset member
    exact absurd (decide_eq_true ⟨owner, rfl, active⟩) missing
  | some other =>
    obtain ⟨there, owner', logicalId, active'⟩ := activeRevision?_found found
    have same := allowed.active other there asset member ⟨owner'.trans owner.symm, logicalId⟩ active' active
    exact congrArg some (List.inj_on_of_nodup_map allowed.unique there member same)

theorem supersedePrevious_cleared {db : SyncDb} {asset : Asset} (logicalId : UUID) (now : Timestamp)
    (allowed : Allowed db.assets) (member : asset ∈ db.assets) :
    Cleared db logicalId asset (supersedePrevious db (db.activeRevision? logicalId) asset now) := by
  unfold supersedePrevious
  cases found : db.activeRevision? logicalId with
  | none =>
    refine ⟨allowed, member, rfl, rfl, fun other there owner logical active => ?_,
      fun other there owner logical => logical ▸ le_highestVersion there owner⟩
    exact absurd (decide_eq_true ⟨owner, logical, active⟩) (List.find?_eq_none.mp found other there)
  | some target =>
    obtain ⟨here, owner, logical, active⟩ := activeRevision?_found found
    have single : ∀ other ∈ db.assets, other.userId = db.root.userId → other.logicalId = logicalId →
        other.lifecycleState = .active → other.id = target.id := fun other there owner' logical' active' =>
      allowed.active other there target here ⟨owner'.trans owner.symm, logical'.trans logical.symm⟩
        active' active
    dsimp only
    split_ifs with apart
    · have rows : ∀ row ∈ (db.updateAsset target.id fun target => target.supersede now).assets,
          ∃ other ∈ db.assets, row.userId = other.userId ∧ row.logicalId = other.logicalId ∧
            row.version = other.version ∧
            (row.lifecycleState = .active → row = other ∧ other.id ≠ target.id) := by
        intro row there
        obtain ⟨other, before, rfl⟩ := List.mem_map.mp there
        refine ⟨other, before, ?_⟩
        by_cases same : other.id = target.id
        · rw [if_pos same]
          exact ⟨rfl, rfl, rfl, nofun⟩
        · rw [if_neg same]
          exact ⟨rfl, rfl, rfl, fun _ => ⟨rfl, same⟩⟩
      constructor
      · refine allowed.retire (fun other => ?_) (fun other _ => ?_) fun other there => ?_
        · split
          · exact ⟨rfl, ⟨rfl, rfl⟩, rfl⟩
          · exact ⟨rfl, ⟨rfl, rfl⟩, rfl⟩
        · split
          · exact nofun
          · exact fun active => active
        · split
          · rename_i same
            have equal := List.inj_on_of_nodup_map allowed.unique there here same
            have retained := allowed.retained target here
            simp only [Retained, active] at retained
            exact equal ▸ retained
          · exact allowed.retained other there
      · exact List.mem_map.mpr ⟨asset, member, if_neg (Ne.symm apart)⟩
      · exact Rows.updateKey_keys fun _ same => same
      · rfl
      · intro row there owner' logical' active'
        obtain ⟨other, before, _, _, _, kept⟩ := rows row there
        obtain ⟨rfl, different⟩ := kept active'
        exact absurd (single row before owner' logical' active') different
      · intro row there owner' logical'
        obtain ⟨other, before, user, history, version, _⟩ := rows row there
        rw [version, ← logical', history]
        exact le_highestVersion before (user ▸ owner')
    · refine ⟨allowed, member, rfl, rfl, fun other there owner' logical' active' => ?_,
        fun other there owner' logical' => logical' ▸ le_highestVersion there owner'⟩
      exact (single other there owner' logical' active').trans (not_not.mp apart)

/-- The revision of an upsert is the active one of the history that it names. -/
structure Published (db : SyncDb) (logicalId : UUID) (published : SyncDb) (revision : Asset) : Prop where
  allowed : Allowed published.assets
  member : revision ∈ published.assets
  owner : revision.userId = db.root.userId
  logicalId : revision.logicalId = logicalId
  active : revision.lifecycleState = .active
  rest : published = { db with assets := published.assets }

/-- A new version at the end of a history in which nothing else is active. -/
theorem Cleared.fits {db cleared : SyncDb} {logicalId : UUID} {asset revision : Asset}
    (history : Cleared db logicalId asset cleared) (owner : revision.userId = db.root.userId)
    (logical : revision.logicalId = logicalId)
    (version : revision.version = db.highestVersion logicalId + 1) (retained : Retained revision)
    (alone : ∀ other ∈ cleared.assets, other.id = asset.id → other.id ≠ revision.id →
      other.logicalId ≠ logicalId) : Fits cleared.assets revision where
  positive := by omega
  retained := retained
  versions other there _ same equal := by
    have before := history.below other there (same.1.trans owner) (same.2.trans logical)
    omega
  active _ other there different same active := by
    have named := history.alone other there (same.1.trans owner) (same.2.trans logical) active
    exact alone other there named different (same.2.trans logical)

theorem addClone_published {db cleared : SyncDb} {logicalId : UUID} {asset : Asset}
    (history : Cleared db logicalId asset cleared) (owner : asset.userId = db.root.userId)
    (active : asset.lifecycleState = .active) (moves : asset.logicalId ≠ logicalId) (id : UUID) :
    Ends (fun result => Published db logicalId result.1 result.2) (fun _ => True)
      (addClone cleared asset logicalId (db.highestVersion logicalId + 1) id) := by
  unfold addClone cloneAssetRevision
  rw [if_pos (.inl active)]
  dsimp only [Except.mapError, bind, Except.bind, flush]
  cases inserted : insertRow Asset.id cleared.assets { asset with
      id, logicalId, version := db.highestVersion logicalId + 1
      lifecycleState := .active
      supersededAt := none
      trashedAt := none
      purgeAfter := none
      deletedBy := none } with
  | error failure => trivial
  | ok rows =>
    refine ⟨history.allowed.insert inserted (history.fits owner rfl rfl rfl ?_), ?_, owner, rfl, rfl, ?_⟩
    · intro other there same _ named
      have equal := List.inj_on_of_nodup_map history.allowed.unique there history.present same
      exact moves (equal ▸ named)
    · rw [(insertRow_ok inserted).1]
      exact List.mem_append_right _ List.mem_cons_self
    · rw [history.rest]

theorem upsertRevision_published {db cleared : SyncDb} {input : SyncOperationInput}
    {item : Option SyncItem} {asset : Asset} {fresh : FreshIds} (allowed : Allowed db.assets)
    (member : asset ∈ db.assets) (owner : asset.userId = db.root.userId)
    (active : asset.lifecycleState = .active)
    (history : Cleared db input.logicalId asset cleared) :
    Ends (fun result => Published db input.logicalId result.1 result.2) (fun _ => True)
      (upsertRevision cleared input item asset (db.activeRevision? input.logicalId)
        (db.highestVersion input.logicalId + 1) fresh) := by
  unfold upsertRevision
  split
  · rename_i moves
    dsimp only
    split
    · exact addClone_published history owner active moves fresh.asset
    · have attached : ∀ row ∈ cleared.assets, row.id = asset.id → Fits cleared.assets
          { row with logicalId := input.logicalId, version := db.highestVersion input.logicalId + 1 } := by
        intro row there same
        cases List.inj_on_of_nodup_map history.allowed.unique there history.present same
        refine history.fits owner rfl rfl ?_ fun _ _ named different => absurd named different
        have retained := allowed.retained asset member
        simp only [Retained, active] at retained ⊢
        exact retained
      refine ⟨history.allowed.rewrite (fun _ => rfl) attached, ?_, owner, rfl, active, ?_⟩
      · exact List.mem_map.mpr ⟨asset, history.present, if_pos rfl⟩
      · dsimp only [SyncDb.updateAsset]
        rw [history.rest]
  · rename_i here
    have target := activeRevision?_eq allowed member owner active
    rw [not_not.mp here] at target
    split
    · -- The uploaded asset is the active revision itself, so nothing is cloned.
      rename_i older
      rw [target] at older
      exact absurd rfl (of_decide_eq_true older.2)
    · exact ⟨history.allowed, history.present, owner, not_not.mp here, active, history.rest⟩

theorem publish_allowed {db published : SyncDb} {logicalId : UUID} {revision : Asset}
    (history : Published db logicalId published revision) : Allowed (publish published revision).assets := by
  refine history.allowed.rewrite (fun _ => rfl) fun row there same => ?_
  cases List.inj_on_of_nodup_map history.allowed.unique there history.member same
  refine history.allowed.fits_in_place history.member rfl ⟨rfl, rfl⟩ rfl rfl ?_
  intro _ other here different together active
  exact different (history.allowed.active other here revision history.member together active history.active)

/-- What an upsert that takes effect has done. -/
structure Upserted (db : SyncDb) (input : SyncOperationInput) (item : Option SyncItem) (fresh : FreshIds)
    (now : Timestamp) (asset : Asset) (published : SyncDb) (revision : Asset) (after : SyncDb) : Prop where
  uploaded : ∃ assetId, input.assetId = some assetId ∧ db.activeAsset? assetId = some asset
  path : input.relativePath ≠ none
  upserted : upsertRevision (supersedePrevious db (db.activeRevision? input.logicalId) asset now) input item
    asset (db.activeRevision? input.logicalId) (db.highestVersion input.logicalId + 1) fresh =
      .ok (published, revision)
  rest : after = { publish published revision with items := after.items }
  inserted : item = none → ∃ row, insertRow SyncItem.id published.items row = .ok after.items ∧
    row.id = fresh.item ∧ row.rootId = published.root.id ∧ row.logicalId = input.logicalId ∧
      row.assetId = some revision.id
  updated : ∀ row ∈ item, ∃ change, after.items =
      (published.updateItem row.id change).items ∧ ∀ other, (change other).id = other.id ∧
        (change other).rootId = other.rootId ∧ (change other).logicalId = other.logicalId ∧
        (change other).assetId = some revision.id

theorem applyUpsert_upserted {db after : SyncDb} {operation done : SyncOperation}
    {input : SyncOperationInput} {item : Option SyncItem} {fresh : FreshIds} {now : Timestamp}
    (result : applyUpsert db operation input item fresh now = .ok (after, done)) :
    ∃ asset published revision, Upserted db input item fresh now asset published revision after := by
  unfold applyUpsert at result
  split at result
  · rename_i assetId relativePath hasAsset hasPath
    split at result
    · contradiction
    · rename_i asset found
      obtain ⟨⟨published, revision⟩, upserted, finished⟩ := bind_ok_iff.mp result
      have path : input.relativePath ≠ none := hasPath ▸ nofun
      refine ⟨asset, published, revision, ?_⟩
      cases item with
      | none =>
        obtain ⟨final, flushed, same⟩ := bind_ok_iff.mp finished
        cases same
        dsimp only [flush] at flushed
        split at flushed
        · rename_i rows inserted
          cases flushed
          exact ⟨⟨assetId, hasAsset, found⟩, path, upserted, rfl, fun _ => ⟨_, inserted, rfl, rfl, rfl, rfl⟩,
            nofun⟩
        · contradiction
      | some row =>
        cases finished
        refine ⟨⟨assetId, hasAsset, found⟩, path, upserted, rfl, nofun, fun other here => ?_⟩
        cases here
        exact ⟨_, rfl, fun _ => ⟨rfl, rfl, rfl, rfl⟩⟩
  · contradiction

theorem Upserted.published {db after published : SyncDb} {input : SyncOperationInput}
    {item : Option SyncItem} {fresh : FreshIds} {now : Timestamp} {asset revision : Asset}
    (upserted : Upserted db input item fresh now asset published revision after)
    (allowed : Allowed db.assets) : Published db input.logicalId published revision := by
  obtain ⟨assetId, _, found⟩ := upserted.uploaded
  obtain ⟨member, _, owner, active⟩ := activeAsset?_found found
  have history := supersedePrevious_cleared input.logicalId now allowed member
  exact (upsertRevision_published allowed member owner active history).value upserted.upserted

/-- The tables of an upsert. -/
theorem upsertFlushes_allowed {db : SyncDb} (allowed : Allowed db.assets) (input : SyncOperationInput)
    (item : Option SyncItem) (fresh : FreshIds) (now : Timestamp) :
    ∀ table ∈ upsertFlushes db input item fresh now, Allowed table := by
  unfold upsertFlushes
  split
  · split
    · exact fun _ never => absurd never List.not_mem_nil
    · rename_i asset found
      obtain ⟨member, _, owner, active⟩ := activeAsset?_found found
      have history := supersedePrevious_cleared input.logicalId now allowed member
      intro table flushed
      rcases List.mem_cons.mp flushed with rfl | later
      · exact history.allowed
      · split at later
        · rename_i published revision upserted
          cases List.mem_singleton.mp later
          exact publish_allowed
            ((upsertRevision_published allowed member owner active history).value upserted)
        · exact absurd later List.not_mem_nil
  · exact fun _ never => absurd never List.not_mem_nil

/-- `trash_asset` sets both columns of a row in trash. -/
theorem trashAsset_allowed {db : SyncDb} (allowed : Allowed db.assets) (id : UUID) (actor : String)
    (now : Timestamp) :
    Ends (fun after => Allowed after.assets) (fun _ => True) (trashAsset db id actor now) := by
  refine trashAsset_ends (fun _ => trivial) allowed ?_
  refine allowed.retire (fun asset => ?_) (fun asset _ => ?_) fun asset member => ?_
  · split <;> exact ⟨rfl, ⟨rfl, rfl⟩, rfl⟩
  · split
    · exact nofun
    · exact fun active => active
  · split
    · exact ⟨nofun, nofun⟩
    · exact allowed.retained asset member

theorem applyItemOperation_allowed {db : SyncDb} (allowed : Allowed db.assets) (operation : SyncOperation)
    (input : SyncOperationInput) (item : Option SyncItem) (fresh : FreshIds) (now : Timestamp) :
    Ends (fun result => Allowed result.1.assets) (fun _ => True)
      (applyItemOperation db operation input item fresh now) := by
  unfold applyItemOperation
  split
  · cases result : applyUpsert db operation input item fresh now with
    | error r => trivial
    | ok value =>
      obtain ⟨after, done⟩ := value
      obtain ⟨asset, published, revision, upserted⟩ := applyUpsert_upserted result
      have table := publish_allowed (upserted.published allowed)
      change Allowed after.assets
      rw [upserted.rest]
      exact table
  · unfold applyMove
    split
    · split_ifs
      · trivial
      · split
        · exact allowed
        · split
          · trivial
          · exact allowed
    · trivial
  · unfold applyDelete
    cases item with
    | none =>
      refine Ends.bind (P := fun after => Allowed after.assets) ?_ ?_
      · cases insertRow SyncItem.id db.items _ with
        | error failure => trivial
        | ok rows => exact allowed
      · intro after table
        exact table
    | some item =>
      dsimp only
      split
      · exact allowed
      · split
        · trivial
        · exact (trashAsset_allowed allowed ..).bind fun after table => table

theorem operationFlushes_allowed {db : SyncDb} (allowed : Allowed db.assets) (operation : SyncOperation)
    (input : SyncOperationInput) (item : Option SyncItem) (fresh : FreshIds) (now : Timestamp) :
    ∀ table ∈ operationFlushes db operation input item fresh now, Allowed table := by
  have other : ∀ table ∈ (match applyItemOperation db operation input item fresh now with
      | .ok (after, _) => [after.assets]
      | .error _ => []), Allowed table := by
    intro table flushed
    split at flushed
    · rename_i after done result
      cases List.mem_singleton.mp flushed
      exact (applyItemOperation_allowed allowed operation input item fresh now).value result
    · exact absurd flushed List.not_mem_nil
  unfold operationFlushes
  split
  · exact upsertFlushes_allowed allowed input item fresh now
  · exact other
  · exact other

/-- What an operation commits is what it has flushed last, if it has flushed anything. -/
theorem operationFlushes_last {db after : SyncDb} {operation done : SyncOperation}
    {input : SyncOperationInput} {item : Option SyncItem} {fresh : FreshIds} {now : Timestamp}
    (result : applyItemOperation db operation input item fresh now = .ok (after, done)) :
    ∃ earlier, operationFlushes db operation input item fresh now = earlier ++ [after.assets] := by
  unfold operationFlushes
  split
  · rename_i upsert
    rw [applyItemOperation, upsert] at result
    obtain ⟨asset, published, revision, upserted⟩ := applyUpsert_upserted result
    obtain ⟨assetId, hasAsset, found⟩ := upserted.uploaded
    obtain ⟨relativePath, hasPath⟩ := Option.ne_none_iff_exists'.mp upserted.path
    refine ⟨[(supersedePrevious db (db.activeRevision? input.logicalId) asset now).assets], ?_⟩
    simp only [upsertFlushes, hasAsset, hasPath, found, upserted.upserted, List.singleton_append]
    rw [upserted.rest]
  · rw [result]
    exact ⟨[], rfl⟩
  · rw [result]
    exact ⟨[], rfl⟩

end Drivebound.Sync
