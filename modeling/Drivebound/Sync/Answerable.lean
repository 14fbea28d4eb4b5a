import Mathlib.Data.List.DropRight
import Drivebound.Sync.Connected

/-! Open conflicts can be resolved by what the device wanted: the operation of each is in the
journal with the path that the schema has accepted, so `keep_local` builds its input again. -/
namespace Drivebound.Sync
open Checked
open Lifecycle (Allowed)

variable {tracked : UUID → Prop}

/-- What `stripSlashes` leaves starts with no slash. -/
theorem dropWhile_stripSlashes (value : List Char) :
    (stripSlashes value).dropWhile (· == '/') = stripSlashes value := by
  have stripped : stripSlashes value <+: value.dropWhile (· == '/') :=
    List.rdropWhile_prefix _ _
  cases result : stripSlashes value with
  | nil => rfl
  | cons c rest =>
    rw [result] at stripped
    obtain ⟨tail, whole⟩ := stripped
    have again := List.dropWhile_idempotent (p := (· == '/')) (l := value)
    rw [← whole, List.cons_append] at again
    by_cases slash : (c == '/') = true
    · simp only [List.dropWhile_cons, slash, if_true] at again
      have shorter := (List.dropWhile_suffix (l := rest ++ tail) (· == '/')).length_le
      rw [again] at shorter
      simp only [List.length_cons, List.length_append] at shorter
      omega
    · simp only [List.dropWhile_cons, if_neg slash]

theorem stripSlashes_idem (value : List Char) : stripSlashes (stripSlashes value) = stripSlashes value := by
  have again : stripSlashes (stripSlashes value) =
      ((stripSlashes value).dropWhile (· == '/')).rdropWhile (· == '/') := rfl
  rw [again, dropWhile_stripSlashes]
  exact List.rdropWhile_idempotent _ _

theorem stripSlashes_subset (value : List Char) : stripSlashes value ⊆ value :=
  fun _ member => (List.dropWhile_suffix _).subset ((List.rdropWhile_prefix _ _).subset member)

/-- The schema accepts its own output as it is. -/
theorem relativePathOnly_again {raw path : String} (accepted : relativePathOnly raw = some path) :
    relativePathOnly path = some path := by
  unfold relativePathOnly at accepted
  dsimp only at accepted
  split_ifs at accepted with refused
  cases accepted
  have slashes : (stripSlashes (raw.toList.map fun c => if c = '\\' then '/' else c)).map
      (fun c => if c = '\\' then '/' else c) =
        stripSlashes (raw.toList.map fun c => if c = '\\' then '/' else c) := by
    conv_rhs => rw [← List.map_id (stripSlashes _)]
    apply List.map_congr_left
    intro c member
    apply if_neg
    rintro rfl
    obtain ⟨other, _, same⟩ := List.mem_map.mp (stripSlashes_subset _ member)
    split at same
    · contradiction
    · contradiction
  unfold relativePathOnly
  dsimp only
  rw [String.toList_ofList, slashes, stripSlashes_idem, if_neg refused]

theorem parsed_iff {input : SyncOperationInput} : Parsed input ↔ ∃ raw, parse raw = some input := by
  constructor
  · exact fun parsed => ⟨input, parsed.parse⟩
  · rintro ⟨raw, accepted⟩ path member
    unfold parse at accepted
    split at accepted
    · rename_i missing
      cases accepted
      exact absurd (missing.symm.trans member) nofun
    · obtain ⟨value, valid, rfl⟩ := Option.map_eq_some_iff.mp accepted
      cases member
      exact relativePathOnly_again valid

/-- The open conflicts of a root have their operations, each with the path it came with. -/
structure Answerable (db : SyncDb) : Prop where
  mine : ∀ conflict ∈ db.conflicts, conflict.rootId = db.root.id
  named : ∀ conflict ∈ db.conflicts, ∃ operation ∈ db.operations,
    operation.id = conflict.localOperationId
  single : ∀ a ∈ db.conflicts, ∀ b ∈ db.conflicts, a.localOperationId = b.localOperationId → a.id = b.id
  asked : ∀ conflict ∈ db.conflicts, conflict.status = .unresolved → ∃ operation ∈ db.operations,
    operation.id = conflict.localOperationId ∧ operation.rootId = db.root.id ∧
    operation.logicalId = conflict.logicalId ∧
    ∀ path ∈ operation.payload.relativePath, relativePathOnly path = some path

theorem applyOne_answerable {b after : Batch} {clientId : String} {now : Timestamp}
    {input : SyncOperationInput} {fresh : FreshIds} (answerable : Answerable b.db)
    (parsed : Parsed input) (result : applyOne clientId now b (input, fresh) = .ok after) :
    Answerable after.db := by
  rcases applyOne_cases result with ⟨_, _, rfl⟩ | ⟨new, _⟩
  · exact answerable
  cases applyOne_outcome new result with
  | applied db operation agreed once recorded =>
    obtain ⟨journal, _⟩ := (applyItemOperation_applied ..).value once
    obtain ⟨_, rfl⟩ := recordOperation_ok_iff.mp recorded
    have root : db.root = b.db.root := journal.root
    have operations : db.operations = b.db.operations := journal.operations
    have conflicts : db.conflicts = b.db.conflicts := journal.conflicts
    constructor
    · simp only [conflicts, root]
      exact answerable.mine
    · simp only [conflicts, operations]
      intro conflict member
      obtain ⟨row, there, same⟩ := answerable.named conflict member
      exact ⟨row, List.mem_append_left _ there, same⟩
    · simp only [conflicts]
      exact answerable.single
    · simp only [conflicts, operations, root]
      intro conflict member unresolved
      obtain ⟨row, there, same⟩ := answerable.asked conflict member unresolved
      exact ⟨row, List.mem_append_left _ there, same⟩
  | refused kind cause recorded =>
    obtain ⟨_, unused, rfl⟩ := recordConflict_ok_iff.mp recorded
    constructor
    · simp only [Batch.refuse, List.forall_mem_append, List.forall_mem_singleton]
      exact ⟨answerable.mine, rfl⟩
    · simp only [Batch.refuse, List.forall_mem_append, List.forall_mem_singleton]
      constructor
      · intro conflict member
        obtain ⟨row, there, same⟩ := answerable.named conflict member
        exact ⟨row, List.mem_append_left _ there, same⟩
      · exact ⟨_, List.mem_append_right _ List.mem_cons_self, rfl⟩
    · have apart : ∀ conflict ∈ b.db.conflicts, conflict.localOperationId ≠ fresh.operation := by
        intro conflict member same
        obtain ⟨row, there, named⟩ := answerable.named conflict member
        exact unused row there (named.trans same)
      simp only [Batch.refuse, List.forall_mem_append, List.forall_mem_singleton]
      refine ⟨fun a here => ⟨answerable.single a here, fun same => ?_⟩, fun a here same => ?_, fun _ => trivial⟩
      · exact absurd same (apart a here)
      · exact absurd same.symm (apart a here)
    · simp only [Batch.refuse, List.forall_mem_append, List.forall_mem_singleton]
      constructor
      · intro conflict member unresolved
        obtain ⟨row, there, same⟩ := answerable.asked conflict member unresolved
        exact ⟨row, List.mem_append_left _ there, same⟩
      · exact fun _ => ⟨_, List.mem_append_right _ List.mem_cons_self, rfl, rfl, rfl, parsed⟩

/-- Both are kept along a batch. -/
theorem applyAll_linked {b after : Batch} {clientId : String} {now : Timestamp}
    {inputs : List (SyncOperationInput × FreshIds)} {rest : List FreshIds}
    (linked : Connected tracked b.db) (answerable : Answerable b.db)
    (parsed : ∀ entry ∈ inputs, Parsed entry.1) (unused : Unused b.db (inputs.map Prod.snd ++ rest))
    (result : applyAll clientId now b inputs = .ok after) :
    Connected tracked after.db ∧ Answerable after.db ∧ Unused after.db rest ∧
      after.db.root = b.db.root ∧ after.db.retentionDays = b.db.retentionDays := by
  induction inputs generalizing b with
  | nil =>
    cases result
    exact ⟨linked, answerable, unused, rfl, rfl⟩
  | cons entry later ih =>
    obtain ⟨input, fresh⟩ := entry
    obtain ⟨middle, turn, remaining⟩ := bind_ok_iff.mp result
    obtain ⟨linked', unused', root, retention⟩ := applyOne_linked linked unused turn
    have answerable' := applyOne_answerable answerable (parsed _ List.mem_cons_self) turn
    have whole := ih linked' answerable' (fun entry member => parsed entry (List.mem_cons_of_mem _ member))
      unused' remaining
    rw [root, retention] at whole
    exact whole

/-- The operation of a conflict can still be carried out: it has its path, and the asset that
was uploaded for it is still active. -/
def Feasible (db : SyncDb) (operation : SyncOperation) : Prop :=
  match operation.kind with
  | .upsert => operation.payload.relativePath ≠ none ∧
    ∃ id ∈ operation.payload.assetId, db.activeAsset? id ≠ none
  | .move => operation.payload.relativePath ≠ none
  | .delete => True

theorem storedInput_accepts {operation : SyncOperation}
    (valid : ∀ path ∈ operation.payload.relativePath, relativePathOnly path = some path) :
    ∃ input, storedInput operation = .ok input ∧ input.kind = operation.kind ∧
      input.logicalId = operation.logicalId ∧ input.relativePath = operation.payload.relativePath ∧
      input.assetId = operation.payload.assetId := by
  unfold storedInput
  cases path : operation.payload.relativePath with
  | none => exact ⟨_, rfl, rfl, rfl, rfl, rfl⟩
  | some value =>
    have accepted := valid value path
    simp only [accepted]
    exact ⟨_, rfl, rfl, rfl, rfl, rfl⟩

theorem addClone_completes (db : SyncDb) {asset : Asset} (active : asset.lifecycleState = .active)
    (logicalId : UUID) (version : Nat) (id : UUID) :
    Ends (fun _ => True) (fun r => r.failure = .integrityError) (addClone db asset logicalId version id) := by
  unfold addClone cloneAssetRevision
  rw [if_pos (.inl active)]
  dsimp only [Except.mapError, bind, Except.bind, flush]
  cases inserted : insertRow Asset.id db.assets _ with
  | ok rows => trivial
  | error failure => exact insertRow_error inserted

theorem upsertRevision_completes (db : SyncDb) (input : SyncOperationInput) (item : Option SyncItem)
    {asset : Asset} (active : asset.lifecycleState = .active) (activeTarget : Option Asset)
    (version : Nat) (fresh : FreshIds) :
    Ends (fun _ => True) (fun r => r.failure = .integrityError)
      (upsertRevision db input item asset activeTarget version fresh) := by
  unfold upsertRevision
  split
  · dsimp only
    split
    · apply addClone_completes db active
    · trivial
  · split
    · apply addClone_completes db active
    · trivial

/-- With its path and an active asset, an upsert can only fail to insert a row. -/
theorem applyUpsert_completes {db : SyncDb} {operation : SyncOperation} {input : SyncOperationInput}
    {item : Option SyncItem} {fresh : FreshIds} {now : Timestamp} {id : UUID}
    (hasPath : input.relativePath ≠ none) (hasAsset : input.assetId = some id)
    (active : db.activeAsset? id ≠ none) :
    Ends (fun _ => True) (fun r => r.failure = .integrityError)
      (applyUpsert db operation input item fresh now) := by
  obtain ⟨path, samePath⟩ := Option.ne_none_iff_exists'.mp hasPath
  obtain ⟨asset, found⟩ := Option.ne_none_iff_exists'.mp active
  have state := (activeAsset?_found found).2.2.2
  unfold applyUpsert
  rw [hasAsset, samePath]
  dsimp only
  rw [found]
  refine Ends.bind (upsertRevision_completes _ input item state ..) fun result _ => ?_
  obtain ⟨published, revision⟩ := result
  cases item with
  | some row => trivial
  | none =>
    refine Ends.bind (P := fun _ => True) ?_ fun _ _ => True.intro
    cases inserted : insertRow SyncItem.id _ _ with
    | ok rows => trivial
    | error failure => exact insertRow_error inserted

/-- `keep_local` succeeds on a live item of a history with an active revision, if its operation is
feasible. -/
theorem Connected.keepsLocal {db : SyncDb} {operation : SyncOperation} {item : SyncItem} {fresh : FreshIds}
    (linked : Connected tracked db) (now : Timestamp)
    (known : tracked operation.logicalId)
    (valid : ∀ path ∈ operation.payload.relativePath, relativePathOnly path = some path)
    (found : db.item? operation.logicalId = some item) (live : item.deletedAt = none)
    (revision : db.activeRevision? operation.logicalId ≠ none) (retention : 1 ≤ db.retentionDays)
    (feasible : Feasible db operation) (unusedAsset : fresh.asset ∉ db.assets.map Asset.id)
    (unusedItem : fresh.item ∉ db.items.map SyncItem.id) :
    ∃ after, keepLocal db operation fresh now = .ok after := by
  obtain ⟨input, stored, kind, logicalId, path, assetId⟩ := storedInput_accepts valid
  have once : ∃ value, applyItemOperation db operation input (db.item? operation.logicalId) fresh now =
      .ok value := by
    cases result : applyItemOperation db operation input (db.item? operation.logicalId) fresh now with
    | ok value => exact ⟨value, rfl⟩
    | error r =>
      have unviolated := (applyItemOperation_unviolated operation input (db.item? operation.logicalId) now
        unusedAsset unusedItem).raised result
      unfold Feasible at feasible
      rw [← logicalId] at found revision
      cases asked : operation.kind with
      | upsert =>
        rw [asked] at feasible
        obtain ⟨hasPath, id, hasAsset, active⟩ := feasible
        rw [applyItemOperation, kind, asked] at result
        exact absurd ((applyUpsert_completes (path ▸ hasPath) (assetId.trans hasAsset) active).raised
          result) unviolated
      | move =>
        rw [asked] at feasible
        obtain ⟨after, done, applied⟩ := linked.applies operation fresh now
          (logicalId ▸ known) (.inr ⟨kind.trans asked, path ▸ feasible⟩) found live revision retention
        rw [logicalId] at applied
        exact absurd (result.symm.trans applied) (fun same => by cases same)
      | delete =>
        obtain ⟨after, done, applied⟩ := linked.applies operation fresh now
          (logicalId ▸ known) (.inl (kind.trans asked)) found live revision retention
        rw [logicalId] at applied
        exact absurd (result.symm.trans applied) (fun same => by cases same)
  obtain ⟨⟨applied, done⟩, once⟩ := once
  simp only [keepLocal, stored, bind, Except.bind, Except.mapError, once]
  exact ⟨_, rfl⟩

theorem stampItem_item {db : SyncDb} {logicalId : UUID} {revision : String} {item : SyncItem}
    (member : item ∈ (db.stampItem logicalId revision).items) : ∃ old ∈ db.items,
      old.rootId = item.rootId ∧ old.logicalId = item.logicalId ∧ old.deletedAt = item.deletedAt ∧
        old.assetId = item.assetId := by
  unfold SyncDb.stampItem at member
  split at member
  · obtain ⟨old, there, rfl⟩ := List.mem_map.mp member
    refine ⟨old, there, ?_⟩
    split <;> exact ⟨rfl, rfl, rfl, rfl⟩
  · exact ⟨item, member, rfl, rfl, rfl, rfl⟩

theorem KeptLocal.linked {db applied after : SyncDb} {operation : SyncOperation} {fresh : FreshIds}
    {now : Timestamp} {input : SyncOperationInput} {payload : Payload} (linked : Connected tracked db)
    (kept : KeptLocal db operation fresh now input applied after payload)
    (unusedItem : fresh.item ∉ db.items.map SyncItem.id) (keyed : Keyed after.items after.operations) :
    Connected tracked after := by
  have named := storedInput_logicalId kept.stored
  have once := named.symm ▸ kept.once
  have extended := (applyItemOperation_extends db operation input fresh now).value once
  have link := applyItemOperation_link linked once
  refine ⟨?_, keyed, ?_, fun item member root known live id has => ?_⟩
  · rw [kept.assets]
    exact (applyItemOperation_allowed linked.allowed ..).value once
  · have ids : after.items.map SyncItem.id = applied.items.map SyncItem.id := by
      have same := congrArg (List.map Prod.fst) (kept.items ▸ stampItem_keys applied _ _)
      rw [List.map_map, List.map_map] at same
      exact same
    rw [ids]
    exact extended.ids unusedItem linked.ids
  · rw [kept.items] at member
    obtain ⟨old, there, oldRoot, oldLogical, oldLive, oldAsset⟩ := stampItem_item member
    rw [kept.root] at root ⊢
    rw [kept.assets, ← oldLogical]
    exact link old there (oldRoot.trans root) (oldLogical ▸ known) (oldLive.trans live) id (oldAsset.trans has)

/-- A resolution keeps the items linked and the other open conflicts answerable. -/
theorem resolveConflict_linked {db after : SyncDb} {loaded : SyncConflict} {choice : Choice}
    {fresh : FreshIds} {now : Timestamp} (linked : Connected tracked db) (answerable : Answerable db)
    (present : loaded ∈ db.conflicts) (unusedAsset : fresh.asset ∉ db.assets.map Asset.id)
    (unusedItem : fresh.item ∉ db.items.map SyncItem.id)
    (result : resolveConflict db loaded choice fresh now = .ok after) :
    Connected tracked after ∧ Answerable after ∧ ∃ cursor, after.root = { db.root with cursor } := by
  have keyed := (((resolveConflict_serves db loaded choice now linked.allowed linked.keyed unusedAsset
    unusedItem).2).value result).2
  rcases resolveConflict_cases result with ⟨_, rfl⟩ | ⟨_, operation, settled, found, chosen, rfl⟩
  · exact ⟨linked, answerable, _, rfl⟩
  obtain ⟨member, named, root⟩ := operation?_found found
  have rows : Connected tracked settled ∧ settled.conflicts = db.conflicts ∧
      (∃ cursor, settled.root = { db.root with cursor }) ∧
      ∃ change : SyncOperation → SyncOperation, (∀ row, row = operation → (change row).id = row.id) ∧
        settled.operations = (db.updateOperation operation.id change).operations := by
    rcases chosen with ⟨_, kept⟩ | ⟨_, rfl⟩
    · obtain ⟨⟨input, applied, payload, keptLocal⟩, conflicts⟩ := keepLocal_cases kept
      refine ⟨keptLocal.linked linked unusedItem keyed, conflicts, ⟨_, keptLocal.root⟩, _, ?_,
        keptLocal.operations⟩
      rintro row rfl
      rfl
    · exact ⟨⟨linked.allowed, keyed, linked.ids, linked.link⟩, rfl, ⟨_, rfl⟩,
        fun row => { row with status := .rejected }, fun _ _ => rfl, rfl⟩
  obtain ⟨still, conflicts, ⟨cursor, advanced⟩, change, keepsId, operations⟩ := rows
  have sameRoot : settled.root.id = db.root.id := by rw [advanced]
  refine ⟨⟨still.allowed, keyed, still.ids, still.link⟩, ?_, cursor, advanced⟩
  have moved : ∀ row ∈ db.operations, ∃ other ∈ settled.operations, other.id = row.id ∧
      (row.id ≠ operation.id → other = row) := by
    intro row there
    rw [operations]
    refine ⟨_, List.mem_map_of_mem there, ?_⟩
    by_cases same : row.id = operation.id
    · rw [if_pos same]
      have equal := List.inj_on_of_nodup_map linked.keyed.ids there member same
      exact ⟨keepsId row equal, fun other => absurd same other⟩
    · rw [if_neg same]
      exact ⟨rfl, fun _ => rfl⟩
  have old : ∀ conflict ∈ (settled.updateConflict loaded.id fun conflict =>
      { conflict with status := .resolved, resolution := some choice, resolvedAt := some now }).conflicts,
      ∃ before ∈ db.conflicts, before.id = conflict.id ∧ before.rootId = conflict.rootId ∧
        before.logicalId = conflict.logicalId ∧ before.localOperationId = conflict.localOperationId ∧
        (conflict.status = .unresolved → before.status = .unresolved ∧ before.id ≠ loaded.id) := by
    intro conflict here
    obtain ⟨before, there, rfl⟩ := List.mem_map.mp here
    rw [conflicts] at there
    refine ⟨before, there, ?_⟩
    split
    · exact ⟨rfl, rfl, rfl, rfl, nofun⟩
    · rename_i other
      exact ⟨rfl, rfl, rfl, rfl, fun unresolved => ⟨unresolved, other⟩⟩
  constructor
  · intro conflict here
    obtain ⟨before, there, _, sameRootId, _⟩ := old conflict here
    exact (sameRootId.symm.trans (answerable.mine before there)).trans sameRoot.symm
  · intro conflict here
    obtain ⟨before, there, _, _, _, about, _⟩ := old conflict here
    obtain ⟨row, present, names⟩ := answerable.named before there
    obtain ⟨other, kept, id, _⟩ := moved row present
    exact ⟨other, kept, id.trans (names.trans about)⟩
  · intro a here b there same
    obtain ⟨first, firstMember, firstId, _, _, firstAbout, _⟩ := old a here
    obtain ⟨second, secondMember, secondId, _, _, secondAbout, _⟩ := old b there
    rw [← firstId, ← secondId]
    apply answerable.single first firstMember second secondMember
    exact firstAbout.trans (same.trans secondAbout.symm)
  · intro conflict here unresolved
    obtain ⟨before, there, _, _, logical, about, stands⟩ := old conflict here
    obtain ⟨wasOpen, apart⟩ := stands unresolved
    obtain ⟨row, present', names, rowRoot, rowLogical, valid⟩ := answerable.asked before there wasOpen
    have different : row.id ≠ operation.id := fun same =>
      apart (answerable.single before there loaded present (names.symm.trans (same.trans named)))
    obtain ⟨other, kept, id, same⟩ := moved row present'
    cases same different
    exact ⟨row, kept, names.trans about, rowRoot.trans sameRoot.symm, rowLogical.trans logical, valid⟩

end Drivebound.Sync
