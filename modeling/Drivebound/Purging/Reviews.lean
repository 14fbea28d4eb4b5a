import Drivebound.Purging.Turns

/-! When an account with legacy paths ends in `manual_review`. Until the first item with
such a path has its turn, all that goes is regular; what happens then decides. -/
namespace Drivebound.Purging
open Cleanup (AccountDeletionJob IsOpen Point)
open Run (run run_cons_iff Along invariant)

variable {config : Config} {user : UUID} {st0 st : State} {token : UUID} {done rest : List Item}
  {item : Item} {pass : Pass} {now : Timestamp}

@[simp] theorem hasFile_unlink {host : Host} {disk : Disk} {gone : List Path} {text : String} :
    (disk.unlink host gone).hasFile host text = true ↔
      disk.hasFile host text = true ∧ host.identity text ∉ gone := by
  simp only [Disk.hasFile, Disk.unlink, List.any_eq_true, List.mem_filter, decide_eq_true_eq]
  constructor
  · rintro ⟨file, ⟨there, left⟩, same⟩
    exact ⟨⟨file, there, same⟩, same ▸ left⟩
  · rintro ⟨⟨file, there, same⟩, left⟩
    exact ⟨file, ⟨there, same ▸ left⟩, same⟩

/-- A file that the purge of an item removes is named by no other item. -/
theorem removed_spares (keyed : st.catalog.Keyed) (first : items st.catalog user = item :: rest)
    {other : Item} {path : String} {place : Path} (removed : Removed config pass st item place)
    (there : other ∈ items st.catalog user) (named : path ∈ other.paths)
    (real : isDuplicate path = false) (same : config.host.identity path = place) :
    other = item ∧ ∃ visit ∈ (item.visits config.storage st.catalog pass.previewFirst).takeWhile
      (!Visit.fails config.host ·), config.host.identity path = config.host.identity visit.path ∧
        visit.referenced config.host = false := by
  obtain ⟨visit, rfl, free, ⟨row, replicas, rfl, staged⟩ | reached⟩ := removed
  · have kept := staged_spares_items staged there named real same
    exact absurd (kept.symm.trans free) nofun
  · by_cases own : other = item
    · exact ⟨own, visit, reached, same, free⟩
    · have here : item ∈ items st.catalog user := first ▸ List.mem_cons_self
      have kept := visit_spares_others keyed here there own (List.takeWhile_subset _ reached) named real same
      exact absurd (kept.symm.trans free) nofun

theorem visit_fails_iff {host : Host} {visit : Visit} :
    visit.fails host = false ↔ Clean host (visit.path, visit.roots) := by
  simp [Visit.fails, Visit.inside, Clean]

/-- Nothing stops the purge of an item whose paths can be unlinked. -/
theorem clean_passes (storage : Settings) (catalog : Catalog) {host : Host} (previewFirst : Bool)
    (here : item ∈ items catalog user) (clean : ∀ unlink ∈ item.unlinks storage, Clean host unlink) :
    (item.visits storage catalog previewFirst).find? (Visit.fails host) = none := by
  rw [List.find?_eq_none]
  intro visit member
  rw [visit_fails_iff.mpr (clean _ (mem_visits here member))]
  exact Bool.false_ne_true

section First

variable {first : Item} {pre post : List Item}

/-- The first item with a legacy path stands behind regular ones. -/
theorem firstLegacy_split (found : firstLegacy config user st0.catalog = some first) :
    first.Legacy config.host ∧ ∃ pre post, items st0.catalog user = pre ++ first :: post ∧
      ∀ item ∈ pre, ¬ item.Legacy config.host := by
  obtain ⟨legacy, pre, post, split, before⟩ := List.find?_eq_some_iff_append.mp found
  refine ⟨of_decide_eq_true legacy, pre, post, split, fun item member => ?_⟩
  simpa using before item member

/-- So many items at most are left before the first item with a legacy path. -/
def Ahead (config : Config) (user : UUID) (st0 : State) (first : Item) (count : Nat) (st : State) : Prop :=
  ∃ done pre post, Stage config user st0 done (pre ++ first :: post) st ∧
    (∀ item ∈ pre, ¬ item.Legacy config.host) ∧ pre.length ≤ count

theorem Ahead.start (prepared : Prepared config user st0) (found : firstLegacy config user st0.catalog = some first) :
    ∃ count, Ahead config user st0 first count st0 := by
  obtain ⟨_, pre, post, split, regular⟩ := firstLegacy_split found
  exact ⟨pre.length, [], pre, post,
    ⟨split, rfl, fun _ absent => absurd absent List.not_mem_nil, fun _ member => member, rfl, prepared.subject, rfl⟩,
    regular, Nat.le_refl _⟩

/-- When it is the first of the items that are left, it is its turn. -/
theorem Stage.atTurn (legacy : first.Legacy config.host)
    (stage : Stage config user st0 done (first :: post) st) : st.catalog = turn config user st0.catalog := by
  rw [stage.rows, turn, stage.split, List.takeWhile_append_of_pos]
  · rw [List.takeWhile_cons_of_neg (by simp [legacy]), List.append_nil]
  · exact fun item member => by simp [stage.regular item member]

end First

section Safety

variable {first : Item}

/-- The files behind legacy paths are still there. -/
def FilesKept (config : Config) (user : UUID) (st0 st : State) : Prop :=
  ∀ item ∈ items st0.catalog user, ∀ path ∈ item.paths, IsLegacy config.host path →
    st0.disk.hasFile config.host path = true → st.disk.hasFile config.host path = true

theorem Stage.legacy_left (stage : Stage config user st0 done rest st) {other : Item}
    (member : other ∈ items st0.catalog user) (legacy : other.Legacy config.host) : other ∈ rest := by
  rw [stage.split] at member
  exact (List.mem_append.mp member).resolve_left fun before => stage.regular other before legacy

/-- A file of a legacy path that an iteration removes is one of the item itself. -/
theorem FilesKept.unlink (kept : FilesKept config user st0 st) (keyed : st0.catalog.Keyed)
    (stage : Stage config user st0 done (item :: rest) st) {gone : List Path}
    (among : ∀ place ∈ gone, Removed config pass st item place)
    (spares : ∀ path ∈ item.paths, IsLegacy config.host path → st0.disk.hasFile config.host path = true →
      ∀ visit ∈ (item.visits config.storage st.catalog pass.previewFirst).takeWhile
        (!Visit.fails config.host ·), visit.referenced config.host = false →
      config.host.identity path ≠ config.host.identity visit.path)
    (users : List UUID) (job : AccountDeletionJob) (catalog : Catalog) :
    FilesKept config user st0 ⟨catalog, st.disk.unlink config.host gone, users, job⟩ := by
  intro other member path named legacy present
  refine hasFile_unlink.mpr ⟨kept other member path named legacy present, fun removed => ?_⟩
  obtain ⟨listed, keyedNow⟩ := stage.listed keyed
  have there : other ∈ items st.catalog user := by
    rw [listed]
    exact stage.legacy_left member ⟨path, named, legacy⟩
  obtain ⟨rfl, visit, reached, same, free⟩ :=
    removed_spares keyedNow listed (among _ removed) there named legacy.1 rfl
  exact spares path named legacy present visit reached free same

/-- A stage with the files behind legacy paths, and a job that is not completed. -/
def Safe (config : Config) (user : UUID) (st0 st : State) : Prop :=
  (∃ done rest, Stage config user st0 done rest st) ∧ FilesKept config user st0 st

/-- The turn of an item that is regular, or that is the first with a legacy path and stops. -/
theorem iteration_safe (prepared : Prepared config user st0) (reviewable : Reviewable config user st0)
    (running : Running token st) (safe : Safe config user st0 st) :
    ((iteration config now token st pass).2 = none →
      Running token (iteration config now token st pass).1 ∧
        Safe config user st0 (iteration config now token st pass).1) ∧
    ((iteration config now token st pass).2 ≠ none →
      Safe config user st0 (iteration config now token st pass).1 ∧
        (iteration config now token st pass).1.job.status ≠ .completed) := by
  obtain ⟨⟨done, rest, stage⟩, kept⟩ := safe
  obtain ⟨asset, replicas, found, stops⟩ := reviewable
  obtain ⟨legacy, _, _, split, _⟩ := firstLegacy_split found
  have left : Item.asset asset replicas ∈ rest :=
    stage.legacy_left (split ▸ List.mem_append_right _ List.mem_cons_self) legacy
  cases rest with
  | nil => cases left
  | cons item rest =>
    obtain ⟨listed, _⟩ := stage.listed prepared.keyed
    -- The first item with a legacy path is the item of this iteration if that has one.
    have itself : item.Legacy config.host → item = .asset asset replicas := by
      intro own
      rw [firstLegacy, stage.split, List.find?_append, List.find?_eq_none.mpr, Option.none_or,
        List.find?_cons_of_pos (by simpa using own)] at found
      · exact Option.some.inj found
      · exact fun other member => by simpa using stage.regular other member
    have spares : ∀ path ∈ item.paths, IsLegacy config.host path →
        st0.disk.hasFile config.host path = true →
        ∀ visit ∈ (item.visits config.storage st.catalog pass.previewFirst).takeWhile
          (!Visit.fails config.host ·), visit.referenced config.host = false →
        config.host.identity path ≠ config.host.identity visit.path := by
      intro path named legacyPath present visit reached free
      obtain rfl := itself ⟨path, named, legacyPath⟩
      rw [stage.atTurn legacy] at reached
      exact (stops pass.previewFirst).spares visit reached free path named legacyPath present
    have turned := iteration_iterated config pass now running stage.subject listed
    generalize iteration config now token st pass = result at turned
    cases turned with
    | purged gone job among same passes =>
      have regular : ¬ item.Legacy config.host := by
        intro own
        obtain rfl := itself own
        obtain ⟨visit, reached, _⟩ := (stops pass.previewFirst).below
        rw [Item.visits, stage.atTurn legacy] at passes
        rw [passes] at reached
        cases reached
      refine ⟨fun _ => ⟨same.running running, ⟨_, _, stage.advance regular gone st.users same⟩, ?_⟩,
        fun some_ => absurd rfl some_⟩
      exact kept.unlink prepared.keyed stage among spares _ _ _
    | ended gone job answer among subject ready isOpen =>
      refine ⟨fun done_ => absurd done_ (Option.some_ne_none _), fun _ =>
        ⟨⟨⟨_, _, stage.stay gone st.users subject ready⟩, ?_⟩, ?_⟩⟩
      · exact kept.unlink prepared.keyed stage among spares _ _ _
      · intro completed
        rw [completed] at isOpen
        rcases isOpen with other | other | other | other <;> cases other
    | reviewed gone job row rows visit among subject ready status =>
      refine ⟨fun done_ => absurd done_ (Option.some_ne_none _), fun _ =>
        ⟨⟨⟨_, _, stage.stay gone st.users subject ready⟩, ?_⟩, ?_⟩⟩
      · exact kept.unlink prepared.keyed stage among spares _ _ _
      · rw [status]
        intro same
        cases same

theorem step_safe (prepared : Prepared config user st0) (reviewable : Reviewable config user st0)
    {batch : Batch} {t : State} (safe : Safe config user st0 st ∧ st.job.status ≠ .completed)
    (stepped : step config st batch = some t) : Safe config user st0 t ∧ t.job.status ≠ .completed := by
  unfold step at stepped
  split at stepped
  · cases stepped
  split at stepped
  · cases stepped
    exact safe
  rename_i job claimed
  cases stepped
  obtain ⟨running, subject, ready, _, _⟩ := claim_running claimed
  obtain ⟨⟨⟨done, rest, stage⟩, kept⟩, _⟩ := safe
  refine batch_rule (P := fun _ st => Running batch.token st ∧ Safe config user st0 st)
    (Q := fun st => Safe config user st0 st ∧ st.job.status ≠ .completed) batch.passes
    (fun _ _ _ _ held => held) (fun pass _ now st held => ?_) (fun now st held => ?_)
    ⟨running, ⟨done, rest, stage.claimed subject ready⟩, kept⟩
  · exact iteration_safe prepared reviewable held.1 held.2
  · obtain ⟨running, ⟨done, rest, stage⟩, kept⟩ := held
    obtain ⟨closed, disk, isOpen⟩ := closing_stage now running stage
    refine ⟨⟨⟨done, rest, closed⟩, fun other member path named legacy present => ?_⟩, ?_⟩
    · rw [disk]
      exact kept other member path named legacy present
    · intro completed
      rw [completed] at isOpen
      rcases isOpen with other | other | other | other <;> cases other

theorem Safe.start (prepared : Prepared config user st0) : Safe config user st0 st0 :=
  ⟨⟨[], _, rfl, rfl, fun _ absent => absurd absent List.not_mem_nil, fun _ member => member, rfl, prepared.subject, rfl⟩,
    fun _ _ _ _ _ present => present⟩

theorem run_keeps (prepared : Prepared config user st0) (reviewable : Reviewable config user st0)
    {batches : List Batch} {t : State} (reached : run (step config) st0 batches = some t) :
    Keeps config user st0 t := by
  have unfinished : st0.job.status ≠ .completed := by
    intro completed
    have isOpen := prepared.pending
    rw [completed] at isOpen
    rcases isOpen with other | other | other | other <;> cases other
  have safe : Safe config user st0 t ∧ t.job.status ≠ .completed := by
    refine invariant (I := fun t => Safe config user st0 t ∧ t.job.status ≠ .completed)
      (C := fun _ _ => True) ?_ ⟨Safe.start prepared, unfinished⟩ (Run.along_true st0 batches) reached
    exact fun _ _ _ safe _ stepped => step_safe prepared reviewable safe stepped
  obtain ⟨⟨⟨done, rest, stage⟩, kept⟩, unfinished⟩ := safe
  refine ⟨kept, fun item member legacy => ?_, unfinished⟩
  rw [(stage.listed prepared.keyed).1]
  exact stage.legacy_left member legacy

end Safety

section Calm

variable {first : Item}

theorem Stage.mem_start (stage : Stage config user st0 done rest st) {other : Item} (member : other ∈ rest) :
    other ∈ items st0.catalog user := by
  rw [stage.split]
  exact List.mem_append_right _ member

/-- What was staged for an asset of the account can be unlinked at any stage. -/
theorem staged_passes (others : OthersSucceed config user st0) (stage : Stage config user st0 done rest st)
    {row : Asset} {replicas : List AssetReplica} (member : Item.asset row replicas ∈ rest) :
    (stagedVisits config.host config.storage st.disk st.catalog row).find? (Visit.fails config.host) =
      none := by
  obtain ⟨⟨listed, own⟩, _⟩ := mem_items_asset.mp (stage.mem_start member)
  rw [List.find?_eq_none]
  intro visit staged
  obtain ⟨path, among, rfl⟩ := List.mem_map.mp staged
  have before : path ∈ ownedStagingPathsForAsset config.host config.storage st0.disk row := by
    obtain ⟨entry, passes, rfl⟩ := List.mem_map.mp among
    obtain ⟨there, fits⟩ := List.mem_filter.mp passes
    refine List.mem_map_of_mem (List.mem_filter.mpr ⟨?_, ?_⟩)
    · rcases List.mem_append.mp there with file | link
      · exact List.mem_append_left _ (stage.files entry file)
      · exact List.mem_append_right _ (stage.links ▸ link)
    · simp only [decide_eq_true_eq] at fits ⊢
      obtain ⟨parent, name, present⟩ := fits
      refine ⟨parent, name, ?_⟩
      obtain ⟨file, found, same⟩ := List.any_eq_true.mp present
      exact List.any_eq_true.mpr ⟨file, stage.files file found, same⟩
  rw [visit_fails_iff.mpr (others.staged row listed own path before)]
  exact Bool.false_ne_true

/-- With working drives the purge of an asset of the account stops at the first path that
cannot be unlinked. -/
theorem purgeAsset_working (prepared : Prepared config user st0) (others : OthersSucceed config user st0)
    (stage : Stage config user st0 done rest st) (calm : pass.drives = .working)
    (late : st0.job.notBefore ≤ now) {row : Asset} {replicas : List AssetReplica}
    (member : Item.asset row replicas ∈ rest) : ∃ staged, purgeAsset config pass now st row =
      (staged ++ (unlinkAll config.host .working
          (purgeVisits config.storage st.catalog row pass.previewFirst)).1,
        match (purgeVisits config.storage st.catalog row pass.previewFirst).find? (Visit.fails config.host) with
        | none => .purged (st.catalog.dropAsset row.id)
            { st.job.renewed config.jobs now with assetsPurged := st.job.assetsPurged + 1 }
        | some visit =>
          if visit.inside config.host then .retained 1 else .raised "asset_cleanup_deferred") := by
  obtain ⟨⟨listed, own⟩, _⟩ := mem_items_asset.mp (stage.mem_start member)
  obtain ⟨purging, due, scheduled, passed⟩ := prepared.purging row listed own
  have isDue : IsPurgeDue now row := ⟨.inr purging, due, scheduled, Nat.le_trans passed late⟩
  have notStaged := staged_passes others stage member
  have concludes : (unlinkAll config.host .working
      (stagedVisits config.host config.storage st.disk st.catalog row)).2 = none := by
    rw [unlinkAll_working, notStaged, Option.map_none]
  unfold purgeAsset
  rw [calm]
  generalize unlinkAll config.host .working
    (stagedVisits config.host config.storage st.disk st.catalog row) = staging at concludes
  obtain ⟨staged, stopped⟩ := staging
  cases concludes
  refine ⟨staged, ?_⟩
  have stops := unlinkAll_working config.host
    (purgeVisits config.storage st.catalog row pass.previewFirst)
  have ready : Drives.working.ready = true := rfl
  simp only [safelyPurgeAsset, isDue, ready, not_true_eq_false, if_false]
  generalize unlinkAll config.host .working
    (purgeVisits config.storage st.catalog row pass.previewFirst) = purge at stops
  obtain ⟨gone, stop⟩ := purge
  cases found : (purgeVisits config.storage st.catalog row pass.previewFirst).find?
      (Visit.fails config.host) with
  | none =>
    rw [found] at stops
    cases stops
    rfl
  | some visit =>
    rw [found] at stops
    cases inside : visit.inside config.host with
    | true =>
      simp only [Option.map_some, inside, if_true] at stops
      cases stops
      simp only [inside, if_true]
    | false =>
      simp only [Option.map_some, inside, Bool.false_eq_true, if_false] at stops
      cases stops
      simp only [inside, Bool.false_eq_true, if_false]

/-- A regular item is purged. -/
theorem iteration_regular (prepared : Prepared config user st0) (others : OthersSucceed config user st0)
    (running : Running token st) (stage : Stage config user st0 done (item :: rest) st)
    (regular : ¬ item.Legacy config.host) (calm : pass.drives = .working ∧ pass.cut = none)
    (late : st0.job.notBefore ≤ now) :
    (iteration config now token st pass).2 = none ∧
      Running token (iteration config now token st pass).1 ∧
      Stage config user st0 (done ++ [item]) rest (iteration config now token st pass).1 := by
  obtain ⟨listed, _⟩ := stage.listed prepared.keyed
  have here : item ∈ items st.catalog user := listed ▸ List.mem_cons_self
  have passes := clean_passes config.storage st.catalog pass.previewFirst
    here (others.items item (stage.mem_start List.mem_cons_self) regular)
  have purges : ∃ gone job, SameLease st.job job ∧ attempt config pass now st user =
      (gone, .purged (st.catalog.dropItem item) job) := by
    rw [attempt_eq listed, calm.1, if_neg (by decide)]
    cases item with
    | upload row =>
      have done : (unlinkAll config.host .working (uploadVisits config.storage st.catalog row)).2 = none := by
        rw [unlinkAll_working, ← Item.visits, passes, Option.map_none]
      simp only [purgeUpload]
      generalize unlinkAll config.host .working (uploadVisits config.storage st.catalog row) = unlinked at done
      obtain ⟨gone, stopped⟩ := unlinked
      cases done
      refine ⟨gone, _, ?_, rfl⟩
      exact ⟨rfl, rfl, rfl, rfl⟩
    | asset row replicas =>
      obtain ⟨staged, purged⟩ := purgeAsset_working prepared others stage calm.1 late List.mem_cons_self
      rw [Item.visits] at passes
      rw [passes] at purged
      refine ⟨_, _, ?_, purged⟩
      exact ⟨rfl, rfl, rfl, rfl⟩
  obtain ⟨gone, job, same, attempted⟩ := purges
  have result : iteration config now token st pass =
      (⟨st.catalog.dropItem item, st.disk.unlink config.host gone, st.users, job⟩, none) := by
    unfold iteration
    rw [if_neg (not_not.mpr running.token), stage.subject]
    simp only [attempted, calm.2, conclude]
    rfl
  rw [result]
  exact ⟨rfl, same.running running, stage.advance regular gone st.users same⟩

/-- What happens to an asset with a legacy path when it is its turn. -/
theorem iteration_turn (pass : Pass) (prepared : Prepared config user st0) (others : OthersSucceed config user st0)
    (running : Running token st) {row : Asset} {replicas : List AssetReplica}
    (stage : Stage config user st0 done (.asset row replicas :: rest) st)
    (calm : pass.drives = .working ∧ pass.cut = none) (late : st0.job.notBefore ≤ now) :
    ∃ staged, iteration config now token st pass = conclude config now token
      (st.unlink config (staged ++ (unlinkAll config.host .working
        (purgeVisits config.storage st.catalog row pass.previewFirst)).1))
      (match (purgeVisits config.storage st.catalog row pass.previewFirst).find? (Visit.fails config.host) with
        | none => .purged (st.catalog.dropAsset row.id)
            { st.job.renewed config.jobs now with assetsPurged := st.job.assetsPurged + 1 }
        | some visit =>
          if visit.inside config.host then .retained 1 else .raised "asset_cleanup_deferred") := by
  obtain ⟨listed, _⟩ := stage.listed prepared.keyed
  obtain ⟨staged, purged⟩ := purgeAsset_working prepared others stage calm.1 late List.mem_cons_self
  refine ⟨staged, ?_⟩
  unfold iteration
  rw [if_neg (not_not.mpr running.token), stage.subject]
  have ready : ¬ ¬ pass.drives.ready = true := by rw [calm.1]; decide
  simp only [attempt_eq listed, if_neg ready, purged, calm.2]

/-- Either it is the turn of the first item with a legacy path, or a regular one stands
before it. -/
theorem Ahead.cases {count : Nat} (ahead : Ahead config user st0 first count st) :
    (∃ done post, Stage config user st0 done (first :: post) st) ∨
      ∃ done item pre post, Stage config user st0 done (item :: (pre ++ first :: post)) st ∧
        ¬ item.Legacy config.host ∧ (∀ other ∈ pre, ¬ other.Legacy config.host) ∧ pre.length < count := by
  obtain ⟨done, pre, post, stage, regular, bound⟩ := ahead
  cases pre with
  | nil => exact .inl ⟨done, post, stage⟩
  | cons item pre =>
    exact .inr ⟨done, item, pre, post, stage, regular item List.mem_cons_self,
      fun other member => regular other (List.mem_cons_of_mem _ member), bound⟩

/-- One calm iteration away from the turn brings it nearer. -/
theorem iteration_ahead (prepared : Prepared config user st0) (others : OthersSucceed config user st0)
    (running : Running token st) {count : Nat} (ahead : Ahead config user st0 first count st)
    (calm : pass.drives = .working ∧ pass.cut = none) (late : st0.job.notBefore ≤ now) :
    (∃ done post, Stage config user st0 done (first :: post) st) ∨
      ((iteration config now token st pass).2 = none ∧ Running token (iteration config now token st pass).1 ∧
        0 < count ∧ Ahead config user st0 first (count - 1) (iteration config now token st pass).1) := by
  rcases ahead.cases with here | ⟨done, item, pre, post, stage, regular, others', bound⟩
  · exact .inl here
  · obtain ⟨goes, still, next⟩ := iteration_regular prepared others running stage regular calm late
    exact .inr ⟨goes, still, Nat.zero_lt_of_lt bound, _, pre, post, next, others', Nat.le_sub_one_of_lt bound⟩

end Calm

section Liveness

variable {first : Item}

/-- A calm batch brings the turn of the first item with a legacy path nearer, or this has its
turn; what the turn leads to is kept by what follows in the batch. -/
theorem calm_rule {M : State → Prop} {passes : List Pass} {count : Nat}
    (prepared : Prepared config user st0) (others : OthersSucceed config user st0)
    (calm : ∀ pass ∈ passes, pass.drives = .working ∧ pass.cut = none) (nonempty : passes ≠ [])
    (meets : ∀ pass ∈ passes, ∀ done rest now st, Running token st → st0.job.notBefore ≤ now →
      Stage config user st0 done (first :: rest) st → M (iteration config now token st pass).1)
    (keeps : ∀ pass ∈ passes, ∀ now st, M st → M (iteration config now token st pass).1)
    (closes : ∀ now st, M st → M ((resolveState config now token st .closing).getD st))
    (running : Running token st) (late : st0.job.notBefore ≤ now) (ahead : Ahead config user st0 first count st) :
    M (processAccountDeletionBatch config token now st passes).1 ∨
      (IsOpen (processAccountDeletionBatch config token now st passes).1.job.status ∧ 0 < count ∧
        Ahead config user st0 first (count - 1) (processAccountDeletionBatch config token now st passes).1) := by
  -- An iteration with no more than `bound` items ahead.
  have goes : ∀ pass ∈ passes, ∀ bound now st, Running token st → st0.job.notBefore ≤ now →
      Ahead config user st0 first bound st → M (iteration config now token st pass).1 ∨
        ((iteration config now token st pass).2 = none ∧ Running token (iteration config now token st pass).1 ∧
          0 < bound ∧ Ahead config user st0 first (bound - 1) (iteration config now token st pass).1) := by
    intro pass member bound now st running late ahead
    rcases iteration_ahead prepared others running ahead (calm pass member) late with ⟨done, rest, here⟩ | nearer
    · exact .inl (meets pass member done rest now st running late here)
    · exact .inr nearer
  cases passes with
  | nil => exact absurd rfl nonempty
  | cons pass rest =>
    have reached : st0.job.notBefore ≤ now + pass.elapsed := Nat.le_trans late (Nat.le_add_right _ _)
    have here := goes pass List.mem_cons_self count (now + pass.elapsed) st running reached ahead
    unfold processAccountDeletionBatch
    generalize iteration config (now + pass.elapsed) token st pass = result at here
    obtain ⟨next, answer⟩ := result
    cases answer with
    | some answer => exact here.imp id fun nearer => absurd nearer.1 (fun same => by cases same)
    | none =>
      refine batch_rule
        (P := fun now st => M st ∨ (Running token st ∧ st0.job.notBefore ≤ now ∧ 0 < count ∧
          Ahead config user st0 first (count - 1) st))
        (Q := fun t => M t ∨ (IsOpen t.job.status ∧ 0 < count ∧ Ahead config user st0 first (count - 1) t)) rest
        (fun _ _ _ le held => held.imp id fun held => ⟨held.1, Nat.le_trans held.2.1 le, held.2.2⟩)
        (fun other member now st held => ?_) (fun now st held => ?_)
        (here.imp id fun nearer => ⟨nearer.2.1, reached, nearer.2.2⟩)
      · have among := List.mem_cons_of_mem pass member
        rcases held with met | ⟨running, late, positive, ahead⟩
        · have kept := keeps other among now st met
          exact ⟨fun _ => .inl kept, fun _ => .inl kept⟩
        · rcases goes other among _ now st running late ahead with met | ⟨goes, still, _, done, pre, post, stage, regular, bound⟩
          · exact ⟨fun _ => .inl met, fun _ => .inl met⟩
          · exact ⟨fun _ => .inr ⟨still, late, positive, done, pre, post, stage, regular,
              Nat.le_trans bound (Nat.sub_le _ _)⟩, fun stops => absurd goes stops⟩
      · rcases held with met | ⟨running, _, positive, done, pre, post, stage, regular, bound⟩
        · exact .inl (closes now st met)
        · obtain ⟨closed, _, isOpen⟩ := closing_stage now running stage
          exact .inr ⟨isOpen, positive, done, pre, post, closed, regular, bound⟩

/-- The job is in `manual_review`, and no batch holds it. -/
def Concluded (st : State) : Prop := st.job.status = .manualReview ∧ st.job.leaseToken = none

/-- At the turn of an asset that stops at a legacy path the job goes to `manual_review`. -/
theorem iteration_reviews (prepared : Prepared config user st0) (others : OthersSucceed config user st0)
    (reviewable : Reviewable config user st0) (found : firstLegacy config user st0.catalog = some first)
    (running : Running token st) (stage : Stage config user st0 done (first :: rest) st)
    (calm : pass.drives = .working ∧ pass.cut = none) (late : st0.job.notBefore ≤ now) :
    Concluded (iteration config now token st pass).1 := by
  obtain ⟨asset, replicas, same, stops⟩ := reviewable
  obtain rfl := Option.some.inj (found.symm.trans same)
  obtain ⟨visit, reached, inside⟩ := (stops pass.previewFirst).below
  rw [Option.mem_def, ← stage.atTurn (firstLegacy_split found).1] at reached
  obtain ⟨staged, turned⟩ := iteration_turn pass prepared others running stage calm late
  rw [turned, reached]
  simp only [inside, if_true, conclude, resolveState]
  have matched : (Point.retained 1).matches token (st.unlink config (staged ++ (unlinkAll config.host .working
      (purgeVisits config.storage st.catalog asset pass.previewFirst)).1)).job = true := by
    simp [Point.matches, State.unlink, running.status, running.token]
  simp only [matched, if_true, Cleanup.resolveJob, Option.map_some]
  exact ⟨rfl, rfl⟩

theorem iteration_concluded (concluded : Concluded st) : Concluded (iteration config now token st pass).1 := by
  unfold iteration
  rw [if_pos (by rw [concluded.2]; nofun)]
  exact concluded

theorem closing_concluded (concluded : Concluded st) :
    Concluded ((resolveState config now token st .closing).getD st) := by
  have left : ¬ (st.job.status = .running ∧ st.job.leaseToken = some token) := by
    rw [concluded.1]
    nofun
  simp only [resolveState, Cleanup.resolveJob, if_neg left, Option.map_none, ite_self, Option.getD_none]
  exact concluded

/-- What a granted batch does. -/
theorem step_claimed {batch : Batch} {t : State} (stepped : step config st batch = some t)
    {job : AccountDeletionJob} (claimed : claim config st batch = some job) :
    batch.passes.length = config.jobs.batchSize ∧
      t = (processAccountDeletionBatch config batch.token batch.now { st with job } batch.passes).1 := by
  unfold step at stepped
  split at stepped
  · cases stepped
  rename_i length
  rw [claimed] at stepped
  cases stepped
  exact ⟨not_not.mp length, rfl⟩

/-- A calm batch brings the turn nearer, or it ends in `manual_review`. -/
theorem step_calm (sized : 0 < config.jobs.batchSize) (prepared : Prepared config user st0)
    (others : OthersSucceed config user st0) (reviewable : Reviewable config user st0)
    (found : firstLegacy config user st0.catalog = some first) {count : Nat} {batch : Batch} {t : State}
    (isOpen : IsOpen st.job.status) (ahead : Ahead config user st0 first count st)
    (calm : Calm config st batch) (stepped : step config st batch = some t) :
    Concluded t ∨ (IsOpen t.job.status ∧ 0 < count ∧ Ahead config user st0 first (count - 1) t) := by
  obtain ⟨job, claimed⟩ := Option.isSome_iff_exists.mp (calm.2 isOpen)
  obtain ⟨length, rfl⟩ := step_claimed stepped claimed
  obtain ⟨running, subject, ready, late, _⟩ := claim_running claimed
  obtain ⟨done, pre, post, stage, regular, bound⟩ := ahead
  refine calm_rule prepared others calm.1 ?_ ?_ (fun _ _ _ _ => iteration_concluded)
    (fun _ _ => closing_concluded) running (stage.ready ▸ late)
    ⟨done, pre, post, stage.claimed subject ready, regular, bound⟩
  · exact List.ne_nil_of_length_pos (length ▸ sized)
  · intro pass member done rest now st running late here
    exact iteration_reviews prepared others reviewable found running here (calm.1 pass member) late

/-- A job in `manual_review` is claimed by no batch. -/
theorem step_reviewed {batch : Batch} {t : State} (reviewed : st.job.status = .manualReview)
    (stepped : step config st batch = some t) : t.job.status = .manualReview := by
  unfold step at stepped
  split at stepped
  · cases stepped
  split at stepped
  · cases stepped
    exact reviewed
  · rename_i job claimed
    have isOpen := (claim_running claimed).2.2.2.2
    rw [reviewed] at isOpen
    rcases isOpen with other | other | other | other <;> cases other

theorem run_reviews (sized : 0 < config.jobs.batchSize) (prepared : Prepared config user st0)
    (others : OthersSucceed config user st0) (reviewable : Reviewable config user st0)
    (found : firstLegacy config user st0.catalog = some first) {count : Nat} {batches : List Batch} {t : State}
    (isOpen : IsOpen st.job.status) (ahead : Ahead config user st0 first count st)
    (long : count < batches.length) (calm : Along (step config) (Calm config) st batches)
    (reached : run (step config) st batches = some t) : t.job.status = .manualReview := by
  induction batches generalizing st count with
  | nil => exact absurd long (Nat.not_lt_zero _)
  | cons batch rest ih =>
    obtain ⟨middle, stepped, following⟩ := run_cons_iff.mp reached
    rcases step_calm sized prepared others reviewable found isOpen ahead calm.1 stepped with
      ⟨reviewed, _⟩ | ⟨stillOpen, positive, nearer⟩
    · refine invariant (I := fun t => t.job.status = .manualReview) (C := fun _ _ => True) ?_ reviewed
        (Run.along_true middle rest) following
      exact fun _ _ _ reviewed _ stepped => step_reviewed reviewed stepped
    · exact ih stillOpen nearer (by simp only [List.length_cons] at long; omega) (calm.2 middle stepped) following

end Liveness

section Converse

variable {first : Item}

/-- Files and rows of assets only go. -/
structure Shrinks (st t : State) : Prop where
  files : ∀ file ∈ t.disk.files, file ∈ st.disk.files
  assets : ∀ asset ∈ t.catalog.assets, asset ∈ st.catalog.assets

theorem Shrinks.trans {t u : State} (first : Shrinks st t) (second : Shrinks t u) : Shrinks st u :=
  ⟨fun file member => first.files file (second.files file member),
    fun asset member => first.assets asset (second.assets asset member)⟩

theorem Shrinks.refl (st : State) : Shrinks st st := ⟨fun _ member => member, fun _ member => member⟩

theorem unlink_shrinks (config : Config) (st : State) (gone : List Path) : Shrinks st (st.unlink config gone) :=
  ⟨fun _ member => (List.mem_filter.mp member).1, fun _ member => member⟩

/-- A new select of the job writes the job alone. -/
theorem resolveState_some {point : Point} {next : State}
    (resolved : resolveState config now token st point = some next) : Shrinks st next := by
  unfold resolveState at resolved
  split at resolved
  · obtain ⟨job, _, rfl⟩ := Option.map_eq_some_iff.mp resolved
    exact ⟨fun _ member => member, fun _ member => member⟩
  · cases resolved

theorem resolveState_shrinks (point : Point) : Shrinks st ((resolveState config now token st point).getD st) := by
  cases resolved : resolveState config now token st point with
  | none => exact Shrinks.refl st
  | some next => exact resolveState_some resolved

theorem fail_shrinks (code : String) : Shrinks st (fail config now token st code).1 := by
  unfold fail
  split
  · rename_i failed resolved
    exact resolveState_some resolved
  · exact Shrinks.refl st

/-- The rows of an ending that is committed are some of those before. -/
def KeepsWithin (catalog : Catalog) : Ending → Prop
  | .purged left _ | .completed left _ _ => ∀ asset ∈ left.assets, asset ∈ catalog.assets
  | .retained _ | .reviewed _ | .raised _ => True

theorem attempt_shrinks (config : Config) (user : UUID) (st : State) (pass : Pass) (now : Timestamp) :
    KeepsWithin st.catalog (attempt config pass now st user).2 := by
  unfold attempt
  split
  · exact trivial
  split
  · unfold purgeUpload
    split
    · exact trivial
    · exact fun _ member => member
  split
  · unfold purgeAsset
    split
    · exact trivial
    split
    · exact fun _ member => (List.mem_filter.mp member).1
    all_goals exact trivial
  · unfold finalize
    split
    · exact trivial
    · exact fun _ member => (List.mem_filter.mp member).1
    · exact trivial

theorem iteration_shrinks : Shrinks st (iteration config now token st pass).1 := by
  unfold iteration
  split
  · exact Shrinks.refl st
  split
  · exact Shrinks.refl st
  rename_i user _
  have rows := attempt_shrinks config user st pass now
  generalize attempt config pass now st user = result at rows
  obtain ⟨gone, ending⟩ := result
  dsimp only
  have unlinked := fun gone => unlink_shrinks config st gone
  split
  · cases ending with
    | purged catalog job => exact ⟨(unlinked gone).files, rows⟩
    | retained count =>
      simp only [conclude]
      split
      · rename_i reviewed resolved
        exact (unlinked gone).trans (resolveState_some resolved)
      · exact unlinked gone
    | reviewed job => exact ⟨(unlinked gone).files, fun _ member => member⟩
    | completed catalog users job => exact ⟨(unlinked gone).files, rows⟩
    | raised code => exact (unlinked gone).trans (fail_shrinks code)
  · exact (unlinked _).trans (fail_shrinks _)
  · exact unlinked _

/-- The first item with a legacy path has had its turn under the pass. -/
def Met (config : Config) (user : UUID) (st0 : State) (first : Item) (pass : Pass) (t : State) : Prop :=
  ∃ done rest now token st, Running token st ∧ st0.job.notBefore ≤ now ∧
    Stage config user st0 done (first :: rest) st ∧ Shrinks (iteration config now token st pass).1 t

/-- A time at which an open job can be claimed. -/
theorem exists_claim (config : Config) (st : State) (token : UUID) (passes : List Pass) : ∃ now, IsOpen st.job.status →
    (claim config st ⟨now, token, passes⟩).isSome = true := by
  refine ⟨max st.job.notBefore (max st.job.nextAttemptAt (st.job.leaseExpiresAt.getD 0)), fun isOpen => ?_⟩
  apply Cleanup.IsDue.claimable
  refine ⟨isOpen, Nat.le_max_left _ _, Nat.le_trans (Nat.le_max_left _ _) (Nat.le_max_right _ _), .inr ?_⟩
  cases st.job.leaseExpiresAt with
  | none => rfl
  | some expiry =>
    rw [Option.all_some, decide_eq_true_eq]
    exact Nat.le_trans (Nat.le_max_right _ _) (Nat.le_max_right _ _)

/-- Calm batches of one pass lead to its turn. -/
theorem run_meets (pass : Pass) (sized : 0 < config.jobs.batchSize) (prepared : Prepared config user st0)
    (others : OthersSucceed config user st0) (calm : pass.drives = .working ∧ pass.cut = none) {count : Nat}
    (isOpen : IsOpen st.job.status) (ahead : Ahead config user st0 first count st) :
    ∃ batches t, run (step config) st batches = some t ∧ Met config user st0 first pass t := by
  induction count using Nat.strong_induction_on generalizing st with
  | _ count ih =>
    obtain ⟨now, due⟩ := exists_claim config st 0 (List.replicate config.jobs.batchSize pass)
    obtain ⟨job, claimed⟩ := Option.isSome_iff_exists.mp (due isOpen)
    obtain ⟨running, subject, ready, late, _⟩ := claim_running claimed
    obtain ⟨done, pre, post, stage, regular, bound⟩ := ahead
    have stepped : step config st ⟨now, 0, List.replicate config.jobs.batchSize pass⟩ =
        some (processAccountDeletionBatch config 0 now { st with job } (List.replicate config.jobs.batchSize pass)).1 := by
      simp [step, claimed]
    have results : Met config user st0 first pass _ ∨ _ :=
      calm_rule (M := Met config user st0 first pass) prepared others
        (fun other member => List.eq_of_mem_replicate member ▸ calm)
        (List.ne_nil_of_length_pos (by rwa [List.length_replicate])) ?_ ?_ ?_ running (stage.ready ▸ late)
        ⟨done, pre, post, stage.claimed subject ready, regular, bound⟩
    · rcases results with met | ⟨stillOpen, positive, nearer⟩
      · exact ⟨[_], _, by rw [run_cons_iff]; exact ⟨_, stepped, rfl⟩, met⟩
      · obtain ⟨batches, t, reached, met⟩ := ih (count - 1) (Nat.sub_lt positive Nat.one_pos) stillOpen nearer
        exact ⟨_ :: batches, t, run_cons_iff.mpr ⟨_, stepped, reached⟩, met⟩
    · intro other member done rest now st running late here
      rw [List.eq_of_mem_replicate member]
      exact ⟨done, rest, now, 0, st, running, late, here, Shrinks.refl _⟩
    · rintro other member now' st' ⟨done, rest, now, token, st, running, late, here, shrinks⟩
      exact ⟨done, rest, now, token, st, running, late, here, shrinks.trans iteration_shrinks⟩
    · rintro now' st' ⟨done, rest, now, token, st, running, late, here, shrinks⟩
      exact ⟨done, rest, now, token, st, running, late, here, shrinks.trans (resolveState_shrinks _)⟩

/-- The batches of one pass that are due, as many as one likes. -/
theorem exists_calm_run (config : Config) (pass : Pass) (calm : pass.drives = .working ∧ pass.cut = none)
    (n : Nat) (st : State) :
    ∃ batches t, batches.length = n ∧ Along (step config) (Calm config) st batches ∧
      (∀ batch ∈ batches, ∀ other ∈ batch.passes, other = pass) ∧ run (step config) st batches = some t := by
  induction n generalizing st with
  | zero => exact ⟨[], st, rfl, trivial, nofun, rfl⟩
  | succ n ih =>
    obtain ⟨now, due⟩ := exists_claim config st 0 (List.replicate config.jobs.batchSize pass)
    have stepped : ∃ middle, step config st ⟨now, 0, List.replicate config.jobs.batchSize pass⟩ = some middle := by
      unfold step
      rw [if_neg (by simp)]
      split <;> exact ⟨_, rfl⟩
    obtain ⟨middle, stepped⟩ := stepped
    obtain ⟨batches, t, length, along, same, reached⟩ := ih middle
    refine ⟨_ :: batches, t, by rw [List.length_cons, length], ⟨⟨?_, due⟩, ?_⟩, ?_, run_cons_iff.mpr ⟨_, stepped, reached⟩⟩
    · exact fun other member => List.eq_of_mem_replicate member ▸ calm
    · intro other otherStep
      cases Option.some.inj (stepped.symm.trans otherStep)
      exact along
    · intro batch member other among
      rcases List.mem_cons.mp member with rfl | later
      · exact List.eq_of_mem_replicate among
      · exact same batch later other among

/-- The first item with a legacy path is stopped by something that is no legacy path of an
asset. -/
def Blocked (config : Config) (user : UUID) (st0 : State) (first : Item) (previewFirst : Bool) : Prop :=
  ∃ visit, (first.visits config.storage (turn config user st0.catalog) previewFirst).find?
      (Visit.fails config.host) = some visit ∧
    ∀ row replicas, first = .asset row replicas → visit.inside config.host = false

theorem iteration_blocked (now : Timestamp) (prepared : Prepared config user st0) (others : OthersSucceed config user st0)
    (found : firstLegacy config user st0.catalog = some first)
    (blocked : Blocked config user st0 first pass.previewFirst) (running : Running token st) {count : Nat}
    (ahead : Ahead config user st0 first count st) :
    ((iteration config now token st pass).2 = none → Running token (iteration config now token st pass).1 ∧
      Ahead config user st0 first count (iteration config now token st pass).1) ∧
    ((iteration config now token st pass).2 ≠ none → Ahead config user st0 first count (iteration config now token st pass).1 ∧
      IsOpen (iteration config now token st pass).1.job.status) := by
  obtain ⟨visit, stopped, outside⟩ := blocked
  have legacy := (firstLegacy_split found).1
  rcases ahead.cases with ⟨done, post, stage⟩ | ⟨done, item, pre, post, stage, regular, regulars, bound⟩
  · have turned := iteration_iterated config pass now running stage.subject
      (stage.listed prepared.keyed).1
    rw [← stage.atTurn legacy] at stopped
    generalize iteration config now token st pass = result at turned
    cases turned with
    | purged gone job _ _ passes => exact absurd (stopped.symm.trans passes) (Option.some_ne_none _)
    | ended gone job answer _ subject ready isOpen =>
      refine ⟨fun done_ => absurd done_ (Option.some_ne_none _), fun _ =>
        ⟨⟨done, [], post, stage.stay gone st.users subject ready, ?_, Nat.zero_le _⟩, isOpen⟩⟩
      exact fun _ absent => absurd absent List.not_mem_nil
    | reviewed gone job row replicas other _ _ _ _ own inside reached =>
      obtain rfl := Option.some.inj (stopped.symm.trans reached)
      exact absurd (inside.symm.trans (outside row replicas own)) nofun
  · have listed := (stage.listed prepared.keyed).1
    have here : item ∈ items st.catalog user := listed ▸ List.mem_cons_self
    have clean := clean_passes config.storage st.catalog pass.previewFirst
      here (others.items item (stage.mem_start List.mem_cons_self) regular)
    have turned := iteration_iterated config pass now running stage.subject listed
    generalize iteration config now token st pass = result at turned
    cases turned with
    | purged gone job _ same _ =>
      exact ⟨fun _ => ⟨same.running running, _, pre, post, stage.advance regular gone st.users same, regulars,
        Nat.le_of_lt bound⟩, fun some_ => absurd rfl some_⟩
    | ended gone job answer _ subject ready isOpen =>
      refine ⟨fun done_ => absurd done_ (Option.some_ne_none _), fun _ =>
        ⟨⟨done, item :: pre, post, stage.stay gone st.users subject ready, ?_, bound⟩, isOpen⟩⟩
      exact List.forall_mem_cons.mpr ⟨regular, regulars⟩
    | reviewed gone job row replicas other _ _ _ _ _ _ reached => exact absurd (reached.symm.trans clean) (Option.some_ne_none _)

/-- Blocked under every pass of a run, the account is never reviewed. -/
theorem run_blocked (prepared : Prepared config user st0) (others : OthersSucceed config user st0)
    (found : firstLegacy config user st0.catalog = some first)
    (blocked : Blocked config user st0 first pass.previewFirst) {batches : List Batch}
    (same : ∀ batch ∈ batches, ∀ other ∈ batch.passes, other = pass) {t : State}
    (reached : run (step config) st0 batches = some t) : IsOpen t.job.status := by
  have stays : (∃ count, Ahead config user st0 first count t) ∧ IsOpen t.job.status := by
    refine invariant (I := fun t => (∃ count, Ahead config user st0 first count t) ∧ IsOpen t.job.status)
      (C := fun _ batch => ∀ other ∈ batch.passes, other = pass) ?_ ⟨Ahead.start prepared found, prepared.pending⟩
      (Run.along_of_forall st0 same) reached
    rintro st batch t ⟨⟨count, ahead⟩, isOpen⟩ only stepped
    cases claimed : claim config st batch with
    | none =>
      unfold step at stepped
      split at stepped
      · cases stepped
      · rw [claimed] at stepped
        cases stepped
        exact ⟨⟨count, ahead⟩, isOpen⟩
    | some job =>
      obtain ⟨_, rfl⟩ := step_claimed stepped claimed
      obtain ⟨running, subject, ready, _, _⟩ := claim_running claimed
      obtain ⟨done, pre, post, stage, regular, bound⟩ := ahead
      refine batch_rule (P := fun _ st => Running batch.token st ∧ Ahead config user st0 first count st)
        (Q := fun t => (∃ count, Ahead config user st0 first count t) ∧ IsOpen t.job.status) batch.passes
        (fun _ _ _ _ held => held) (fun other member now st held => ?_) (fun now st held => ?_)
        ⟨running, done, pre, post, stage.claimed subject ready, regular, bound⟩
      · obtain rfl := only other member
        obtain ⟨goes, stops⟩ := iteration_blocked now prepared others found blocked held.1 held.2
        exact ⟨goes, fun answered => ⟨⟨count, (stops answered).1⟩, (stops answered).2⟩⟩
      · obtain ⟨running, done, pre, post, stage, regular, bound⟩ := held
        obtain ⟨closed, _, isOpen⟩ := closing_stage now running stage
        exact ⟨⟨count, done, pre, post, closed, regular, bound⟩, isOpen⟩
  exact stays.2

theorem not_blocked (prepared : Prepared config user st0) (others : OthersSucceed config user st0)
    (found : firstLegacy config user st0.catalog = some first) (reviewed : Reviewed config user st0)
    (previewFirst : Bool) : ¬ Blocked config user st0 first previewFirst := by
  intro blocked
  obtain ⟨n, concludes⟩ := reviewed.concludes
  obtain ⟨batches, t, length, along, same, reached⟩ :=
    exists_calm_run config ⟨.working, previewFirst, 0, none⟩ ⟨rfl, rfl⟩ n st0
  have isOpen := run_blocked prepared others found blocked same reached
  rw [concludes batches t (Nat.le_of_eq length.symm) along reached] at isOpen
  rcases isOpen with other | other | other | other <;> cases other

/-- What an asset that is retained in every run has to look like. -/
theorem reviewed_stops (sized : 0 < config.jobs.batchSize) (prepared : Prepared config user st0)
    (others : OthersSucceed config user st0) {row : Asset} {replicas : List AssetReplica}
    (found : firstLegacy config user st0.catalog = some (.asset row replicas))
    (reviewed : Reviewed config user st0) (previewFirst : Bool) :
    Stops config (turn config user st0.catalog) st0.disk row replicas previewFirst := by
  obtain ⟨legacy, before, after, split, _⟩ := firstLegacy_split found
  have member : Item.asset row replicas ∈ items st0.catalog user :=
    split ▸ List.mem_append_right _ List.mem_cons_self
  obtain ⟨count, ahead⟩ := Ahead.start prepared found
  obtain ⟨batches, t, reached, done, rest, now, token, st, running, late, stage, shrinks⟩ :=
    run_meets ⟨.working, previewFirst, 0, none⟩ sized prepared others ⟨rfl, rfl⟩ prepared.pending ahead
  obtain ⟨staged, turned⟩ := iteration_turn ⟨.working, previewFirst, 0, none⟩ prepared others
    running stage ⟨rfl, rfl⟩ late
  have keeps := reviewed.keeps batches t reached
  rw [turned, stage.atTurn legacy] at shrinks
  constructor
  · cases stopped : (purgeVisits config.storage (turn config user st0.catalog) row previewFirst).find?
        (Visit.fails config.host) with
    | none =>
      rw [stopped] at shrinks
      obtain ⟨⟨listed, _⟩, _⟩ := mem_items_asset.mp (keeps.rows _ member legacy)
      have left := shrinks.assets row listed
      have gone := (List.mem_filter.mp left).2
      simp at gone
    | some visit =>
      refine ⟨visit, rfl, ?_⟩
      by_contra outside
      refine not_blocked prepared others found reviewed previewFirst ⟨visit, stopped, fun _ _ _ => ?_⟩
      exact eq_false_of_ne_true outside
  · intro visit passed free path named legacyPath present same
    have left := keeps.files _ member path named legacyPath present
    obtain ⟨file, there, itself⟩ := List.any_eq_true.mp left
    have unlinked := unlinkAll_removes passed free
    have before : file ∈ (st.unlink config (staged ++ (unlinkAll config.host .working
        (purgeVisits config.storage (turn config user st0.catalog) row previewFirst)).1)).disk.files := by
      have kept := shrinks.files file there
      revert kept
      cases (purgeVisits config.storage (turn config user st0.catalog) row previewFirst).find?
        (Visit.fails config.host) with
      | none => exact id
      | some stop =>
        dsimp only
        split
        · intro kept
          simp only [conclude] at kept
          split at kept
          · rename_i reviewed resolved
            exact (resolveState_some resolved).files file kept
          · exact kept
        · exact (fail_shrinks _).files file
    have absent := of_decide_eq_true (List.mem_filter.mp before).2
    rw [of_decide_eq_true itself, same] at absent
    exact absent (List.mem_append_right _ unlinked)

end Converse

/-- An account with legacy paths that is to be deleted, all of whose other items succeed:
the files behind the legacy paths and their rows stay in every run, and finitely many calm
batches lead to `manual_review`, exactly where the first such item is an asset whose purge
stops at a path below its root, without having unlinked a file of its own under another
name. -/
theorem legacy_accounts_are_reviewed (config : Config) (user : UUID) (st : State)
    (sized : 0 < config.jobs.batchSize) (prepared : Prepared config user st)
    (others : OthersSucceed config user st)
    (legacy : ∃ item ∈ items st.catalog user, item.Legacy config.host) :
    Reviewed config user st ↔ Reviewable config user st := by
  obtain ⟨item, member, own⟩ := legacy
  have isFound : (firstLegacy config user st.catalog).isSome = true :=
    List.find?_isSome.mpr ⟨item, member, decide_eq_true own⟩
  obtain ⟨first, found⟩ := Option.isSome_iff_exists.mp isFound
  constructor
  · intro reviewed
    cases first with
    | upload row =>
      refine absurd ?_ (not_blocked prepared others found reviewed true)
      obtain ⟨path, named, real, noncanonical⟩ := (firstLegacy_split found).1
      rw [List.mem_singleton.mp named] at real noncanonical
      refine ⟨⟨.upload, row.stagingPath, [config.storage.stagingPath], ⟨none, none, some row.id⟩,
        turn config user st.catalog⟩, ?_, fun _ _ same => absurd same Item.noConfusion⟩
      simp only [Item.visits, uploadVisits, real, Bool.false_eq_true, if_false]
      exact List.find?_cons_of_pos (by simp [Visit.fails, noncanonical])
    | asset row replicas =>
      exact ⟨row, replicas, found, reviewed_stops sized prepared others found reviewed⟩
  · intro reviewable
    obtain ⟨count, ahead⟩ := Ahead.start prepared found
    refine ⟨fun batches t reached => run_keeps prepared reviewable reached, count + 1, ?_⟩
    intro batches t long calm reached
    exact run_reviews sized prepared others reviewable found prepared.pending ahead long calm reached

/-- A host with one original and one staged upload, and a `..` in a second name of each. -/
def shownHost : Host where
  resolve text :=
    if text = "/o/a" ∨ text = "/o/../o/a" then ["o", "a"]
    else if text = "/s/u" ∨ text = "/s/../s/u" then ["s", "u"]
    else [text]
  str path := if path = ["o", "a"] then "/o/a" else if path = ["s", "u"] then "/s/u" else path.headD ""
  normcase := id
  resolve_str text := by
    by_cases original : text = "/o/a" ∨ text = "/o/../o/a"
    · simp [original]
    · by_cases staged : text = "/s/u" ∨ text = "/s/../s/u"
      · simp [original, staged]
      · simp [original, staged]
  resolve_normcase text := by
    by_cases original : text = "/o/a" ∨ text = "/o/../o/a"
    · simp [original]
    · by_cases staged : text = "/s/u" ∨ text = "/s/../s/u"
      · simp [original, staged]
      · simp [original, staged]

def shownConfig : Config where
  host := shownHost
  storage := ⟨["o"], ["d"], ["s"], [["r"]]⟩
  jobs := ⟨25, 900, 30, 3600, 0⟩

/-- The account 7 with one asset and one upload session, once its deletion is accepted. -/
def shownAccount (original staging : String) : State :=
  prepareAccountDeletion shownConfig 100 1 7
    { assets := [⟨5, 7, 5, 1, .active, none, none, none, none, original, "c", "c", 0, 1, none, none, .managed, none⟩]
      replicas := []
      uploads := [⟨3, 7, staging⟩] }
    ⟨[["o", "a"], ["s", "u"]], [], [["o"], ["s"]]⟩ [7]

theorem shownAccount_prepared (original staging : String) :
    Prepared shownConfig 7 (shownAccount original staging) := by
  refine prepareAccountDeletion_prepared ⟨?_, ?_, ?_⟩ _ _
  · exact List.nodup_singleton _
  · exact List.nodup_nil
  · exact List.nodup_singleton _

theorem legacy_original_is_reviewed :
    (∃ item ∈ items (shownAccount "/o/../o/a" "/s/u").catalog 7, item.Legacy shownConfig.host) ∧
      Reviewed shownConfig 7 (shownAccount "/o/../o/a" "/s/u") := by
  have others : OthersSucceed shownConfig 7 (shownAccount "/o/../o/a" "/s/u") :=
    ⟨by decide +kernel, by decide +kernel⟩
  have legacy : ∃ item ∈ items (shownAccount "/o/../o/a" "/s/u").catalog 7, item.Legacy shownConfig.host := by
    decide +kernel
  have reviewable : Reviewable shownConfig 7 (shownAccount "/o/../o/a" "/s/u") := by
    refine ⟨_, [], rfl, fun previewFirst => ?_⟩
    cases previewFirst <;> exact ⟨by decide +kernel, by decide +kernel⟩
  exact ⟨legacy, (legacy_accounts_are_reviewed shownConfig 7 _ (by decide) (shownAccount_prepared _ _) others
    legacy).mpr reviewable⟩

/-- The staging path of an upload session is the legacy one. -/
theorem legacy_upload_is_retried : ¬ ∀ (config : Config) (user : UUID) (st : State),
    0 < config.jobs.batchSize → Prepared config user st → OthersSucceed config user st →
    (∃ item ∈ items st.catalog user, item.Legacy config.host) → Reviewed config user st := by
  intro always
  have prepared := shownAccount_prepared "/o/a" "/s/../s/u"
  have others : OthersSucceed shownConfig 7 (shownAccount "/o/a" "/s/../s/u") :=
    ⟨by decide +kernel, by decide +kernel⟩
  have reviewed := always shownConfig 7 _ (by decide) prepared others (by decide +kernel)
  have found : firstLegacy shownConfig 7 (shownAccount "/o/a" "/s/../s/u").catalog =
      some (.upload ⟨3, 7, "/s/../s/u"⟩) := by decide +kernel
  refine not_blocked prepared others found reviewed true ⟨⟨.upload, "/s/../s/u", [["s"]],
    ⟨none, none, some 3⟩, turn shownConfig 7 (shownAccount "/o/a" "/s/../s/u").catalog⟩, ?_,
    fun _ _ same => absurd same (by simp)⟩
  exact List.find?_cons_of_pos (by decide +kernel)

end Drivebound.Purging
