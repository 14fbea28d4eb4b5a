import Drivebound.Core.Backlog
import Drivebound.Purging.Turns
import Mathlib

/-! `purge_due_assets`: a pass takes the assets whose retention is over, oldest deadline first
and so many at most. An asset whose purge is deferred stays a tombstone, with its deadline. -/
namespace Drivebound.Purging

structure Tombstone where
  id : UUID
  purgeAfter : Timestamp
  deriving DecidableEq, Repr

/-- What a row is in the order of the deadlines. -/
def tombstone (asset : Asset) : Option Tombstone :=
  if asset.lifecycleState = .trashed ∨ asset.lifecycleState = .purging then
    asset.purgeAfter.map fun deadline => ⟨asset.id, deadline⟩
  else none

def tombstones (catalog : Catalog) : List Tombstone := catalog.assets.filterMap tombstone

/-- What one call of `purge_due_assets` meets. -/
structure DuePass where
  now : Timestamp
  /-- How the database orders the rows of one deadline. -/
  tie : UUID → Nat
  previewFirst : UUID → Bool

def DuePass.rank (pass : DuePass) (due : Tombstone) : ℕ ×ₗ ℕ := toLex (due.purgeAfter, pass.tie due.id)

/-- The selected rows, before the limit. -/
def dueIds (pass : DuePass) (catalog : Catalog) : List Tombstone :=
  ((tombstones catalog).filter (·.purgeAfter ≤ pass.now)).insertionSort
    fun one other => pass.rank one ≤ pass.rank other

namespace Catalog

/-- `asset.lifecycle_state = "purging"` -/
def markPurging (catalog : Catalog) (id : UUID) : Catalog :=
  { catalog with
    assets := Rows.updateKey Asset.id id (fun asset => { asset with lifecycleState := .purging }) catalog.assets }

end Catalog

section Purges
variable (host : Host) (settings : Settings) (drives : Drives)

def Visit.raises (visit : Visit) : Bool :=
  match visit.unlink host drives with
  | .error _ => true
  | .ok _ => false

/-- The catalog when a purge that is deferred is committed: the replicas that were unlinked
before the first path that raises have lost their rows. -/
def dropUnlinked : Catalog → List AssetReplica → Catalog
  | catalog, [] => catalog
  | catalog, replica :: rest =>
    if (replicaVisits settings catalog [replica]).any (Visit.raises host drives) then catalog
    else dropUnlinked (catalog.dropReplica replica.id) rest

/-- The body of the loop, and whether the loop goes on: `require_storage` raises out of it. -/
def purgeDueAsset (pass : DuePass) (catalog : Catalog) (id : UUID) : Catalog × Bool :=
  match (catalog.assets.filter (IsPurgeDue pass.now ·)).find? (·.id = id) with
  | none => (catalog, true)
  | some asset =>
    match (safelyPurgeAsset host settings drives (pass.previewFirst id) pass.now catalog asset).2 with
    | .purged => (catalog.dropAsset id, true)
    | .notDue => (catalog, true)
    | .unavailable => (catalog, false)
    | .retained _ | .deferred _ _ =>
      ((dropUnlinked host settings drives catalog (catalog.replicasOf id)).markPurging id, true)

/-- Some path of the asset cannot be unlinked as the rows are. -/
def isBlocked (catalog : Catalog) (id : UUID) : Bool :=
  (catalog.assets.find? (·.id = id)).any fun asset =>
    (purgeVisits settings catalog asset false).any (Visit.raises host drives)

end Purges

/-! ### What the unlinks of a purge depend on -/

/-- A row but for the mark of a purge that was begun. -/
def unmarked (asset : Asset) : Asset :=
  { asset with lifecycleState :=
      if asset.lifecycleState = .purging then .trashed else asset.lifecycleState }

theorem unmarked_eq {one other : Asset} (same : unmarked one = unmarked other) :
    other = { one with lifecycleState := other.lifecycleState } := by
  obtain ⟨⟩ := one
  obtain ⟨⟩ := other
  simp only [unmarked, Asset.mk.injEq] at same ⊢
  simp [same]

theorem tombstone_unmarked (asset : Asset) : tombstone (unmarked asset) = tombstone asset := by
  unfold tombstone unmarked
  cases asset.lifecycleState <;> rfl

theorem tombstone_congr {one other : Asset} (same : unmarked one = unmarked other) :
    tombstone one = tombstone other := by
  rw [← tombstone_unmarked one, same, tombstone_unmarked]

/-- Every row of one catalog is one of the other, up to marks. -/
structure Within (left catalog : Catalog) : Prop where
  assets : ∀ asset ∈ left.assets, ∃ row ∈ catalog.assets, unmarked asset = unmarked row
  replicas : ∀ replica ∈ left.replicas, replica ∈ catalog.replicas
  uploads : ∀ upload ∈ left.uploads, upload ∈ catalog.uploads

namespace Within
variable {left catalog other : Catalog}

theorem refl (catalog : Catalog) : Within catalog catalog :=
  ⟨fun asset member => ⟨asset, member, rfl⟩, fun _ => id, fun _ => id⟩

theorem trans (first : Within left catalog) (second : Within catalog other) : Within left other := by
  refine ⟨fun asset member => ?_, fun replica member => ?_, fun upload member => ?_⟩
  · obtain ⟨row, among, same⟩ := first.assets asset member
    obtain ⟨last, there, equal⟩ := second.assets row among
    exact ⟨last, there, same.trans equal⟩
  · exact second.replicas replica (first.replicas replica member)
  · exact second.uploads upload (first.uploads upload member)

theorem dropReplica (within : Within left catalog) (id : UUID) :
    Within (left.dropReplica id) (catalog.dropReplica id) := by
  refine ⟨within.assets, fun replica member => ?_, within.uploads⟩
  obtain ⟨there, other⟩ := List.mem_filter.mp member
  exact List.mem_filter.mpr ⟨within.replicas replica there, other⟩

theorem foldl_dropReplica (within : Within left catalog) (dropped : List AssetReplica) :
    Within (dropped.foldl (fun rows replica => rows.dropReplica replica.id) left)
      (dropped.foldl (fun rows replica => rows.dropReplica replica.id) catalog) := by
  induction dropped generalizing left catalog with
  | nil => exact within
  | cons replica rest ih => exact ih (within.dropReplica replica.id)

theorem of_dropReplica (catalog : Catalog) (id : UUID) : Within (catalog.dropReplica id) catalog :=
  ⟨(refl catalog).assets, fun _ member => List.mem_of_mem_filter member, fun _ member => member⟩

theorem of_dropAsset (catalog : Catalog) (id : UUID) : Within (catalog.dropAsset id) catalog :=
  ⟨fun asset member => ⟨asset, List.mem_of_mem_filter member, rfl⟩,
    fun _ member => List.mem_of_mem_filter member, fun _ member => member⟩

theorem tombstones (within : Within left catalog) {due : Tombstone} (member : due ∈ tombstones left) :
    due ∈ Purging.tombstones catalog := by
  obtain ⟨asset, among, same⟩ := List.mem_filterMap.mp member
  obtain ⟨row, there, equal⟩ := within.assets asset among
  exact List.mem_filterMap.mpr ⟨row, there, tombstone_congr equal ▸ same⟩

theorem externalOriginals (within : Within left catalog) {path : String} (member : path ∈ externalOriginals left) :
    path ∈ Purging.externalOriginals catalog := by
  obtain ⟨asset, among, rfl⟩ := List.mem_map.mp member
  obtain ⟨there, external⟩ := List.mem_filter.mp among
  obtain ⟨row, found, same⟩ := within.assets asset there
  rw [unmarked_eq same] at found
  exact List.mem_map.mpr ⟨_, List.mem_filter.mpr ⟨found, external⟩, rfl⟩

theorem otherPaths (within : Within left catalog) {excluding : Excluding} {path : String}
    (member : path ∈ otherPaths left excluding) : path ∈ Purging.otherPaths catalog excluding := by
  rcases List.mem_append.mp member with rows | upload
  · rcases List.mem_append.mp rows with asset | replica
    · obtain ⟨asset, among, named⟩ := List.mem_flatMap.mp asset
      obtain ⟨there, kept⟩ := List.mem_filter.mp among
      obtain ⟨row, found, same⟩ := within.assets asset there
      rw [unmarked_eq same] at found
      exact mem_otherPaths_asset found (of_decide_eq_true kept) named
    · obtain ⟨replica, among, named⟩ := List.mem_flatMap.mp replica
      obtain ⟨there, kept⟩ := List.mem_filter.mp among
      exact mem_otherPaths_replica (within.replicas replica there) (of_decide_eq_true kept) named
  · obtain ⟨row, among, rfl⟩ := List.mem_map.mp upload
    obtain ⟨there, kept⟩ := List.mem_filter.mp among
    exact mem_otherPaths_upload (within.uploads row there) (of_decide_eq_true kept)

/-- Rows that go take references with them, and add none. -/
theorem referenced (within : Within left catalog) {host : Host} {path : String} {excluding : Excluding}
    (named : physicalPathHasOtherReference host left path excluding = true) :
    physicalPathHasOtherReference host catalog path excluding = true := by
  simp only [physicalPathHasOtherReference, Bool.or_eq_true, List.contains_iff_mem, List.any_eq_true] at named ⊢
  rcases named with ((text | text) | ⟨value, member, same⟩) | ⟨value, member, same⟩
  · exact .inl (.inl (.inl (within.externalOriginals text)))
  · exact .inl (.inl (.inr (within.otherPaths text)))
  · exact .inl (.inr ⟨value, within.externalOriginals member, same⟩)
  · exact .inr ⟨value, within.otherPaths member, same⟩

end Within

section Raising
variable {host : Host} {settings : Settings} {drives : Drives} {left catalog : Catalog}

/-- An unlink that raises does so as well where fewer rows are left. -/
theorem Visit.raises_within {visit : Visit} (within : Within left visit.catalog)
    (raised : visit.raises host drives = true) : Visit.raises host drives { visit with catalog := left } = true := by
  unfold Visit.raises Visit.unlink safelyUnlinkCatalogPath at raised ⊢
  split
  · rfl
  rename_i done
  exfalso
  split at done
  · cases done
  split at done
  · cases done
  rename_i resolved valid canonical
  simp only [valid, canonical, if_false] at raised
  have kept : physicalPathHasOtherReference host left visit.path visit.excluding = true →
      physicalPathHasOtherReference host visit.catalog visit.path visit.excluding = true :=
    within.referenced
  split at done
  · rename_i named
    simp [kept named] at raised
  split at done
  · cases done
  split at done
  · cases done
  rename_i gives
  split at raised
  · rename_i error stopped
    split at stopped
    · cases stopped
    · rw [gives] at stopped
      simp at stopped
  · cases raised

theorem raises_replicaVisits (within : Within left catalog) (replicas : List AssetReplica)
    (raised : (replicaVisits settings catalog replicas).any (Visit.raises host drives) = true) :
    (replicaVisits settings left replicas).any (Visit.raises host drives) = true := by
  induction replicas generalizing left catalog with
  | nil => exact raised
  | cons replica rest ih =>
    simp only [replicaVisits, List.cons_append, List.any_cons, List.any_append, List.any_map, Bool.or_eq_true] at raised ⊢
    rcases raised with first | sidecars | later
    · exact .inl (Visit.raises_within within first)
    · obtain ⟨path, member, first⟩ := List.any_eq_true.mp sidecars
      exact .inr (.inl (List.any_eq_true.mpr ⟨path, member, Visit.raises_within within first⟩))
    · exact .inr (.inr (ih (within.dropReplica replica.id) later))

theorem mem_derivatives_comm {asset : Asset} {path : String} (one other : Bool)
    (member : path ∈ derivatives asset one) : path ∈ derivatives asset other := by
  unfold derivatives at member ⊢
  split at member
  · split at member
    · rename_i same
      simp [same] at member ⊢
      exact member
    · rename_i apart
      rw [if_neg apart]
      cases one <;> cases other <;> simp at member ⊢ <;> tauto
  · exact member

theorem raises_assetVisits {asset row : Asset} (within : Within left catalog) (same : unmarked asset = unmarked row)
    (one other : Bool) (raised : (assetVisits settings catalog asset one).any (Visit.raises host drives) = true) :
    (assetVisits settings left row other).any (Visit.raises host drives) = true := by
  obtain ⟨visit, member, first⟩ := List.any_eq_true.mp raised
  refine List.any_eq_true.mpr ⟨{ visit with catalog := left }, ?_, ?_⟩
  · rw [unmarked_eq same]
    rcases List.mem_append.mp member with original | derivative
    · refine List.mem_append_left _ ?_
      split at original
      · rename_i managed
        rw [List.mem_singleton.mp original, if_pos managed]
        exact List.mem_singleton.mpr rfl
      · cases original
    · obtain ⟨path, listed, rfl⟩ := List.mem_map.mp derivative
      exact List.mem_append_right _ (List.mem_map.mpr ⟨path, mem_derivatives_comm one other listed, rfl⟩)
  · have sees : visit.catalog = catalog := (mem_assetVisits member).1
    exact Visit.raises_within (sees ▸ within) first

end Raising

/-! ### One asset -/

section Purge
variable {host : Host} {settings : Settings} {drives : Drives} {catalog : Catalog} {asset : Asset} {pass : DuePass}

theorem unlinkAll_passes {visits : List Visit} :
    (unlinkAll host drives visits).2 = none ↔ visits.any (Visit.raises host drives) = false := by
  induction visits with
  | nil => exact ⟨fun _ => rfl, fun _ => rfl⟩
  | cons visit rest ih =>
    rw [List.any_cons, Bool.or_eq_false_iff, ← ih]
    simp only [unlinkAll, Visit.raises]
    cases visit.unlink host drives with
    | error error => simp
    | ok gone => simp

theorem any_purgeVisits (catalog : Catalog) (asset : Asset) (previewFirst : Bool) :
    (purgeVisits settings catalog asset previewFirst).any (Visit.raises host drives) =
      (purgeVisits settings catalog asset false).any (Visit.raises host drives) := by
  unfold purgeVisits
  rw [List.any_append, List.any_append]
  congr 1
  rw [Bool.eq_iff_iff]
  exact ⟨raises_assetVisits (.refl _) rfl _ _, raises_assetVisits (.refl _) rfl _ _⟩

theorem isBlocked_row (keyed : catalog.Keyed) (member : asset ∈ catalog.assets) :
    isBlocked host settings drives catalog asset.id =
      (purgeVisits settings catalog asset false).any (Visit.raises host drives) := by
  rw [isBlocked, (Rows.find?_key_iff keyed.assets).mpr ⟨member, rfl⟩]
  rfl

variable (host settings drives) in
/-- What the loop makes of an asset that is due. -/
theorem purgeDueAsset_due (keyed : catalog.Keyed) (member : asset ∈ catalog.assets)
    (due : IsPurgeDue pass.now asset) : purgeDueAsset host settings drives pass catalog asset.id =
      if drives.ready = false then (catalog, false)
      else if isBlocked host settings drives catalog asset.id = true then
        ((dropUnlinked host settings drives catalog (catalog.replicasOf asset.id)).markPurging asset.id, true)
      else (catalog.dropAsset asset.id, true) := by
  have found : (catalog.assets.filter (IsPurgeDue pass.now ·)).find? (·.id = asset.id) = some asset := by
    rw [Rows.find?_key_filter keyed.assets, (Rows.find?_key_iff keyed.assets).mpr ⟨member, rfl⟩]
    simp [Option.filter, due]
  rw [isBlocked_row keyed member, ← any_purgeVisits catalog asset (pass.previewFirst asset.id)]
  unfold purgeDueAsset
  rw [found]
  simp only [safelyPurgeAsset, due, not_true_eq_false, if_false]
  cases drives.ready with
  | false => rfl
  | true =>
    simp only [not_true_eq_false, if_false, Bool.true_eq_false]
    cases raised : (purgeVisits settings catalog asset (pass.previewFirst asset.id)).any (Visit.raises host drives) with
    | false =>
      have passed := unlinkAll_passes.mpr raised
      generalize unlinkAll host drives (purgeVisits settings catalog asset (pass.previewFirst asset.id)) = result
        at passed
      obtain ⟨gone, stop⟩ := result
      subst passed
      rfl
    | true =>
      have stopped : (unlinkAll host drives (purgeVisits settings catalog asset (pass.previewFirst asset.id))).2 ≠ none := by
        intro passed
        rw [unlinkAll_passes.mp passed] at raised
        cases raised
      generalize unlinkAll host drives (purgeVisits settings catalog asset (pass.previewFirst asset.id)) = result
        at stopped
      obtain ⟨gone, stop⟩ := result
      cases stop with
      | none => exact absurd rfl stopped
      | some first =>
        obtain ⟨visit, error⟩ := first
        cases error <;> rfl

theorem purgeDueAsset_other {id : UUID} (absent : ∀ asset ∈ catalog.assets, asset.id = id → ¬IsPurgeDue pass.now asset) :
    purgeDueAsset host settings drives pass catalog id = (catalog, true) := by
  have missing : (catalog.assets.filter (IsPurgeDue pass.now ·)).find? (·.id = id) = none := by
    rw [List.find?_eq_none]
    intro asset member same
    obtain ⟨there, due⟩ := List.mem_filter.mp member
    exact absent asset there (of_decide_eq_true same) (of_decide_eq_true due)
  unfold purgeDueAsset
  rw [missing]

variable (host settings drives) in
/-- The replicas whose rows go are the first ones, up to one that raises. -/
theorem dropUnlinked_split (catalog : Catalog) (replicas : List AssetReplica) :
    ∃ done rest, replicas = done ++ rest ∧
      dropUnlinked host settings drives catalog replicas =
        done.foldl (fun left replica => left.dropReplica replica.id) catalog ∧
      (replicaVisits settings catalog done).any (Visit.raises host drives) = false ∧
      (rest = [] ∨ ∃ replica more, rest = replica :: more ∧ (replicaVisits settings
        (dropUnlinked host settings drives catalog replicas) [replica]).any (Visit.raises host drives) = true) := by
  induction replicas generalizing catalog with
  | nil => exact ⟨[], [], rfl, rfl, rfl, .inl rfl⟩
  | cons replica rest ih =>
    rw [dropUnlinked]
    split
    · rename_i raised
      exact ⟨[], replica :: rest, rfl, rfl, rfl, .inr ⟨replica, rest, rfl, raised⟩⟩
    · rename_i passed
      obtain ⟨done, more, rfl, left, quiet, stops⟩ := ih (catalog.dropReplica replica.id)
      refine ⟨replica :: done, more, rfl, left, ?_, stops⟩
      rw [Bool.not_eq_true] at passed
      simp only [replicaVisits, List.append_nil, List.any_append, Bool.or_eq_false_iff] at passed ⊢
      exact ⟨passed, quiet⟩

theorem dropUnlinked_assets (catalog : Catalog) (replicas : List AssetReplica) :
    (dropUnlinked host settings drives catalog replicas).assets = catalog.assets := by
  induction replicas generalizing catalog with
  | nil => rfl
  | cons replica rest ih =>
    rw [dropUnlinked]
    split
    · rfl
    · exact ih (catalog.dropReplica replica.id)

theorem dropUnlinked_within (catalog : Catalog) (replicas : List AssetReplica) :
    Within (dropUnlinked host settings drives catalog replicas) catalog := by
  induction replicas generalizing catalog with
  | nil => exact .refl catalog
  | cons replica rest ih =>
    rw [dropUnlinked]
    split
    · exact .refl catalog
    · exact (ih _).trans (.of_dropReplica catalog replica.id)

theorem Catalog.Keyed.dropUnlinked (keyed : catalog.Keyed) (replicas : List AssetReplica) :
    (dropUnlinked host settings drives catalog replicas).Keyed := by
  induction replicas generalizing catalog with
  | nil => exact keyed
  | cons replica rest ih =>
    rw [Purging.dropUnlinked]
    split
    · exact keyed
    · exact ih ⟨keyed.assets, keyed.replicas.sublist (List.filter_sublist.map _), keyed.uploads⟩

theorem Catalog.Keyed.markPurging (keyed : catalog.Keyed) (id : UUID) : (catalog.markPurging id).Keyed := by
  have keys : (catalog.markPurging id).assets.map Asset.id = catalog.assets.map Asset.id :=
    Rows.updateKey_keys fun _ same => same
  refine ⟨?_, keyed.replicas, keyed.uploads⟩
  rw [keys]
  exact keyed.assets

/-- A tombstone that is marked is one as before. -/
theorem markPurging_within (keyed : catalog.Keyed) (member : asset ∈ catalog.assets)
    (held : asset.lifecycleState = .trashed ∨ asset.lifecycleState = .purging) :
    Within (catalog.markPurging asset.id) catalog ∧ Within catalog (catalog.markPurging asset.id) := by
  have kept : ∀ row ∈ catalog.assets, unmarked (if row.id = asset.id then { row with lifecycleState := .purging } else row) =
      unmarked row := by
    intro row among
    split
    · rename_i same
      obtain rfl := List.inj_on_of_nodup_map keyed.assets among member same
      rcases held with trashed | marked
      · simp [unmarked, trashed]
      · simp [unmarked, marked]
    · rfl
  refine ⟨⟨fun row among => ?_, fun _ => id, fun _ => id⟩, ⟨fun row among => ?_, fun _ => id, fun _ => id⟩⟩
  · obtain ⟨before, there, rfl⟩ := List.mem_map.mp among
    exact ⟨before, there, kept before there⟩
  · exact ⟨_, List.mem_map_of_mem among, (kept row among).symm⟩

theorem foldl_dropReplica_replicas (catalog : Catalog) (done : List AssetReplica) :
    (done.foldl (fun left replica => left.dropReplica replica.id) catalog).replicas =
      catalog.replicas.filter fun replica => ∀ row ∈ done, row.id ≠ replica.id := by
  induction done generalizing catalog with
  | nil =>
    symm
    exact List.filter_eq_self.mpr fun replica _ => decide_eq_true fun row absent => absurd absent List.not_mem_nil
  | cons row rest ih =>
    rw [List.foldl_cons, ih, Catalog.dropReplica, List.filter_filter]
    refine List.filter_congr fun replica _ => ?_
    rw [← Bool.decide_and, decide_eq_decide, List.forall_mem_cons]
    exact ⟨fun ⟨others, apart⟩ => ⟨fun same => apart same.symm, others⟩,
      fun ⟨apart, others⟩ => ⟨others, fun same => apart same.symm⟩⟩

theorem replicasOf_foldl_own (keyed : catalog.Keyed) {id : UUID} {done rest : List AssetReplica}
    (split : catalog.replicasOf id = done ++ rest) :
    (done.foldl (fun left replica => left.dropReplica replica.id) catalog).replicasOf id = rest := by
  have apart : ((done ++ rest).map AssetReplica.id).Nodup := by
    rw [← split]
    exact keyed.replicas.sublist (List.filter_sublist.map _)
  rw [List.map_append, List.nodup_append] at apart
  rw [Catalog.replicasOf, foldl_dropReplica_replicas, List.filter_comm, ← Catalog.replicasOf, split, List.filter_append]
  have gone : (done.filter fun replica => decide (∀ row ∈ done, row.id ≠ replica.id)) = [] := by
    refine List.filter_eq_nil_iff.mpr fun replica member kept => ?_
    exact of_decide_eq_true kept replica member rfl
  have kept : (rest.filter fun replica => decide (∀ row ∈ done, row.id ≠ replica.id)) = rest := by
    refine List.filter_eq_self.mpr fun replica member => decide_eq_true fun row among => ?_
    exact apart.2.2 row.id (List.mem_map_of_mem among) replica.id (List.mem_map_of_mem member)
  rw [gone, kept, List.nil_append]

theorem replicasOf_foldl_other (keyed : catalog.Keyed) {id other : UUID} (apart : other ≠ id)
    {done : List AssetReplica} (own : ∀ replica ∈ done, replica ∈ catalog.replicasOf id) :
    (done.foldl (fun left replica => left.dropReplica replica.id) catalog).replicasOf other =
      catalog.replicasOf other := by
  rw [Catalog.replicasOf, foldl_dropReplica_replicas, List.filter_comm]
  refine List.filter_eq_self.mpr fun replica member => decide_eq_true fun row among same => apart ?_
  obtain ⟨there, belongs⟩ := List.mem_filter.mp member
  obtain ⟨here, owned⟩ := List.mem_filter.mp (own row among)
  rw [List.inj_on_of_nodup_map keyed.replicas here there same] at owned
  exact (of_decide_eq_true belongs).symm.trans (of_decide_eq_true owned)

/-- What blocks an asset goes on to block it while its replicas are left alone. -/
theorem isBlocked_within {left : Catalog} (before : catalog.Keyed) (after : left.Keyed) (within : Within left catalog)
    {row : Asset} (member : row ∈ left.assets)
    (replicas : left.replicasOf row.id = catalog.replicasOf row.id)
    (blocked : isBlocked host settings drives catalog row.id = true) :
    isBlocked host settings drives left row.id = true := by
  obtain ⟨asset, there, same⟩ := within.assets row member
  have key : asset.id = row.id := by rw [unmarked_eq same]
  rw [← key, isBlocked_row before there] at blocked
  rw [isBlocked_row after member]
  rw [purgeVisits, List.any_append, Bool.or_eq_true] at blocked ⊢
  rw [replicas, ← key]
  rcases blocked with replica | own
  · exact .inl (raises_replicaVisits within _ replica)
  · exact .inr (raises_assetVisits (within.foldl_dropReplica _) same.symm _ _ own)

/-- The catalog in which a deferred purge leaves its asset blocked as it was. -/
theorem isBlocked_deferred (keyed : catalog.Keyed) (member : asset ∈ catalog.assets)
    (held : asset.lifecycleState = .trashed ∨ asset.lifecycleState = .purging)
    (blocked : isBlocked host settings drives catalog asset.id = true) :
    isBlocked host settings drives ((dropUnlinked host settings drives catalog
      (catalog.replicasOf asset.id)).markPurging asset.id) asset.id = true := by
  obtain ⟨done, rest, split, dropped, quiet, stops⟩ :=
    dropUnlinked_split host settings drives catalog (catalog.replicasOf asset.id)
  have keyed_ : (dropUnlinked host settings drives catalog (catalog.replicasOf asset.id)).Keyed :=
    keyed.dropUnlinked _
  have there : asset ∈ (dropUnlinked host settings drives catalog (catalog.replicasOf asset.id)).assets := by
    rw [dropUnlinked_assets]
    exact member
  generalize dropUnlinked host settings drives catalog (catalog.replicasOf asset.id) = left at *
  have own : left.replicasOf asset.id = rest := by
    rw [dropped]
    exact replicasOf_foldl_own keyed split
  have blockedLeft : isBlocked host settings drives left asset.id = true := by
    rw [isBlocked_row keyed_ there, purgeVisits, own, List.any_append, Bool.or_eq_true]
    rcases stops with rfl | ⟨replica, more, rfl, raised⟩
    · -- all replicas were unlinked, so that one of its own paths raises
      rw [List.append_nil] at split
      rw [isBlocked_row keyed member, purgeVisits, split, List.any_append, quiet, Bool.false_or, ← dropped] at blocked
      exact .inr blocked
    · refine .inl ?_
      simp only [replicaVisits, List.append_nil, List.any_append, Bool.or_eq_true] at raised ⊢
      exact .inl raised
  obtain ⟨back, forth⟩ := markPurging_within keyed_ there held
  obtain ⟨row, among, same⟩ := forth.assets asset there
  have key : row.id = asset.id := by rw [unmarked_eq same]
  have result := isBlocked_within keyed_ (keyed_.markPurging asset.id) back among rfl (key ▸ blockedLeft)
  rwa [key] at result

end Purge

/-- The rows of the tables under their primary keys. -/
structure Tables where
  catalog : Catalog
  keyed : catalog.Keyed

section Passes
variable (host : Host) (settings : Settings) (drives : Drives) (limit : Nat)

theorem purgeDueAsset_keyed {catalog : Catalog} (keyed : catalog.Keyed) (pass : DuePass) (id : UUID) :
    (purgeDueAsset host settings drives pass catalog id).1.Keyed := by
  unfold purgeDueAsset
  split
  · exact keyed
  · split
    · exact ⟨keyed.assets.sublist (List.filter_sublist.map _), keyed.replicas.sublist (List.filter_sublist.map _),
        keyed.uploads⟩
    · exact keyed
    · exact keyed
    · exact (keyed.dropUnlinked _).markPurging id
    · exact (keyed.dropUnlinked _).markPurging id

/-- `purge_due_assets` with its limit. -/
def purgeDueAssets : Backlog Tables Tombstone Timestamp DuePass where
  waiting tables := tombstones tables.catalog
  priority := Tombstone.purgeAfter
  due pass due := due.purgeAfter ≤ pass.now
  order pass tables := dueIds pass tables.catalog
  work pass tables due :=
    (⟨(purgeDueAsset host settings drives pass tables.catalog due.id).1,
        purgeDueAsset_keyed host settings drives tables.keyed pass due.id⟩,
      (purgeDueAsset host settings drives pass tables.catalog due.id).2)
  limit := limit

/-- A turn that purges nothing: the storage is not there, or a path of the asset is blocked. -/
def isDeferred (tables : Tables) (due : Tombstone) : Bool :=
  !drives.ready || isBlocked host settings drives tables.catalog due.id

end Passes

/-! ### What a turn does to the tables -/

section Turns
variable {host : Host} {settings : Settings} {drives : Drives} {catalog : Catalog} {asset : Asset} {pass : DuePass}

theorem tombstone_some {due : Tombstone} (made : tombstone asset = some due) :
    asset.id = due.id ∧ asset.purgeAfter = some due.purgeAfter ∧
      (asset.lifecycleState = .trashed ∨ asset.lifecycleState = .purging) := by
  unfold tombstone at made
  split at made
  · rename_i held
    obtain ⟨deadline, column, rfl⟩ := Option.map_eq_some_iff.mp made
    exact ⟨rfl, column, held⟩
  · cases made

theorem mem_tombstones {due : Tombstone} (member : due ∈ tombstones catalog) :
    ∃ asset ∈ catalog.assets, asset.id = due.id ∧ asset.purgeAfter = some due.purgeAfter ∧
      (asset.lifecycleState = .trashed ∨ asset.lifecycleState = .purging) := by
  obtain ⟨asset, there, made⟩ := List.mem_filterMap.mp member
  exact ⟨asset, there, tombstone_some made⟩

theorem tombstones_sublist (assets : List Asset) :
    ((assets.filterMap tombstone).map Tombstone.id).Sublist (assets.map Asset.id) := by
  induction assets with
  | nil => exact .slnil
  | cons asset rest ih =>
    rw [List.map_cons]
    cases made : tombstone asset with
    | none =>
      rw [List.filterMap_cons_none made]
      exact ih.cons _
    | some due =>
      rw [List.filterMap_cons_some made, List.map_cons]
      rw [(tombstone_some made).1]
      exact ih.cons_cons _

theorem tombstones_ids (keyed : catalog.Keyed) : ((tombstones catalog).map Tombstone.id).Nodup :=
  keyed.assets.sublist (tombstones_sublist catalog.assets)

theorem tombstones_nodup (keyed : catalog.Keyed) : (tombstones catalog).Nodup := (tombstones_ids keyed).of_map

theorem mem_dueIds {due : Tombstone} :
    due ∈ dueIds pass catalog ↔ due ∈ tombstones catalog ∧ due.purgeAfter ≤ pass.now := by
  rw [dueIds, List.mem_insertionSort, List.mem_filter, decide_eq_true_eq]

theorem dueIds_nodup (keyed : catalog.Keyed) : (dueIds pass catalog).Nodup :=
  (List.perm_insertionSort _ _).nodup_iff.mpr ((tombstones_nodup keyed).filter _)

theorem dueIds_ranked (pass : DuePass) (catalog : Catalog) :
    (dueIds pass catalog).Pairwise fun one other => pass.rank one ≤ pass.rank other :=
  List.pairwise_insertionSort _ _

theorem rank_le {one other : Tombstone} (before : pass.rank one ≤ pass.rank other) :
    one.purgeAfter ≤ other.purgeAfter := by
  rcases Prod.Lex.toLex_le_toLex.mp before with less | ⟨same, -⟩
  · exact Nat.le_of_lt less
  · exact Nat.le_of_eq same

variable (host settings drives) in
/-- All that the body of the loop can do. -/
theorem purgeDueAsset_cases (keyed : catalog.Keyed) (pass : DuePass) (id : UUID) :
    (purgeDueAsset host settings drives pass catalog id = (catalog, true) ∧
        ∀ asset ∈ catalog.assets, asset.id = id → ¬IsPurgeDue pass.now asset) ∨
      ∃ asset ∈ catalog.assets, asset.id = id ∧ IsPurgeDue pass.now asset ∧
        ((drives.ready = false ∧ purgeDueAsset host settings drives pass catalog id = (catalog, false)) ∨
          (drives.ready = true ∧ isBlocked host settings drives catalog id = true ∧
            purgeDueAsset host settings drives pass catalog id =
              ((dropUnlinked host settings drives catalog (catalog.replicasOf id)).markPurging id, true)) ∨
          (drives.ready = true ∧ isBlocked host settings drives catalog id = false ∧
            purgeDueAsset host settings drives pass catalog id = (catalog.dropAsset id, true))) := by
  by_cases found : ∃ asset ∈ catalog.assets, asset.id = id ∧ IsPurgeDue pass.now asset
  · obtain ⟨asset, member, rfl, due⟩ := found
    refine .inr ⟨asset, member, rfl, due, ?_⟩
    rw [purgeDueAsset_due host settings drives keyed member due]
    cases drives.ready with
    | false => exact .inl ⟨rfl, rfl⟩
    | true =>
      refine .inr ?_
      cases isBlocked host settings drives catalog asset.id with
      | true => exact .inl ⟨rfl, rfl, rfl⟩
      | false => exact .inr ⟨rfl, rfl, rfl⟩
  · push Not at found
    exact .inl ⟨purgeDueAsset_other found, found⟩

variable (host settings drives) in
theorem purgeDueAsset_within (keyed : catalog.Keyed) (pass : DuePass) (id : UUID) :
    Within (purgeDueAsset host settings drives pass catalog id).1 catalog := by
  rcases purgeDueAsset_cases host settings drives keyed pass id with
    ⟨same, -⟩ | ⟨asset, member, rfl, due, ⟨-, same⟩ | ⟨-, -, same⟩ | ⟨-, -, same⟩⟩
  · rw [same]
    exact .refl _
  · rw [same]
    exact .refl _
  · rw [same]
    refine (markPurging_within (keyed.dropUnlinked _) ?_ due.1).1.trans (dropUnlinked_within catalog _)
    rw [dropUnlinked_assets]
    exact member
  · rw [same]
    exact .of_dropAsset catalog asset.id

variable (host settings drives) in
/-- Replicas of other assets are left alone. -/
theorem purgeDueAsset_replicasOf (keyed : catalog.Keyed) (pass : DuePass) {id other : UUID} (apart : other ≠ id) :
    (purgeDueAsset host settings drives pass catalog id).1.replicasOf other = catalog.replicasOf other := by
  rcases purgeDueAsset_cases host settings drives keyed pass id with
    ⟨same, -⟩ | ⟨asset, member, rfl, due, ⟨-, same⟩ | ⟨-, -, same⟩ | ⟨-, -, same⟩⟩
  · rw [same]
  · rw [same]
  · rw [same]
    obtain ⟨done, rest, split, dropped, -, -⟩ := dropUnlinked_split host settings drives catalog (catalog.replicasOf asset.id)
    have own : ∀ replica ∈ done, replica ∈ catalog.replicasOf asset.id := by
      intro replica member
      rw [split]
      exact List.mem_append_left _ member
    have kept := replicasOf_foldl_other keyed apart own
    rw [← dropped] at kept
    exact kept
  · rw [same]
    exact replicasOf_dropAsset apart

variable (host settings drives) in
/-- Other tombstones stay. -/
theorem purgeDueAsset_frame (keyed : catalog.Keyed) (pass : DuePass) {due : Tombstone} {id : UUID}
    (member : due ∈ tombstones catalog) (apart : due.id ≠ id ∨ isBlocked host settings drives catalog id = true) :
    due ∈ tombstones (purgeDueAsset host settings drives pass catalog id).1 := by
  rcases purgeDueAsset_cases host settings drives keyed pass id with
    ⟨same, -⟩ | ⟨asset, there, rfl, held, ⟨-, same⟩ | ⟨-, -, same⟩ | ⟨-, free, same⟩⟩
  · rw [same]
    exact member
  · rw [same]
    exact member
  · rw [same]
    have among : asset ∈ (dropUnlinked host settings drives catalog (catalog.replicasOf asset.id)).assets := by
      rw [dropUnlinked_assets]
      exact there
    refine (markPurging_within (keyed.dropUnlinked _) among held.1).2.tombstones ?_
    rw [tombstones, dropUnlinked_assets]
    exact member
  · rw [same]
    obtain ⟨row, among, made⟩ := List.mem_filterMap.mp member
    refine List.mem_filterMap.mpr ⟨row, List.mem_filter.mpr ⟨among, decide_eq_true ?_⟩, made⟩
    intro equal
    rcases apart with other | blocked
    · exact other ((tombstone_some made).1.symm.trans equal)
    · rw [free] at blocked
      cases blocked

/-- What is blocked is so after any turn. -/
theorem purgeDueAsset_blocked (keyed : catalog.Keyed) (pass : DuePass) {due : Tombstone} {id : UUID}
    (member : due ∈ tombstones catalog) (blocked : isBlocked host settings drives catalog due.id = true) :
    isBlocked host settings drives (purgeDueAsset host settings drives pass catalog id).1 due.id = true := by
  by_cases own : due.id = id
  · subst own
    rcases purgeDueAsset_cases host settings drives keyed pass due.id with
      ⟨same, -⟩ | ⟨asset, there, key, held, ⟨-, same⟩ | ⟨-, -, same⟩ | ⟨-, free, -⟩⟩
    · rw [same]
      exact blocked
    · rw [same]
      exact blocked
    · rw [same]
      rw [← key] at blocked ⊢
      exact isBlocked_deferred keyed there held.1 blocked
    · rw [free] at blocked
      cases blocked
  · have within := purgeDueAsset_within host settings drives keyed pass id
    have keyed_ := purgeDueAsset_keyed host settings drives keyed pass id
    obtain ⟨row, among, key, -⟩ :=
      mem_tombstones (purgeDueAsset_frame host settings drives keyed pass member (.inl own))
    have alone := purgeDueAsset_replicasOf host settings drives keyed pass own
    rw [← key] at blocked alone ⊢
    exact isBlocked_within keyed keyed_ within among alone blocked

/-- Catalogs with the same rows, up to marks. -/
def Alike (tables other : Tables) : Prop :=
  Within tables.catalog other.catalog ∧ Within other.catalog tables.catalog ∧
    other.catalog.replicas = tables.catalog.replicas

theorem isBlocked_of_alike {tables other : Tables} (alike : Alike tables other) {id : UUID}
    (blocked : isBlocked host settings drives tables.catalog id = true) :
    isBlocked host settings drives other.catalog id = true := by
  obtain ⟨forth, back, replicas⟩ := alike
  cases found : tables.catalog.assets.find? (·.id = id) with
  | none =>
    rw [isBlocked, found] at blocked
    cases blocked
  | some asset =>
    obtain ⟨there, rfl⟩ := Rows.find?_key found
    obtain ⟨row, among, same⟩ := forth.assets asset there
    have key : row.id = asset.id := by rw [unmarked_eq same]
    rw [← key] at blocked ⊢
    refine isBlocked_within tables.keyed other.keyed back among ?_ blocked
    rw [Catalog.replicasOf, replicas]
    rfl

theorem Alike.symm {tables other : Tables} (alike : Alike tables other) : Alike other tables :=
  ⟨alike.2.1, alike.1, alike.2.2.symm⟩

theorem isDeferred_alike {tables other : Tables} (alike : Alike tables other) (due : Tombstone) :
    isDeferred host settings drives other due = isDeferred host settings drives tables due := by
  rw [isDeferred, isDeferred]
  congr 1
  rw [Bool.eq_iff_iff]
  exact ⟨isBlocked_of_alike alike.symm, isBlocked_of_alike alike⟩

def Tables.size (tables : Tables) : Nat := tables.catalog.assets.length + tables.catalog.replicas.length

theorem filter_shrinks {α : Type} {rows : List α} {row : α} {kept : α → Bool} (member : row ∈ rows)
    (gone : kept row = false) : (rows.filter kept).length < rows.length := by
  refine List.length_filter_lt_length_iff_exists.mpr ⟨row, member, ?_⟩
  rw [gone]
  exact Bool.false_ne_true

variable (host settings drives) in
theorem dropUnlinked_length (catalog : Catalog) (replicas : List AssetReplica)
    (rows : ∀ replica ∈ replicas.head?, replica ∈ catalog.replicas) :
    dropUnlinked host settings drives catalog replicas = catalog ∨
      (dropUnlinked host settings drives catalog replicas).replicas.length < catalog.replicas.length := by
  cases replicas with
  | nil => exact .inl rfl
  | cons replica rest =>
    rw [dropUnlinked]
    split
    · exact .inl rfl
    · refine .inr ?_
      have less : (catalog.dropReplica replica.id).replicas.length < catalog.replicas.length :=
        filter_shrinks (rows replica rfl) (decide_eq_false (not_not.mpr rfl))
      have more : ∀ left : Catalog, (dropUnlinked host settings drives left rest).replicas.length ≤ left.replicas.length := by
        intro left
        induction rest generalizing left with
        | nil => exact Nat.le_refl _
        | cons other rest ih =>
          rw [dropUnlinked]
          split
          · exact Nat.le_refl _
          · exact Nat.le_trans (ih (fun _ known => rows _ known) _) (List.length_filter_le _ _)
      exact Nat.lt_of_le_of_lt (more _) less

end Turns

/-! ### Runs of passes -/

section Runs
variable (host : Host) (settings : Settings) (drives : Drives) (limit : Nat)

theorem purgeDueAssets_shrinks : (purgeDueAssets host settings drives limit).Shrinks Tables.size Alike
    (isDeferred host settings drives) (fun _ _ => !drives.ready) where
  order_nodup _ tables := dueIds_nodup tables.keyed
  order_waiting _ _ _ member := mem_dueIds.mp member
  order_sorted pass tables := (dueIds_ranked pass tables.catalog).imp rank_le
  refl tables := ⟨.refl _, .refl _, rfl⟩
  trans := fun first second =>
    ⟨first.1.trans second.1, second.2.1.trans first.2.1, second.2.2.trans first.2.2⟩
  waiting_alike := fun alike _ => ⟨alike.2.1.tombstones, alike.1.tombstones⟩
  stuck_alike := fun alike due => isDeferred_alike alike due
  stops_alike := fun _ _ => rfl
  size_le := by
    intro pass tables due
    rcases purgeDueAsset_cases host settings drives tables.keyed pass due.id with
      ⟨same, -⟩ | ⟨asset, member, key, held, ⟨-, same⟩ | ⟨-, -, same⟩ | ⟨-, -, same⟩⟩
    · simp only [purgeDueAssets, Tables.size, same, Nat.le_refl]
    · simp only [purgeDueAssets, Tables.size, same, Nat.le_refl]
    · have assets : (dropUnlinked host settings drives tables.catalog (tables.catalog.replicasOf due.id)).assets =
          tables.catalog.assets := dropUnlinked_assets _ _
      simp only [purgeDueAssets, Tables.size, same, Catalog.markPurging, Rows.updateKey, List.length_map, assets]
      rcases dropUnlinked_length host settings drives tables.catalog
        (tables.catalog.replicasOf due.id) (fun replica known => List.mem_of_mem_filter (List.mem_of_mem_head? known)) with
        none_ | less
      · rw [none_]
      · omega
    · have assets := List.length_filter_le (fun row : Asset => decide (row.id ≠ due.id)) tables.catalog.assets
      have replicas := List.length_filter_le (fun row : AssetReplica => decide (row.assetId ≠ due.id)) tables.catalog.replicas
      simp only [purgeDueAssets, Tables.size, same, Catalog.dropAsset]
      omega
  inert := by
    intro pass tables due waiting past unshrunk
    obtain ⟨asset, member, key, column, held⟩ := mem_tombstones waiting
    have isDue : IsPurgeDue pass.now asset := ⟨held, due.purgeAfter, column, past⟩
    rcases purgeDueAsset_cases host settings drives tables.keyed pass due.id with
      ⟨-, absent⟩ | ⟨row, there, same, _, ⟨ready, result⟩ | ⟨ready, blocked, result⟩ | ⟨ready, free, result⟩⟩
    · exact absurd isDue (absent asset member key)
    · have stays : ((purgeDueAssets host settings drives limit).work pass tables due).1 = tables := by
        simp only [purgeDueAssets, result]
      rw [stays]
      refine ⟨⟨.refl _, .refl _, rfl⟩, ?_, fun _ => ?_⟩
      · rw [isDeferred, ready]
        rfl
      · rw [ready]
        rfl
    · have assets : (dropUnlinked host settings drives tables.catalog (tables.catalog.replicasOf due.id)).assets =
          tables.catalog.assets := dropUnlinked_assets _ _
      rcases dropUnlinked_length host settings drives tables.catalog
        (tables.catalog.replicasOf due.id) (fun replica known => List.mem_of_mem_filter (List.mem_of_mem_head? known)) with
        none_ | less
      · rw [none_] at result
        obtain ⟨back, forth⟩ := markPurging_within tables.keyed member held
        rw [key] at back forth
        refine ⟨?_, ?_, fun ended => ?_⟩
        · simp only [purgeDueAssets, Alike, result]
          exact ⟨forth, back, rfl⟩
        · rw [isDeferred, blocked, Bool.or_true]
        · simp only [purgeDueAssets, result, Bool.true_eq_false] at ended
      · simp only [purgeDueAssets, Tables.size, result, Catalog.markPurging, Rows.updateKey, List.length_map, assets]
          at unshrunk
        omega
    · have fewer : (tables.catalog.assets.filter (·.id ≠ due.id)).length < tables.catalog.assets.length :=
        filter_shrinks member (decide_eq_false (not_not.mpr key))
      have replicas := List.length_filter_le (fun row : AssetReplica => decide (row.assetId ≠ due.id)) tables.catalog.replicas
      simp only [purgeDueAssets, Tables.size, result, Catalog.dropAsset] at unshrunk
      omega

theorem purgeDueAssets_persists : (purgeDueAssets host settings drives limit).Persists
    (isDeferred host settings drives) (fun _ _ => !drives.ready) where
  order_nodup _ tables := dueIds_nodup tables.keyed
  order_waiting _ _ _ member := mem_dueIds.mp member
  frame := by
    intro pass tables due other waiting among apart
    refine purgeDueAsset_frame host settings drives tables.keyed pass waiting (.inl fun same => apart ?_)
    exact (List.inj_on_of_nodup_map (tombstones_ids tables.keyed) waiting among same).symm
  gone := by
    intro pass tables due other waiting
    exact (purgeDueAsset_within host settings drives tables.keyed pass other.id).tombstones waiting
  stuck_waits := by
    intro pass tables due waiting deferred
    rw [isDeferred, Bool.or_eq_true, Bool.not_eq_true'] at deferred
    rcases deferred with closed | blocked
    · rcases purgeDueAsset_cases host settings drives tables.keyed pass due.id with
        ⟨same, -⟩ | ⟨asset, member, key, held, ⟨-, same⟩ | ⟨ready, -, -⟩ | ⟨ready, -, -⟩⟩
      · simp only [purgeDueAssets, same]
        exact waiting
      · simp only [purgeDueAssets, same]
        exact waiting
      · rw [closed] at ready
        cases ready
      · rw [closed] at ready
        cases ready
    · exact purgeDueAsset_frame host settings drives tables.keyed pass waiting (.inr blocked)
  stuck_stays := by
    intro pass tables due other waiting _ deferred
    rw [isDeferred, Bool.or_eq_true] at deferred ⊢
    exact deferred.imp id (purgeDueAsset_blocked tables.keyed pass waiting)
  stops_stays := fun _ _ _ _ _ _ closed => closed
  stops_ends := by
    intro pass tables due waiting past closed
    rw [Bool.not_eq_true'] at closed
    obtain ⟨asset, member, key, column, held⟩ := mem_tombstones waiting
    have isDue : IsPurgeDue pass.now asset := ⟨held, due.purgeAfter, column, past⟩
    have result := purgeDueAsset_due host settings drives tables.keyed member isDue
    rw [if_pos closed, key] at result
    simp only [purgeDueAssets, result]
  stops_stuck := by
    intro tables due closed
    rw [isDeferred, closed, Bool.true_or]

/-- Passes whose ties are broken against one row. -/
theorem purgeDueAssets_adversary (start : Timestamp) (blockers : List Tombstone) (due : Tombstone)
    (past : due.purgeAfter ≤ start)
    (before : ∀ other ∈ blockers, other ≠ due ∧ other.purgeAfter ≤ due.purgeAfter) :
    ∃ pass : DuePass, start ≤ pass.now ∧ (purgeDueAssets host settings drives limit).Ahead pass blockers due := by
  let pass : DuePass := ⟨start, fun id => if id = due.id then 1 else 0, fun _ => false⟩
  refine ⟨pass, Nat.le_refl _, fun tables waits selected => ?_⟩
  obtain ⟨front, back, whole⟩ := List.append_of_mem selected
  refine ⟨front, back, whole, fun other member => ?_⟩
  obtain ⟨apart, earlier⟩ := before other member
  have among : other ∈ dueIds pass tables.catalog :=
    mem_dueIds.mpr ⟨waits other member, Nat.le_trans earlier past⟩
  have ranked := dueIds_ranked pass tables.catalog
  have waiting := (mem_dueIds.mp (show due ∈ dueIds pass tables.catalog from selected)).1
  simp only [purgeDueAssets] at whole
  rw [whole, List.mem_append, List.mem_cons] at among
  rcases among with first | rfl | later
  · exact first
  · exact absurd rfl apart
  · rw [whole, List.pairwise_append, List.pairwise_cons] at ranked
    exfalso
    rcases Prod.Lex.toLex_le_toLex.mp (ranked.2.1.1 other later) with less | ⟨-, tied⟩
    · exact absurd earlier (Nat.not_le.mpr less)
    · have ids : other.id ≠ due.id := fun same =>
        apart (List.inj_on_of_nodup_map (tombstones_ids tables.keyed) (waits other member) waiting same)
      simp [pass, ids] at tied

end Runs

/-! ### Which assets are purged -/

section Purged
variable (host : Host) (settings : Settings) (drives : Drives) (limit : Nat)

/-- The path is below its roots and canonical, and the drives give up what stands there. -/
def CanUnlink (unlink : String × List Path) : Prop :=
  Clean host unlink ∧ drives.available (host.resolve unlink.1) = true ∧
    drives.refuses (host.resolve unlink.1) = none

/-- The storage is there, and an asset's own paths can all be unlinked. -/
def Purgeable (catalog : Catalog) (asset : Asset) : Prop :=
  drives.ready = true ∧ ∀ unlink ∈ (Item.asset asset (catalog.replicasOf asset.id)).unlinks settings,
    CanUnlink host drives unlink

/-- The assets up to a deadline that cannot be purged as the rows are. -/
def deferredUpTo (catalog : Catalog) (deadline : Timestamp) : List Tombstone :=
  (tombstones catalog).filter fun due =>
    isBlocked host settings drives catalog due.id && decide (due.purgeAfter ≤ deadline)

def afterPasses (passes : Nat → DuePass) (tables : Tables) (n : Nat) : Catalog :=
  ((purgeDueAssets host settings drives limit).after passes tables n).catalog

/-- However often passes are made from some time on, they purge in the end what is due by then
and can be purged. -/
def PurgesAllDue (start : Timestamp) (tables : Tables) : Prop :=
  ∀ passes : Nat → DuePass, (∀ n, start ≤ (passes n).now) →
    ∀ asset ∈ tables.catalog.assets, IsPurgeDue start asset → Purgeable host settings drives tables.catalog asset →
      ∃ n, ∀ row ∈ (afterPasses host settings drives limit passes tables n).assets, row.id ≠ asset.id

/-- In whatever such passes reach, a batch has room for every asset that is still to be purged. -/
def DeferredLeaveRoom (start : Timestamp) (tables : Tables) : Prop :=
  ∀ passes : Nat → DuePass, (∀ n, start ≤ (passes n).now) →
    ∀ n, ∀ row ∈ (afterPasses host settings drives limit passes tables n).assets,
      ∀ asset ∈ tables.catalog.assets, asset.id = row.id → IsPurgeDue start asset →
        Purgeable host settings drives tables.catalog asset → ∀ deadline ∈ asset.purgeAfter,
          (deferredUpTo host settings drives (afterPasses host settings drives limit passes tables n) deadline).length < limit

variable {host settings drives limit}

theorem CanUnlink.passes {visit : Visit} (can : CanUnlink host drives (visit.path, visit.roots)) :
    visit.raises host drives = false := by
  obtain ⟨⟨inside, canonical⟩, available, gives⟩ := can
  simp only at inside canonical available gives
  unfold Visit.raises Visit.unlink safelyUnlinkCatalogPath validatedPath
  rw [if_pos inside, if_pos available]
  simp only [host.canonical_resolved, canonical, ne_eq, not_true_eq_false, if_false, available, gives]
  cases physicalPathHasOtherReference host visit.catalog visit.path visit.excluding <;> rfl

/-- An asset whose own paths can all be unlinked is never blocked. -/
theorem Purgeable.free {catalog left : Catalog} {asset : Asset} (purgeable : Purgeable host settings drives catalog asset)
    (keyed : catalog.Keyed) (keyed_ : left.Keyed) (within : Within left catalog) (member : asset ∈ catalog.assets) :
    isBlocked host settings drives left asset.id = false := by
  cases found : left.assets.find? (·.id = asset.id) with
  | none =>
    rw [isBlocked, found]
    rfl
  | some row =>
    obtain ⟨there, key⟩ := Rows.find?_key found
    obtain ⟨before, among, same⟩ := within.assets row there
    have itself : before = asset := by
      refine List.inj_on_of_nodup_map keyed.assets among member ?_
      rw [← key, unmarked_eq same]
    subst itself
    rw [← key, isBlocked_row keyed_ there, List.any_eq_false]
    intro visit listed
    rw [Bool.not_eq_true]
    have named := (mem_purgeVisits listed).2.2.2.2
    apply CanUnlink.passes
    refine purgeable.2 _ ?_
    rw [Item.unlinks, List.append_assoc, List.mem_append] at named ⊢
    rw [unmarked_eq same]
    refine named.imp (fun replica => ?_) id
    obtain ⟨owned, belongs, path⟩ := List.mem_flatMap.mp replica
    obtain ⟨kept, belongs⟩ := List.mem_filter.mp belongs
    exact List.mem_flatMap.mpr ⟨owned, List.mem_filter.mpr ⟨within.replicas owned kept, belongs⟩, path⟩

theorem after_within (passes : Nat → DuePass) (tables : Tables) (n : Nat) :
    Within (afterPasses host settings drives limit passes tables n) tables.catalog := by
  have batch : ∀ (pass : DuePass) (dues : List Tombstone) (tables : Tables),
      Within ((purgeDueAssets host settings drives limit).process pass tables dues).catalog tables.catalog := by
    intro pass dues
    induction dues with
    | nil => exact fun tables => .refl _
    | cons due rest ih =>
      intro tables
      have one := purgeDueAsset_within host settings drives tables.keyed pass due.id
      rw [Backlog.process]
      split
      · exact (ih _).trans one
      · exact one
  induction n with
  | zero => exact .refl _
  | succ n ih => exact (batch _ _ _).trans ih

/-- An asset that waits is one that has not been purged. -/
theorem waits_iff {tables : Tables} {asset : Asset} {passes : Nat → DuePass} {n : Nat} {due : Tombstone}
    (member : asset ∈ tables.catalog.assets) (made : tombstone asset = some due) :
    due ∈ tombstones (afterPasses host settings drives limit passes tables n) ↔
      ∃ row ∈ (afterPasses host settings drives limit passes tables n).assets, row.id = asset.id := by
  have key := (tombstone_some made).1
  constructor
  · intro waiting
    obtain ⟨row, there, same, -⟩ := mem_tombstones waiting
    exact ⟨row, there, same.trans key.symm⟩
  · rintro ⟨row, there, same⟩
    obtain ⟨before, among, equal⟩ := (after_within passes tables n).assets row there
    have itself : before = asset := by
      refine List.inj_on_of_nodup_map tables.keyed.assets among member ?_
      rw [← same, unmarked_eq equal]
    subst itself
    exact List.mem_filterMap.mpr ⟨row, there, (tombstone_congr equal).trans made⟩

/-- A tombstone, due by the start, of an asset that can be purged. -/
def Wanted (host : Host) (settings : Settings) (drives : Drives) (start : Timestamp) (tables : Tables) (due : Tombstone) :
    Prop :=
  due.purgeAfter ≤ start ∧ ∃ asset ∈ tables.catalog.assets, tombstone asset = some due ∧
    Purgeable host settings drives tables.catalog asset

theorem wanted_of_due {start : Timestamp} {tables : Tables} {asset : Asset} (member : asset ∈ tables.catalog.assets)
    (due : IsPurgeDue start asset) (purgeable : Purgeable host settings drives tables.catalog asset) :
    ∃ deadline ∈ asset.purgeAfter, tombstone asset = some ⟨asset.id, deadline⟩ ∧
      Wanted host settings drives start tables ⟨asset.id, deadline⟩ := by
  obtain ⟨held, deadline, column, past⟩ := due
  have made : tombstone asset = some ⟨asset.id, deadline⟩ := by
    rw [tombstone, if_pos held, Option.mem_def.mp column]
    rfl
  exact ⟨deadline, column, made, past, asset, member, made, purgeable⟩

theorem due_of_wanted {start : Timestamp} {tables : Tables} {due : Tombstone}
    (wanted : Wanted host settings drives start tables due) :
    ∃ asset ∈ tables.catalog.assets, tombstone asset = some due ∧ IsPurgeDue start asset ∧
      Purgeable host settings drives tables.catalog asset := by
  obtain ⟨past, asset, member, made, purgeable⟩ := wanted
  obtain ⟨-, column, held⟩ := tombstone_some made
  exact ⟨asset, member, made, ⟨held, due.purgeAfter, column, past⟩, purgeable⟩

variable (host settings drives limit) in
theorem wanted_purged_iff (start : Timestamp) (tables : Tables) :
    (∀ passes : Nat → DuePass, (∀ n, start ≤ (passes n).now) → ∀ due, Wanted host settings drives start tables due →
        ∃ n, due ∉ tombstones (afterPasses host settings drives limit passes tables n)) ↔
      ∀ passes : Nat → DuePass, (∀ n, start ≤ (passes n).now) → ∀ n due, Wanted host settings drives start tables due →
        due ∈ tombstones (afterPasses host settings drives limit passes tables n) →
          (purgeDueAssets host settings drives limit).Open (isDeferred host settings drives) (fun _ _ => !drives.ready)
            ((purgeDueAssets host settings drives limit).after passes tables n) due :=
  Backlog.always_drains_iff _ (purgeDueAssets_shrinks host settings drives limit)
    (purgeDueAssets_persists host settings drives limit) (fun tables => tombstones_nodup tables.keyed)
    (fun _ _ later _ wanted waiting => mem_dueIds.mpr ⟨waiting, Nat.le_trans wanted.1 later⟩)
    (fun blockers due wanted before => purgeDueAssets_adversary host settings drives limit start blockers due wanted.1 before)
    tables

/-- An item that can be purged gets its turn where a batch has room for it. -/
theorem open_iff {start : Timestamp} {tables : Tables} {due : Tombstone} {passes : Nat → DuePass} {n : Nat}
    (wanted : Wanted host settings drives start tables due) :
    (purgeDueAssets host settings drives limit).Open (isDeferred host settings drives) (fun _ _ => !drives.ready)
        ((purgeDueAssets host settings drives limit).after passes tables n) due ↔
      (deferredUpTo host settings drives (afterPasses host settings drives limit passes tables n) due.purgeAfter).length <
        limit := by
  obtain ⟨-, asset, member, made, purgeable⟩ := wanted
  have free := purgeable.free tables.keyed ((purgeDueAssets host settings drives limit).after passes tables n).keyed
    (after_within passes tables n) member
  rw [(tombstone_some made).1] at free
  have ready := purgeable.1
  unfold Backlog.Open isDeferred
  rw [free, ready]
  constructor
  · rintro ⟨_, _, room⟩
    exact room
  · intro room
    exact ⟨rfl, fun _ _ _ => rfl, room⟩

theorem room_of_purged {start : Timestamp} {tables : Tables} (all : PurgesAllDue host settings drives limit start tables) :
    DeferredLeaveRoom host settings drives limit start tables := by
  have purged := (wanted_purged_iff host settings drives limit start tables).mp fun passes later due wanted => by
    obtain ⟨asset, member, made, isDue, purgeable⟩ := due_of_wanted wanted
    obtain ⟨n, gone⟩ := all passes later asset member isDue purgeable
    refine ⟨n, fun waiting => ?_⟩
    obtain ⟨row, there, same⟩ := (waits_iff member made).mp waiting
    exact gone row there same
  intro passes later n row there asset member same isDue purgeable deadline column
  obtain ⟨other, other_, made, wanted⟩ := wanted_of_due member isDue purgeable
  obtain rfl := Option.mem_unique column other_
  exact (open_iff wanted).mp (purged passes later n _ wanted ((waits_iff member made).mpr ⟨row, there, same.symm⟩))

theorem purged_of_room {start : Timestamp} {tables : Tables} (room : DeferredLeaveRoom host settings drives limit start tables) :
    PurgesAllDue host settings drives limit start tables := by
  intro passes later asset member isDue purgeable
  have purged := (wanted_purged_iff host settings drives limit start tables).mpr fun passes later n due wanted waiting => by
    obtain ⟨asset, member, made, isDue, purgeable⟩ := due_of_wanted wanted
    obtain ⟨row, there, same⟩ := (waits_iff member made).mp waiting
    exact (open_iff wanted).mpr
      (room passes later n row there asset member same.symm isDue purgeable _ (tombstone_some made).2.1)
  obtain ⟨deadline, -, made, wanted⟩ := wanted_of_due member isDue purgeable
  obtain ⟨n, gone⟩ := purged passes later _ wanted
  exact ⟨n, fun row there same => gone ((waits_iff member made).mpr ⟨row, there, same⟩)⟩

/-- Every asset that is due and can be purged is purged in the end, however the passes go, exactly
when deferred assets never fill a batch before one of them. -/
theorem due_assets_are_purged_iff_deferred_leave_room (host : Host) (settings : Settings) (drives : Drives) (limit : Nat)
    (start : Timestamp) (tables : Tables) :
    PurgesAllDue host settings drives limit start tables ↔
      DeferredLeaveRoom host settings drives limit start tables :=
  ⟨room_of_purged, purged_of_room⟩

end Purged

/-- A host with two originals, and a `..` in a second name of one. -/
def legacyHost : Host where
  resolve text :=
    if text = "/o/b" ∨ text = "/o/../o/b" then ["o", "b"] else if text = "/o/a" then ["o", "a"] else [text]
  str path := if path = ["o", "a"] then "/o/a" else if path = ["o", "b"] then "/o/b" else path.headD ""
  normcase := id
  resolve_str text := by
    by_cases legacy : text = "/o/b" ∨ text = "/o/../o/b"
    · simp [legacy]
    · by_cases plain : text = "/o/a"
      · simp [plain]
      · simp [legacy, plain]
  resolve_normcase text := by
    by_cases legacy : text = "/o/b" ∨ text = "/o/../o/b"
    · simp [legacy]
    · by_cases plain : text = "/o/a"
      · simp [plain]
      · simp [legacy, plain]

def trashedAsset (id : UUID) (purgeAfter : Timestamp) (original : String) : Asset :=
  ⟨id, 7, id, 1, .trashed, none, some 0, some purgeAfter, none, original, "c", "c", 0, 1, none, none, .managed, none⟩

/-- So many assets with a legacy path, and one with a later deadline that nothing is wrong with. -/
def crowded (count : Nat) : Tables where
  catalog := ⟨(List.range count).map (trashedAsset · 10 "/o/../o/b") ++ [trashedAsset count 20 "/o/a"], [], []⟩
  keyed := by
    refine ⟨?_, List.nodup_nil, List.nodup_nil⟩
    rw [List.map_append, List.map_map]
    have ids : (List.range count).map (Asset.id ∘ (trashedAsset · 10 "/o/../o/b")) = List.range count := List.map_id _
    rw [ids]
    exact List.range_succ ▸ List.nodup_range

theorem hundred_legacy_assets_starve_another : ¬∀ (host : Host) (settings : Settings) (drives : Drives) (start : Timestamp)
    (tables : Tables), PurgesAllDue host settings drives 100 start tables := by
  intro always
  have room := room_of_purged (always legacyHost ⟨["o"], ["d"], ["s"], [["r"]]⟩ .working 20 (crowded 100))
  have full := room (fun _ => ⟨20, fun _ => 0, fun _ => false⟩) (fun _ => Nat.le_refl _) 0 (trashedAsset 100 20 "/o/a")
    (List.mem_append_right _ List.mem_cons_self) (trashedAsset 100 20 "/o/a")
    (List.mem_append_right _ List.mem_cons_self) rfl ⟨.inl rfl, 20, rfl, Nat.le_refl _⟩ ⟨rfl, by
      intro unlink member
      rw [List.mem_singleton.mp (show unlink ∈ [("/o/a", [["o"]])] from member)]
      exact ⟨by decide, rfl, rfl⟩⟩ 20 rfl
  have lot : (deferredUpTo legacyHost ⟨["o"], ["d"], ["s"], [["r"]]⟩ .working (crowded 100).catalog 20).length = 100 := by
    decide +kernel
  exact absurd full (by rw [afterPasses, Backlog.after, lot]; exact Nat.lt_irrefl _)

end Drivebound.Purging
