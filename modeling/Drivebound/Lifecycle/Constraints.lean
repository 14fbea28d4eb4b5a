import Drivebound.Catalog
import Drivebound.Core.Rows

/-! The constraints of the table of assets, and what keeps them: a rewrite that takes
revisions out of `active`, a rewrite or an insertion of one revision, and deleted rows. -/
namespace Drivebound.Lifecycle

/-- `ck_assets_retention_state`. -/
def Retained (asset : Asset) : Prop :=
  match asset.lifecycleState with
  | .trashed | .purging => asset.trashedAt ≠ none ∧ asset.purgeAfter ≠ none
  | .active | .superseded => asset.purgeAfter = none

instance : DecidablePred Retained := fun asset => by
  unfold Retained
  split <;> infer_instance

/-- Two revisions of one history. -/
def SameHistory (a b : Asset) : Prop := a.userId = b.userId ∧ a.logicalId = b.logicalId

instance (a b : Asset) : Decidable (SameHistory a b) :=
  inferInstanceAs (Decidable (a.userId = b.userId ∧ a.logicalId = b.logicalId))

/-- The constraints of `Asset.__table_args__` and the primary key. -/
structure Allowed (assets : List Asset) : Prop where
  unique : (assets.map Asset.id).Nodup
  /-- `uq_assets_logical_version` -/
  versions : ∀ a ∈ assets, ∀ b ∈ assets, SameHistory a b → a.version = b.version → a.id = b.id
  /-- `ck_assets_version_positive` -/
  positive : ∀ asset ∈ assets, 0 < asset.version
  /-- `uq_assets_active_logical` -/
  active : ∀ a ∈ assets, ∀ b ∈ assets, SameHistory a b → a.lifecycleState = .active →
    b.lifecycleState = .active → a.id = b.id
  retained : ∀ asset ∈ assets, Retained asset

/-- A revision that fits beside the rows with other ids. -/
structure Fits (assets : List Asset) (revision : Asset) : Prop where
  positive : 0 < revision.version
  retained : Retained revision
  versions : ∀ other ∈ assets, other.id ≠ revision.id → SameHistory other revision →
    other.version ≠ revision.version
  active : revision.lifecycleState = .active → ∀ other ∈ assets, other.id ≠ revision.id →
    SameHistory other revision → other.lifecycleState ≠ .active

theorem SameHistory.symm {a b : Asset} (same : SameHistory a b) : SameHistory b a :=
  ⟨same.1.symm, same.2.symm⟩

namespace Allowed

variable {assets : List Asset}

theorem nil : Allowed [] := by
  constructor <;> simp

theorem filter (allowed : Allowed assets) (p : Asset → Bool) : Allowed (assets.filter p) where
  unique := allowed.unique.sublist (List.filter_sublist.map Asset.id)
  versions a here b there :=
    allowed.versions a (List.mem_of_mem_filter here) b (List.mem_of_mem_filter there)
  positive asset member := allowed.positive asset (List.mem_of_mem_filter member)
  active a here b there :=
    allowed.active a (List.mem_of_mem_filter here) b (List.mem_of_mem_filter there)
  retained asset member := allowed.retained asset (List.mem_of_mem_filter member)

/-- Revisions stay in their histories, and none becomes active. -/
theorem retire (allowed : Allowed assets) {change : Asset → Asset}
    (keeps : ∀ asset, (change asset).id = asset.id ∧ SameHistory (change asset) asset ∧
      (change asset).version = asset.version)
    (activates : ∀ asset ∈ assets, (change asset).lifecycleState = .active → asset.lifecycleState = .active)
    (retained : ∀ asset ∈ assets, Retained (change asset)) : Allowed (assets.map change) := by
  have history {a b : Asset} (same : SameHistory (change a) (change b)) : SameHistory a b := by
    obtain ⟨_, first, _⟩ := keeps a
    obtain ⟨_, second, _⟩ := keeps b
    exact ⟨first.1.symm.trans (same.1.trans second.1), first.2.symm.trans (same.2.trans second.2)⟩
  constructor
  · have ids : (assets.map change).map Asset.id = assets.map Asset.id := by
      rw [List.map_map]
      exact List.map_congr_left fun asset _ => (keeps asset).1
    exact ids ▸ allowed.unique
  · simp only [List.forall_mem_map]
    intro a here b there same equal
    rw [(keeps a).1, (keeps b).1]
    rw [(keeps a).2.2, (keeps b).2.2] at equal
    exact allowed.versions a here b there (history same) equal
  · simp only [List.forall_mem_map]
    intro asset member
    rw [(keeps asset).2.2]
    exact allowed.positive asset member
  · simp only [List.forall_mem_map]
    intro a here b there same first second
    rw [(keeps a).1, (keeps b).1]
    exact allowed.active a here b there (history same) (activates a here first) (activates b there second)
  · simp only [List.forall_mem_map]
    exact retained

/-- One revision is rewritten to one that fits beside the others. -/
theorem rewrite (allowed : Allowed assets) {id : UUID} {change : Asset → Asset}
    (keeps : ∀ asset, (change asset).id = asset.id)
    (fits : ∀ asset ∈ assets, asset.id = id → Fits assets (change asset)) :
    Allowed (Rows.updateKey Asset.id id change assets) := by
  have rewritten : ∀ row ∈ Rows.updateKey Asset.id id change assets,
      (row ∈ assets ∧ row.id ≠ id) ∨ ∃ asset ∈ assets, asset.id = id ∧ row = change asset := by
    intro row member
    obtain ⟨asset, there, rfl⟩ := List.mem_map.mp member
    by_cases same : asset.id = id
    · exact .inr ⟨asset, there, same, if_pos same⟩
    · rw [if_neg same]
      exact .inl ⟨there, same⟩
  constructor
  · rw [Rows.updateKey_keys fun asset same => (keeps asset).trans same]
    exact allowed.unique
  · intro a here b there history equal
    rcases rewritten a here with ⟨first, other⟩ | ⟨source, first, named, rfl⟩
    · rcases rewritten b there with ⟨second, _⟩ | ⟨source, second, named, rfl⟩
      · exact allowed.versions a first b second history equal
      · by_contra apart
        exact (fits source second named).versions a first apart history equal
    · rcases rewritten b there with ⟨second, other⟩ | ⟨target, second, sameKey, rfl⟩
      · by_contra apart
        exact (fits source first named).versions b second (Ne.symm apart) history.symm equal.symm
      · rw [keeps, keeps, named, sameKey]
  · intro row member
    rcases rewritten row member with ⟨there, _⟩ | ⟨source, there, named, rfl⟩
    · exact allowed.positive row there
    · exact (fits source there named).positive
  · intro a here b there history activeA activeB
    rcases rewritten a here with ⟨first, other⟩ | ⟨source, first, named, rfl⟩
    · rcases rewritten b there with ⟨second, _⟩ | ⟨source, second, named, rfl⟩
      · exact allowed.active a first b second history activeA activeB
      · by_contra apart
        exact (fits source second named).active activeB a first apart history activeA
    · rcases rewritten b there with ⟨second, other⟩ | ⟨target, second, sameKey, rfl⟩
      · by_contra apart
        exact (fits source first named).active activeA b second (Ne.symm apart) history.symm activeB
      · rw [keeps, keeps, named, sameKey]
  · intro row member
    rcases rewritten row member with ⟨there, _⟩ | ⟨source, there, named, rfl⟩
    · exact allowed.retained row there
    · exact (fits source there named).retained

theorem insert (allowed : Allowed assets) {revision : Asset} {after : List Asset}
    (inserted : insertRow Asset.id assets revision = .ok after) (fits : Fits assets revision) :
    Allowed after := by
  obtain ⟨rfl, unused⟩ := insertRow_ok inserted
  constructor
  · rw [List.map_append, List.nodup_append]
    refine ⟨allowed.unique, List.nodup_singleton _, fun id here new there => ?_⟩
    obtain ⟨row, present, rfl⟩ := List.mem_map.mp here
    rw [List.map_singleton, List.mem_singleton] at there
    exact there ▸ unused row present
  · simp only [List.forall_mem_append, List.forall_mem_singleton]
    refine ⟨fun a here => ⟨allowed.versions a here, fun history equal => ?_⟩, fun b there history equal => ?_,
      fun _ _ => trivial⟩
    · exact absurd equal (fits.versions a here (unused a here) history)
    · exact absurd equal.symm (fits.versions b there (unused b there) history.symm)
  · simp only [List.forall_mem_append, List.forall_mem_singleton]
    exact ⟨allowed.positive, fits.positive⟩
  · simp only [List.forall_mem_append, List.forall_mem_singleton]
    refine ⟨fun a here => ⟨allowed.active a here, fun history first second => ?_⟩,
      fun b there history first second => ?_, fun _ _ _ => trivial⟩
    · exact absurd first (fits.active second a here (unused a here) history)
    · exact absurd second (fits.active first b there (unused b there) history.symm)
  · simp only [List.forall_mem_append, List.forall_mem_singleton]
    exact ⟨allowed.retained, fits.retained⟩

/-- A row that keeps its place in its history still fits. -/
theorem fits_in_place (allowed : Allowed assets) {asset revision : Asset} (member : asset ∈ assets)
    (id : revision.id = asset.id) (history : SameHistory revision asset)
    (version : revision.version = asset.version) (retained : Retained revision)
    (active : revision.lifecycleState = .active → ∀ other ∈ assets, other.id ≠ asset.id →
      SameHistory other asset → other.lifecycleState ≠ .active) : Fits assets revision where
  positive := version ▸ allowed.positive asset member
  retained := retained
  versions other there different same equal := by
    refine different (id ▸ allowed.versions other there asset member ?_ (equal.trans version))
    exact ⟨same.1.trans history.1, same.2.trans history.2⟩
  active becomes other there different same := by
    refine active becomes other there (id ▸ different) ?_
    exact ⟨same.1.trans history.1, same.2.trans history.2⟩

end Allowed

end Drivebound.Lifecycle
