import Mathlib.Data.List.Nodup
import Drivebound.Core.Rows
import Drivebound.Purging.Batches

/-! The items of an account in the order in which a deletion job takes them: its upload
sessions, then its assets with their replicas. A purge of one item never unlinks a file that
another item names. -/
namespace Drivebound.Purging

inductive Item where
  | upload (row : UploadSession)
  | asset (row : Asset) (replicas : List AssetReplica)
  deriving DecidableEq, Repr

namespace Item

/-- The stored texts of an item that stand for files. -/
def paths : Item → List String
  | .upload row => [row.stagingPath]
  | .asset row replicas =>
    assetPaths row ++ replicas.flatMap fun replica => replica.path :: sidecar replica

/-- The texts that a purge unlinks, with the roots that they have to be below. -/
def unlinks (storage : Settings) : Item → List (String × List Path)
  | .upload row => if isDuplicate row.stagingPath then [] else [(row.stagingPath, [storage.stagingPath])]
  | .asset row replicas =>
    replicas.flatMap (fun replica =>
        (replica.path :: sidecar replica).map fun path => (path, storage.replicaRootList)) ++
      (if row.storageSource = .managed then [(row.originalPath, [storage.originalsPath])] else []) ++
      (row.thumbnailPath.toList ++ row.previewPath.toList).map fun path =>
        (path, [storage.derivativesPath])

def visits (storage : Settings) (catalog : Catalog) (previewFirst : Bool) : Item → List Visit
  | .upload row => uploadVisits storage catalog row
  | .asset row _ => purgeVisits storage catalog row previewFirst

end Item

def items (catalog : Catalog) (user : UUID) : List Item :=
  (catalog.uploads.filter (·.userId = user)).map .upload ++
    (catalog.assets.filter (·.userId = user)).map fun asset => .asset asset (catalog.replicasOf asset.id)

namespace Catalog

/-- The primary keys. -/
structure Keyed (catalog : Catalog) : Prop where
  assets : (catalog.assets.map Asset.id).Nodup
  replicas : (catalog.replicas.map AssetReplica.id).Nodup
  uploads : (catalog.uploads.map UploadSession.id).Nodup

def dropItem (catalog : Catalog) : Item → Catalog
  | .upload row => catalog.dropUpload row.id
  | .asset row _ => catalog.dropAsset row.id

theorem Keyed.dropItem {catalog : Catalog} (keyed : catalog.Keyed) (item : Item) :
    (catalog.dropItem item).Keyed := by
  cases item with
  | upload row =>
    exact ⟨keyed.assets, keyed.replicas, keyed.uploads.sublist (List.filter_sublist.map _)⟩
  | asset row replicas =>
    exact ⟨keyed.assets.sublist (List.filter_sublist.map _),
      keyed.replicas.sublist (List.filter_sublist.map _), keyed.uploads⟩

end Catalog

/-- The one row under a key is filtered out of the rows it leads. -/
theorem filter_head {α : Type} {key : α → UUID} {row : α} {rest : List α}
    (keys : ((row :: rest).map key).Nodup) : (row :: rest).filter (key · ≠ key row) = rest := by
  rw [List.map_cons, List.nodup_cons] at keys
  rw [List.filter_cons_of_neg (by simp), List.filter_eq_self]
  intro other member
  have apart : key other ≠ key row := fun same => keys.1 (same ▸ List.mem_map_of_mem member)
  simpa using apart

section Items

variable {catalog : Catalog} {user : UUID} {item : Item} {rest : List Item}

/-- The selects of the next upload session and of the next asset find the first item. -/
theorem items_cons_iff : items catalog user = item :: rest → (∃ row more, item = .upload row ∧
      nextUpload catalog user = some row ∧
      catalog.uploads.filter (·.userId = user) = row :: more ∧
      rest = more.map .upload ++ (catalog.assets.filter (·.userId = user)).map
        fun asset => .asset asset (catalog.replicasOf asset.id)) ∨
    ∃ row more, item = .asset row (catalog.replicasOf row.id) ∧ nextUpload catalog user = none ∧
      nextAsset catalog user = some row ∧ catalog.uploads.filter (·.userId = user) = [] ∧
      catalog.assets.filter (·.userId = user) = row :: more ∧
      rest = more.map fun asset => .asset asset (catalog.replicasOf asset.id) := by
  intro first
  unfold items at first
  have nextRow : nextUpload catalog user = (catalog.uploads.filter (·.userId = user)).head? := by
    rw [List.head?_filter]
    rfl
  have nextOne : nextAsset catalog user = (catalog.assets.filter (·.userId = user)).head? := by
    rw [List.head?_filter]
    rfl
  cases uploads : catalog.uploads.filter (·.userId = user) with
  | cons row more =>
    rw [uploads] at first nextRow
    obtain ⟨rfl, rfl⟩ := List.cons.inj first
    exact .inl ⟨row, more, rfl, nextRow, rfl, rfl⟩
  | nil =>
    rw [uploads] at first nextRow
    cases assets : catalog.assets.filter (·.userId = user) with
    | nil => simp [assets] at first
    | cons row more =>
      rw [assets] at first nextOne
      obtain ⟨rfl, rfl⟩ := List.cons.inj first
      exact .inr ⟨row, more, rfl, nextRow, nextOne, rfl, rfl, rfl⟩

theorem replicasOf_dropAsset {asset other : UUID} (apart : other ≠ asset) :
    (catalog.dropAsset asset).replicasOf other = catalog.replicasOf other := by
  unfold Catalog.dropAsset Catalog.replicasOf
  rw [List.filter_filter]
  apply List.filter_congr
  intro replica _
  by_cases same : replica.assetId = other
  · simp [same, apart]
  · simp [same]

/-- The items of the other rows. -/
theorem items_dropItem (keyed : catalog.Keyed) (first : items catalog user = item :: rest) :
    items (catalog.dropItem item) user = rest := by
  rcases items_cons_iff first with ⟨row, more, rfl, _, uploads, rfl⟩ |
    ⟨row, more, rfl, _, _, uploads, assets, rfl⟩
  · have keys : ((row :: more).map UploadSession.id).Nodup := by
      rw [← uploads]
      exact keyed.uploads.sublist (List.filter_sublist.map _)
    have left : ((catalog.uploads.filter (·.id ≠ row.id)).filter (·.userId = user)) = more := by
      rw [← filter_head keys, ← uploads, List.filter_filter, List.filter_filter]
      exact List.filter_congr fun upload _ => Bool.and_comm _ _
    simp only [items, Catalog.dropItem, Catalog.dropUpload, left]
    rfl
  · have keys : ((row :: more).map Asset.id).Nodup := by
      rw [← assets]
      exact keyed.assets.sublist (List.filter_sublist.map _)
    have left : ((catalog.assets.filter (·.id ≠ row.id)).filter (·.userId = user)) = more := by
      rw [← filter_head keys, ← assets, List.filter_filter, List.filter_filter]
      exact List.filter_congr fun asset _ => Bool.and_comm _ _
    have others : ∀ asset ∈ more, asset.id ≠ row.id := by
      intro asset member same
      rw [List.map_cons, List.nodup_cons] at keys
      exact keys.1 (same ▸ List.mem_map_of_mem member)
    simp only [items, Catalog.dropItem]
    have noUploads : (catalog.dropAsset row.id).uploads.filter (·.userId = user) = [] := uploads
    have noRow : (catalog.dropAsset row.id).assets.filter (·.userId = user) = more := left
    rw [noUploads, noRow, List.map_nil, List.nil_append]
    exact List.map_congr_left fun asset member => by rw [replicasOf_dropAsset (others asset member)]

theorem items_foldl (keyed : catalog.Keyed) {done rest : List Item}
    (split : items catalog user = done ++ rest) :
    items (done.foldl Catalog.dropItem catalog) user = rest ∧
      (done.foldl Catalog.dropItem catalog).Keyed := by
  induction done generalizing catalog with
  | nil => exact ⟨split, keyed⟩
  | cons item more ih => exact ih (keyed.dropItem item) (items_dropItem keyed split)

theorem mem_items_upload {row : UploadSession} :
    Item.upload row ∈ items catalog user ↔ row ∈ catalog.uploads ∧ row.userId = user := by
  simp [items]

theorem mem_items_asset {row : Asset} {replicas : List AssetReplica} :
    Item.asset row replicas ∈ items catalog user ↔
      (row ∈ catalog.assets ∧ row.userId = user) ∧ catalog.replicasOf row.id = replicas := by
  simp only [items, List.mem_append, List.mem_map, List.mem_filter, decide_eq_true_eq, reduceCtorEq,
    and_false, exists_false, false_or, Item.asset.injEq]
  constructor
  · rintro ⟨asset, member, rfl, same⟩
    exact ⟨member, same⟩
  · rintro ⟨member, same⟩
    exact ⟨row, member, rfl, same⟩

end Items

section Visits

variable {storage : Settings} {catalog : Catalog} {user : UUID} {asset : Asset} {visit : Visit}
  {previewFirst : Bool}

theorem mem_replicaVisits {replicas : List AssetReplica}
    (member : visit ∈ replicaVisits storage catalog replicas) :
    ∃ before replica after, replicas = before ++ replica :: after ∧
      visit.catalog = before.foldl (fun left row => left.dropReplica row.id) catalog ∧
      visit.excluding = ⟨none, some replica.id, none⟩ ∧ visit.roots = storage.replicaRootList ∧
      visit.path ∈ replica.path :: sidecar replica := by
  induction replicas generalizing catalog with
  | nil => cases member
  | cons replica rest ih =>
    simp only [replicaVisits, List.cons_append, List.mem_cons, List.mem_append, List.mem_map] at member
    rcases member with rfl | ⟨path, listed, rfl⟩ | later
    · exact ⟨[], replica, rest, rfl, rfl, rfl, rfl, List.mem_cons_self⟩
    · exact ⟨[], replica, rest, rfl, rfl, rfl, rfl, List.mem_cons_of_mem _ listed⟩
    · obtain ⟨before, other, after, rfl, sees, rest⟩ := ih later
      exact ⟨replica :: before, other, after, rfl, sees, rest⟩

theorem mem_derivatives {path : String} (member : path ∈ derivatives asset previewFirst) :
    path ∈ asset.thumbnailPath.toList ++ asset.previewPath.toList := by
  unfold derivatives at member
  split at member
  · rename_i thumbnail preview hasThumbnail hasPreview
    rw [hasThumbnail, hasPreview]
    split at member
    · exact List.mem_append_left _ member
    · split at member
      · simpa [or_comm] using member
      · simpa using member
  · exact member

theorem mem_assetVisits (member : visit ∈ assetVisits storage catalog asset previewFirst) :
    visit.catalog = catalog ∧ visit.excluding = ⟨some asset.id, none, none⟩ ∧
      (visit.path, visit.roots) ∈
        (if asset.storageSource = .managed then [(asset.originalPath, [storage.originalsPath])] else []) ++
          (asset.thumbnailPath.toList ++ asset.previewPath.toList).map fun path =>
            (path, [storage.derivativesPath]) := by
  rcases List.mem_append.mp member with original | derivative
  · split at original
    · rename_i managed
      rw [List.mem_singleton.mp original, if_pos managed]
      exact ⟨rfl, rfl, List.mem_append_left _ List.mem_cons_self⟩
    · cases original
  · obtain ⟨path, listed, rfl⟩ := List.mem_map.mp derivative
    exact ⟨rfl, rfl, List.mem_append_right _ (List.mem_map_of_mem (mem_derivatives listed))⟩

/-- The rows that are left while the replicas of an asset go. -/
theorem foldl_dropReplica (catalog : Catalog) (dropped : List AssetReplica) :
    (dropped.foldl (fun left row => left.dropReplica row.id) catalog).assets = catalog.assets ∧
      (dropped.foldl (fun left row => left.dropReplica row.id) catalog).uploads = catalog.uploads ∧
      ∀ replica ∈ catalog.replicas, (∀ row ∈ dropped, row.id ≠ replica.id) →
        replica ∈ (dropped.foldl (fun left row => left.dropReplica row.id) catalog).replicas := by
  induction dropped generalizing catalog with
  | nil => exact ⟨rfl, rfl, fun _ member _ => member⟩
  | cons row rest ih =>
    obtain ⟨assets, uploads, kept⟩ := ih (catalog.dropReplica row.id)
    refine ⟨assets, uploads, fun replica member apart => kept replica ?_ ?_⟩
    · refine List.mem_filter.mpr ⟨member, decide_eq_true ?_⟩
      exact fun same => apart row List.mem_cons_self same.symm
    · exact fun other later => apart other (List.mem_cons_of_mem _ later)

/-- What an unlink of a purge sees: all rows but replicas of the asset, of which it leaves
out the row that names its path. -/
theorem mem_purgeVisits (member : visit ∈ purgeVisits storage catalog asset previewFirst) :
    visit.catalog.assets = catalog.assets ∧ visit.catalog.uploads = catalog.uploads ∧
      (∀ replica ∈ catalog.replicas, (∀ row ∈ catalog.replicasOf asset.id, row.id ≠ replica.id) →
        replica ∈ visit.catalog.replicas) ∧
      (visit.excluding = ⟨some asset.id, none, none⟩ ∨
        ∃ row ∈ catalog.replicasOf asset.id, visit.excluding = ⟨none, some row.id, none⟩) ∧
      (visit.path, visit.roots) ∈ (Item.asset asset (catalog.replicasOf asset.id)).unlinks storage := by
  rcases List.mem_append.mp member with first | second
  · obtain ⟨before, replica, after, split, sees, leaves, below, named⟩ := mem_replicaVisits first
    have among : ∀ row ∈ before, row ∈ catalog.replicasOf asset.id := by
      intro row here
      rw [split]
      exact List.mem_append_left _ here
    have itself : replica ∈ catalog.replicasOf asset.id := by
      rw [split]
      exact List.mem_append_right _ List.mem_cons_self
    obtain ⟨assets, uploads, kept⟩ := foldl_dropReplica catalog before
    rw [sees]
    refine ⟨assets, uploads, fun row there apart => kept row there fun other here => apart other (among other here),
      .inr ⟨replica, itself, leaves⟩, List.mem_append_left _ (List.mem_append_left _ ?_)⟩
    refine List.mem_flatMap.mpr ⟨replica, itself, ?_⟩
    rw [below]
    exact List.mem_map.mpr ⟨visit.path, named, rfl⟩
  · obtain ⟨sees, leaves, named⟩ := mem_assetVisits second
    obtain ⟨assets, uploads, kept⟩ := foldl_dropReplica catalog (catalog.replicasOf asset.id)
    rw [sees]
    refine ⟨assets, uploads, kept, .inl leaves, ?_⟩
    rw [Item.unlinks, List.append_assoc]
    exact List.mem_append_right _ named

theorem mem_visits {item : Item} (here : item ∈ items catalog user)
    (member : visit ∈ item.visits storage catalog previewFirst) :
    (visit.path, visit.roots) ∈ item.unlinks storage := by
  cases item with
  | upload row =>
    simp only [Item.visits, uploadVisits] at member
    split at member
    · cases member
    · rename_i real
      rw [List.mem_singleton.mp member]
      simp [Item.unlinks, real]
  | asset row replicas =>
    obtain ⟨_, rfl⟩ := mem_items_asset.mp here
    exact (mem_purgeVisits member).2.2.2.2

end Visits

section Protection

variable {host : Host} {storage : Settings} {catalog : Catalog} {user : UUID} {visit : Visit}
  {previewFirst : Bool} {path : String}

/-- A path of an item is one of the paths of a check that leaves none of its rows out. -/
theorem mem_otherPaths_item {item : Item} {excluding : Excluding} {seen : Catalog}
    (member : item ∈ items catalog user) (named : path ∈ item.paths)
    (upload : ∀ row, item = .upload row → row ∈ seen.uploads ∧ some row.id ≠ excluding.upload)
    (asset : ∀ row replicas, item = .asset row replicas → (row ∈ seen.assets ∧ some row.id ≠ excluding.asset) ∧
      ∀ replica ∈ replicas, replica ∈ seen.replicas ∧ some replica.id ≠ excluding.replica) :
    path ∈ otherPaths seen excluding := by
  cases item with
  | upload row =>
    obtain ⟨here, kept⟩ := upload row rfl
    rw [List.mem_singleton.mp named]
    exact mem_otherPaths_upload here kept
  | asset row replicas =>
    obtain ⟨⟨here, kept⟩, rows⟩ := asset row replicas rfl
    rcases List.mem_append.mp named with own | other
    · exact mem_otherPaths_asset here kept own
    · obtain ⟨replica, listed, text⟩ := List.mem_flatMap.mp other
      obtain ⟨there, left⟩ := rows replica listed
      refine mem_otherPaths_replica there left ?_
      rcases List.mem_cons.mp text with rfl | beside
      · exact List.mem_cons_self
      · exact List.mem_cons_of_mem _ (List.mem_filter.mp beside).1

/-- The purge of an item spares the files of every other item of the account. -/
theorem visit_spares_others (keyed : catalog.Keyed) {item other : Item} (here : item ∈ items catalog user)
    (there : other ∈ items catalog user) (apart : other ≠ item)
    (member : visit ∈ item.visits storage catalog previewFirst) (named : path ∈ other.paths)
    (real : isDuplicate path = false) (same : host.identity path = host.identity visit.path) :
    visit.referenced host = true := by
  refine physicalPathHasOtherReference_of_mem (mem_otherPaths_item there named ?_ ?_) real same
  · rintro row rfl
    obtain ⟨listed, _⟩ := mem_items_upload.mp there
    cases item with
    | upload own =>
      simp only [Item.visits, uploadVisits] at member
      split at member
      · cases member
      · rw [List.mem_singleton.mp member]
        refine ⟨listed, fun sameId => apart ?_⟩
        have rowsSame := List.inj_on_of_nodup_map keyed.uploads listed (mem_items_upload.mp here).1
          (Option.some.inj sameId)
        rw [rowsSame]
    | asset own replicas =>
      obtain ⟨_, uploads, _, leaves, _⟩ := mem_purgeVisits member
      rw [uploads]
      refine ⟨listed, ?_⟩
      rcases leaves with leaves | ⟨_, _, leaves⟩ <;> rw [leaves] <;> nofun
  · rintro row replicas rfl
    obtain ⟨⟨listed, _⟩, rfl⟩ := mem_items_asset.mp there
    cases item with
    | upload own =>
      simp only [Item.visits, uploadVisits] at member
      split at member
      · cases member
      · rw [List.mem_singleton.mp member]
        exact ⟨⟨listed, nofun⟩, fun replica beside => ⟨(List.mem_filter.mp beside).1, nofun⟩⟩
    | asset own replicas =>
      obtain ⟨⟨ownListed, _⟩, rfl⟩ := mem_items_asset.mp here
      obtain ⟨assets, _, kept, leaves, _⟩ := mem_purgeVisits member
      have rowsApart : row.id ≠ own.id := by
        intro sameId
        have rowsSame := List.inj_on_of_nodup_map keyed.assets listed ownListed sameId
        exact apart (by rw [rowsSame])
      have replicasApart : ∀ replica ∈ catalog.replicasOf row.id, ∀ beside ∈ catalog.replicasOf own.id,
          beside.id ≠ replica.id := by
        intro replica first beside second sameId
        obtain ⟨firstListed, firstOf⟩ := List.mem_filter.mp first
        obtain ⟨secondListed, secondOf⟩ := List.mem_filter.mp second
        have rowsSame := List.inj_on_of_nodup_map keyed.replicas secondListed firstListed sameId
        rw [rowsSame] at secondOf
        exact rowsApart ((of_decide_eq_true firstOf).symm.trans (of_decide_eq_true secondOf))
      rw [assets]
      refine ⟨⟨listed, ?_⟩, fun replica beside => ⟨kept replica (List.mem_filter.mp beside).1
        (replicasApart replica beside), ?_⟩⟩
      · rcases leaves with leaves | ⟨_, _, leaves⟩
        · rw [leaves]
          exact fun sameId => rowsApart (Option.some.inj sameId)
        · rw [leaves]
          nofun
      · rcases leaves with leaves | ⟨own, ownBeside, leaves⟩
        · rw [leaves]
          nofun
        · rw [leaves]
          exact fun sameId => replicasApart replica beside own ownBeside (Option.some.inj sameId).symm

/-- What was staged for an asset goes only if no item names it. -/
theorem staged_spares_items {disk : Disk} {asset : Asset} {other : Item}
    (member : visit ∈ stagedVisits host storage disk catalog asset) (there : other ∈ items catalog user)
    (named : path ∈ other.paths) (real : isDuplicate path = false)
    (same : host.identity path = host.identity visit.path) : visit.referenced host = true := by
  obtain ⟨staged, _, rfl⟩ := List.mem_map.mp member
  refine physicalPathHasOtherReference_of_mem (mem_otherPaths_item there named ?_ ?_) real same
  · rintro row rfl
    exact ⟨(mem_items_upload.mp there).1, nofun⟩
  · rintro row replicas rfl
    obtain ⟨⟨listed, _⟩, rfl⟩ := mem_items_asset.mp there
    exact ⟨⟨listed, nofun⟩, fun replica beside => ⟨(List.mem_filter.mp beside).1, nofun⟩⟩

end Protection

end Drivebound.Purging
