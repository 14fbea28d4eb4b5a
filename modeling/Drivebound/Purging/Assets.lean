import Drivebound.Purging.Catalog

/-! `safely_purge_asset`: its unlinks in their order, each with the rows that are left when
its reference check is made. The first that raises ends the purge. -/
namespace Drivebound.Purging

/-- Regular files, links and directories by the paths at which they stand. -/
structure Disk where
  files : List Path
  links : List Path
  directories : List Path
  deriving DecidableEq, Repr

namespace Disk

variable (host : Host) (disk : Disk)

/-- The file that a text names is there. -/
def hasFile (text : String) : Bool := disk.files.any (·.map host.normcase = host.identity text)

/-- `path.is_dir()` -/
def isDir (path : Path) : Bool :=
  disk.directories.any (·.map host.normcase = host.identity (host.str path))

def unlink (gone : List Path) : Disk :=
  { disk with files := disk.files.filter (·.map host.normcase ∉ gone) }

end Disk

inductive PathKind where
  | upload | staged | replica | replicaMetadata | managedOriginal | derivative
  deriving DecidableEq, Repr

/-- One call of `safely_unlink_catalog_path`, with the rows that it sees. -/
structure Visit where
  kind : PathKind
  path : String
  roots : List Path
  excluding : Excluding
  catalog : Catalog

namespace Visit

variable (host : Host) (visit : Visit)

def unlink (drives : Drives) : Except UnlinkError (Option Path) :=
  safelyUnlinkCatalogPath host drives visit.catalog visit.path visit.roots visit.excluding

def inside : Bool := visit.roots.any (host.isRelativeTo (host.resolve visit.path))

/-- The path is one that is never unlinked: it leaves its roots, or is not canonical. -/
def fails : Bool := !visit.inside host || host.canonicalStoragePath visit.path ≠ visit.path

/-- Another row names the file. -/
def referenced : Bool :=
  physicalPathHasOtherReference host visit.catalog visit.path visit.excluding

end Visit

/-- Unlinks one after the other, up to the first that raises. -/
def unlinkAll (host : Host) (drives : Drives) : List Visit → List Path × Option (Visit × UnlinkError)
  | [] => ([], none)
  | visit :: rest =>
    match visit.unlink host drives with
    | .error error => ([], some (visit, error))
    | .ok gone => (gone.toList ++ (unlinkAll host drives rest).1, (unlinkAll host drives rest).2)

/-- `if replica.metadata_path:` -/
def sidecar (replica : AssetReplica) : List String := replica.metadataPath.toList.filter (· ≠ "")

/-- Each replica, then its sidecar; its row is deleted before the next. -/
def replicaVisits (settings : Settings) : Catalog → List AssetReplica → List Visit
  | _, [] => []
  | catalog, replica :: rest =>
    let visit := fun kind path => Visit.mk kind path settings.replicaRootList
      ⟨none, some replica.id, none⟩ catalog
    visit .replica replica.path :: (sidecar replica).map (visit .replicaMetadata) ++
      replicaVisits settings (catalog.dropReplica replica.id) rest

/-- `{asset.thumbnail_path, asset.preview_path} - {None}`, in one of its orders. -/
def derivatives (asset : Asset) (previewFirst : Bool) : List String :=
  match asset.thumbnailPath, asset.previewPath with
  | some thumbnail, some preview =>
    if thumbnail = preview then [thumbnail]
    else if previewFirst then [preview, thumbnail] else [thumbnail, preview]
  | thumbnail, preview => thumbnail.toList ++ preview.toList

/-- The original of a managed asset, then its derivatives. -/
def assetVisits (settings : Settings) (catalog : Catalog) (asset : Asset) (previewFirst : Bool) :
    List Visit :=
  let visit := fun kind root path => Visit.mk kind path [root] ⟨some asset.id, none, none⟩ catalog
  (if asset.storageSource = .managed then
      [visit .managedOriginal settings.originalsPath asset.originalPath] else []) ++
    (derivatives asset previewFirst).map (visit .derivative settings.derivativesPath)

/-- The unlinks of a purge that nothing stops. That the row is `purging` meanwhile is no
concern of a reference check. -/
def purgeVisits (settings : Settings) (catalog : Catalog) (asset : Asset) (previewFirst : Bool) :
    List Visit :=
  let replicas := catalog.replicasOf asset.id
  replicaVisits settings catalog replicas ++
    assetVisits settings (replicas.foldl (fun left replica => left.dropReplica replica.id) catalog)
      asset previewFirst

inductive Verdict where
  | purged
  /-- `retained_noncanonical` has got the kind of a path. -/
  | retained (kind : PathKind)
  | deferred (kind : PathKind) (error : UnlinkError)
  | notDue
  /-- `require_storage` raises. -/
  | unavailable
  deriving DecidableEq, Repr

/-- `safely_purge_asset` with a list for `retained_noncanonical`: the files that it has
unlinked, and what it comes to. Only a purged asset leaves the catalog; the caller rolls
everything else back. -/
def safelyPurgeAsset (host : Host) (settings : Settings) (drives : Drives) (previewFirst : Bool)
    (now : Timestamp) (catalog : Catalog) (asset : Asset) : List Path × Verdict :=
  if ¬ IsPurgeDue now asset then ([], .notDue)
  else if ¬ drives.ready then ([], .unavailable)
  else
    match unlinkAll host drives (purgeVisits settings catalog asset previewFirst) with
    | (gone, none) => (gone, .purged)
    | (gone, some (visit, .noncanonicalCatalogPath)) => (gone, .retained visit.kind)
    | (gone, some (visit, error)) => (gone, .deferred visit.kind error)

/-- `_owned_staging_paths_for_asset`, resolved: what stands in the account's directory below
the staging root under a name that begins with the id and a dot, and is a file. -/
def ownedStagingPathsForAsset (host : Host) (settings : Settings) (disk : Disk) (asset : Asset) :
    List Path :=
  let account := host.resolve (host.str (settings.stagingPath ++ [toString asset.userId]))
  (((disk.files ++ disk.links).filter fun entry =>
      entry.dropLast = account ∧
        (toString asset.id ++ ".").toList.isPrefixOf (entry.getLast?.getD "").toList ∧
        disk.hasFile host (host.str entry))).map fun entry => host.resolve (host.str entry)

/-- The unlinks of the staged files, for which no row is left out. -/
def stagedVisits (host : Host) (settings : Settings) (disk : Disk) (catalog : Catalog) (asset : Asset) :
    List Visit :=
  (ownedStagingPathsForAsset host settings disk asset).map fun staged =>
    ⟨.staged, host.str staged, [settings.stagingPath], .nothing, catalog⟩

def uploadVisits (settings : Settings) (catalog : Catalog) (upload : UploadSession) : List Visit :=
  if isDuplicate upload.stagingPath then []
  else [⟨.upload, upload.stagingPath, [settings.stagingPath], ⟨none, none, some upload.id⟩, catalog⟩]

section Unlinks

variable {host : Host} {drives : Drives} {visit : Visit} {visits : List Visit}

theorem Visit.unlink_ok {gone : Option Path} (done : visit.unlink host drives = .ok gone) :
    visit.fails host = false ∧
      ∀ place ∈ gone, place = host.identity visit.path ∧ visit.referenced host = false := by
  unfold Visit.unlink safelyUnlinkCatalogPath validatedPath at done
  split at done
  · cases done
  rename_i resolved valid
  split at valid
  · rename_i inside
    split at valid <;> cases valid
    split at done
    · cases done
    rename_i canonical
    rw [not_not, host.canonical_resolved] at canonical
    refine ⟨by simp [Visit.fails, Visit.inside, inside, canonical], ?_⟩
    split at done
    · cases done
      exact fun place absent => absurd absent (Option.not_mem_none place)
    rename_i free
    split at done
    · cases done
    cases done
    rintro place ⟨⟩
    exact ⟨rfl, eq_false_of_ne_true free⟩
  · cases valid

theorem Visit.unlink_noncanonical
    (raised : visit.unlink host drives = .error .noncanonicalCatalogPath) :
    visit.inside host = true ∧ visit.fails host = true := by
  unfold Visit.unlink safelyUnlinkCatalogPath validatedPath at raised
  split at raised
  · rename_i error invalid
    cases raised
    split at invalid
    · split at invalid <;> cases invalid
    · cases invalid
  rename_i resolved valid
  split at valid
  · rename_i inside
    split at valid <;> cases valid
    split at raised
    · rename_i legacy
      rw [host.canonical_resolved] at legacy
      exact ⟨inside, by simp [Visit.fails, legacy]⟩
    · split at raised
      · cases raised
      · split at raised <;> cases raised
  · cases valid

/-- With working drives a path that is canonical and below its root is unlinked unless
another row names its file. -/
theorem Visit.unlink_working (passes : visit.fails host = false) :
    visit.unlink host .working =
      .ok (if visit.referenced host then none else some (host.identity visit.path)) := by
  simp only [Visit.fails, Bool.or_eq_false_iff, Bool.not_eq_false', decide_eq_false_iff_not,
    ne_eq, not_not] at passes
  obtain ⟨inside, canonical⟩ := passes
  simp only [Visit.inside] at inside
  simp only [Visit.unlink, safelyUnlinkCatalogPath, validatedPath, inside, Drives.working, if_true,
    host.canonical_resolved, canonical, ne_eq, not_true_eq_false, if_false]
  rw [← Visit.referenced]
  cases visit.referenced host <;> rfl

theorem Visit.unlink_fails (fails : visit.fails host = true) : visit.unlink host .working =
    .error (if visit.inside host then .noncanonicalCatalogPath else .outsideRoot) := by
  simp only [Visit.fails, Bool.or_eq_true, Bool.not_eq_true', decide_eq_true_eq] at fails
  cases inside : visit.inside host with
  | false =>
    simp only [Visit.inside] at inside
    simp [Visit.unlink, safelyUnlinkCatalogPath, validatedPath, inside]
  | true =>
    have legacy : host.canonicalStoragePath visit.path ≠ visit.path := by
      rcases fails with outside | legacy
      · exact absurd (inside.symm.trans outside) nofun
      · exact legacy
    simp only [Visit.inside] at inside
    simp [Visit.unlink, safelyUnlinkCatalogPath, validatedPath, inside, Drives.working, legacy]

/-- Every file that is gone was named by a path that passes, like all the paths before it. -/
theorem mem_unlinkAll {place : Path} (gone : place ∈ (unlinkAll host drives visits).1) :
    ∃ visit ∈ visits.takeWhile (!Visit.fails host ·),
      place = host.identity visit.path ∧ visit.referenced host = false := by
  induction visits with
  | nil => cases gone
  | cons visit rest ih =>
    unfold unlinkAll at gone
    split at gone
    · cases gone
    rename_i removed done
    obtain ⟨passes, named⟩ := Visit.unlink_ok done
    rw [List.takeWhile_cons_of_pos (by simp [passes])]
    rcases List.mem_append.mp gone with here | later
    · exact ⟨visit, List.mem_cons_self, named place (Option.mem_toList.mp here)⟩
    · obtain ⟨other, member, found⟩ := ih later
      exact ⟨other, List.mem_cons_of_mem _ member, found⟩

/-- A noncanonical path that raises is the first path that fails, and is below its root. -/
theorem unlinkAll_noncanonical
    (stopped : (unlinkAll host drives visits).2 = some (visit, .noncanonicalCatalogPath)) :
    visits.find? (Visit.fails host) = some visit ∧ visit.inside host = true := by
  induction visits with
  | nil => cases stopped
  | cons first rest ih =>
    unfold unlinkAll at stopped
    split at stopped
    · rename_i error raised
      cases stopped
      obtain ⟨inside, fails⟩ := Visit.unlink_noncanonical raised
      exact ⟨List.find?_cons_of_pos fails, inside⟩
    · rename_i removed done
      rw [List.find?_cons_of_neg (by simp [(Visit.unlink_ok done).1])]
      exact ih stopped

theorem unlinkAll_done (done : (unlinkAll host drives visits).2 = none) :
    visits.find? (Visit.fails host) = none := by
  induction visits with
  | nil => rfl
  | cons first rest ih =>
    unfold unlinkAll at done
    split at done
    · cases done
    · rename_i removed passed
      rw [List.find?_cons_of_neg (by simp [(Visit.unlink_ok passed).1])]
      exact ih done

/-- Working drives stop at the first path that fails. -/
theorem unlinkAll_working (host : Host) (visits : List Visit) :
    (unlinkAll host .working visits).2 = (visits.find? (Visit.fails host)).map fun visit =>
      (visit, if visit.inside host then .noncanonicalCatalogPath else .outsideRoot) := by
  induction visits with
  | nil => rfl
  | cons first rest ih =>
    unfold unlinkAll
    cases fails : first.fails host with
    | true => simp only [Visit.unlink_fails fails, List.find?_cons_of_pos fails, Option.map_some]
    | false =>
      have passes : ¬ first.fails host = true := by simp [fails]
      simp only [Visit.unlink_working fails, List.find?_cons_of_neg passes, ih]

/-- Before they stop, they remove every file that no other row names. -/
theorem unlinkAll_removes {visits : List Visit} (reached : visit ∈ visits.takeWhile (!Visit.fails host ·))
    (free : visit.referenced host = false) :
    host.identity visit.path ∈ (unlinkAll host .working visits).1 := by
  induction visits with
  | nil => cases reached
  | cons first rest ih =>
    cases fails : first.fails host with
    | true => simp [fails] at reached
    | false =>
      rw [List.takeWhile_cons_of_pos (by simp [fails])] at reached
      simp only [unlinkAll, Visit.unlink_working fails]
      rcases List.mem_cons.mp reached with rfl | later
      · simp [free]
      · exact List.mem_append_right _ (ih later)

end Unlinks

end Drivebound.Purging
