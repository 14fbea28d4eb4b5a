import Mathlib.Data.List.Basic
import Drivebound.Catalog

/-! Catalog rows with the paths that they name, and the reference-aware unlink of
`services/lifecycle.py`. A row stores a text; the host resolves it. Two texts name one
file where their resolved paths agree up to `normcase`. -/
namespace Drivebound.Purging

/-- A path of `pathlib` by its parts. -/
abbrev Path := List String

scoped instance : LawfulBEq Path := inferInstance

/-- What `pathlib` and `os.path` make of a text while directories and links stay as they
are. -/
structure Host where
  /-- `Path(text).resolve()` -/
  resolve : String → Path
  /-- `str(path)` -/
  str : Path → String
  /-- `os.path.normcase` of one part. -/
  normcase : String → String
  resolve_str : ∀ text, resolve (str (resolve text)) = resolve text
  resolve_normcase : ∀ text, (resolve (str ((resolve text).map normcase))).map normcase =
    (resolve text).map normcase

namespace Host

variable (host : Host)

/-- The file that a text names. -/
def identity (text : String) : Path := (host.resolve text).map host.normcase

/-- `canonical_storage_path` -/
def canonicalStoragePath (text : String) : String := host.str (host.identity text)

/-- `path.is_relative_to(root)` -/
def isRelativeTo (path root : Path) : Bool :=
  (root.map host.normcase).isPrefixOf (path.map host.normcase)

@[simp] theorem identity_canonical (text : String) :
    host.identity (host.canonicalStoragePath text) = host.identity text := host.resolve_normcase text

@[simp] theorem identity_resolved (text : String) :
    host.identity (host.str (host.resolve text)) = host.identity text := by
  unfold identity
  rw [host.resolve_str]

/-- Texts of one file have one canonical text, and a canonical text names the file of each. -/
theorem canonical_congr {one other : String} (same : host.identity one = host.identity other) :
    host.canonicalStoragePath one = host.canonicalStoragePath other :=
  congrArg host.str same

@[simp] theorem canonical_canonical (text : String) :
    host.canonicalStoragePath (host.canonicalStoragePath text) = host.canonicalStoragePath text :=
  host.canonical_congr (host.identity_canonical text)

@[simp] theorem canonical_resolved (text : String) :
    host.canonicalStoragePath (host.str (host.resolve text)) = host.canonicalStoragePath text :=
  host.canonical_congr (host.identity_resolved text)

end Host

/-- The configured roots, resolved. -/
structure Settings where
  originalsPath : Path
  derivativesPath : Path
  stagingPath : Path
  replicaRootList : List Path

structure UploadSession where
  id : UUID
  userId : UUID
  stagingPath : String
  deriving DecidableEq, Repr

/-- The rows stand in the order of `created_at, id`. -/
structure Catalog where
  assets : List Asset
  replicas : List AssetReplica
  uploads : List UploadSession
  deriving DecidableEq, Repr

namespace Catalog

def dropUpload (catalog : Catalog) (id : UUID) : Catalog :=
  { catalog with uploads := catalog.uploads.filter (·.id ≠ id) }

def dropReplica (catalog : Catalog) (id : UUID) : Catalog :=
  { catalog with replicas := catalog.replicas.filter (·.id ≠ id) }

/-- The row of the asset with all that hangs on it. -/
def dropAsset (catalog : Catalog) (id : UUID) : Catalog :=
  { catalog with
    assets := catalog.assets.filter (·.id ≠ id)
    replicas := catalog.replicas.filter (·.assetId ≠ id) }

def replicasOf (catalog : Catalog) (asset : UUID) : List AssetReplica :=
  catalog.replicas.filter (·.assetId = asset)

end Catalog

/-- A staging path that stands for no file: `value.startswith("duplicate:")`. -/
def isDuplicate (value : String) : Bool := "duplicate:".toList.isPrefixOf value.toList

/-- The path columns of a row that are not null. -/
def assetPaths (asset : Asset) : List String :=
  asset.originalPath :: (asset.thumbnailPath.toList ++ asset.previewPath.toList)

def replicaPaths (replica : AssetReplica) : List String :=
  replica.path :: replica.metadataPath.toList

/-- The rows that a reference check leaves out. -/
structure Excluding where
  asset : Option UUID
  replica : Option UUID
  upload : Option UUID
  deriving DecidableEq, Repr

def Excluding.nothing : Excluding := ⟨none, none, none⟩

def externalOriginals (catalog : Catalog) : List String :=
  (catalog.assets.filter (·.storageSource = .external)).map (·.originalPath)

/-- The path columns of the rows that are not left out. -/
def otherPaths (catalog : Catalog) (excluding : Excluding) : List String :=
  (catalog.assets.filter (some ·.id ≠ excluding.asset)).flatMap assetPaths ++
    (catalog.replicas.filter (some ·.id ≠ excluding.replica)).flatMap replicaPaths ++
    (catalog.uploads.filter (some ·.id ≠ excluding.upload)).map (·.stagingPath)

/-- Exact texts first, then the canonical identities of all columns. -/
def physicalPathHasOtherReference (host : Host) (catalog : Catalog) (path : String)
    (excluding : Excluding) : Bool :=
  (externalOriginals catalog).contains path || (otherPaths catalog excluding).contains path ||
    (externalOriginals catalog).any (fun value =>
      host.canonicalStoragePath value = host.canonicalStoragePath path) ||
    (otherPaths catalog excluding).any (fun value =>
      !isDuplicate value && host.canonicalStoragePath value = host.canonicalStoragePath path)

/-- A text that is not left out protects the file that it names. -/
theorem physicalPathHasOtherReference_of_mem {host : Host} {catalog : Catalog} {path value : String}
    {excluding : Excluding} (other : value ∈ otherPaths catalog excluding)
    (real : isDuplicate value = false) (same : host.identity value = host.identity path) :
    physicalPathHasOtherReference host catalog path excluding = true := by
  have found : (otherPaths catalog excluding).any (fun value => !isDuplicate value &&
      decide (host.canonicalStoragePath value = host.canonicalStoragePath path)) = true := by
    refine List.any_eq_true.mpr ⟨value, other, ?_⟩
    rw [real, host.canonical_congr same]
    simp
  simp only [physicalPathHasOtherReference, found, Bool.or_true]

theorem mem_otherPaths_asset {catalog : Catalog} {excluding : Excluding} {asset : Asset} {value : String}
    (member : asset ∈ catalog.assets) (other : some asset.id ≠ excluding.asset)
    (path : value ∈ assetPaths asset) : value ∈ otherPaths catalog excluding := by
  refine List.mem_append_left _ (List.mem_append_left _ (List.mem_flatMap.mpr ⟨asset, ?_, path⟩))
  exact List.mem_filter.mpr ⟨member, decide_eq_true other⟩

theorem mem_otherPaths_replica {catalog : Catalog} {excluding : Excluding} {replica : AssetReplica}
    {value : String} (member : replica ∈ catalog.replicas) (other : some replica.id ≠ excluding.replica)
    (path : value ∈ replicaPaths replica) : value ∈ otherPaths catalog excluding := by
  refine List.mem_append_left _ (List.mem_append_right _ (List.mem_flatMap.mpr ⟨replica, ?_, path⟩))
  exact List.mem_filter.mpr ⟨member, decide_eq_true other⟩

theorem mem_otherPaths_upload {catalog : Catalog} {excluding : Excluding} {upload : UploadSession}
    (member : upload ∈ catalog.uploads) (other : some upload.id ≠ excluding.upload) :
    upload.stagingPath ∈ otherPaths catalog excluding := by
  refine List.mem_append_right _ (List.mem_map.mpr ⟨upload, ?_, rfl⟩)
  exact List.mem_filter.mpr ⟨member, decide_eq_true other⟩

/-- What an unlink may raise. -/
inductive UnlinkError where
  /-- The `HTTPException` of a path outside its root. -/
  | outsideRoot
  | storageUnavailable
  /-- `ValueError("noncanonical_catalog_path")` -/
  | noncanonicalCatalogPath
  | osError (name : String)
  deriving DecidableEq, Repr

/-- `type(exc).__name__` -/
def UnlinkError.typeName : UnlinkError → String
  | .outsideRoot => "HTTPException"
  | .storageUnavailable => "StorageUnavailableError"
  | .noncanonicalCatalogPath => "ValueError"
  | .osError name => name

/-- How the drives answer for a while. -/
structure Drives where
  /-- `require_storage` finds every approved drive. -/
  ready : Bool
  /-- `require_storage_path` -/
  available : Path → Bool
  /-- What `unlink` raises on a file. -/
  refuses : Path → Option String

/-- Drives that answer and that give up every file. -/
def Drives.working : Drives := ⟨true, fun _ => true, fun _ => none⟩

/-- `validated_storage_path` with the given root, `validated_replica_drive_path` with the
configured ones. -/
def validatedPath (host : Host) (drives : Drives) (roots : List Path) (text : String) :
    Except UnlinkError Path :=
  if roots.any (host.isRelativeTo (host.resolve text)) then
    if drives.available (host.resolve text) then .ok (host.resolve text) else .error .storageUnavailable
  else .error .outsideRoot

/-- `safely_unlink_catalog_path`: the file that is gone afterwards, or `none` where it is
kept for another row. A missing file is no error. -/
def safelyUnlinkCatalogPath (host : Host) (drives : Drives) (catalog : Catalog) (path : String)
    (roots : List Path) (excluding : Excluding) : Except UnlinkError (Option Path) :=
  match validatedPath host drives roots path with
  | .error error => .error error
  | .ok resolved =>
    if host.canonicalStoragePath (host.str resolved) ≠ path then .error .noncanonicalCatalogPath
    else if physicalPathHasOtherReference host catalog path excluding then .ok none
    else if ¬ drives.available resolved then .error .storageUnavailable
    else match drives.refuses resolved with
      | some name => .error (.osError name)
      | none => .ok (some (host.identity path))

end Drivebound.Purging
