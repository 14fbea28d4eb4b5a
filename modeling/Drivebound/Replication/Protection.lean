import Drivebound.Replication.Copying
import Mathlib.Data.List.Dedup
import Mathlib.Data.List.Perm.Basic
import Mathlib.Data.List.Sort

/-! `ensure_asset_replicas`: the drives of an account in the order of their scores, and the copies of
an asset on the first of them. -/
namespace Drivebound.Replication
open Effects Purging

inductive DriveStatus where
  | unknown | online | unavailable | failed
  deriving DecidableEq, Repr

structure StorageDrive where
  id : UUID
  userId : UUID
  name : String
  path : String
  priority : Int
  eligible : Bool
  verificationStatus : DriveStatus
  failureCount : Nat
  lastError : Option String
  lastVerifiedAt : Option Timestamp
  deriving DecidableEq, Repr

inductive ReplicaStatus where
  | verified | failed
  deriving DecidableEq, Repr

/-- `verification_status` is always assigned with `status`. -/
structure Replica where
  id : UUID
  assetId : UUID
  driveId : Option UUID
  path : String
  checksum : String
  metadataPath : Option String
  status : ReplicaStatus
  failureCount : Nat
  lastError : Option String
  verifiedAt : Timestamp
  deriving DecidableEq, Repr

inductive ProtectionStatus where
  | unprotected | protecting | «protected» | degraded | failed
  deriving DecidableEq, Repr

inductive EventDetail where
  | capacity (desired available : Nat)
  | failures (texts : List String)
  | reason (text : String)
  deriving DecidableEq, Repr

/-- An event is added with the severity "warning". -/
structure MonitoringEvent where
  userId : UUID
  assetId : UUID
  kind : String
  message : String
  detail : EventDetail
  deriving DecidableEq, Repr

structure ReplicaTarget where
  id : Option UUID
  name : String
  root : Path
  priority : Int
  deriving DecidableEq, Repr

/-- The session's rows and the files. `protectionStatus` is that of the asset in hand. -/
structure World where
  files : Files
  replicas : List Replica
  drives : List StorageDrive
  protectionStatus : ProtectionStatus
  events : List MonitoringEvent

abbrev Program := Act World ReplicationError

/-- What does not change from run to run. -/
structure Site where
  host : Host
  settings : Settings
  /-- `settings.replica_path.resolve()` -/
  replicaPath : Path
  sha256 : Bytes → String
  /-- `str(id)` -/
  spell : UUID → String
  /-- `str.lower` -/
  lower : String → String
  /-- `str(exc)` -/
  describe : ReplicationError → String

/-- What a run meets. Drives are asked for by `ReplicaTarget.id`. -/
structure Weather where
  storage : Drives
  /-- `root.is_dir() and os.access(root, os.W_OK)` -/
  writable : Path → Bool
  /-- The `used_percent` of `disk_score`, where `disk_usage` answers. -/
  usedPercent : Path → Option Nat
  /-- `source_path_for` finds the path in its root, on an approved drive. -/
  sourceValid : Except ReplicationError Unit
  /-- `source.is_file()` -/
  sourceFile : Bool
  meets : Option UUID → Meets
  /-- What is new in the names of the temporary files, and the id of a new row. -/
  hex : Option UUID → String
  metadataHex : Option UUID → String
  newId : Option UUID → UUID
  now : Timestamp

/-! ### Targets -/

section Targets
variable (site : Site) (weather : Weather)

def checkDrive (drive : StorageDrive) : Except ReplicationError (Option ReplicaTarget) :=
  match validatedPath site.host weather.storage site.settings.replicaRootList drive.path with
  | .error error => .error (.unlink error)
  | .ok root =>
    if weather.writable root then .ok (some ⟨some drive.id, drive.name, root, drive.priority⟩) else .ok none

/-- What a check leaves in the drive's row. -/
def recordCheck (drive : StorageDrive) : StorageDrive :=
  match checkDrive site weather drive with
  | .ok (some _) =>
    { drive with verificationStatus := .online, lastError := none, lastVerifiedAt := some weather.now }
  | .ok none =>
    { drive with
      verificationStatus := .unavailable
      lastError := some "Drive is not a writable directory"
      failureCount := drive.failureCount + 1 }
  | .error error =>
    { drive with
      verificationStatus := .unavailable
      lastError := some ((site.describe error).take 1000).toString
      failureCount := drive.failureCount + 1 }

def isOwn (userId : UUID) (drive : StorageDrive) : Bool := drive.userId = userId && drive.eligible

/-- `disk_score`, compared as Python compares tuples. -/
def scoreLe (a b : ReplicaTarget) : Bool :=
  if a.priority ≠ b.priority then b.priority < a.priority
  else
    let used := (weather.usedPercent a.root).getD 0
    let other := (weather.usedPercent b.root).getD 0
    if used ≠ other then used < other else site.lower a.name ≤ site.lower b.name

def onlineTargets (drives : List StorageDrive) (userId : UUID) : List ReplicaTarget :=
  (drives.filter (isOwn userId)).filterMap fun drive => (checkDrive site weather drive).toOption.join

def rankedTargets (drives : List StorageDrive) (userId : UUID) : List ReplicaTarget :=
  if drives.filter (isOwn userId) = [] then [⟨none, "Primary protection drive", site.replicaPath, 100⟩]
  else (onlineTargets site weather drives userId).insertionSort fun a b => scoreLe site weather a b

def replicaTargets (userId : UUID) : Program (List ReplicaTarget) := do
  demand weather.storage.ready .storageUnavailable
  let w ← get
  if w.drives.filter (isOwn userId) = [] then pure (rankedTargets site weather w.drives userId)
  else
    set { w with
      drives := w.drives.map fun drive => if isOwn userId drive then recordCheck site weather drive else drive }
    demand ((onlineTargets site weather w.drives userId).all fun target => (weather.usedPercent target.root).isSome)
      .osError
    pure (rankedTargets site weather w.drives userId)

end Targets

/-! ### Replicas -/

/-- `path.with_name(...)` -/
def withName (path : Path) (name : String → String) : Path := path.dropLast ++ [name (path.getLastD "")]

section Replicas
variable (site : Site) (weather : Weather) (asset : Asset) (target : ReplicaTarget)

def replicaPathFor : Path :=
  target.root ++ (if asset.encryptionVersion ≠ 0 then [site.spell asset.userId] else []) ++
    [(asset.checksum.take 2).toString, asset.checksum]

/-- The resolved destination. -/
def destinationOf : Path := site.host.resolve (site.host.str (replicaPathFor site asset target))

def sidecarOf : Path :=
  withName (destinationOf site asset target) fun name => name ++ "." ++ site.spell asset.id ++ ".metadata.json"

def placesOf : Places where
  destination := site.host.identity (site.host.str (destinationOf site asset target))
  temporary := site.host.identity (site.host.str (withName (destinationOf site asset target) fun name =>
    "." ++ name ++ "." ++ weather.hex target.id ++ ".replicating"))
  sidecar := site.host.identity (site.host.str (sidecarOf site asset target))
  metadataTemporary := site.host.identity (site.host.str (withName (sidecarOf site asset target) fun name =>
    "." ++ name ++ "." ++ weather.metadataHex target.id ++ ".tmp"))

/-- The row of the asset on the drive, which is at most one. -/
def isRow (replica : Replica) : Bool := replica.assetId = asset.id && replica.driveId = target.id

def verifiedRow (checksum : String) (replica : Replica) : Replica :=
  { replica with
    path := site.host.canonicalStoragePath (site.host.str (destinationOf site asset target))
    checksum
    metadataPath := some (site.host.canonicalStoragePath (site.host.str (sidecarOf site asset target)))
    status := .verified
    failureCount := 0
    lastError := none
    verifiedAt := weather.now }

def newRow (checksum : String) : Replica where
  id := weather.newId target.id
  assetId := asset.id
  driveId := target.id
  path := site.host.canonicalStoragePath (site.host.str (destinationOf site asset target))
  checksum := checksum
  metadataPath := some (site.host.canonicalStoragePath (site.host.str (sidecarOf site asset target)))
  status := .verified
  failureCount := 0
  lastError := none
  verifiedAt := weather.now

def record (checksum : String) (replicas : List Replica) : List Replica :=
  if replicas.any (isRow asset target) then
    replicas.map fun row => if isRow asset target row then verifiedRow site weather asset target checksum row else row
  else replicas ++ [newRow site weather asset target checksum]

def upsertReplica (m : Meets) : Program Unit := do
  let checksum ← zoom World.files (fun w files => { w with files })
    (attempt site.sha256 asset.storageChecksum m (placesOf site weather asset target))
  modify fun w => { w with replicas := record site weather asset target checksum w.replicas }

/-- `str(exc)[:1000]` -/
def errorText (error : ReplicationError) : String := ((site.describe error).take 1000).toString

def refusedDrive (error : ReplicationError) (drive : StorageDrive) : StorageDrive :=
  if some drive.id = target.id then
    { drive with
      failureCount := drive.failureCount + 1
      verificationStatus := .failed
      lastError := some (errorText site error) }
  else drive

def refusedRow (error : ReplicationError) (row : Replica) : Replica :=
  if isRow asset target row then
    { row with status := .failed, failureCount := row.failureCount + 1, lastError := some (errorText site error) }
  else row

/-- One iteration: the number of verified copies, and the failures. -/
def tryTarget (found : Nat × List String) : Program (Nat × List String) :=
  tryCatchThe ReplicationError
    (do
      upsertReplica site weather asset target (weather.meets target.id)
      pure (found.1 + 1, found.2))
    fun error => do
      modify fun w => { w with
        drives := w.drives.map (refusedDrive site target error)
        replicas := w.replicas.map (refusedRow site asset target error) }
      pure (found.1, found.2 ++ [target.name ++ ": " ++ site.describe error])

def tryTargets : Nat × List String → List ReplicaTarget → Program (Nat × List String)
  | found, [] => pure found
  | found, target :: rest => do
    let found ← tryTarget site weather asset target found
    tryTargets found rest

def noteShortfall (desired available : Nat) : Program Unit :=
  if min desired available < desired then
    modify fun w => { w with
      protectionStatus := .degraded
      events := w.events ++ [⟨asset.userId, asset.id, "replica_capacity_shortfall",
        "Fewer eligible replica drives are online than the selected replica policy requires.",
        .capacity desired available⟩] }
  else pure ()

def checkSource : Program Unit :=
  match weather.sourceValid with
  | .error error => throw error
  | .ok _ =>
    if weather.sourceFile then pure ()
    else do
      modify fun w => { w with protectionStatus := .failed }
      throw .fileNotFound

def conclude (desired : Nat) (found : Nat × List String) : Program Nat := do
  modify fun w => { w with
    protectionStatus := if desired ≤ found.1 then .protected else .degraded
    events := if found.2 = [] then w.events else w.events ++ [⟨asset.userId, asset.id,
      "replica_verification_failed", "One or more replica copies could not be verified.", .failures found.2⟩] }
  pure found.1

def ensureAssetReplicas (desired : Nat) : Program Nat := do
  let targets ← replicaTargets site weather asset.userId
  noteShortfall asset desired targets.length
  checkSource weather
  let found ← tryTargets site weather asset (0, []) (targets.take (min desired targets.length))
  conclude asset desired found

end Replicas

/-! ### What the tries come to -/

section Tries
variable (site : Site) (weather : Weather) (asset : Asset)

def placeOf (target : ReplicaTarget) : Path := (placesOf site weather asset target).destination

/-- The try ends with a verified copy and its sidecar. -/
def tryWorks (disk : Disk) (target : ReplicaTarget) : Bool :=
  attemptWorks site.sha256 asset.storageChecksum (weather.meets target.id) (disk (placeOf site weather asset target))

def afterTry (disk : Disk) (target : ReplicaTarget) : Disk :=
  Function.update disk (placeOf site weather asset target)
    (leaves site.sha256 asset.storageChecksum (weather.meets target.id) (disk (placeOf site weather asset target)))

/-- The targets whose tries work, one after the other. -/
def working : Disk → List ReplicaTarget → List ReplicaTarget
  | _, [] => []
  | disk, target :: rest =>
    if tryWorks site weather asset disk target then target :: working (afterTry site weather asset disk target) rest
    else working (afterTry site weather asset disk target) rest

def afterTries (disk : Disk) (targets : List ReplicaTarget) : Disk :=
  targets.foldl (afterTry site weather asset) disk

/-- The drives of the asset's verified rows, and the files that they name. -/
def verifiedPlaces (replicas : List Replica) : List (Option UUID × Path) :=
  (replicas.filter fun row => row.assetId = asset.id && row.status = .verified).map fun row =>
    (row.driveId, site.host.identity row.path)

/-- The different files that verified rows of the asset name and that have its checksum. -/
def held (w : World) : List Path :=
  (((verifiedPlaces site asset w.replicas).filter fun place =>
    good site.sha256 asset.storageChecksum (w.files.disk place.2)).map Prod.snd).dedup

/-- The files of the working tries, and those of drives that are not tried. -/
def standing (disk : Disk) (replicas : List Replica) (tried : List ReplicaTarget) : List Path :=
  ((working site weather asset disk tried).map (placeOf site weather asset) ++
    ((verifiedPlaces site asset replicas).filter fun place => (tried.all fun target => target.id ≠ place.1) &&
      good site.sha256 asset.storageChecksum (afterTries site weather asset disk tried place.2)).map Prod.snd).dedup

/-- The different files that the targets can hold, each tried by itself. -/
def holdable (disk : Disk) (targets : List ReplicaTarget) : List Path :=
  ((targets.filter (tryWorks site weather asset disk)).map (placeOf site weather asset)).dedup

end Tries

section Runs
variable {site : Site} {weather : Weather} {asset : Asset} {target : ReplicaTarget} {found : Nat × List String}
  {w : World}

theorem tryWorks_good {disk : Disk} (works : tryWorks site weather asset disk target = true) :
    good site.sha256 asset.storageChecksum
      (afterTry site weather asset disk target (placeOf site weather asset target)) = true := by
  simp only [tryWorks, attemptWorks, copyWorks, Bool.and_eq_true] at works
  rw [afterTry, Function.update_self]
  exact works.1.2

/-- A file with the checksum keeps it. -/
theorem afterTry_good {disk : Disk} {path : Path}
    (fine : good site.sha256 asset.storageChecksum (disk path) = true) :
    good site.sha256 asset.storageChecksum (afterTry site weather asset disk target path) = true := by
  by_cases same : path = placeOf site weather asset target
  · rw [same] at fine
    rw [same, afterTry, Function.update_self, leaves_of_good fine, fine]
  · rw [afterTry, Function.update_of_ne same, fine]

theorem afterTries_good {targets : List ReplicaTarget} {disk : Disk} {path : Path}
    (fine : good site.sha256 asset.storageChecksum (disk path) = true) :
    good site.sha256 asset.storageChecksum (afterTries site weather asset disk targets path) = true := by
  induction targets generalizing disk with
  | nil => exact fine
  | cons target rest ih => exact ih (afterTry_good fine)

theorem identity_destination : site.host.identity (site.host.canonicalStoragePath
    (site.host.str (destinationOf site asset target))) = placeOf site weather asset target :=
  site.host.identity_canonical _

theorem mem_verifiedPlaces {replicas : List Replica} {place : Option UUID × Path} :
    place ∈ verifiedPlaces site asset replicas ↔ ∃ row ∈ replicas, row.assetId = asset.id ∧ row.status = .verified ∧
      row.driveId = place.1 ∧ site.host.identity row.path = place.2 := by
  simp only [verifiedPlaces, List.mem_map, List.mem_filter, Bool.and_eq_true, decide_eq_true_eq]
  constructor
  · rintro ⟨row, ⟨member, own, verified⟩, rfl⟩
    exact ⟨row, member, own, verified, rfl, rfl⟩
  · rintro ⟨row, member, own, verified, drive, file⟩
    exact ⟨row, ⟨member, own, verified⟩, Prod.ext drive file⟩

theorem isRow_iff {row : Replica} : isRow asset target row = true ↔ row.assetId = asset.id ∧ row.driveId = target.id := by
  simp only [isRow, Bool.and_eq_true, decide_eq_true_eq]

/-- The row of a verified copy replaces what the asset had on the drive. -/
theorem mem_verifiedPlaces_record {replicas : List Replica} {checksum : String} {place : Option UUID × Path} :
    place ∈ verifiedPlaces site asset (record site weather asset target checksum replicas) ↔
      place = (target.id, placeOf site weather asset target) ∨
        place.1 ≠ target.id ∧ place ∈ verifiedPlaces site asset replicas := by
  have made : site.host.identity (site.host.canonicalStoragePath (site.host.str (destinationOf site asset target))) =
      placeOf site weather asset target := identity_destination
  rw [mem_verifiedPlaces, mem_verifiedPlaces, record]
  split
  · next there =>
    constructor
    · rintro ⟨row, member, own, verified, drive, file⟩
      obtain ⟨old, among, rfl⟩ := List.mem_map.mp member
      by_cases mine : isRow asset target old = true
      · rw [if_pos mine] at drive file
        exact .inl (Prod.ext (drive.symm.trans (isRow_iff.mp mine).2) (file.symm.trans made))
      · rw [if_neg mine] at own verified drive file
        refine .inr ⟨fun same => mine (isRow_iff.mpr ⟨own, drive.trans same⟩), old, among, own, verified, drive, file⟩
    · rintro (rfl | ⟨other, row, member, own, verified, drive, file⟩)
      · obtain ⟨row, among, mine⟩ := List.any_eq_true.mp there
        refine ⟨verifiedRow site weather asset target checksum row, ?_, (isRow_iff.mp mine).1, rfl,
          (isRow_iff.mp mine).2, made⟩
        exact List.mem_map.mpr ⟨row, among, if_pos mine⟩
      · have foreign : ¬isRow asset target row = true := fun mine => other (drive.symm.trans (isRow_iff.mp mine).2)
        exact ⟨row, List.mem_map.mpr ⟨row, member, if_neg foreign⟩, own, verified, drive, file⟩
  · next absent =>
    constructor
    · rintro ⟨row, member, own, verified, drive, file⟩
      rcases List.mem_append.mp member with old | new
      · refine .inr ⟨fun same => absent (List.any_eq_true.mpr ⟨row, old, ?_⟩), row, old, own, verified, drive, file⟩
        exact isRow_iff.mpr ⟨own, drive.trans same⟩
      · cases List.mem_singleton.mp new
        exact .inl (Prod.ext drive.symm (file.symm.trans made))
    · rintro (rfl | ⟨-, row, member, own, verified, drive, file⟩)
      · exact ⟨_, List.mem_append_right _ List.mem_cons_self, rfl, rfl, rfl, made⟩
      · exact ⟨row, List.mem_append_left _ member, own, verified, drive, file⟩

/-- After a failure the asset has no verified row on the drive. -/
theorem mem_verifiedPlaces_refused {replicas : List Replica} {error : ReplicationError} {place : Option UUID × Path} :
    place ∈ verifiedPlaces site asset (replicas.map (refusedRow site asset target error)) ↔
      place.1 ≠ target.id ∧ place ∈ verifiedPlaces site asset replicas := by
  rw [mem_verifiedPlaces, mem_verifiedPlaces]
  constructor
  · rintro ⟨row, member, own, verified, drive, file⟩
    obtain ⟨old, among, rfl⟩ := List.mem_map.mp member
    unfold refusedRow at own verified drive file
    by_cases mine : isRow asset target old = true
    · rw [if_pos mine] at verified
      cases verified
    · rw [if_neg mine] at own verified drive file
      exact ⟨fun same => mine (isRow_iff.mpr ⟨own, drive.trans same⟩), old, among, own, verified, drive, file⟩
  · rintro ⟨other, row, member, own, verified, drive, file⟩
    have foreign : ¬isRow asset target row = true := fun mine => other (drive.symm.trans (isRow_iff.mp mine).2)
    exact ⟨row, List.mem_map.mpr ⟨row, member, if_neg foreign⟩, own, verified, drive, file⟩

theorem tryWorks_congr {disk other : Disk}
    (same : disk (placeOf site weather asset target) = other (placeOf site weather asset target)) :
    tryWorks site weather asset disk target = tryWorks site weather asset other target := by
  rw [tryWorks, tryWorks, same]

theorem afterTry_congr {disk other : Disk} {path : Path} (here : disk path = other path)
    (same : disk (placeOf site weather asset target) = other (placeOf site weather asset target)) :
    afterTry site weather asset disk target path = afterTry site weather asset other target path := by
  rw [afterTry, afterTry, same]
  by_cases place : path = placeOf site weather asset target
  · rw [place, Function.update_self, Function.update_self]
  · rw [Function.update_of_ne place, Function.update_of_ne place, here]

/-- What a try has done to the files, if one reads only what can be a replica. -/
theorem afterTry_of_confined {f g : Files} {path : Path}
    (there : g.disk (placeOf site weather asset target) = leaves site.sha256 asset.storageChecksum
      (weather.meets target.id) (f.disk (placeOf site weather asset target)))
    (confined : Confined (Reaches site.sha256 asset.storageChecksum (placesOf site weather asset target)
      (f.disk (placeOf site weather asset target))) f g) (apart : (placesOf site weather asset target).Apart path) :
    g.disk path = afterTry site weather asset f.disk target path := by
  by_cases place : path = placeOf site weather asset target
  · rw [place, there, afterTry, Function.update_self]
  · rw [afterTry, Function.update_of_ne place]
    exact confined.others path fun inside => inside.elim (fun same => place same.1) fun other => other apart

/-- What one try does. -/
structure Tried (site : Site) (weather : Weather) (asset : Asset) (target : ReplicaTarget) (found : Nat × List String)
    (w : World) (found' : Nat × List String) (w' : World) : Prop where
  count : found'.1 = found.1 + if tryWorks site weather asset w.files.disk target then 1 else 0
  files : ∀ path, (placesOf site weather asset target).Apart path →
    w'.files.disk path = afterTry site weather asset w.files.disk target path
  rows : ∀ place, place ∈ verifiedPlaces site asset w'.replicas ↔
    (tryWorks site weather asset w.files.disk target = true ∧ place = (target.id, placeOf site weather asset target)) ∨
      place.1 ≠ target.id ∧ place ∈ verifiedPlaces site asset w.replicas
  confined : Confined (Reaches site.sha256 asset.storageChecksum (placesOf site weather asset target)
    (w.files.disk (placeOf site weather asset target))) w.files w'.files

theorem tryTarget_run (apart : (placesOf site weather asset target).Apart (placeOf site weather asset target)) :
    ∃ found' w', (tryTarget site weather asset target found).run.run w = (.ok found', w') ∧
      Tried site weather asset target found w found' w' := by
  obtain ⟨result, g, ran, outcome, there, confined⟩ :=
    attempt_run site.sha256 asset.storageChecksum (weather.meets target.id) w.files apart
  have upserted : (upsertReplica site weather asset target (weather.meets target.id)).run.run w =
      match result with
      | .ok checksum => (.ok (), { w with
          files := g, replicas := record site weather asset target checksum w.replicas })
      | .error error => (.error error, { w with files := g }) := by
    unfold upsertReplica
    rw [Does.bind_run]
    have zoomed : (zoom World.files (fun w files => { w with files })
        (attempt site.sha256 asset.storageChecksum (weather.meets target.id) (placesOf site weather asset target))).run.run
          w = (result, { w with files := g }) := by
      show ((_, _) : Except ReplicationError String × World) = _
      rw [ran]
    rw [zoomed]
    cases result <;> rfl
  unfold tryTarget
  rw [Does.tryCatch_run, Does.bind_run, upserted]
  cases works : tryWorks site weather asset w.files.disk target with
  | true =>
    have copied : result = .ok asset.storageChecksum := by
      unfold tryWorks placeOf at works
      rwa [works, if_pos rfl] at outcome
    subst copied
    refine ⟨_, _, rfl, ⟨by rw [works]; rfl, fun path clear => afterTry_of_confined there confined clear, fun place => ?_,
      confined⟩⟩
    rw [mem_verifiedPlaces_record, works]
    simp only [true_and]
  | false =>
    obtain ⟨error, rfl⟩ : ∃ error, result = .error error := by
      unfold tryWorks placeOf at works
      rwa [works, if_neg Bool.false_ne_true] at outcome
    refine ⟨_, _, rfl, ⟨by rw [works]; rfl, fun path clear => afterTry_of_confined there confined clear, fun place => ?_,
      confined⟩⟩
    refine mem_verifiedPlaces_refused.trans ?_
    rw [works]
    simp only [Bool.false_eq_true, false_and, false_or]

/-- The files that the tries may change: those beside the replicas, and at the place of a replica
another content. -/
def Unsettled (site : Site) (weather : Weather) (asset : Asset) (targets : List ReplicaTarget) (disk : Disk)
    (path : Path) : Prop :=
  ∃ target ∈ targets, ¬(placesOf site weather asset target).Apart path ∨
    path = placeOf site weather asset target ∧ good site.sha256 asset.storageChecksum (disk path) = false

/-- A try in a later state reaches no further: what is settled has not changed until then. -/
theorem unsettled_of_reaches {targets : List ReplicaTarget} {f g : Files} {path : Path} (member : target ∈ targets)
    (confined : Confined (Unsettled site weather asset targets f.disk) f g)
    (reached : Reaches site.sha256 asset.storageChecksum (placesOf site weather asset target)
      (g.disk (placeOf site weather asset target)) path) : Unsettled site weather asset targets f.disk path := by
  rcases reached with ⟨rfl, bad⟩ | beside
  · by_contra settled
    have same := confined.others _ settled
    unfold placeOf at bad
    rw [same] at bad
    exact settled ⟨target, member, .inr ⟨rfl, bad⟩⟩
  · exact ⟨target, member, .inl beside⟩

theorem tryTargets_confined {all targets : List ReplicaTarget} {f : Files}
    (apart : ∀ target ∈ all, (placesOf site weather asset target).Apart (placeOf site weather asset target))
    (among : ∀ target ∈ targets, target ∈ all)
    (confined : Confined (Unsettled site weather asset all f.disk) f w.files) :
    ∃ found' w', (tryTargets site weather asset found targets).run.run w = (.ok found', w') ∧
      Confined (Unsettled site weather asset all f.disk) f w'.files := by
  induction targets generalizing w found with
  | nil => exact ⟨found, w, rfl, confined⟩
  | cons target rest ih =>
    rw [List.forall_mem_cons] at among
    obtain ⟨middle, u, first, tried⟩ := @tryTarget_run site weather asset target found w (apart target among.1)
    have later := confined.trans (tried.confined.mono fun path => unsettled_of_reaches among.1 confined)
    obtain ⟨found', w', ran, there⟩ := @ih middle u among.2 later
    refine ⟨found', w', ?_, there⟩
    rw [tryTargets, Does.bind_run, first]
    exact ran

/-- What all tries do, seen on files that can be replicas. -/
structure AllTried (site : Site) (weather : Weather) (asset : Asset) (targets : List ReplicaTarget)
    (Real : Path → Prop) (disk : Disk) (found : Nat × List String) (w : World) (found' : Nat × List String)
    (w' : World) : Prop where
  count : found'.1 = found.1 + (working site weather asset disk targets).length
  files : ∀ path, Real path → w'.files.disk path = afterTries site weather asset disk targets path
  rows : ∀ place, place ∈ verifiedPlaces site asset w'.replicas ↔
    (∃ target ∈ working site weather asset disk targets, place = (target.id, placeOf site weather asset target)) ∨
      (∀ target ∈ targets, place.1 ≠ target.id) ∧ place ∈ verifiedPlaces site asset w.replicas

theorem tryTargets_run {Real : Path → Prop} {targets : List ReplicaTarget} {disk : Disk}
    (clear : ∀ target ∈ targets, ∀ path, Real path → (placesOf site weather asset target).Apart path)
    (real : ∀ target ∈ targets, Real (placeOf site weather asset target))
    (agree : ∀ path, Real path → w.files.disk path = disk path) (distinct : (targets.map (·.id)).Nodup) :
    ∃ found' w', (tryTargets site weather asset found targets).run.run w = (.ok found', w') ∧
      AllTried site weather asset targets Real disk found w found' w' := by
  induction targets generalizing w disk found with
  | nil =>
    refine ⟨found, w, rfl, rfl, agree, fun place => ?_⟩
    simp [working]
  | cons target rest ih =>
    rw [List.forall_mem_cons] at clear real
    rw [List.map_cons, List.nodup_cons] at distinct
    obtain ⟨middle, u, first, tried⟩ := @tryTarget_run site weather asset target found w (clear.1 _ real.1)
    have here := agree _ real.1
    have agree' : ∀ path, Real path → u.files.disk path = afterTry site weather asset disk target path :=
      fun path inside => (tried.files path (clear.1 path inside)).trans (afterTry_congr (agree path inside) here)
    obtain ⟨found', w', later, all⟩ := @ih middle u _ clear.2 real.2 agree' distinct.2
    have others : ∀ other ∈ rest, target.id ≠ other.id := fun other member same =>
      distinct.1 (same ▸ List.mem_map_of_mem member)
    refine ⟨found', w', ?_, ?_, all.files, fun place => ?_⟩
    · rw [tryTargets, Does.bind_run, first]
      exact later
    · rw [all.count, tried.count, tryWorks_congr here, working]
      split
      · rw [List.length_cons]
        omega
      · rfl
    · rw [all.rows, tried.rows, tryWorks_congr here, working, List.forall_mem_cons]
      constructor
      · rintro (⟨other, member, same⟩ | ⟨away, ⟨works, rfl⟩ | ⟨foreign, known⟩⟩)
        · refine .inl ⟨other, ?_, same⟩
          split
          · exact List.mem_cons_of_mem _ member
          · exact member
        · exact .inl ⟨target, by rw [if_pos works]; exact List.mem_cons_self, rfl⟩
        · exact .inr ⟨⟨foreign, away⟩, known⟩
      · rintro (⟨other, member, rfl⟩ | ⟨⟨foreign, away⟩, known⟩)
        · split at member
          · next works =>
            rcases List.mem_cons.mp member with rfl | later
            · exact .inr ⟨others, .inl ⟨works, rfl⟩⟩
            · exact .inl ⟨other, later, rfl⟩
          · exact .inl ⟨other, member, rfl⟩
        · exact .inr ⟨away, .inr ⟨foreign, known⟩⟩

theorem working_sublist (disk : Disk) (targets : List ReplicaTarget) :
    (working site weather asset disk targets).Sublist targets := by
  induction targets generalizing disk with
  | nil => exact .slnil
  | cons target rest ih =>
    rw [working]
    split
    · exact (ih _).cons_cons target
    · exact (ih _).cons target

theorem working_good {disk : Disk} {targets : List ReplicaTarget}
    (member : target ∈ working site weather asset disk targets) : good site.sha256 asset.storageChecksum
      (afterTries site weather asset disk targets (placeOf site weather asset target)) = true := by
  induction targets generalizing disk with
  | nil => cases member
  | cons first rest ih =>
    rw [working] at member
    split at member
    · next works =>
      rcases List.mem_cons.mp member with rfl | later
      · have fine := tryWorks_good works
        exact (afterTries_good fine : good _ _ (afterTries site weather asset
          (afterTry site weather asset disk target) rest (placeOf site weather asset target)) = true)
      · exact ih later
    · exact ih member

/-- Lists of different elements with the same members have one length. -/
theorem length_dedup_congr {l l' : List Path} (same : ∀ path, path ∈ l ↔ path ∈ l') :
    l.dedup.length = l'.dedup.length := by
  apply List.Perm.length_eq
  rw [List.perm_ext_iff_of_nodup (List.nodup_dedup l) (List.nodup_dedup l')]
  intro path
  rw [List.mem_dedup, List.mem_dedup, same]

/-- The copies that count after the tries. -/
theorem held_length {Real : Path → Prop} {targets : List ReplicaTarget} {found' : Nat × List String} {w' : World}
    (all : AllTried site weather asset targets Real w.files.disk found w found' w')
    (real : ∀ target ∈ targets, Real (placeOf site weather asset target))
    (named : ∀ place ∈ verifiedPlaces site asset w.replicas, Real place.2) :
    (held site asset w').length = (standing site weather asset w.files.disk w.replicas targets).length := by
  refine length_dedup_congr fun path => ?_
  simp only [List.mem_append, List.mem_map, List.mem_filter, Bool.and_eq_true, List.all_eq_true, decide_eq_true_eq]
  constructor
  · rintro ⟨place, ⟨among, fine⟩, rfl⟩
    rcases (all.rows place).mp among with ⟨target, works, rfl⟩ | ⟨away, known⟩
    · exact .inl ⟨target, works, rfl⟩
    · rw [all.files _ (named place known)] at fine
      exact .inr ⟨place, ⟨known, fun target member same => away target member same.symm, fine⟩, rfl⟩
  · rintro (⟨target, works, rfl⟩ | ⟨place, ⟨known, away, fine⟩, rfl⟩)
    · refine ⟨(target.id, placeOf site weather asset target), ⟨(all.rows _).mpr (.inl ⟨target, works, rfl⟩), ?_⟩, rfl⟩
      rw [all.files _ (real target ((working_sublist _ _).subset works))]
      exact working_good works
    · refine ⟨place, ⟨(all.rows place).mpr (.inr ⟨fun target member same => away target member same.symm, known⟩), ?_⟩,
        rfl⟩
      rw [all.files _ (named place known)]
      exact fine

end Runs

/-! ### When the status is right -/

section Status
variable {site : Site} {weather : Weather} {asset : Asset} {w w' : World} {desired verified : Nat}

/-- The status tells whether enough verified copies are there, and enough are made where the targets
can hold them. -/
structure RightlyProtected (site : Site) (weather : Weather) (asset : Asset) (desired : Nat)
    (targets : List ReplicaTarget) (w w' : World) : Prop where
  exact : w'.protectionStatus = .protected ↔ desired ≤ (held site asset w').length
  reached : desired ≤ (holdable site weather asset w.files.disk targets).length → w'.protectionStatus = .protected

/-- The first targets all work, and their copies make up the number with those of other drives; or
not, and then neither these copies nor those that the targets can hold make it up. -/
def Suffices (site : Site) (weather : Weather) (asset : Asset) (desired : Nat) (targets : List ReplicaTarget)
    (w : World) : Prop :=
  if (working site weather asset w.files.disk (targets.take desired)).length = desired then
    desired ≤ (standing site weather asset w.files.disk w.replicas (targets.take desired)).length
  else
    (standing site weather asset w.files.disk w.replicas (targets.take desired)).length < desired ∧
      (holdable site weather asset w.files.disk targets).length < desired

/-- Nothing that is written beside a replica is at the place of a replica. -/
structure Separate (site : Site) (weather : Weather) (asset : Asset) (targets : List ReplicaTarget)
    (replicas : List Replica) : Prop where
  among : ∀ target ∈ targets, ∀ other ∈ targets,
    (placesOf site weather asset target).Apart (placeOf site weather asset other)
  rows : ∀ target ∈ targets, ∀ place ∈ verifiedPlaces site asset replicas,
    (placesOf site weather asset target).Apart place.2

theorem checkDrive_id {drive : StorageDrive} {target : ReplicaTarget}
    (checked : checkDrive site weather drive = .ok (some target)) : target.id = some drive.id := by
  unfold checkDrive at checked
  split at checked
  · cases checked
  · split at checked
    · cases checked
      rfl
    · cases checked

theorem onlineTargets_sublist (drives : List StorageDrive) (userId : UUID) :
    ((onlineTargets site weather drives userId).map (·.id)).Sublist (drives.map fun drive => some drive.id) := by
  have each : ∀ drives : List StorageDrive,
      ((drives.filterMap fun drive => (checkDrive site weather drive).toOption.join).map (·.id)).Sublist
        (drives.map fun drive => some drive.id) := by
    intro drives
    induction drives with
    | nil => exact .slnil
    | cons drive rest ih =>
      rw [List.filterMap_cons, List.map_cons]
      split
      · exact ih.cons _
      · next target found =>
        have checked : checkDrive site weather drive = .ok (some target) := by
          cases result : checkDrive site weather drive with
          | error => rw [result] at found; cases found
          | ok value =>
            rw [result] at found
            exact congrArg Except.ok found
        rw [List.map_cons, checkDrive_id checked]
        exact ih.cons_cons _
  exact (each _).trans (List.filter_sublist.map _)

theorem rankedTargets_distinct {drives : List StorageDrive} {userId : UUID} (keyed : (drives.map (·.id)).Nodup) :
    ((rankedTargets site weather drives userId).map (·.id)).Nodup := by
  unfold rankedTargets
  split
  · exact List.nodup_singleton _
  · have online : ((onlineTargets site weather drives userId).map (·.id)).Nodup := by
      refine (onlineTargets_sublist drives userId).nodup ?_
      have ids := keyed.map fun (_ _ : UUID) same => Option.some.inj same
      rwa [List.map_map] at ids
    exact ((List.perm_insertionSort _ _).map _).nodup_iff.mpr online

/-- Only rows of drives have changed. -/
def SameButDrives (w u : World) : Prop := ∃ drives, u = { w with drives }

theorem replicaTargets_run {userId : UUID} {result : Except ReplicationError (List ReplicaTarget)}
    (ran : (replicaTargets site weather userId).run.run w = (result, w')) :
    (∀ targets, result = .ok targets → targets = rankedTargets site weather w.drives userId) ∧
      SameButDrives w w' := by
  have does : Does (· = w) (replicaTargets site weather userId)
      (fun targets u => targets = rankedTargets site weather w.drives userId ∧ SameButDrives w u)
      (fun _ u => SameButDrives w u) := by
    apply Does.bind (Does.demand fun _ s (same : s = w) => (⟨w.drives, same⟩ : SameButDrives w s))
    intro _
    apply Does.pull
    intro _
    apply Does.bind (Q := fun a u => a = w ∧ u = w) (Does.get fun s same => ⟨same, same⟩)
    intro a
    apply Does.pull
    rintro rfl
    apply Does.ite
    · intro _
      exact Does.pure fun s same => ⟨rfl, a.drives, same⟩
    · intro _
      apply Does.bind (Q := fun _ u => SameButDrives a u) (Does.set fun s _ => ⟨_, rfl⟩)
      intro _
      refine Does.bind (Does.demand ?_) fun _ => Does.pull fun _ => Does.pure fun s here => ⟨rfl, here⟩
      exact fun _ s here => here
  have done := does w rfl
  rw [ran] at done
  cases result with
  | ok targets =>
    refine ⟨fun targets' same => ?_, done.2⟩
    cases same
    exact done.1
  | error error =>
    refine ⟨fun targets' same => ?_, done⟩
    cases same

/-- Nothing that a try looks at has changed. -/
structure SameRows (w u : World) : Prop where
  files : u.files = w.files
  replicas : u.replicas = w.replicas

theorem noteShortfall_does {available : Nat} {E : ReplicationError → World → Prop} :
    Does (SameRows w) (noteShortfall asset desired available) (fun _ => SameRows w) E := by
  apply Does.ite
  · intro _
    exact Does.modify fun s here => ⟨here.files, here.replicas⟩
  · intro _
    exact Does.pure fun s here => here

theorem checkSource_does {E : ReplicationError → World → Prop} (raised : ∀ e u, SameRows w u → E e u) :
    Does (SameRows w) (checkSource weather) (fun _ => SameRows w) E := by
  unfold checkSource
  cases weather.sourceValid with
  | error error => exact Does.throw fun s here => raised error s here
  | ok _ =>
    apply Does.ite
    · intro _
      exact Does.pure fun s here => here
    · intro _
      apply Does.bind (Q := fun _ => SameRows w)
      · exact Does.modify fun s here => ⟨here.files, here.replicas⟩
      · intro _
        exact Does.throw fun s here => raised .fileNotFound s here

theorem replicaTargets_does {targets : List ReplicaTarget} {E : ReplicationError → World → Prop}
    (ranked : rankedTargets site weather w.drives asset.userId = targets) (raised : ∀ e u, SameRows w u → E e u) :
    Does (· = w) (replicaTargets site weather asset.userId) (fun result u => result = targets ∧ SameRows w u) E := by
  rintro s rfl
  generalize start : (replicaTargets site weather asset.userId).run.run s = started
  obtain ⟨result, u⟩ := started
  obtain ⟨value, drives, rfl⟩ := replicaTargets_run start
  cases result with
  | error error => exact raised error _ ⟨rfl, rfl⟩
  | ok targets' => exact ⟨(value targets' rfl).trans ranked, rfl, rfl⟩

/-- Whether it returns or raises, a run changes no settled file at any moment. -/
theorem ensureAssetReplicas_confined {targets : List ReplicaTarget} {result : Except ReplicationError Nat}
    (ranked : rankedTargets site weather w.drives asset.userId = targets)
    (apart : ∀ target ∈ targets, (placesOf site weather asset target).Apart (placeOf site weather asset target))
    (ran : (ensureAssetReplicas site weather asset desired).run.run w = (result, w')) :
    Confined (Unsettled site weather asset targets w.files.disk) w.files w'.files := by
  let Kept := fun u : World => Confined (Unsettled site weather asset targets w.files.disk) w.files u.files
  have still : ∀ u, SameRows w u → Kept u := fun u same =>
    (congrArg (Confined _ w.files) same.files.symm).mp (.refl _ _)
  have does : Does (· = w) (ensureAssetReplicas site weather asset desired) (fun _ => Kept) (fun _ => Kept) := by
    apply Does.bind (replicaTargets_does ranked fun _ => still)
    intro result
    apply Does.pull
    rintro rfl
    apply Does.bind noteShortfall_does
    intro _
    apply Does.bind (checkSource_does fun _ => still)
    intro _
    apply Does.bind (Q := fun _ => Kept)
    · intro u same
      obtain ⟨found', v, ran, there⟩ := @tryTargets_confined site weather asset (0, []) u result
        (result.take (min desired result.length)) w.files apart (fun target => List.mem_of_mem_take) (still u same)
      rw [ran]
      exact there
    · intro found'
      apply Does.bind (Q := fun _ => Kept)
      · exact Does.modify fun s here => here
      · intro _
        exact Does.pure fun s here => here
  have done := does w rfl
  rw [ran] at done
  cases result <;> exact done

/-- What a run that returns has done. -/
theorem ensureAssetReplicas_does {Real : Path → Prop} {targets : List ReplicaTarget}
    (ranked : rankedTargets site weather w.drives asset.userId = targets)
    (clear : ∀ target ∈ targets, ∀ path, Real path → (placesOf site weather asset target).Apart path)
    (real : ∀ target ∈ targets, Real (placeOf site weather asset target)) (distinct : (targets.map (·.id)).Nodup) :
    Does (· = w) (ensureAssetReplicas site weather asset desired)
      (fun verified w' => (∃ found' u,
        AllTried site weather asset (targets.take desired) Real w.files.disk (0, []) w found' u ∧
          verified = found'.1 ∧ w'.files = u.files ∧ w'.replicas = u.replicas) ∧
        w'.protectionStatus = if desired ≤ verified then .protected else .degraded) (fun _ _ => True) := by
  apply Does.bind (replicaTargets_does ranked fun _ _ _ => trivial)
  intro result
  apply Does.pull
  rintro rfl
  apply Does.bind noteShortfall_does
  intro _
  apply Does.bind (checkSource_does fun _ _ _ => trivial)
  intro _
  have subset : ∀ target ∈ result.take desired, target ∈ result := fun target member => List.mem_of_mem_take member
  rw [← List.take_eq_take_min]
  apply Does.bind (Q := fun found' u => AllTried site weather asset (result.take desired) Real w.files.disk (0, []) w
    found' u)
  · rintro u same
    obtain ⟨found', v, ran, all⟩ := @tryTargets_run site weather asset (0, []) u Real (result.take desired)
      w.files.disk (fun target member => clear target (subset target member))
      (fun target member => real target (subset target member))
      (fun path _ => by rw [same.files]) (distinct.sublist ((List.take_sublist _ _).map _))
    rw [ran]
    exact ⟨all.count, all.files, fun place => by rw [all.rows, same.replicas]⟩
  · intro found'
    apply Does.bind (Q := fun _ w' => (∃ u,
      AllTried site weather asset (result.take desired) Real w.files.disk (0, []) w found' u ∧
        w'.files = u.files ∧ w'.replicas = u.replicas) ∧
      w'.protectionStatus = if desired ≤ found'.1 then .protected else .degraded)
    · exact Does.modify fun s all => ⟨⟨s, all, rfl, rfl⟩, rfl⟩
    · rintro _
      apply Does.pure
      rintro s ⟨⟨u, all, files, replicas⟩, status⟩
      exact ⟨⟨found', u, all, rfl, files, replicas⟩, status⟩

/-- The status after a run is right exactly when the first targets suffice. -/
theorem ensureAssetReplicas_rightly_iff {targets : List ReplicaTarget}
    (ranked : rankedTargets site weather w.drives asset.userId = targets) (keyed : (w.drives.map (·.id)).Nodup)
    (separate : Separate site weather asset targets w.replicas)
    (ran : (ensureAssetReplicas site weather asset desired).run.run w = (.ok verified, w')) :
    RightlyProtected site weather asset desired targets w w' ↔ Suffices site weather asset desired targets w := by
  have distinct : (targets.map (·.id)).Nodup := ranked ▸ rankedTargets_distinct keyed
  let Real : Path → Prop := fun path => ∀ target ∈ targets, (placesOf site weather asset target).Apart path
  have real : ∀ target ∈ targets, Real (placeOf site weather asset target) :=
    fun target member other among => separate.among other among target member
  have done := @ensureAssetReplicas_does site weather asset w desired Real targets ranked
    (fun target member path inside => inside target member) real distinct w rfl
  rw [ran] at done
  obtain ⟨⟨found', u, all, rfl, files, replicas⟩, status⟩ := done
  have count : found'.1 = (working site weather asset w.files.disk (targets.take desired)).length := by
    rw [all.count, Nat.zero_add]
  have bound : found'.1 ≤ desired := by
    rw [count]
    exact Nat.le_trans (working_sublist _ _).length_le (List.length_take_le _ _)
  have same : (held site asset w').length =
      (standing site weather asset w.files.disk w.replicas (targets.take desired)).length := by
    have here := held_length all (fun target member => real target (List.mem_of_mem_take member))
      fun place known target member => separate.rows target member place known
    rwa [held, ← files, ← replicas] at here
  rw [Suffices, ← count]
  by_cases enough : found'.1 = desired
  · rw [if_pos enough]
    have status : w'.protectionStatus = .protected := by rw [status, if_pos (Nat.le_of_eq enough.symm)]
    rw [← same]
    exact ⟨fun right => right.exact.mp status, fun there => ⟨iff_of_true status there, fun _ => status⟩⟩
  · rw [if_neg enough]
    have short : ¬desired ≤ found'.1 := fun le => enough (Nat.le_antisymm bound le)
    have status : w'.protectionStatus ≠ .protected := by
      rw [status, if_neg short]
      exact fun same => ProtectionStatus.noConfusion same
    rw [← same]
    refine ⟨fun right => ⟨Nat.lt_of_not_le fun le => status (right.exact.mpr le),
      Nat.lt_of_not_le fun le => status (right.reached le)⟩, fun few => ⟨?_, fun le => ?_⟩⟩
    · exact iff_of_false status (Nat.not_le_of_lt few.1)
    · exact absurd le (Nat.not_le_of_lt few.2)

end Status

/-! One drive. -/

/-- A host whose paths are their texts. -/
def flatHost : Host where
  resolve text := [text]
  str path := String.intercalate "/" path
  normcase := id
  resolve_str _ := rfl
  resolve_normcase _ := rfl

/-- The digests of "abc" and of the empty file. -/
def oneSite : Site where
  host := flatHost
  settings := ⟨["/o"], ["/d"], ["/s"], [["/r"]]⟩
  replicaPath := ["/r"]
  sha256 bytes := if bytes = [97, 98, 99] then "ba7816bf8f01cfea414140de5dae2223b00361a396177a9cb410ff61f20015ad"
    else "e3b0c44298fc1c149afbf4c8996fb92427ae41e4649b934ca495991b7852b855"
  spell := Nat.repr
  lower := id
  describe _ := "error"

def calmMeets : Meets :=
  ⟨true, true, true, true, true, true, true, .whole [97, 98, 99], true, true, true, true, .whole [123, 125], true⟩

def calmWeather : Weather where
  storage := .working
  writable _ := true
  usedPercent _ := some 10
  sourceValid := .ok ()
  sourceFile := true
  meets _ := calmMeets
  hex _ := "0a"
  metadataHex _ := "0b"
  newId _ := 70
  now := 100

def abcAsset : Asset where
  id := 5
  userId := 7
  logicalId := 5
  version := 1
  lifecycleState := .active
  supersededAt := none
  trashedAt := none
  purgeAfter := none
  deletedBy := none
  originalPath := "/o/ba/ba7816bf8f01cfea414140de5dae2223b00361a396177a9cb410ff61f20015ad"
  checksum := "ba7816bf8f01cfea414140de5dae2223b00361a396177a9cb410ff61f20015ad"
  storageChecksum := "ba7816bf8f01cfea414140de5dae2223b00361a396177a9cb410ff61f20015ad"
  encryptionVersion := 0
  fileSize := 3
  thumbnailPath := none
  previewPath := none
  storageSource := .managed
  originalFilename := none

def bareWorld : World := ⟨⟨fun _ => none, []⟩, [], [], .protecting, []⟩

def primary : ReplicaTarget := ⟨none, "Primary protection drive", ["/r"], 100⟩

instance (p : Places) : DecidablePred p.Apart := fun path =>
  decidable_of_iff (path ≠ p.temporary ∧ path ≠ p.sidecar ∧ path ≠ p.metadataTemporary)
    ⟨fun parts => ⟨parts.1, parts.2.1, parts.2.2⟩, fun apart => ⟨apart.temporary, apart.sidecar, apart.metadataTemporary⟩⟩

instance (site : Site) (weather : Weather) (asset : Asset) (desired : Nat) (targets : List ReplicaTarget) (w : World) :
    Decidable (Suffices site weather asset desired targets w) := inferInstanceAs (Decidable (ite _ _ _))

theorem primary_is_protected : ∃ verified w',
    (ensureAssetReplicas oneSite calmWeather abcAsset 1).run.run bareWorld = (.ok verified, w') ∧
      RightlyProtected oneSite calmWeather abcAsset 1 [primary] bareWorld w' := by
  have returns : ((ensureAssetReplicas oneSite calmWeather abcAsset 1).run.run bareWorld).1.toOption = some 1 := by
    decide +kernel
  generalize ran : (ensureAssetReplicas oneSite calmWeather abcAsset 1).run.run bareWorld = ended at returns
  obtain ⟨result, w'⟩ := ended
  cases result with
  | error error => cases returns
  | ok verified =>
    have separate : Separate oneSite calmWeather abcAsset [primary] bareWorld.replicas :=
      ⟨by decide +kernel, by decide +kernel⟩
    have enough : Suffices oneSite calmWeather abcAsset 1 [primary] bareWorld := by decide +kernel
    have keyed : (bareWorld.drives.map (·.id)).Nodup := List.nodup_nil
    exact ⟨verified, w', rfl, (ensureAssetReplicas_rightly_iff rfl keyed separate ran).mpr enough⟩

theorem primary_is_confined : Confined (Unsettled oneSite calmWeather abcAsset [primary] bareWorld.files.disk)
    bareWorld.files ((ensureAssetReplicas oneSite calmWeather abcAsset 1).run.run bareWorld).2.files :=
  ensureAssetReplicas_confined rfl (by decide +kernel) Prod.mk.eta.symm

end Drivebound.Replication
