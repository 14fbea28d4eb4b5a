import Drivebound.Cleanup.Worker
import Drivebound.Core.Run
import Drivebound.Purging.Assets
import Mathlib

/-! `process_account_deletion_batch` with the files that it unlinks, and
`sweep_account_namespaces`. A batch has the job and the rows to itself; drives may answer as
they like in every iteration, and the database or the worker may fail after any unlink. -/
namespace Drivebound.Purging
open Cleanup (AccountDeletionJob Point)
open Run (run)

structure Config where
  host : Host
  storage : Settings
  jobs : Cleanup.Settings

structure State where
  catalog : Catalog
  disk : Disk
  users : List UUID
  job : AccountDeletionJob

section Sweep

variable (config : Config) (drives : Drives) (catalog : Catalog) (disk : Disk)

/-- `_canonical_live_paths` -/
def canonicalLivePaths : List String :=
  ((otherPaths catalog .nothing).filter (!isDuplicate ·)).map config.host.canonicalStoragePath

/-- The directories below the derivatives root, links to directories among them. -/
def derivativeKinds : List Path :=
  if disk.isDir config.host config.storage.derivativesPath then
    (disk.directories ++ disk.links).filter fun kind =>
      kind.dropLast = config.storage.derivativesPath ∧ disk.isDir config.host kind
  else []

/-- The namespaces of a subject with the roots that their files have to be below. -/
def namespaces (subject : UUID) : List (Path × List Path) :=
  let storage := config.storage
  (storage.originalsPath ++ [toString subject], [storage.originalsPath]) ::
    ((derivativeKinds config disk).filter (· ∉ disk.links)).map
      (fun kind => (kind ++ [toString subject], [storage.derivativesPath])) ++
    (storage.stagingPath ++ [toString subject], [storage.stagingPath]) ::
    storage.replicaRootList.map fun root => (root ++ [toString subject], storage.replicaRootList)

/-- The entries below a namespace, the deepest first. -/
def candidates (space : Path) : List Path :=
  ((disk.files ++ disk.links ++ disk.directories).filter fun entry =>
    space.isPrefixOf entry ∧ entry ≠ space).insertionSort fun one other => other.length ≤ one.length

/-- The loop over the entries of a namespace: what is unlinked, and the number of retained
entries unless something raises. Directories that are empty go as well. -/
def sweepEntries (space : Path) (roots : List Path) : List Path → List Path × Except UnlinkError Nat
  | [] => ([], .ok 0)
  | entry :: rest =>
    let host := config.host
    let later := sweepEntries space roots rest
    if entry ∈ disk.links ∨ ¬ host.isRelativeTo (host.identity (host.str entry)) space then
      (later.1, later.2.map (· + 1))
    else if disk.hasFile host (host.str entry) then
      let canonical := host.canonicalStoragePath (host.str entry)
      if canonical ∈ canonicalLivePaths config catalog then (later.1, later.2.map (· + 1))
      else match safelyUnlinkCatalogPath host drives catalog canonical roots .nothing with
        | .error error => ([], .error error)
        | .ok none => (later.1, later.2.map (· + 1))
        | .ok (some gone) => (gone :: later.1, later.2)
    else if drives.available entry then later
    else ([], .error .storageUnavailable)

def sweepNamespace (space : Path) (roots : List Path) : List Path × Except UnlinkError Nat :=
  let host := config.host
  if ¬ drives.available (host.resolve (host.str space)) then ([], .error .storageUnavailable)
  else if ¬ (disk.hasFile host (host.str space) ∨ disk.isDir host space) then ([], .ok 0)
  else if ¬ disk.isDir host space then ([], .ok 1)
  else if space ∈ disk.links ∨ host.identity (host.str space) ≠ space.map host.normcase then
    ([], .ok 1)
  else sweepEntries config drives catalog disk space roots (candidates disk space)

def sweepNamespaces : List (Path × List Path) → List Path × Except UnlinkError Nat
  | [] => ([], .ok 0)
  | (space, roots) :: rest =>
    match sweepNamespace config drives catalog disk space roots with
    | (gone, .error error) => (gone, .error error)
    | (gone, .ok retained) =>
      let later := sweepNamespaces rest
      (gone ++ later.1, later.2.map (· + retained))

/-- `sweep_account_namespaces` -/
def sweepAccountNamespaces (subject : UUID) : List Path × Except UnlinkError Nat :=
  if ¬ drives.ready then ([], .error .storageUnavailable)
  else
    let swept := sweepNamespaces config drives catalog disk (namespaces config disk subject)
    (swept.1, swept.2.map (· + ((derivativeKinds config disk).filter (· ∈ disk.links)).length))

end Sweep

/-- Where an iteration is cut short: after so many unlinks, by an exception of the database
that is handled, or by the end of the worker. -/
structure Cut where
  after : Nat
  code : Option String
  deriving DecidableEq, Repr

/-- What one iteration of the loop meets. -/
structure Pass where
  drives : Drives
  previewFirst : Bool
  /-- The seconds since the iteration before. -/
  elapsed : Nat
  cut : Option Cut

/-- What `process_account_deletion_batch` returns; `died` where it does not. -/
inductive Answer where
  | stale | retry | manualReview | completed | pending | died
  deriving DecidableEq, Repr

/-- How the body of the `try` ends. -/
inductive Ending where
  | purged (catalog : Catalog) (job : AccountDeletionJob)
  | retained (count : Nat)
  | reviewed (job : AccountDeletionJob)
  | completed (catalog : Catalog) (users : List UUID) (job : AccountDeletionJob)
  | raised (code : String)

def nextUpload (catalog : Catalog) (user : UUID) : Option UploadSession :=
  catalog.uploads.find? (·.userId = user)

def nextAsset (catalog : Catalog) (user : UUID) : Option Asset :=
  catalog.assets.find? (·.userId = user)

section Batch

variable (config : Config)

def purgeUpload (drives : Drives) (now : Timestamp) (st : State) (upload : UploadSession) :
    List Path × Ending :=
  match unlinkAll config.host drives (uploadVisits config.storage st.catalog upload) with
  | (gone, some (_, error)) => (gone, .raised error.typeName)
  | (gone, none) =>
    (gone, .purged (st.catalog.dropUpload upload.id)
      { st.job.renewed config.jobs now with uploadsPurged := st.job.uploadsPurged + 1 })

def purgeAsset (pass : Pass) (now : Timestamp) (st : State) (asset : Asset) : List Path × Ending :=
  match unlinkAll config.host pass.drives
      (stagedVisits config.host config.storage st.disk st.catalog asset) with
  | (staged, some (_, error)) => (staged, .raised error.typeName)
  | (staged, none) =>
    match safelyPurgeAsset config.host config.storage pass.drives pass.previewFirst now st.catalog asset with
    | (gone, .purged) =>
      (staged ++ gone, .purged (st.catalog.dropAsset asset.id)
        { st.job.renewed config.jobs now with assetsPurged := st.job.assetsPurged + 1 })
    | (gone, .retained _) => (staged ++ gone, .retained 1)
    | (gone, .deferred _ _) | (gone, .notDue) => (staged ++ gone, .raised "asset_cleanup_deferred")
    | (gone, .unavailable) => (staged ++ gone, .raised UnlinkError.storageUnavailable.typeName)

/-- The finalization; the counts find nothing, as no one else writes rows. -/
def finalize (drives : Drives) (now : Timestamp) (st : State) (user : UUID) : List Path × Ending :=
  match sweepAccountNamespaces config drives st.catalog st.disk user with
  | (gone, .error error) => (gone, .raised error.typeName)
  | (gone, .ok 0) =>
    (gone, .completed
      { st.catalog with
        assets := st.catalog.assets.filter (·.userId ≠ user)
        uploads := st.catalog.uploads.filter (·.userId ≠ user) }
      (st.users.filter (· ≠ user)) (st.job.completed now))
  | (gone, .ok (retained + 1)) =>
    (gone, .reviewed (st.job.reviewed now (retained + 1) "account_namespace_requires_review"))

/-- The body of the `try`. -/
def attempt (pass : Pass) (now : Timestamp) (st : State) (user : UUID) : List Path × Ending :=
  if ¬ pass.drives.ready then ([], .raised UnlinkError.storageUnavailable.typeName)
  else match nextUpload st.catalog user with
    | some upload => purgeUpload config pass.drives now st upload
    | none => match nextAsset st.catalog user with
      | some asset => purgeAsset config pass now st asset
      | none => finalize config pass.drives now st user

/-- The rows after a rollback, and the job written under a new select of it. -/
def resolveState (now : Timestamp) (token : UUID) (st : State) (point : Point) : Option State :=
  if point.matches token st.job then
    (Cleanup.resolveJob config.jobs now token st.job point).map fun job => { st with job }
  else none

def State.unlink (st : State) (gone : List Path) : State :=
  { st with disk := st.disk.unlink config.host gone }

/-- The handler of an exception. -/
def fail (now : Timestamp) (token : UUID) (st : State) (code : String) : State × Option Answer :=
  match resolveState config now token st (.failed code) with
  | some failed => (failed, some .retry)
  | none => (st, some .stale)

/-- What is committed when the body of the `try` has ended like this. -/
def conclude (now : Timestamp) (token : UUID) (st : State) : Ending → State × Option Answer
  | .purged catalog job => ({ st with catalog, job }, none)
  | .retained count =>
    match resolveState config now token st (.retained count) with
    | some reviewed => (reviewed, some .manualReview)
    | none => (st, some .stale)
  | .reviewed job => ({ st with job }, some .manualReview)
  | .completed catalog users job => ({ st with catalog, users, job }, some .completed)
  | .raised code => fail config now token st code

/-- One iteration of the loop; without an answer it goes on. -/
def iteration (now : Timestamp) (token : UUID) (st : State) (pass : Pass) : State × Option Answer :=
  if st.job.leaseToken ≠ some token then (st, some .stale)
  else match st.job.subjectId with
    | none => (st, some .stale)
    | some user =>
      let (gone, ending) := attempt config pass now st user
      match pass.cut with
      | none => conclude config now token (st.unlink config gone) ending
      | some ⟨after, some code⟩ => fail config now token (st.unlink config (gone.take after)) code
      | some ⟨after, none⟩ => (st.unlink config (gone.take after), some .died)

/-- `process_account_deletion_batch`, with one pass for each iteration. -/
def processAccountDeletionBatch (token : UUID) : Timestamp → State → List Pass → State × Answer
  | now, st, [] =>
    match resolveState config now token st .closing with
    | some closed => (closed, .pending)
    | none => (st, .pending)
  | now, st, pass :: rest =>
    match iteration config (now + pass.elapsed) token st pass with
    | (next, none) => processAccountDeletionBatch token (now + pass.elapsed) next rest
    | (next, some answer) => (next, answer)

end Batch

/-- A delivery of `cleanup_account_deletion`. -/
structure Batch where
  now : Timestamp
  token : UUID
  passes : List Pass

def claim (config : Config) (st : State) (batch : Batch) : Option AccountDeletionJob :=
  Cleanup.claimAccountDeletionJob config.jobs batch.now batch.token st.job

/-- A job that cannot be claimed is skipped. -/
def step (config : Config) (st : State) (batch : Batch) : Option State :=
  if batch.passes.length ≠ config.jobs.batchSize then none
  else match claim config st batch with
    | none => some st
    | some job =>
      some (processAccountDeletionBatch config batch.token batch.now { st with job } batch.passes).1

end Drivebound.Purging
