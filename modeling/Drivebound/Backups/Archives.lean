import Drivebound.Core.Effects
import Drivebound.Core.Rows
import Mathlib.Data.Int.Init
import Mathlib.Logic.Function.Basic

/-! `services/operational_backups.py`: the archives of one pass of `backup_operational_state`,
which creates, verifies and prunes them. What fails is told by the pass itself. -/
namespace Drivebound.Backups
open Effects

abbrev Path := String

abbrev Content := List UInt8

/-- Microseconds. -/
abbrev Time := Int

inductive Kind where
  | database
  | configuration
deriving DecidableEq

inductive Status where
  | created
  | failed
deriving DecidableEq

inductive VerificationStatus where
  | pending
  | verified
  | failed
deriving DecidableEq

structure BackupArchive where
  kind : Kind
  path : Path
  checksum : String
  sizeBytes : Nat
  status : Status
  verificationStatus : VerificationStatus
  createdAt : Time
deriving DecidableEq

/-- The table under its unique paths, and the files. -/
structure State where
  archives : List BackupArchive
  keyed : (archives.map (·.path)).Nodup
  files : Path → Option Content

structure Settings where
  databaseBackupEnabled : Bool
  databaseBackupInterval : Time
  databaseBackupRetention : Time

/-- The steps of a pass, in their order. -/
inductive Step where
  | configuration
  | database
  | verification
  | pruning
deriving DecidableEq

/-- What `pg_dump` makes of it; a dump that failed may have left something. -/
inductive Dump where
  | finished (content : Content) (hashed : Bool)
  | failed (partial_ : Option Content)

/-- What a pass finds in its surroundings. -/
structure Pass where
  /-- `func.now()` of its transaction. -/
  createdAt : Time
  clock : Step → Time
  /-- `require_storage("backups")` -/
  storage : Step → Bool
  /-- `validated_backup_path` -/
  validated : Step → Path → Bool
  /-- The file can be read, and does not change meanwhile. -/
  readable : Step → Path → Bool
  /-- The format of the archive is verified: `pg_restore --list` for a dump. -/
  restores : Step → Path → Bool
  /-- `_same_configuration_snapshot` -/
  sameConfiguration : Content → Bool
  snapshotPath : Path
  /-- The snapshot, where it can be written. -/
  snapshot : Option Content
  dumpPath : Path
  dump : Dump
  unlinks : Path → Bool
  commits : Bool

inductive Fault where
  | storageUnavailable
  | osError
  | uniqueViolation
  | rolledBack
deriving DecidableEq

abbrev Session := Act State Fault

namespace State

def write (s : State) (path : Path) (content : Option Content) : State :=
  { s with files := Function.update s.files path content }

def mark (archive : BackupArchive) (status : VerificationStatus) : BackupArchive :=
  { archive with verificationStatus := status }

/-- The verification of the archive under a path. -/
def verify (s : State) (path : Path) (status : VerificationStatus) : State where
  archives := s.archives.map fun archive => if archive.path = path then mark archive status else archive
  keyed := by
    have same : ((·.path) ∘ fun archive : BackupArchive => if archive.path = path then mark archive status else archive) =
        (·.path) := by
      funext archive
      dsimp only [Function.comp_apply]
      split
      · rfl
      · rfl
    rw [List.map_map, same]
    exact s.keyed
  files := s.files

def insert (s : State) (archive : BackupArchive) (fresh : ∀ other ∈ s.archives, other.path ≠ archive.path) : State where
  archives := s.archives ++ [archive]
  keyed := Rows.nodup_map_append s.keyed fresh
  files := s.files

def delete (s : State) (path : Path) : State where
  archives := s.archives.filter (·.path ≠ path)
  keyed := s.keyed.sublist (List.filter_sublist.map _)
  files := s.files

end State

section Passes
variable (digest : Content → String) (settings : Settings) (pass : Pass)

def requireStorage (step : Step) : Session Unit :=
  if pass.storage step then pure () else throw .storageUnavailable

/-- `session.add` and the flush behind it. -/
def addArchive (archive : BackupArchive) : Session Unit := do
  let s ← get
  if fresh : ∀ other ∈ s.archives, other.path ≠ archive.path then set (s.insert archive fresh)
  else throw .uniqueViolation

/-- `order_by(created_at.desc()).limit(1)` -/
def latestOf (kind : Kind) (archives : List BackupArchive) : Option BackupArchive :=
  (archives.filter (·.kind = kind)).foldl
    (fun latest archive =>
      match latest with
      | some best => if best.createdAt < archive.createdAt then some archive else some best
      | none => some archive)
    none

/-- `check_archive_bytes`: the bytes are the ones of the row. -/
def matchesRow (content : Content) (archive : BackupArchive) : Bool :=
  content.length = archive.sizeBytes && digest content = archive.checksum

def checkArchive (step : Step) (files : Path → Option Content) (archive : BackupArchive) : Bool :=
  pass.validated step archive.path && pass.readable step archive.path &&
    (files archive.path).any (matchesRow digest · archive) && pass.restores step archive.path

/-- `revalidate_archive`, which raises nothing. -/
def revalidateArchive (step : Step) (archive : BackupArchive) : Session Bool := do
  let s ← get
  let ok := checkArchive digest pass step s.files archive
  set (s.verify archive.path (if ok then .verified else .failed))
  return ok

/-- The latest snapshot is kept where it is still the same. -/
def configurationKept (files : Path → Option Content) (latest : BackupArchive) : Bool :=
  pass.clock .configuration - settings.databaseBackupRetention ≤ latest.createdAt && latest.status = .created &&
    latest.verificationStatus = .verified && pass.validated .configuration latest.path &&
    (files latest.path).any fun content => digest content = latest.checksum && pass.sameConfiguration content

def writeConfiguration : Session Unit :=
  match pass.snapshot with
  | none => throw .osError
  | some document => do
    modify (·.write pass.snapshotPath (some document))
    addArchive {
      kind := .configuration
      path := pass.snapshotPath
      checksum := digest document
      sizeBytes := document.length
      status := .created
      verificationStatus := .verified
      createdAt := pass.createdAt }

/-- Reading the latest snapshot may raise. -/
def createConfigurationBackup : Session Unit := do
  requireStorage pass .configuration
  let s ← get
  match latestOf .configuration s.archives with
  | none => writeConfiguration digest pass
  | some latest =>
    if (s.files latest.path).isSome ∧ pass.readable .configuration latest.path = false then throw .osError
    else if configurationKept digest settings pass s.files latest then pure ()
    else writeConfiguration digest pass

def failedDump : Session Unit :=
  if pass.unlinks pass.dumpPath then do
    modify (·.write pass.dumpPath none)
    addArchive {
      kind := .database
      path := pass.dumpPath
      checksum := String.ofList (List.replicate 64 '0')
      sizeBytes := 0
      status := .failed
      verificationStatus := .failed
      createdAt := pass.createdAt }
  else throw .osError

def writeDump : Session Unit :=
  match pass.dump with
  | .failed left => do
    modify (·.write pass.dumpPath left)
    failedDump pass
  | .finished content hashed => do
    modify (·.write pass.dumpPath (some content))
    if hashed then
      addArchive {
        kind := .database
        path := pass.dumpPath
        checksum := digest content
        sizeBytes := content.length
        status := .created
        verificationStatus := .pending
        createdAt := pass.createdAt }
    else failedDump pass

/-- A recent dump is used again where its archive is still good. -/
def isRecent (latest : BackupArchive) : Bool :=
  latest.status = .created && latest.verificationStatus ≠ .failed &&
    pass.clock .database < latest.createdAt + settings.databaseBackupInterval

def createDatabaseBackup : Session Unit := do
  requireStorage pass .database
  if settings.databaseBackupEnabled = false then pure ()
  else do
    let s ← get
    match (latestOf .database s.archives).filter (isRecent settings pass) with
    | none => writeDump digest pass
    | some latest => do
      let ok ← revalidateArchive digest pass .database latest
      if ok then pure () else writeDump digest pass

def revalidateAll : List BackupArchive → Session Unit
  | [] => pure ()
  | archive :: rest => do
    let _ ← revalidateArchive digest pass .verification archive
    revalidateAll rest

def verifyOperationalBackups : Session Unit := do
  requireStorage pass .verification
  let s ← get
  revalidateAll digest pass (s.archives.filter (·.status = .created))

def cutoff : Time := pass.clock .pruning - settings.databaseBackupRetention

/-- What cannot be unlinked is left for the next pass. -/
def pruneArchive (archive : BackupArchive) : Session Unit :=
  if pass.validated .pruning archive.path ∧ pass.unlinks archive.path then
    modify fun s => (s.write archive.path none).delete archive.path
  else pure ()

def pruneAll : List BackupArchive → Session Unit
  | [] => pure ()
  | archive :: rest => do
    pruneArchive pass archive
    pruneAll rest

def pruneOperationalBackups : Session Unit := do
  requireStorage pass .pruning
  let s ← get
  pruneAll pass (s.archives.filter (·.createdAt < cutoff settings pass))

def commit : Session Unit := if pass.commits then pure () else throw .rolledBack

/-- The body of `backup_operational_state`. -/
def backup : Session Unit := do
  createConfigurationBackup digest settings pass
  createDatabaseBackup digest settings pass
  verifyOperationalBackups digest pass
  pruneOperationalBackups settings pass
  commit pass

/-- What was done to the rows is taken back where the pass raises, what was done to the files is not. -/
def backupOperationalState (s : State) : State :=
  match (backup digest settings pass).run.run s with
  | (.ok _, t) => t
  | (.error _, t) => { s with files := t.files }

end Passes

end Drivebound.Backups
