import Drivebound.Core.Dict
import Drivebound.Sync.Journal

/-! `tools/drivebound_sync.py`: what one run of the desktop client does to the
folder and to its state. A run loads the state file, pulls, pushes its local
changes and saves; the server's answers and the user's edits are labels. An
exception or a crash loses what was not saved. -/
namespace Drivebound.Desktop
open Sync

/-- A regular file of the folder. -/
structure LocalFile where
  content : List UInt8
  mtimeNs : Nat
  deriving DecidableEq, Repr

structure Fingerprint where
  size : Nat
  mtimeNs : Nat
  checksum : Option String
  deriving DecidableEq, Repr

structure Entry where
  relativePath : String
  revision : Option String
  fingerprint : Fingerprint
  uploadId : Option UUID := none
  pendingFingerprint : Option Fingerprint := none
  deriving DecidableEq, Repr

/-- A record of `state["conflicts"]`; an absent key is `none`. -/
structure LocalConflict where
  logicalId : Option UUID := none
  operationId : Option UUID := none
  status : Option OperationStatus := none
  serverConflictId : Option UUID := none
  message : String
  deriving DecidableEq, Repr

structure ClientState where
  clientId : String
  rootId : Option UUID
  cursor : Nat
  entries : Dict UUID Entry
  conflicts : List LocalConflict
  /-- The `client_sequence` of each recent operation. -/
  recentOperations : List Nat
  deriving DecidableEq, Repr

/-- `state_template`, with the client id that it draws. -/
def stateTemplate (drawn : String) : ClientState where
  clientId := drawn
  rootId := none
  cursor := 0
  entries := []
  conflicts := []
  recentOperations := []

/-- The folder's path algebra and the digest. -/
structure Env (π : Type) where
  /-- `(folder / relative_path).resolve()`; names the file that is opened too. -/
  resolve : String → π
  /-- `is_relative_to(folder.resolve())` -/
  inside : π → Bool
  sha256 : List UInt8 → String

variable {π : Type} [DecidableEq π]

abbrev Folder (π : Type) := Dict π LocalFile

def LocalFile.fingerprint (file : LocalFile) (checksum : Option String) : Fingerprint :=
  { size := file.content.length, mtimeNs := file.mtimeNs, checksum }

/-- The size and the modification time are the recorded ones. -/
def Entry.matches (entry : Entry) (file : LocalFile) : Prop :=
  file.content.length = entry.fingerprint.size ∧ file.mtimeNs = entry.fingerprint.mtimeNs

instance (entry : Entry) : DecidablePred entry.matches := fun file =>
  inferInstanceAs (Decidable (file.content.length = entry.fingerprint.size ∧ _))

def unchangedFromState (env : Env π) (folder : Folder π) (entry : Entry) : Bool :=
  (folder.get? (env.resolve entry.relativePath)).any (entry.matches ·)

/-- What `pull_remote` decides for one operation before it touches a file. -/
inductive Plan (π : Type) where
  /-- The operation is this client's own or is not applied. -/
  | passed
  /-- A delete of an item the client does not track. -/
  | untracked
  /-- No path or url, or a path that leaves the folder: nothing is recorded. -/
  | ignored
  | conflict (message : String)
  | unlink (path : π)
  | download (relativePath : String) (destination : π)
  deriving DecidableEq, Repr

/-- A remote delete of the item that the client tracks as `current`. -/
def planDelete (env : Env π) (folder : Folder π) (current : Option Entry) : Plan π :=
  match current with
  | none => .untracked
  | some entry =>
    if unchangedFromState env folder entry then .unlink (env.resolve entry.relativePath)
    else .conflict "Remote delete was not applied because the local file changed."

/-- A remote upsert or move of the item that the client tracks as `current`. -/
def planContent (env : Env π) (folder : Folder π) (current : Option Entry) (payload : Payload) :
    Plan π :=
  match payload.relativePath, payload.originalUrl with
  | some relativePath, some _ =>
    if !env.inside (env.resolve relativePath) then .ignored
    else if current.any fun entry => !unchangedFromState env folder entry then
      .conflict "Remote change was not applied because the local file changed."
    else .download relativePath (env.resolve relativePath)
  | _, _ => .ignored

def plan (env : Env π) (folder : Folder π) (state : ClientState) (operation : SyncOperation) :
    Plan π :=
  if operation.status ≠ .applied ∨ operation.clientId = state.clientId then .passed
  else
    match operation.kind with
    | .delete => planDelete env folder (state.entries.get? operation.logicalId)
    | .upsert | .move =>
      planContent env folder (state.entries.get? operation.logicalId) operation.payload

def ClientState.addConflict (state : ClientState) (operation : SyncOperation)
    (message : String) : ClientState :=
  { state with
    conflicts := state.conflicts ++
      [{ logicalId := some operation.logicalId
         operationId := some operation.operationId, message }] }

/-- The entry a completed download records. -/
def ClientState.recordDownload (env : Env π) (state : ClientState) (operation : SyncOperation)
    (relativePath : String) (file : LocalFile) : ClientState :=
  { state with
    entries := state.entries.set operation.logicalId
      { relativePath, revision := operation.revision
        fingerprint := file.fingerprint (some (env.sha256 file.content)) } }

/-- The end of `pull_remote`: the cursor and the server's open conflicts. -/
def ClientState.finishPull (state : ClientState) (cursor : Nat) (conflicts : List UUID) :
    ClientState :=
  { state with
    cursor := max state.cursor cursor
    conflicts := conflicts.foldl
      (fun known id =>
        if known.any (fun conflict => conflict.serverConflictId = some id) then known
        else
          known ++ [{ serverConflictId := some id
                      message := "Resolve this conflict in Drivebound before the two " ++
                        "versions can converge." }])
      state.conflicts }

/-- A value of `proposed`, keyed by the operation id. -/
inductive Proposal where
  | move (logicalId : UUID) (entry : Entry)
  | upsert (logicalId : UUID) (entry : Entry)
  | delete (logicalId : UUID)
  deriving DecidableEq, Repr

def Proposal.logicalId : Proposal → UUID
  | .move logicalId _ | .upsert logicalId _ | .delete logicalId => logicalId

structure PushResult where
  cursor : Nat
  operations : List SyncOperation
  conflicts : List UUID
  deriving DecidableEq, Repr

/-- One iteration of `apply_push_result`. -/
def acknowledgeOne (proposed : Dict UUID Proposal) (state : ClientState)
    (operation : SyncOperation) : ClientState :=
  match proposed.get? operation.operationId with
  | none => state
  | some proposal =>
    if operation.status ≠ .applied then
      { state with
        conflicts := state.conflicts ++
          [{ operationId := some operation.operationId, logicalId := some proposal.logicalId
             status := some operation.status
             message := "Server kept both sides until you choose a resolution." }] }
    else
      match proposal with
      | .delete logicalId => { state with entries := state.entries.pop logicalId }
      | .move logicalId entry | .upsert logicalId entry =>
        { state with
          entries := state.entries.set logicalId
            { entry with
              revision := operation.revision, uploadId := none, pendingFingerprint := none } }

/-- `apply_push_result` and the cursor that `main` stores after it. -/
def applyPushResult (state : ClientState) (operations : List SyncOperationInput)
    (proposed : Dict UUID Proposal) (result : PushResult) : ClientState :=
  let state := result.operations.foldl (acknowledgeOne proposed) state
  { state with
    recentOperations :=
      (operations.drop (operations.length - 20)).map SyncOperationInput.clientSequence
    cursor := max state.cursor result.cursor }

/-- The state in memory with its history: the operations `pull_remote` has dealt
with and how. The history is no part of the state file. -/
structure Memory (π : Type) where
  state : ClientState
  handled : List (SyncOperation × Plan π)
  deriving DecidableEq, Repr

inductive Process (π : Type) where
  | stopped
  | ready (memory : Memory π)
  /-- The server has read the root of the pull. -/
  | asked (memory : Memory π) (cursor : Nat)
  | pulling (memory : Memory π) (pending : List SyncOperation) (cursor : Nat)
      (conflicts : List UUID)
  /-- The guard of a delete has passed; the file at `path` is to be unlinked. -/
  | unlinking (memory : Memory π) (operation : SyncOperation) (path : π)
      (pending : List SyncOperation) (cursor : Nat) (conflicts : List UUID)
  /-- The guard of the first pending operation has passed. -/
  | downloading (memory : Memory π) (operation : SyncOperation) (relativePath : String)
      (destination : π) (pending : List SyncOperation) (cursor : Nat) (conflicts : List UUID)
  | pulled (memory : Memory π)
  /-- The server has read the root of the push. -/
  | pushing (memory : Memory π) (operations : List SyncOperationInput)
      (proposed : Dict UUID Proposal) (loaded : Nat)
  | answered (memory : Memory π) (operations : List SyncOperationInput)
      (proposed : Dict UUID Proposal) (result : PushResult)
  | acknowledged (memory : Memory π)
  deriving DecidableEq, Repr

/-- The folder, the state file and the running client. -/
structure Machine (π : Type) where
  folder : Folder π
  /-- The state file. Before there is one, the template that the last run has drawn. -/
  saved : Memory π
  /-- There is a state file. -/
  filed : Bool
  /-- History: the client ids under which the runs of this folder have gone. -/
  names : List String
  process : Process π
  deriving DecidableEq, Repr

inductive Label (π : Type) where
  | load (rootId : UUID) (drawn : String)
  | readRoot (cursor : Nat)
  | readPage (operations : List SyncOperation) (conflicts : List UUID)
  | examine
  | unlink
  | deliver (file : LocalFile)
  | finishPull
  | save
  /-- There is nothing to push. -/
  | skipPush
  | readPushRoot (operations : List SyncOperationInput) (proposed : Dict UUID Proposal)
      (cursor : Nat)
  | answerPush (result : PushResult)
  | acknowledge
  | stop
  | edit (path : π) (file : Option LocalFile)
  deriving DecidableEq, Repr

def Memory.handle (memory : Memory π) (operation : SyncOperation) (how : Plan π)
    (state : ClientState) : Memory π :=
  { state, handled := memory.handled ++ [(operation, how)] }

/-- `load_state`: without a state file, a template under a new client id. -/
def Machine.loadState (m : Machine π) (drawn : String) : Machine π :=
  if m.filed then m
  else { m with saved := ⟨stateTemplate drawn, []⟩, names := m.names ++ [drawn] }

omit [DecidableEq π] in
theorem Machine.loadState_filed {m : Machine π} (filed : m.filed = true) (drawn : String) :
    m.loadState drawn = m := if_pos filed

omit [DecidableEq π] in
@[simp] theorem Machine.loadState_folder (m : Machine π) (drawn : String) :
    (m.loadState drawn).folder = m.folder := by
  unfold loadState
  split <;> rfl

omit [DecidableEq π] in
@[simp] theorem Machine.loadState_filing (m : Machine π) (drawn : String) :
    (m.loadState drawn).filed = m.filed := by
  unfold loadState
  split <;> rfl

/-- One iteration of the loop of `pull_remote` up to its change of the folder. -/
def examine (env : Env π) (folder : Folder π) (memory : Memory π) (operation : SyncOperation)
    (pending : List SyncOperation) (cursor : Nat) (conflicts : List UUID) : Process π :=
  let state := memory.state
  let how := plan env folder state operation
  let next (state : ClientState) : Process π :=
    .pulling (memory.handle operation how state) pending cursor conflicts
  match how with
  | .passed | .untracked | .ignored => next state
  | .conflict message => next (state.addConflict operation message)
  | .unlink path => .unlinking memory operation path pending cursor conflicts
  | .download relativePath destination =>
    .downloading memory operation relativePath destination pending cursor conflicts

def step (env : Env π) (m : Machine π) : Label π → Option (Machine π)
  | .load rootId drawn =>
    match m.process with
    | .stopped =>
      let m := m.loadState drawn
      some { m with
        process := .ready { m.saved with
          state := { m.saved.state with rootId := some rootId } } }
    | _ => none
  | .readRoot cursor =>
    match m.process with
    | .ready memory => some { m with process := .asked memory cursor }
    | _ => none
  | .readPage operations conflicts =>
    match m.process with
    | .asked memory cursor => some { m with process := .pulling memory operations cursor conflicts }
    | _ => none
  | .examine =>
    match m.process with
    | .pulling memory (operation :: pending) cursor conflicts =>
      some { m with process := examine env m.folder memory operation pending cursor conflicts }
    | _ => none
  | .unlink =>
    match m.process with
    | .unlinking memory operation path pending cursor conflicts =>
      let state := { memory.state with entries := memory.state.entries.pop operation.logicalId }
      some { m with
        folder := m.folder.pop path
        process := .pulling (memory.handle operation (.unlink path) state) pending cursor conflicts }
    | _ => none
  | .deliver file =>
    match m.process with
    | .downloading memory operation relativePath destination pending cursor conflicts =>
      let state := memory.state.recordDownload env operation relativePath file
      let memory := memory.handle operation (.download relativePath destination) state
      some { m with
        folder := m.folder.set destination file
        process := .pulling memory pending cursor conflicts }
    | _ => none
  | .finishPull =>
    match m.process with
    | .pulling memory [] cursor conflicts =>
      some { m with
        process := .pulled { memory with state := memory.state.finishPull cursor conflicts } }
    | _ => none
  | .save =>
    match m.process with
    -- An upload session is written to the state file between the pull and the push.
    | .pulled memory => some { m with saved := memory, filed := true }
    | .acknowledged memory =>
      some { m with saved := memory, filed := true, process := .stopped }
    | _ => none
  | .skipPush =>
    match m.process with
    | .pulled memory => some { m with process := .acknowledged memory }
    | _ => none
  | .readPushRoot operations proposed cursor =>
    match m.process with
    | .pulled memory => some { m with process := .pushing memory operations proposed cursor }
    | _ => none
  | .answerPush result =>
    match m.process with
    | .pushing memory operations proposed _ =>
      some { m with process := .answered memory operations proposed result }
    | _ => none
  | .acknowledge =>
    match m.process with
    | .answered memory operations proposed result =>
      let state := applyPushResult memory.state operations proposed result
      some { m with process := .acknowledged { memory with state } }
    | _ => none
  | .stop => some { m with process := .stopped }
  | .edit path file =>
    some { m with
      folder := match file with
        | none => m.folder.pop path
        | some file => m.folder.set path file }

end Drivebound.Desktop
