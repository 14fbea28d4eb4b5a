import Drivebound.Core.Run
import Drivebound.Desktop.Client
import Drivebound.Sync.Requests

/-! Desktop clients on one root. The endpoints read the root without a lock; a
pull then reads a page of the journal, a push waits for the root's lock and
commits. A request outlives the client that sent it: a push can commit after its
client stopped, and an answer can be lost. -/
namespace Drivebound.Desktop
open Sync

/-- A push that the server has accepted and not yet committed. -/
structure Flight (ι : Type) where
  client : ι
  clientId : String
  inputs : List (SyncOperationInput × FreshIds)
  /-- The cursor of the root instance that `owned_root` loaded. -/
  loaded : Nat
  /-- The client still waits for the answer. -/
  live : Bool
  deriving DecidableEq, Repr

structure Network (ι π : Type) where
  db : SyncDb
  machines : ι → Machine π
  flights : List (Flight ι)

inductive NetLabel (ι π : Type) where
  | client (i : ι) (label : Label π)
  | readRoot (i : ι)
  | readPage (i : ι)
  | push (i : ι) (inputs : List (SyncOperationInput × FreshIds)) (proposed : Dict UUID Proposal)
  | commit (index : Nat) (now : Timestamp)
  | drop (index : Nat)
  deriving DecidableEq, Repr

/-- The steps a client takes without an answer of the server. -/
def Label.internal : Label π → Bool
  | .readRoot _ | .readPage _ _ | .readPushRoot _ _ _ | .answerPush _ => false
  | .load _ _ | .examine | .unlink | .deliver _ | .finishPull | .save | .skipPush | .acknowledge
  | .stop | .edit _ _ => true

variable {ι π : Type} [DecidableEq ι] [DecidableEq π]

namespace Network

def setMachine (s : Network ι π) (i : ι) (m : Machine π) : Network ι π :=
  { s with machines := Function.update s.machines i m }

/-- A client that stops, or starts anew, no longer waits for its push. -/
def release (s : Network ι π) (i : ι) : Label π → Network ι π
  | .stop | .load _ _ =>
    { s with
      flights := s.flights.map fun flight =>
        if flight.client = i then { flight with live := false } else flight }
  | _ => s

/-- The answer of a push, where its client still waits for it. -/
def answer (s : Network ι π) (env : Env π) (flight : Flight ι) (label : Label π) :
    Network ι π :=
  if flight.live then
    match Desktop.step env (s.machines flight.client) label with
    | some m => s.setMachine flight.client m
    | none => s
  else s

def step (env : Env π) (s : Network ι π) : NetLabel ι π → Option (Network ι π)
  | .client i label =>
    if label.internal then
      (Desktop.step env (s.machines i) label).map ((s.release i label).setMachine i)
    else none
  | .readRoot i =>
    (Desktop.step env (s.machines i) (.readRoot s.db.root.cursor)).map (s.setMachine i)
  | .readPage i =>
    match (s.machines i).process with
    | .asked memory _ =>
      let page := s.db.page memory.state.cursor
      (Desktop.step env (s.machines i) (.readPage page s.db.openConflicts)).map (s.setMachine i)
    | _ => none
  | .push i inputs proposed =>
    match (s.machines i).process with
    | .pulled memory =>
      let flight : Flight ι :=
        { client := i, clientId := memory.state.clientId, inputs
          loaded := s.db.root.cursor, live := true }
      let label := .readPushRoot (inputs.map Prod.fst) proposed s.db.root.cursor
      (Desktop.step env (s.machines i) label).map fun m =>
        { s.setMachine i m with flights := s.flights ++ [flight] }
    | _ => none
  | .commit index now =>
    match s.flights[index]? with
    | none => none
    | some flight =>
      let s := { s with flights := s.flights.eraseIdx index }
      match applyOperations s.db flight.loaded flight.clientId flight.inputs now with
      | .ok b =>
        let result : PushResult :=
          { cursor := b.cursor, operations := b.operations
            conflicts := b.conflicts.map SyncConflict.id }
        some ({ s with db := b.db }.answer env flight (.answerPush result))
      | .error _ => some (s.answer env flight .stop)
  | .drop index =>
    match s.flights[index]? with
    | none => none
    | some flight =>
      some ({ s with flights := s.flights.eraseIdx index }.answer env flight .stop)

end Network

end Drivebound.Desktop
