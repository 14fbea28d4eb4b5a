import Drivebound.Mobile.Queue
import Drivebound.Uploads.Session

/-! `mobile/src/backup.ts`: backup runs of the phone against the upload API. A
worker is one call of `runBackup`; it awaits one response at a time, updates the
queue under its owner name and may fail, lose a response or be killed anywhere.
What it does with a response is the pure function `react`. -/
namespace Drivebound.Mobile
open Uploads

structure TransferFailure where
  message : String
  retryable : Bool
  pauseQueue : Bool
  authenticationFailure : Bool := false
  deriving DecidableEq, Repr

/-- `UploadSession` of `backup.ts`, without its offset. -/
structure Target where
  id : UUID
  totalSize : Nat
  chunkSize : Nat
  deriving DecidableEq, Repr

/-- The request that the worker makes next or awaits. -/
inductive Job where
  | resume (id : UUID) (fileSize : Nat)
  | create (fileSize : Nat)
  | append (session : Target) (offset : Nat)
  /-- HEAD after a 409 with this detail. -/
  | reconcile (session : Target) (offset : Nat) (conflict : Option String)
  deriving DecidableEq, Repr

inductive Worker where
  | stopped
  | looping (scope : String)
  /-- The loop was left; `finally` is ahead. -/
  | closing (scope : String)
  | claimed (record : Transfer)
  | working (record : Transfer) (job : Job) (awaits : Option Nat)
  deriving DecidableEq, Repr

structure World where
  requests : Requests
  queue : Queue
  workers : String → Worker

def requireSuccessfulResponse (code : Nat) (detail : Option String) (fallback : String) :
    TransferFailure :=
  let message := detail.getD fallback
  if code = 401 ∨ code = 403 then
    { message := message ++ ". Reconnect this phone in Drivebound settings."
      retryable := false, pauseQueue := true, authenticationFailure := true }
  else if code = 408 ∨ code = 429 ∨ 500 ≤ code then
    { message, retryable := true, pauseQueue := true }
  else { message, retryable := false, pauseQueue := false }

/-- The upload session is given up. -/
def forget : Changes :=
  { uploadId := some none, offset := some 0, chunkSize := some none }

def completion (offset : Nat) : Changes :=
  { state := some .complete, offset := some offset, attempts := some 0, retryAt := some 0
    lastError := some none, leaseOwner := some none, leaseExpiresAt := some 0 }

/-- The `catch` of `runBackup`. -/
def caught (record : Transfer) (failure : TransferFailure) (now delay : Nat) : Changes :=
  let attempts := record.attempts + 1
  let permanentlyFailed := !failure.retryable || 8 ≤ attempts
  { attempts := some attempts
    state := some (if permanentlyFailed then .failed else .retry)
    retryAt := some (if permanentlyFailed then 0 else now + delay)
    lastError := some (some (String.ofList (failure.message.toList.take 240)))
    leaseOwner := some none, leaseExpiresAt := some 0 }

inductive Reaction where
  | goOn (changes : Option Changes) (job : Job)
  | skip (changes : Changes)
  | throw (changes : Option Changes) (failure : TransferFailure)
  deriving DecidableEq, Repr

/-- The HEAD of `resumeOrCreate`: only an active session of this size is resumed. -/
def resumeOrCreate (record : Transfer) (id : UUID) (fileSize : Nat) (upload : UploadSession) :
    Reaction :=
  if upload.status = .active ∧ upload.totalSize = fileSize ∧ upload.offset ≤ upload.totalSize then
    let chunkSize := record.chunkSize.getD (8 * 1024 * 1024)
    .goOn (some { offset := some upload.offset, chunkSize := some (some chunkSize) })
      (.append ⟨id, upload.totalSize, chunkSize⟩ upload.offset)
  else .goOn (some forget) (.create fileSize)

/-- A response to the PATCH at `offset`. -/
def advanceOffset (session : Target) (offset nextOffset now : Nat) : Reaction :=
  if nextOffset ≤ offset ∨ session.totalSize < nextOffset then
    .throw none
      { message := "The server returned an invalid upload offset"
        retryable := true, pauseQueue := true }
  else
    .goOn (some { offset := some nextOffset, leaseExpiresAt := some (now + transferLeaseMs) })
      (.append session nextOffset)

def react (record : Transfer) (now : Nat) : Job → Answer → Option Reaction
  | .resume id fileSize, .status upload => some (resumeOrCreate record id fileSize upload)
  | .resume _ fileSize, .error code detail =>
    if code = 404 ∨ code = 410 then some (.goOn (some forget) (.create fileSize))
    else
      some (.throw none
        (requireSuccessfulResponse code detail ("Could not resume " ++ record.filename)))
  | .create fileSize, .created upload chunkSize duplicate =>
    if duplicate then some (.skip (completion fileSize))
    else
      some (.goOn
        (some { uploadId := some (some upload.id), offset := some upload.offset
                chunkSize := some (some chunkSize) })
        (.append ⟨upload.id, upload.totalSize, chunkSize⟩ upload.offset))
  | .create _, .error code detail =>
    some (.throw none
      (requireSuccessfulResponse code detail ("Could not start backup for " ++ record.filename)))
  | .append session offset, .appended upload _ _ =>
    some (advanceOffset session offset upload.offset now)
  | .append session offset, .error code detail =>
    if code = 409 then some (.goOn none (.reconcile session offset detail))
    else if code = 404 ∨ code = 410 then
      some (.throw (some forget)
        { message := "The upload session expired and will restart"
          retryable := true, pauseQueue := false })
    else
      some (.throw none
        (requireSuccessfulResponse code detail ("Backup interrupted for " ++ record.filename)))
  | .reconcile session _ conflict, .status upload =>
    if upload.offset ≤ session.totalSize then
      some (.goOn (some { offset := some upload.offset, lastError := some none })
        (.append session upload.offset))
    else
      some (.throw none
        (requireSuccessfulResponse 409 conflict ("Backup interrupted for " ++ record.filename)))
  | .reconcile _ _ _, .error code detail =>
    some (.throw none
      (requireSuccessfulResponse code detail ("Could not reconcile " ++ record.filename)))
  | _, _ => none

/-- The phone sends no checksum when it creates a session. -/
def Job.request (user : UUID) (body : Bytes) : Job → Request
  | .resume id _ => .head user id
  | .create fileSize => .create user none fileSize
  | .append session offset => .append user session.id offset body
  | .reconcile session _ _ => .head user session.id

/-- The chunk read for a PATCH; a file that got shorter yields less. -/
def Job.sends (body : Bytes) : Job → Bool
  | .append session offset =>
    offset < session.totalSize ∧ body.length ≤ min session.chunkSize (session.totalSize - offset)
  | _ => body = []

inductive Label where
  /-- The server works on a request, of this phone or of another client. -/
  | server (q : Nat) (action : Action)
  | openDatabase
  | enqueue (input : NewTransfer) (now : Nat)
  | retryFailed (scope : String) (now : Nat)
  | cancelPending (scope : String)
  | begin (owner scope : String) (now : Nat)
  | renewRun (owner scope : String) (now : Nat)
  | renewLease (owner version : String) (now : Nat)
  | claim (owner : String) (now : Nat)
  | prepare (owner : String) (fileSize now : Nat)
  | send (owner : String) (q : Nat) (user : UUID) (body : Bytes) (now : Nat)
  | receive (owner : String) (now delay : Nat)
  /-- The backup policy blocks the next chunk. -/
  | block (owner blocker : String) (now : Nat)
  | complete (owner : String) (now : Nat)
  | fail (owner : String) (failure : TransferFailure) (now delay : Nat)
  | stop (owner : String) (now : Nat)
  | kill (owner : String)
  deriving DecidableEq, Repr

namespace World

def set (w : World) (owner : String) (queue : Queue) (worker : Worker) : World :=
  { w with queue, workers := Function.update w.workers owner worker }

/-- `updateTransfer` under the owner's name, and the worker goes on. -/
def updateTransfer (w : World) (owner : String) (record : Transfer) (changes : Changes)
    (now : Nat) (worker : Worker) : World :=
  w.set owner (w.queue.updateTransfer record.localVersion changes owner now).1 worker

/-- The worker catches the failure of a transfer. -/
def catch_ (w : World) (owner : String) (record : Transfer) (failure : TransferFailure)
    (now delay : Nat) : World :=
  w.updateTransfer owner record (caught record failure now delay) now
    (if failure.pauseQueue || failure.authenticationFailure then .closing record.connectionScope
      else .looping record.connectionScope)

end World

/-- `none` where the ownership of the run or of the transfer has expired. -/
def keepAlive (queue : Queue) (record : Transfer) (owner : String) (now : Nat) : Option Queue :=
  (queue.renewBackupRun record.connectionScope owner now).bind fun renewed =>
    match renewed.renewTransferLease record.localVersion owner now with
    | (kept, true) => some kept
    | (_, false) => none

/-- The queue after the worker's next request was sent. -/
def beforeSend (queue : Queue) (record : Transfer) (owner : String) (now : Nat) :
    Job → Option Queue
  | .append _ _ => keepAlive queue record owner now
  | _ => some queue

def applyReaction (w : World) (owner : String) (record : Transfer) (now delay : Nat) :
    Reaction → World
  | .goOn none job => w.set owner w.queue (.working record job none)
  | .goOn (some changes) job =>
    w.updateTransfer owner record changes now (.working record job none)
  | .skip changes =>
    w.updateTransfer owner record changes now (.looping record.connectionScope)
  | .throw none failure => w.catch_ owner record failure now delay
  | .throw (some changes) failure =>
    (w.updateTransfer owner record changes now (.looping record.connectionScope)).catch_
      owner record failure now delay

/-- `uploadTransfer` up to its first request. -/
def prepare (w : World) (owner : String) (record : Transfer) (fileSize now : Nat) : Option World :=
  (keepAlive w.queue record owner now).map fun alive =>
    { w with queue := alive }.updateTransfer owner record
      { lastError := some none, fileSize := some fileSize } now
      (.working record (match record.uploadId with
        | some id => .resume id fileSize
        | none => .create fileSize) none)

def step (env : Env) (w : World) : Label → Option World
  | .server q action => (Uploads.step env w.requests (q, action)).map fun requests =>
    { w with requests }
  | .openDatabase => some { w with queue := w.queue.openDatabase }
  | .enqueue input now => some { w with queue := w.queue.enqueueTransfer input now }
  | .retryFailed scope now => some { w with queue := w.queue.retryFailedTransfers scope now }
  | .cancelPending scope => some { w with queue := w.queue.cancelPendingTransfers scope }
  | .begin owner scope now =>
    match w.workers owner with
    | .stopped => (w.queue.acquireBackupRun scope owner now).map (w.set owner · (.looping scope))
    | _ => none
  | .renewRun owner scope now => (w.queue.renewBackupRun scope owner now).map fun queue =>
    { w with queue }
  | .renewLease owner version now =>
    some { w with queue := (w.queue.renewTransferLease version owner now).1 }
  | .claim owner now =>
    match w.workers owner with
    | .looping scope =>
      match w.queue.claimNextTransfer scope owner now with
      | (queue, none) => some (w.set owner queue (.closing scope))
      | (queue, some record) => some (w.set owner queue (.claimed record))
    | _ => none
  | .prepare owner fileSize now =>
    match w.workers owner with
    | .claimed record => prepare w owner record fileSize now
    | _ => none
  | .send owner q user body now =>
    match w.workers owner with
    | .working record job none =>
      if job.sends body then
        (beforeSend w.queue record owner now job).bind fun queue =>
          (Uploads.step env w.requests (q, .receive (job.request user body))).map fun requests =>
            { w with requests }.set owner queue (.working record job (some q))
      else none
    | _ => none
  | .receive owner now delay =>
    match w.workers owner with
    | .working record job (some q) =>
      match w.requests.locals q with
      | .answered answer => (react record now job answer).map (applyReaction w owner record now delay)
      | _ => none
    | _ => none
  | .block owner blocker now =>
    match w.workers owner with
    | .working record (.append session offset) none =>
      if offset < session.totalSize then
        some (w.updateTransfer owner record
          { state := some .retry, offset := some offset, retryAt := some 0
            lastError := some (some blocker), leaseOwner := some none, leaseExpiresAt := some 0 }
          now (.closing record.connectionScope))
      else none
    | _ => none
  | .complete owner now =>
    match w.workers owner with
    | .working record (.append session offset) none =>
      if session.totalSize ≤ offset then
        some (w.updateTransfer owner record (completion offset) now
          (.looping record.connectionScope))
      else none
    | _ => none
  | .fail owner failure now delay =>
    match w.workers owner with
    | .claimed record | .working record _ _ => some (w.catch_ owner record failure now delay)
    | _ => none
  | .stop owner now =>
    match w.workers owner with
    | .stopped => none
    | .looping scope | .closing scope =>
      some (w.set owner (w.queue.releaseBackupRun scope owner now) .stopped)
    | .claimed record | .working record _ _ =>
      some (w.set owner (w.queue.releaseBackupRun record.connectionScope owner now) .stopped)
  | .kill owner => some (w.set owner w.queue .stopped)

end Drivebound.Mobile
