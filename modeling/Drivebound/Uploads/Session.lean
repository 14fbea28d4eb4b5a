import Drivebound.Catalog
import Drivebound.Core.Dict
import Drivebound.Core.Sessions

/-! `api/v1/uploads.py`: upload sessions and the requests that act on them. A
request is a session of the store; `append_upload` works on the row under its
lock and commits the new offset before it finalizes, so that finalization runs
without the lock. A retry that finds all bytes stored keeps the row locked a
while longer in the source; giving the lock up earlier only adds interleavings. -/
namespace Drivebound.Uploads
open Sessions

abbrev Bytes := List UInt8

structure UploadSession where
  id : UUID
  userId : UUID
  totalSize : Nat
  offset : Nat
  expectedChecksum : Option String
  status : UploadStatus
  expiresAt : Timestamp
  deriving DecidableEq, Repr

/-- The row that `create_upload` adds. -/
def UploadSession.opened (id user : UUID) (totalSize : Nat) (expectedChecksum : Option String)
    (expiresAt : Timestamp) : UploadSession :=
  { id, userId := user, totalSize, offset := 0, expectedChecksum, status := .active, expiresAt }

@[simp] theorem UploadSession.opened_offset (id user : UUID) (totalSize : Nat)
    (expectedChecksum : Option String) (expiresAt : Timestamp) :
    (UploadSession.opened id user totalSize expectedChecksum expiresAt).offset = 0 := rfl

structure Env where
  sha256 : Bytes → String
  maxUploadSize : Nat
  uploadSessionHours : Nat
  resumableChunkSize : Nat

structure Server where
  uploads : Dict UUID UploadSession
  /-- The `.resumable` file of an upload session. -/
  staged : UUID → Option Bytes
  assets : List Asset
  /-- History: the committed asset that was returned for an upload session. -/
  finalized : List (UUID × UUID)

inductive Request where
  | create (user : UUID) (checksum : Option String) (totalSize : Nat)
  | head (user id : UUID)
  | append (user id : UUID) (offset : Nat) (body : Bytes)
  deriving DecidableEq, Repr

/-- A response. `detail` is absent where the body's `detail` is not a string. -/
inductive Answer where
  | error (code : Nat) (detail : Option String)
  /-- The row whose offset, size and status the headers carry. -/
  | status (upload : UploadSession)
  | created (upload : UploadSession) (chunkSize : Nat) (duplicate : Bool)
  | appended (upload : UploadSession) (asset : Option UUID) (duplicate : Bool)
  deriving DecidableEq, Repr

inductive Handler where
  | idle
  | received (request : Request)
  | locked (user id : UUID) (offset : Nat) (body : Bytes)
  /-- The row as loaded; so many bytes of the body are written behind its offset. -/
  | writing (upload : UploadSession) (body : Bytes) (written : Nat)
  /-- Every byte is stored; finalization is ahead. -/
  | stored (upload : UploadSession)
  | rejected (upload : UploadSession)
  | hashed (upload : UploadSession) (checksum : String)
  | persisted (upload : UploadSession) (asset : UUID) (duplicate : Bool)
  | answered (answer : Answer)
  /-- The process died or the response was lost. -/
  | lost
  deriving DecidableEq, Repr

inductive LockKey where
  | upload (id : UUID)
  deriving DecidableEq, Repr

/-- Why `persist_managed_asset` failed, by errno. -/
inductive DriveError where
  | noSpace | notWritable | unsupported | other
  deriving DecidableEq, Repr

inductive Action where
  | receive (request : Request)
  | create (id : UUID) (now : Timestamp)
  | read
  | lockUpload
  | check (now : Timestamp)
  /-- The next bytes of the body arrive. -/
  | chunk (count : Nat)
  | endBody
  | hash
  | unlinkRejected
  /-- `persist_managed_asset` moves or removes the staged file. -/
  | consume
  | persist (asset : Asset)
  | failPersist (error : DriveError) (exception : String)
  | complete
  /-- Any other exception: its transaction is rolled back. -/
  | refuse (code : Nat) (detail : Option String)
  | crash
  deriving DecidableEq, Repr

def UploadStatus.text : UploadStatus → String
  | .active => "active"
  | .complete => "complete"
  | .expired => "expired"
  | .failed => "failed"

def DriveError.reason : DriveError → String
  | .noSpace => "The destination drive is full. Free space and retry."
  | .notWritable =>
    "The destination drive could not be written. Check its permissions and that it is writable."
  | .unsupported =>
    "The destination filesystem does not support the required file publication operation. " ++
      "Check the drive format and Docker mount."
  | .other =>
    "Drivebound could not finish saving this upload. Check the server storage and retry."

def Server.find? (r : Server) (user id : UUID) : Option UploadSession :=
  (r.uploads.get? id).filter (·.userId = user)

/-- An `UPDATE` of one row. -/
def Server.update (r : Server) (id : UUID) (change : UploadSession → UploadSession) : Server :=
  match r.uploads.get? id with
  | none => r
  | some row => { r with uploads := r.uploads.set id (change row) }

def Server.unlink (r : Server) (id : UUID) : Server :=
  { r with staged := Function.update r.staged id none }

def Server.existing (r : Server) (user : UUID) (checksum : String) : Option Asset :=
  r.assets.find? fun asset =>
    asset.userId = user ∧ asset.checksum = checksum ∧ asset.lifecycleState = .active

/-- A file after `seek` and `write`. -/
def overwrite (content : Bytes) (position : Nat) (bytes : Bytes) : Bytes :=
  content.take position ++ bytes ++ content.drop (position + bytes.length)

def Server.write (r : Server) (id : UUID) (position : Nat) (bytes : Bytes) : Server :=
  { r with staged := Function.update r.staged id ((r.staged id).map (overwrite · position bytes)) }

/-- The detail of the 503 that `finalize_upload_asset` raises. -/
def finalizationDetail (upload : UploadSession) (error : DriveError) (exception : String) : String :=
  error.reason ++ " Diagnostic: upload " ++ toString upload.id ++ ", " ++ exception ++ "."

abbrev Step := Outcome Server Handler LockKey

def answer (r : Server) (reply : Answer) : Step := .finish r (.answered reply)

def createUpload (env : Env) (r : Server) (user : UUID) (checksum : Option String)
    (totalSize : Nat) (id : UUID) (now : Timestamp) : Option Step :=
  if totalSize = 0 then some (answer r (.error 422 none))
  else if env.maxUploadSize < totalSize then
    some (answer r (.error 413 (some "Upload exceeds the configured size limit")))
  else
    match checksum.bind (r.existing user) with
    | some _ =>
      some (answer r (.created
        { id, userId := user, totalSize, offset := totalSize, expectedChecksum := checksum
          status := .complete, expiresAt := now } env.resumableChunkSize true))
    | none =>
      if (r.uploads.get? id).isSome then none
      else
        let upload := UploadSession.opened id user totalSize checksum (now + env.uploadSessionHours * 3600)
        some (answer
          { r with
            uploads := r.uploads.set id upload
            staged := Function.update r.staged id (some []) }
          (.created upload env.resumableChunkSize false))

def uploadStatus (r : Server) (user id : UUID) : Step :=
  match r.find? user id with
  | none => answer r (.error 404 (some "Upload session not found"))
  | some upload => answer r (.status upload)

/-- `append_upload` up to the body, on the locked row. -/
def checkAppend (r : Server) (user id : UUID) (offset : Nat) (body : Bytes) (now : Timestamp) :
    Step :=
  match r.find? user id with
  | none => answer r (.error 404 (some "Upload session not found"))
  | some upload =>
    if upload.status ≠ .active then
      answer r (.error 409 (some ("Upload session is " ++ UploadStatus.text upload.status)))
    else if upload.expiresAt < now then
      answer (r.update id fun row => { row with status := .expired })
        (.error 410 (some "Upload session expired"))
    else if offset ≠ upload.offset then
      answer r (.error 409 (some "Upload offset does not match"))
    else if (r.staged id).isNone then
      answer r (.error 410 (some "Staged upload is unavailable"))
    else if upload.offset < upload.totalSize then .stay r (.writing upload body 0)
    else .finish r (.stored upload)

def writeChunk (r : Server) (upload : UploadSession) (body : Bytes) (written count : Nat) : Step :=
  let bytes := (body.drop written).take count
  if upload.totalSize < upload.offset + written + bytes.length then
    answer r (.error 413 (some "Chunk exceeds declared upload size"))
  else
    .stay (r.write upload.id (upload.offset + written) bytes)
      (.writing upload body (written + bytes.length))

/-- The end of the body: the new offset is committed. -/
def commitOffset (r : Server) (upload : UploadSession) (written : Nat) : Step :=
  if written = 0 then answer r (.error 400 (some "Empty upload chunk"))
  else
    let loaded := { upload with offset := upload.offset + written }
    let r' := r.update upload.id fun row => { row with offset := loaded.offset }
    if loaded.offset < loaded.totalSize then answer r' (.appended loaded none false)
    else .finish r' (.stored loaded)

def hashUpload (env : Env) (r : Server) (upload : UploadSession) : Step :=
  match r.staged upload.id with
  | none => answer r (.error 500 none)
  | some content =>
    if upload.expectedChecksum.any (· ≠ env.sha256 content) then
      .finish (r.update upload.id fun row => { row with status := .failed }) (.rejected upload)
    else .stay r (.hashed upload (env.sha256 content))

/-- What `persist_managed_asset` commits: the active asset that already has this
content, or the new row, with the upload's owner, digest and size. -/
def persistUpload (r : Server) (upload : UploadSession) (checksum : String) (asset : Asset) :
    Option Step :=
  match r.existing upload.userId checksum with
  | some known =>
    some (.finish
      { r.unlink upload.id with finalized := r.finalized ++ [(upload.id, known.id)] }
      (.persisted upload known.id true))
  | none =>
    if asset.userId = upload.userId ∧ asset.checksum = checksum ∧
        asset.fileSize = upload.totalSize ∧ asset.lifecycleState = .active ∧
        r.assets.all (·.id ≠ asset.id) then
      some (.finish
        { r.unlink upload.id with
          assets := r.assets ++ [asset]
          finalized := r.finalized ++ [(upload.id, asset.id)] }
        (.persisted upload asset.id false))
    else none

def program (env : Env) (r : Server) (phase : Handler) : Action → Option Step
  | .receive request =>
    match phase with
    | .idle => some (.stay r (.received request))
    | _ => none
  | .create id now =>
    match phase with
    | .received (.create user checksum totalSize) =>
      createUpload env r user checksum totalSize id now
    | _ => none
  | .read =>
    match phase with
    | .received (.head user id) => some (uploadStatus r user id)
    | _ => none
  | .lockUpload =>
    match phase with
    | .received (.append user id offset body) =>
      some (.lock (.upload id) (.locked user id offset body))
    | _ => none
  | .check now =>
    match phase with
    | .locked user id offset body => some (checkAppend r user id offset body now)
    | _ => none
  | .chunk count =>
    match phase with
    | .writing upload body written => some (writeChunk r upload body written count)
    | _ => none
  | .endBody =>
    match phase with
    | .writing upload body written =>
      if body.length ≤ written then some (commitOffset r upload written) else none
    | _ => none
  | .hash =>
    match phase with
    | .stored upload => some (hashUpload env r upload)
    | _ => none
  | .unlinkRejected =>
    match phase with
    | .rejected upload =>
      some (answer (r.unlink upload.id)
        (.error 422 (some "Completed upload checksum does not match")))
    | _ => none
  | .consume =>
    match phase with
    | .hashed upload checksum => some (.stay (r.unlink upload.id) (.hashed upload checksum))
    | _ => none
  | .persist asset =>
    match phase with
    | .hashed upload checksum => persistUpload r upload checksum asset
    | _ => none
  | .failPersist error exception =>
    match phase with
    | .hashed upload _ => some (answer r (.error 503 (some (finalizationDetail upload error exception))))
    | _ => none
  | .complete =>
    match phase with
    | .persisted upload asset duplicate =>
      some (answer (r.update upload.id fun row => { row with status := .complete })
        (.appended { upload with status := .complete } (some asset) duplicate))
    | _ => none
  | .refuse code detail =>
    match phase with
    | .idle | .answered _ | .lost => none
    | _ => if 400 ≤ code then some (answer r (.error code detail)) else none
  | .crash =>
    match phase with
    | .idle => none
    | _ => some (.finish r .lost)

/-- The requests in flight, by number, over the server's rows and files. -/
abbrev Requests := Store Server Handler LockKey Nat

abbrev step (env : Env) : Requests → Nat × Action → Option Requests := Store.step (program env)

end Drivebound.Uploads
