import Drivebound.Uploads.Finalization

/-! `append_upload` with the steps of `persist_managed_asset` inside it. The owner's
row is locked until the asset row is committed; the staged bytes are consumed before
that, and the session's status is committed after it. The advisory locks on content
and path only delay requests that wait for one owner anyway and are left out. Around
it, assets leave and re-enter the active state and accounts are disabled. -/
namespace Drivebound.Uploads
open Sessions

structure Vault where
  server : Server
  disabled : UUID → Bool
  /-- The account has a media key. -/
  keyed : UUID → Bool
  /-- History: the asset rows that uploads have committed. -/
  created : List (UUID × UUID)
  /-- History: what the content of a session was hashed to. -/
  digest : UUID → Option String

inductive Stage where
  /-- Outside `persist_managed_asset`. -/
  | request (handler : Handler)
  /-- The owner's row is locked. -/
  | owning (upload : UploadSession) (checksum : String)
  /-- The account has no active asset with this content. -/
  | unmatched (upload : UploadSession) (checksum : String)
  /-- The original is in place and the staged bytes are gone. -/
  | published (upload : UploadSession) (checksum : String)
  /-- Another request of the account that takes its row's lock. -/
  | administering (user : UUID)
  deriving DecidableEq, Repr

inductive RowKey where
  | upload (id : UUID)
  | user (id : UUID)
  deriving DecidableEq, Repr

inductive Event where
  /-- Steps outside `persist_managed_asset`. -/
  | request (action : Action)
  | hash
  | lockOwner
  /-- The first encrypted upload commits the account's key and locks the row again. -/
  | initializeKey
  /-- The lookup by content returns some active asset. -/
  | adopt (asset : UUID)
  | discard
  | noneExisting
  | publish
  | insert (asset : Asset)
  /-- An exception in `persist_managed_asset`, a failed commit included. -/
  | fail (error : DriveError) (exception : String)
  | administer (user : UUID)
  | disable
  | activate (asset : UUID)
  /-- Trash, supersede or purge. -/
  | retire (asset : UUID) (state : LifecycleState)
  deriving DecidableEq, Repr

abbrev Turn := Outcome Vault Stage RowKey

/-- A step of the request in the vault. -/
def served (v : Vault) : Step → Turn
  | .stay r h => .stay { v with server := r } (.request h)
  | .lock (.upload id) h => .lock (.upload id) (.request h)
  | .share (.upload id) h => .share (.upload id) (.request h)
  | .finish r h => .finish { v with server := r } (.request h)

/-- The actions that `persist_managed_asset` is made of in more detail here. -/
def Action.persists : Action → Bool
  | .hash | .consume | .persist _ | .failPersist _ _ => true
  | _ => false

def Vault.hash (v : Vault) (env : Env) (upload : UploadSession) : Vault :=
  match v.server.staged upload.id with
  | some content =>
    { v with digest := Function.update v.digest upload.id (some (env.sha256 content)) }
  | none => v

def Vault.setLifecycle (v : Vault) (asset : UUID) (state : LifecycleState) : Vault :=
  { v with server := { v.server with assets := v.server.assets.map fun row =>
      if row.id = asset then { row with lifecycleState := state } else row } }

def matchesContent (upload : UploadSession) (checksum : String) (row : Asset) : Bool :=
  row.userId = upload.userId ∧ row.checksum = checksum ∧ row.lifecycleState = .active

def failed (v : Vault) (upload : UploadSession) (error : DriveError) (exception : String) : Turn :=
  .finish v (.request (.answered (.error 503 (some (finalizationDetail upload error exception)))))

/-- The staged bytes of a duplicate are removed and the existing asset is returned. -/
def adoptExisting (v : Vault) (upload : UploadSession) (checksum : String) (asset : UUID) :
    Option Turn :=
  if v.disabled upload.userId = false ∧
      v.server.assets.any (fun row => row.id = asset ∧ matchesContent upload checksum row) then
    some (.finish
      { v with server := { v.server.unlink upload.id with
          finalized := v.server.finalized ++ [(upload.id, asset)] } }
      (.request (.persisted upload asset true)))
  else none

/-- `commit_original` or `commit_encrypted_original` that succeeds, or finds the
staged bytes missing. -/
def publishOriginal (v : Vault) (upload : UploadSession) (checksum : String) : Turn :=
  match v.server.staged upload.id with
  | some _ => .stay { v with server := v.server.unlink upload.id } (.published upload checksum)
  | none => failed v upload .other "FileNotFoundError"

def insertAsset (v : Vault) (upload : UploadSession) (checksum : String) (asset : Asset) :
    Option Turn :=
  if asset.userId = upload.userId ∧ asset.checksum = checksum ∧
      asset.fileSize = upload.totalSize ∧ asset.lifecycleState = .active ∧
      v.server.assets.all (·.id ≠ asset.id) then
    some (.finish
      { v with
        server := { v.server with
          assets := v.server.assets ++ [asset]
          finalized := v.server.finalized ++ [(upload.id, asset.id)] }
        created := v.created ++ [(upload.id, asset.id)] }
      (.request (.persisted upload asset.id false)))
  else none

def vaultProgram (env : Env) (v : Vault) (stage : Stage) : Event → Option Turn
  | .request action =>
    match stage with
    | .request handler =>
      if action.persists then none else (program env v.server handler action).map (served v)
    | .owning _ _ | .unmatched _ _ | .published _ _ =>
      if action = .crash then some (.finish v (.request .lost)) else none
    | .administering _ => if action = .crash then some (.finish v (.request .idle)) else none
  | .hash =>
    match stage with
    | .request (.stored upload) =>
      some (served (v.hash env upload) (hashUpload env v.server upload))
    | _ => none
  | .lockOwner =>
    match stage with
    | .request (.hashed upload checksum) =>
      some (.lock (.user upload.userId) (.owning upload checksum))
    | _ => none
  | .initializeKey =>
    match stage with
    | .owning upload checksum =>
      if v.disabled upload.userId ∨ v.keyed upload.userId then none
      else some (.finish { v with keyed := Function.update v.keyed upload.userId true }
        (.request (.hashed upload checksum)))
    | _ => none
  | .adopt asset =>
    match stage with
    | .owning upload checksum => adoptExisting v upload checksum asset
    | _ => none
  | .discard =>
    match stage with
    | .owning upload _ =>
      if v.disabled upload.userId then
        some (failed { v with server := v.server.unlink upload.id } upload .other "ValueError")
      else none
    | _ => none
  | .noneExisting =>
    match stage with
    | .owning upload checksum =>
      if v.disabled upload.userId ∨ v.server.assets.any (matchesContent upload checksum) then none
      else some (.stay v (.unmatched upload checksum))
    | _ => none
  | .publish =>
    match stage with
    | .unmatched upload checksum => some (publishOriginal v upload checksum)
    | _ => none
  | .insert asset =>
    match stage with
    | .published upload checksum => insertAsset v upload checksum asset
    | _ => none
  | .fail error exception =>
    match stage with
    | .request (.hashed upload _) | .owning upload _ | .unmatched upload _ | .published upload _ =>
      some (failed v upload error exception)
    | _ => none
  | .administer user =>
    match stage with
    | .request .idle => some (.lock (.user user) (.administering user))
    | _ => none
  | .disable =>
    match stage with
    | .administering user =>
      some (.finish { v with disabled := Function.update v.disabled user true } (.request .idle))
    | _ => none
  | .activate asset =>
    match stage with
    | .administering user =>
      if v.server.assets.all fun row => row.id = asset → row.userId = user then
        some (.finish (v.setLifecycle asset .active) (.request .idle))
      else none
    | _ => none
  | .retire asset state =>
    match stage with
    | .request .idle =>
      if state = .active then none else some (.finish (v.setLifecycle asset state) (.request .idle))
    | _ => none

abbrev Publishers := Store Vault Stage RowKey Nat

abbrev vaultStep (env : Env) : Publishers → Nat × Event → Option Publishers :=
  Store.step (vaultProgram env)

end Drivebound.Uploads
