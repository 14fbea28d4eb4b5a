import Drivebound.Catalog
import Drivebound.Core.History
import Mathlib

/-! Albums with their members and invitations, and share links: the requests of
`api/v1/discovery.py` and `api/v1/shares.py`, and `readable_asset`. A request is a session that reads
row by row and commits at its end; only an invitation is locked before. -/
namespace Drivebound.Collaboration
open Sessions

inductive MemberRole where
  | viewer | editor
  deriving DecidableEq, Repr

inductive Role where
  | viewer | editor | owner
  deriving DecidableEq, Repr

def MemberRole.role : MemberRole → Role
  | .viewer => .viewer
  | .editor => .editor

/-- The ranks of `require_role`. -/
def Role.rank : Role → Nat
  | .viewer => 0
  | .editor => 1
  | .owner => 2

structure Album where
  id : UUID
  userId : UUID
  name : String
  description : Option String
  deriving DecidableEq, Repr

structure AlbumAsset where
  albumId : UUID
  assetId : UUID
  deriving DecidableEq, Repr

structure AlbumMember where
  albumId : UUID
  userId : UUID
  role : MemberRole
  invitedBy : Option UUID
  deriving DecidableEq, Repr

structure AlbumInvite where
  id : UUID
  albumId : UUID
  email : String
  role : MemberRole
  tokenHash : String
  invitedBy : UUID
  expiresAt : Timestamp
  acceptedAt : Option Timestamp
  deriving DecidableEq, Repr

structure ShareLink where
  id : UUID
  userId : UUID
  assetId : UUID
  tokenHash : String
  passwordHash : Option String
  allowDownload : Bool
  expiresAt : Option Timestamp
  deriving DecidableEq, Repr

/-- A user as the request was authenticated. -/
structure User where
  id : UUID
  email : String
  deriving DecidableEq, Repr

/-- What `suppression_subject_is_denied` comes to; it raises where the evidence cannot be read. -/
inductive Evidence where
  | absent | denied | unavailable
  deriving DecidableEq, Repr

structure Database where
  albums : List Album
  albumAssets : List AlbumAsset
  members : List AlbumMember
  invites : List AlbumInvite
  shares : List ShareLink
  assets : List Asset
  /-- `uuid4` gives this one next; it gives none twice. -/
  nextId : UUID
  evidence : UUID → Evidence

structure Functions where
  /-- `token_digest` -/
  tokenDigest : String → String
  /-- `hash_password` with its salt, and `verify_password`. -/
  hashPassword : String → String → String
  verifyPassword : String → String → Bool
  /-- `str.lower` and `str.strip` -/
  lower : String → String
  strip : String → String

inductive Refusal where
  | http (status : Nat) (detail : String)
  /-- A constraint of the tables, or a row that is gone. -/
  | database
  /-- Any other end of the request or of the process. -/
  | ended
  deriving DecidableEq, Repr

def rejectSuppressedAccount : Evidence → Except Refusal Unit
  | .absent => .ok ()
  | .denied => .error (.http 401 "Account is unavailable")
  | .unavailable => .error (.http 503 "Account authorization is temporarily unavailable")

/-! ### Changes -/

/-- What a session has in hand when it commits. New rows get their identifiers there. -/
inductive Change where
  | createAlbum (album : Album)
  | updateAlbum (albumId : UUID) (name : Option String) (description : Option (Option String))
  | deleteAlbum (albumId : UUID)
  | addAsset (row : AlbumAsset)
  | removeAsset (row : AlbumAsset)
  | invite (row : AlbumInvite)
  /-- `present` tells that the user was found among the members. -/
  | join (row : AlbumInvite) (now : Timestamp) (present : Bool)
  | removeMember (albumId userId : UUID)
  | createShare (share : ShareLink)
  deriving DecidableEq, Repr

def Change.numbered (id : UUID) : Change → Change
  | .createAlbum album => .createAlbum { album with id }
  | .invite row => .invite { row with id }
  | .createShare share => .createShare { share with id }
  | change => change

namespace Database
variable (db : Database)

def hasAlbum (id : UUID) : Bool := db.albums.any (·.id = id)
def hasAsset (id : UUID) : Bool := db.assets.any (·.id = id)

/-- The albums go with everything that refers to them. -/
def dropAlbums (gone : Album → Bool) : Database :=
  let dropped (id : UUID) : Bool := db.albums.any fun album => album.id = id && gone album
  { db with
    albums := db.albums.filter (!gone ·)
    albumAssets := db.albumAssets.filter (!dropped ·.albumId)
    members := db.members.filter (!dropped ·.albumId)
    invites := db.invites.filter (!dropped ·.albumId) }

def dropAsset (id : UUID) : Database :=
  { db with
    assets := db.assets.filter (·.id ≠ id)
    albumAssets := db.albumAssets.filter (·.assetId ≠ id)
    shares := db.shares.filter (·.assetId ≠ id) }

def insertMember (member : AlbumMember) : Except Refusal Database :=
  if db.hasAlbum member.albumId && !(db.members.any fun row =>
      row.albumId = member.albumId && row.userId = member.userId) then
    .ok { db with members := db.members ++ [member] }
  else .error .database

def markAccepted (id : UUID) (now : Timestamp) : Database :=
  { db with
    invites := db.invites.map fun row => if row.id = id then { row with acceptedAt := some now } else row }

def apply (user : User) : Change → Except Refusal Database
  | .createAlbum album => .ok { db with albums := db.albums ++ [album] }
  | .updateAlbum albumId name description =>
    if db.hasAlbum albumId then
      .ok { db with
        albums := db.albums.map fun album =>
          if album.id = albumId then
            { album with name := name.getD album.name, description := description.getD album.description }
          else album }
    else .error .database
  | .deleteAlbum albumId => .ok (db.dropAlbums (·.id = albumId))
  | .addAsset row =>
    if db.hasAlbum row.albumId && db.hasAsset row.assetId && !db.albumAssets.contains row then
      .ok { db with albumAssets := db.albumAssets ++ [row] }
    else .error .database
  | .removeAsset row => .ok { db with albumAssets := db.albumAssets.filter (· ≠ row) }
  | .invite row =>
    if db.hasAlbum row.albumId && !(db.invites.any (·.tokenHash = row.tokenHash)) then
      .ok { db with invites := db.invites ++ [row] }
    else .error .database
  | .join row now present =>
    if db.invites.any (·.id = row.id) then
      if present then .ok (db.markAccepted row.id now)
      else (db.markAccepted row.id now).insertMember ⟨row.albumId, user.id, row.role, some row.invitedBy⟩
    else .error .database
  | .removeMember albumId userId =>
    .ok { db with members := db.members.filter fun row => !(row.albumId = albumId && row.userId = userId) }
  | .createShare share =>
    if db.hasAsset share.assetId && !(db.shares.any (·.tokenHash = share.tokenHash)) then
      .ok { db with shares := db.shares ++ [share] }
    else .error .database

def commit (user : User) (change : Change) : Except Refusal Database :=
  (db.apply user (change.numbered db.nextId)).map fun db => { db with nextId := db.nextId + 1 }

end Database

/-- What the rest of the application does to these rows. -/
inductive Elsewhere where
  /-- A new asset of a user. -/
  | store (asset : Asset)
  /-- A change of an asset's row, which stays with its user. -/
  | change (assetId : UUID) (change : Asset → Asset)
  | purge (assetId : UUID)
  /-- `create_deletion_job` -/
  | erase (userId : UUID) (email : String)
  /-- The deletion of the user's row. -/
  | forget (userId : UUID)
  | suppress (userId : UUID) (evidence : Evidence)

def Database.withoutUser (db : Database) (userId : UUID) : Database :=
  let dropped := db.dropAlbums (·.userId = userId)
  { dropped with
    invites := dropped.invites.filter (·.invitedBy ≠ userId)
    members := dropped.members.filter (·.userId ≠ userId)
    shares := dropped.shares.filter (·.userId ≠ userId) }

def Database.elsewhere (functions : Functions) (db : Database) : Elsewhere → Database
  | .store asset => { db with assets := db.assets ++ [{ asset with id := db.nextId }], nextId := db.nextId + 1 }
  | .change assetId change =>
    { db with
      assets := db.assets.map fun asset =>
        if asset.id = assetId then { change asset with id := asset.id, userId := asset.userId } else asset }
  | .purge assetId => db.dropAsset assetId
  | .erase userId email =>
    let dropped := db.withoutUser userId
    { dropped with
      invites := dropped.invites.filter fun row => functions.lower row.email ≠ functions.lower email }
  | .forget userId =>
    let dropped := db.withoutUser userId
    { dropped with
      members := dropped.members.map fun row =>
        if row.invitedBy = some userId then { row with invitedBy := none } else row }
  | .suppress userId evidence => { db with evidence := Function.update db.evidence userId evidence }

/-! ### Requests -/

/-- The requests that begin with `album_role`. -/
inductive AlbumRequest where
  | update (name : Option String) (description : Option (Option String))
  | addAsset (assetId : UUID)
  | listAssets
  | removeAsset (assetId : UUID)
  | inviteMember (email : String) (role : MemberRole)
  | removeMember (memberId : UUID)
  deriving DecidableEq, Repr

/-- What `require_role` asks at least. -/
def AlbumRequest.minimum : AlbumRequest → Role
  | .update .. | .addAsset _ | .removeAsset _ => .editor
  | .listAssets => .viewer
  | .inviteMember .. | .removeMember _ => .owner

inductive Request where
  | createAlbum (name : String) (description : Option String)
  | deleteAlbum (albumId : UUID)
  | within (albumId : UUID) (request : AlbumRequest)
  | acceptInvite (token : String)
  | createShare (assetId : UUID) (password : Option String) (allowDownload : Bool) (expiresInHours : Option Nat)
  | readAsset (assetId : UUID)
  deriving DecidableEq, Repr

inductive Answer where
  | done
  | assets (assets : List Asset)
  | share (share : ShareLink) (asset : Asset)
  deriving DecidableEq, Repr

inductive Phase where
  | idle
  | answered (answer : Except Refusal Answer)
  | entered (user : User) (request : Request)
  /-- The album is read and its owner is somebody else, who is not suppressed. -/
  | opened (user : User) (request : AlbumRequest) (album : Album)
  | admitted (user : User) (request : AlbumRequest) (album : Album) (role : Role)
  /-- The asset to be added is the user's own. -/
  | offering (user : User) (albumId : UUID) (asset : Asset)
  /-- The invitation is locked, and has to be read again. -/
  | locked (user : User) (inviteId : UUID) (now : Timestamp)
  | invited (user : User) (invite : AlbumInvite) (now : Timestamp)
  | welcomed (user : User) (invite : AlbumInvite) (now : Timestamp)
  | committing (user : User) (change : Change)
  | assetRead (user : User) (asset : Asset)
  | listing (user : User) (visible remaining : List Asset)
  /-- A visitor with the token of a share link. -/
  | visiting (token : String) (password : Option String)
  | resolved (share : ShareLink) (token : String) (password : Option String) (now : Timestamp)
  deriving DecidableEq

inductive Action where
  | enter (user : User) (request : Request)
  | visit (token : String) (password : Option String)
  /-- One more statement, with the clock and a fresh token. -/
  | proceed (now : Timestamp) (token : String)
  | commit
  /-- The request ends without a commit. -/
  | fail
  | elsewhere (change : Elsewhere)

abbrev Step := Outcome Database Phase UUID

section Program
variable (functions : Functions) (db : Database)

def Database.album? (id : UUID) : Option Album := db.albums.find? (·.id = id)

def Database.member? (albumId userId : UUID) : Option AlbumMember :=
  db.members.find? fun row => row.albumId = albumId && row.userId = userId

def Database.asset? (id : UUID) : Option Asset := db.assets.find? (·.id = id)

def refuse (status : Nat) (detail : String) : Step := .finish db (.answered (.error (.http status detail)))

def answer (answer : Answer) : Step := .finish db (.answered (.ok answer))

/-- `require_role` -/
def requireRole (user : User) (request : AlbumRequest) (album : Album) (role : Role) : Step :=
  if role.rank < request.minimum.rank then refuse db 403 "Album permission denied"
  else .stay db (.admitted user request album role)

/-- The first half of `album_role`. -/
def openAlbum (user : User) (request : AlbumRequest) (albumId : UUID) : Step :=
  match db.album? albumId with
  | none => refuse db 404 "Album not found"
  | some album =>
    match db.evidence album.userId with
    | .denied => refuse db 404 "Album not found"
    | .unavailable => refuse db 503 "Account authorization is temporarily unavailable"
    | .absent =>
      if album.userId = user.id then requireRole db user request album .owner
      else .stay db (.opened user request album)

/-- The second half of `album_role`. -/
def findMember (user : User) (request : AlbumRequest) (album : Album) : Step :=
  match db.member? album.id user.id with
  | none => refuse db 404 "Album not found"
  | some member => requireRole db user request album member.role.role

/-- The condition of the statement that finds an invitation, but for its token. -/
def AlbumInvite.isOpen (now : Timestamp) (invite : AlbumInvite) : Bool :=
  invite.acceptedAt.isNone && now < invite.expiresAt

def isOwnAsset (user : User) (assetId : UUID) (asset : Asset) : Bool := asset.id = assetId && asset.userId = user.id

/-- The statement of `readable_asset`. -/
def Database.readable? (user : User) (assetId : UUID) : Option Asset :=
  db.assets.find? fun asset => asset.id = assetId && asset.lifecycleState = .active &&
    (asset.userId = user.id || db.albumAssets.any fun row => row.assetId = asset.id &&
      db.albums.any fun album => album.id = row.albumId &&
        (album.userId = user.id || db.members.any fun member => member.albumId = album.id && member.userId = user.id))

/-- The active assets of an album. The order, by when they were taken, is left out. -/
def Database.albumContents (albumId : UUID) : List Asset :=
  db.assets.filter fun asset => asset.lifecycleState = .active && db.albumAssets.contains ⟨albumId, asset.id⟩

/-- `if value` of an optional text. -/
def given : Option String → Option String
  | some "" => none
  | value => value

def enterRequest (now : Timestamp) (token : String) (user : User) : Request → Step
  | .createAlbum name description => .stay db (.committing user (.createAlbum ⟨0, user.id, name, description⟩))
  | .deleteAlbum albumId =>
    match db.albums.find? fun album => album.id = albumId && album.userId = user.id with
    | none => refuse db 404 "Album not found"
    | some album => .stay db (.committing user (.deleteAlbum album.id))
  | .within albumId request => openAlbum db user request albumId
  | .acceptInvite presented =>
    match db.invites.find? fun invite => invite.tokenHash = functions.tokenDigest presented && invite.isOpen now with
    | none => refuse db 400 "Invitation is invalid or expired"
    | some invite => .lock invite.id (.locked user invite.id now)
  | .createShare assetId password allowDownload expiresInHours =>
    match db.assets.find? fun asset => isOwnAsset user assetId asset && asset.lifecycleState = .active with
    | none => refuse db 404 "Asset not found"
    | some asset => .stay db (.committing user (.createShare {
        id := 0
        userId := user.id
        assetId := asset.id
        tokenHash := functions.tokenDigest token
        passwordHash := (given password).map (functions.hashPassword token)
        allowDownload
        expiresAt := (expiresInHours.filter (· ≠ 0)).map (now + 3600 * ·) }))
  | .readAsset assetId =>
    match db.readable? user assetId with
    | none => refuse db 404 "Asset not found"
    | some asset => .stay db (.assetRead user asset)

def afterRole (now : Timestamp) (token : String) (user : User) (album : Album) : AlbumRequest → Step
  | .update name description =>
    .stay db (.committing user (.updateAlbum album.id (name.map functions.strip) description))
  | .addAsset assetId =>
    match db.assets.find? (isOwnAsset user assetId) with
    | none => refuse db 404 "Album or asset not found"
    | some asset => .stay db (.offering user album.id asset)
  | .listAssets => .stay db (.listing user [] (db.albumContents album.id))
  | .removeAsset assetId =>
    if db.albumAssets.contains ⟨album.id, assetId⟩ then .stay db (.committing user (.removeAsset ⟨album.id, assetId⟩))
    else answer db .done
  | .inviteMember email role =>
    .stay db (.committing user (.invite {
      id := 0
      albumId := album.id
      email := functions.lower (functions.strip email)
      role
      tokenHash := functions.tokenDigest token
      invitedBy := user.id
      expiresAt := now + 7 * 86400
      acceptedAt := none }))
  | .removeMember memberId =>
    match db.member? album.id memberId with
    | none => answer db .done
    | some member => .stay db (.committing user (.removeMember member.albumId member.userId))

/-- The album of an invitation, its owner, the inviter and the addressee. -/
def checkInvite (user : User) (invite : AlbumInvite) (now : Timestamp) : Step :=
  match db.album? invite.albumId with
  | none => refuse db 400 "Invitation is invalid or expired"
  | some album =>
    match db.evidence album.userId, db.evidence invite.invitedBy with
    | .denied, _ => refuse db 400 "Invitation is invalid or expired"
    | .unavailable, _ => refuse db 503 "Account authorization is temporarily unavailable"
    | .absent, .denied => refuse db 400 "Invitation is invalid or expired"
    | .absent, .unavailable => refuse db 503 "Account authorization is temporarily unavailable"
    | .absent, .absent =>
      if functions.lower invite.email = functions.lower user.email then .stay db (.welcomed user invite now)
      else refuse db 403 "Sign in with the invited email address"

/-- The asset of a visible item is checked for its own owner. -/
def checkItem (user : User) (visible : List Asset) (asset : Asset) (rest : List Asset) : Step :=
  match db.evidence asset.userId with
  | .denied => .stay db (.listing user visible rest)
  | .unavailable => refuse db 503 "Account authorization is temporarily unavailable"
  | .absent => .stay db (.listing user (visible ++ [asset]) rest)

def checkAsset (asset : Asset) : Step :=
  match db.evidence asset.userId with
  | .denied => refuse db 404 "Asset not found"
  | .unavailable => refuse db 503 "Account authorization is temporarily unavailable"
  | .absent => answer db (.assets [asset])

def passwordFits (share : ShareLink) (password : Option String) : Bool :=
  match given share.passwordHash with
  | none => true
  | some stored => (given password).any (functions.verifyPassword · stored)

/-- `resolve_share` up to the asset. -/
def findShare (now : Timestamp) (token : String) (password : Option String) : Step :=
  match db.shares.find? fun share => share.tokenHash = functions.tokenDigest token with
  | none => refuse db 404 "Share not found"
  | some share =>
    match rejectSuppressedAccount (db.evidence share.userId) with
    | .error refusal => .finish db (.answered (.error refusal))
    | .ok () =>
      if share.expiresAt.any (· ≤ now) then refuse db 410 "Share has expired"
      else if passwordFits functions share password then .stay db (.resolved share token password now)
      else refuse db 401 "Share password is required or incorrect"

def sharedAsset (share : ShareLink) : Step :=
  match db.asset? share.assetId with
  | none => refuse db 404 "Shared asset not found"
  | some asset =>
    if asset.lifecycleState = .active then answer db (.share share asset)
    else refuse db 404 "Shared asset not found"

def proceed (now : Timestamp) (token : String) : Phase → Option Step
  | .entered user request => some (enterRequest functions db now token user request)
  | .opened user request album => some (findMember db user request album)
  | .admitted user request album _ => some (afterRole functions db now token user album request)
  | .offering user albumId asset =>
    if db.albumAssets.contains ⟨albumId, asset.id⟩ then some (answer db .done)
    else some (.stay db (.committing user (.addAsset ⟨albumId, asset.id⟩)))
  | .locked user inviteId now =>
    match db.invites.find? fun invite => invite.id = inviteId && invite.isOpen now with
    | none => some (refuse db 400 "Invitation is invalid or expired")
    | some invite => some (.stay db (.invited user invite now))
  | .invited user invite now => some (checkInvite functions db user invite now)
  | .welcomed user invite now =>
    some (.stay db (.committing user (.join invite now (db.member? invite.albumId user.id).isSome)))
  | .assetRead _ asset => some (checkAsset db asset)
  | .listing _ visible [] => some (answer db (.assets visible))
  | .listing user visible (asset :: rest) => some (checkItem db user visible asset rest)
  | .visiting presented password => some (findShare functions db now presented password)
  | .resolved share _ _ _ => some (sharedAsset db share)
  | .idle | .answered _ | .committing .. => none

/-- One action of a session. -/
def program : Phase → Action → Option Step
  | .idle, .enter user request | .answered _, .enter user request => some (.stay db (.entered user request))
  | .idle, .visit token password | .answered _, .visit token password => some (.stay db (.visiting token password))
  | .idle, .elsewhere change => some (.finish (db.elsewhere functions change) .idle)
  | .committing user change, .commit =>
    match db.commit user change with
    | .ok db' => some (.finish db' (.answered (.ok .done)))
    | .error refusal => some (.finish db (.answered (.error refusal)))
  | _, .fail => some (.finish db (.answered (.error .ended)))
  | phase, .proceed now token => proceed functions db now token phase
  | _, _ => none

end Program

end Drivebound.Collaboration
