import Drivebound.Collaboration.Requests
import Drivebound.Core.Chronicle

/-! Where the rows of albums and links come from. Every commit is noted with the rows that it made,
every answer with what it shows; what a row or an answer needs is found among the notes. -/
namespace Drivebound.Collaboration
open Chronicle Sessions Run

inductive Event where
  | committed (user : User) (change : Change)
  | served (user : User) (assets : List Asset)
  | shared (share : ShareLink) (token : String) (password : Option String) (now : Timestamp) (asset : Asset)
  deriving DecidableEq

/-- What a step adds to the notes. -/
def eventOf (db : Database) : Phase → Action → Option Event
  | .committing user change, .commit =>
    (db.commit user change).toOption.map fun _ => .committed user (change.numbered db.nextId)
  | .assetRead user asset, .proceed .. =>
    if db.evidence asset.userId = .absent then some (.served user [asset]) else none
  | .listing user visible [], .proceed .. => some (.served user visible)
  | .resolved share token password now, .proceed .. =>
    (db.asset? share.assetId).bind fun asset =>
      if asset.lifecycleState = .active then some (.shared share token password now asset) else none
  | _, _ => none

def note (db : Database) (phase : Phase) (action : Action) (events : List Event) : List Event :=
  events ++ (eventOf db phase action).toList

abbrev Recorded := Store (Database × List Event) Phase UUID Nat

def recordedStep (functions : Functions) : Recorded → Nat × Action → Option Recorded :=
  Store.step (recorded (program functions) note)

/-! ### What the notes tell -/

section Notes
variable (functions : Functions) (events : List Event)

def Created (albumId userId : UUID) : Prop :=
  ∃ user album, Event.committed user (.createAlbum album) ∈ events ∧ album.id = albumId ∧ album.userId = userId

/-- The invitation was made by its inviter, who had created the album. -/
def Invited (invite : AlbumInvite) : Prop :=
  (∃ user, Event.committed user (.invite invite) ∈ events) ∧ Created events invite.albumId invite.invitedBy

/-- A user may take up an invitation. -/
structure Addressed (user : User) (invite : AlbumInvite) (now : Timestamp) : Prop where
  invited : Invited events invite
  unaccepted : invite.acceptedAt = none
  unexpired : now < invite.expiresAt
  addressee : functions.lower invite.email = functions.lower user.email

/-- The album's creator, and whoever joined it once, removed since or not: a role is read before the commit it is for,
and what it was good for stays. -/
inductive Entitled (userId albumId : UUID) : Role → Prop where
  | owner (created : Created events albumId userId) : Entitled userId albumId .owner
  | member (user : User) (invite : AlbumInvite) (now : Timestamp)
      (joined : Event.committed user (.join invite now false) ∈ events) (same : user.id = userId)
      (album : invite.albumId = albumId) (addressed : Addressed functions events user invite now) :
    Entitled userId albumId invite.role.role

def EntitledTo (minimum : Role) (userId albumId : UUID) : Prop :=
  ∃ role, minimum.rank ≤ role.rank ∧ Entitled functions events userId albumId role

/-- The asset was put into the album by its user, who was entitled to it. -/
def Placed (albumId : UUID) (assetId userId : UUID) : Prop :=
  (∃ user, Event.committed user (.addAsset ⟨albumId, assetId⟩) ∈ events ∧ user.id = userId) ∧
    EntitledTo functions events .editor userId albumId

def Readable (userId : UUID) (asset : Asset) : Prop :=
  asset.lifecycleState = .active ∧ (asset.userId = userId ∨ ∃ albumId,
    Placed functions events albumId asset.id asset.userId ∧ EntitledTo functions events .viewer userId albumId)

def Linked (share : ShareLink) : Prop := ∃ user, Event.committed user (.createShare share) ∈ events ∧ user.id = share.userId

end Notes

variable {functions : Functions} {events later : List Event} {db db' : Database} {user : User} {change : Change}
  {userId albumId assetId : UUID} {role minimum : Role}

theorem Created.mono (grows : ∀ e ∈ events, e ∈ later) (created : Created events albumId userId) :
    Created later albumId userId := by
  obtain ⟨user, album, noted, same⟩ := created
  exact ⟨user, album, grows _ noted, same⟩

theorem Invited.mono {invite : AlbumInvite} (grows : ∀ e ∈ events, e ∈ later) (invited : Invited events invite) :
    Invited later invite := by
  obtain ⟨⟨user, noted⟩, created⟩ := invited
  exact ⟨⟨user, grows _ noted⟩, created.mono grows⟩

theorem Addressed.mono {invite : AlbumInvite} {now : Timestamp} (grows : ∀ e ∈ events, e ∈ later)
    (addressed : Addressed functions events user invite now) : Addressed functions later user invite now :=
  { addressed with invited := addressed.invited.mono grows }

theorem Entitled.mono (grows : ∀ e ∈ events, e ∈ later) (entitled : Entitled functions events userId albumId role) :
    Entitled functions later userId albumId role := by
  cases entitled with
  | owner created => exact .owner (created.mono grows)
  | member user invite now joined same album addressed =>
    exact .member user invite now (grows _ joined) same album (addressed.mono grows)

theorem EntitledTo.mono (grows : ∀ e ∈ events, e ∈ later)
    (entitled : EntitledTo functions events minimum userId albumId) :
    EntitledTo functions later minimum userId albumId := by
  obtain ⟨role, enough, has⟩ := entitled
  exact ⟨role, enough, has.mono grows⟩

theorem Placed.mono (grows : ∀ e ∈ events, e ∈ later) (placed : Placed functions events albumId assetId userId) :
    Placed functions later albumId assetId userId := by
  obtain ⟨⟨user, noted, same⟩, entitled⟩ := placed
  exact ⟨⟨user, grows _ noted, same⟩, entitled.mono grows⟩

theorem Readable.mono {asset : Asset} (grows : ∀ e ∈ events, e ∈ later)
    (readable : Readable functions events userId asset) : Readable functions later userId asset := by
  obtain ⟨active, own | ⟨albumId, placed, entitled⟩⟩ := readable
  · exact ⟨active, .inl own⟩
  · exact ⟨active, .inr ⟨albumId, placed.mono grows, entitled.mono grows⟩⟩

theorem Linked.mono {share : ShareLink} (grows : ∀ e ∈ events, e ∈ later) (linked : Linked events share) :
    Linked later share := by
  obtain ⟨user, noted, same⟩ := linked
  exact ⟨user, grows _ noted, same⟩

/-- Only who created an album has the rank of an owner. -/
theorem created_of_owner (entitled : EntitledTo functions events .owner userId albumId) :
    Created events albumId userId := by
  obtain ⟨role, enough, has⟩ := entitled
  cases has with
  | owner created => exact created
  | member user invite =>
    cases same : invite.role <;> rw [same] at enough <;> exact absurd enough (by decide)

/-! ### Authority -/

/-- What a change needs. -/
def Authorized (functions : Functions) (events : List Event) (user : User) : Change → Prop
  | .createAlbum album => album.userId = user.id
  | .updateAlbum albumId .. => EntitledTo functions events .editor user.id albumId
  | .deleteAlbum albumId => Created events albumId user.id
  | .addAsset row | .removeAsset row => EntitledTo functions events .editor user.id row.albumId
  | .invite row => Created events row.albumId row.invitedBy ∧ row.invitedBy = user.id
  | .join invite now _ => Addressed functions events user invite now
  | .removeMember albumId _ => EntitledTo functions events .owner user.id albumId
  | .createShare share => share.userId = user.id

theorem Authorized.mono (grows : ∀ e ∈ events, e ∈ later) (authorized : Authorized functions events user change) :
    Authorized functions later user change := by
  cases change with
  | createAlbum album => exact authorized
  | updateAlbum albumId name description => exact EntitledTo.mono grows authorized
  | deleteAlbum albumId => exact Created.mono grows authorized
  | addAsset row => exact EntitledTo.mono grows authorized
  | removeAsset row => exact EntitledTo.mono grows authorized
  | invite row => exact ⟨authorized.1.mono grows, authorized.2⟩
  | join invite now present => exact Addressed.mono grows authorized
  | removeMember albumId userId => exact EntitledTo.mono grows authorized
  | createShare share => exact authorized

theorem Authorized.numbered (id : UUID) (authorized : Authorized functions events user change) :
    Authorized functions events user (change.numbered id) := by
  cases change <;> exact authorized

def Event.joinedId : Event → Option UUID
  | .committed _ (.join invite _ _) => some invite.id
  | _ => none

/-- The invitation has not been taken up. -/
def Unjoined (events : List Event) (inviteId : UUID) : Prop := Unused Event.joinedId events inviteId

/-- The identifier that a change gives to its row. -/
def Change.givenId : Change → Option UUID
  | .createAlbum album => some album.id
  | .invite row => some row.id
  | _ => none

def Event.givenId : Event → Option UUID
  | .committed _ change => change.givenId
  | _ => none

/-- Who comes with the token of a link and its password, in time, is let in. -/
structure SharedRightly (functions : Functions) (events : List Event) (share : ShareLink) (token : String)
    (password : Option String) (now : Timestamp) : Prop where
  linked : Linked events share
  token : share.tokenHash = functions.tokenDigest token
  unexpired : ∀ t ∈ share.expiresAt, now < t
  password : passwordFits functions share password = true

/-- What a note needs of the notes before it. -/
def Justified (functions : Functions) (before : List Event) : Event → Prop
  | .committed user change => Authorized functions before user change ∧
    ∀ id ∈ (Event.committed user change).joinedId, Unjoined before id
  | .served user assets => ∀ asset ∈ assets, Readable functions before user.id asset
  | .shared share token password now asset => SharedRightly functions before share token password now ∧
    asset.id = share.assetId ∧ asset.userId = share.userId ∧ asset.lifecycleState = .active

/-- What holds of the notes themselves. -/
abbrev Notes (functions : Functions) : List Event → UUID → Prop := Chronicle.Notes (Justified functions) Event.givenId

variable {nextId : UUID}

theorem created_sole {one other : UUID} (notes : Notes functions events nextId) (first : Created events albumId one)
    (second : Created events albumId other) : one = other := by
  obtain ⟨user, album, noted, rfl, rfl⟩ := first
  obtain ⟨user', album', noted', same, rfl⟩ := second
  cases notes.sole _ noted _ noted' album.id rfl (congrArg some same)
  rfl

/-- Only an invitation that was made is taken up. -/
theorem joined_given {before : List Event} {event : Event} (justified : Justified functions before event) :
    ∀ id ∈ event.joinedId, ∃ giver ∈ before, id ∈ giver.givenId := by
  intro id joined
  cases event with
  | committed user change =>
    cases change with
    | join invite now present =>
      cases joined
      obtain ⟨⟨inviter, noted⟩, -⟩ := justified.1.invited
      exact ⟨_, noted, rfl⟩
    | createAlbum | updateAlbum | deleteAlbum | addAsset | removeAsset | invite | removeMember | createShare =>
      cases joined
  | served user assets => cases joined
  | shared share token password now asset => cases joined

/-- The user joined the album with this role, and has not been removed since. -/
def Standing (events : List Event) (albumId userId : UUID) (role : MemberRole) : Prop :=
  ∃ before user invite now after, events = before ++ .committed user (.join invite now false) :: after ∧
    user.id = userId ∧ invite.albumId = albumId ∧ invite.role = role ∧
    ∀ owner, Event.committed owner (.removeMember albumId userId) ∉ after

theorem Standing.append {event : Event} {memberRole : MemberRole} (standing : Standing events albumId userId memberRole)
    (other : ∀ owner, event ≠ .committed owner (.removeMember albumId userId)) :
    Standing (events ++ [event]) albumId userId memberRole := by
  obtain ⟨before, user, invite, now, after, rfl, same, album, role, kept⟩ := standing
  refine ⟨before, user, invite, now, after ++ [event], by simp, same, album, role, fun owner member => ?_⟩
  rcases List.mem_append.mp member with old | new
  · exact kept owner old
  · exact other owner (List.mem_singleton.mp new).symm

/-! ### Rows -/

/-- The identifier belongs to assets of this user only. -/
structure Belongs (assets : List Asset) (nextId assetId userId : UUID) : Prop where
  given : assetId < nextId
  owner : ∀ asset ∈ assets, asset.id = assetId → asset.userId = userId

/-- The rows come from what was committed. -/
structure Rows (functions : Functions) (events : List Event) (db : Database) : Prop where
  albums : ∀ album ∈ db.albums, Created events album.id album.userId
  members : ∀ row ∈ db.members, Entitled functions events row.userId row.albumId row.role.role
  placed : ∀ row ∈ db.albumAssets, ∃ userId, Belongs db.assets db.nextId row.assetId userId ∧
    Placed functions events row.albumId row.assetId userId
  invites : ∀ row ∈ db.invites, Invited events { row with acceptedAt := none }
  shares : ∀ share ∈ db.shares, Linked events share ∧ Belongs db.assets db.nextId share.assetId share.userId
  assets : ∀ asset ∈ db.assets, Belongs db.assets db.nextId asset.id asset.userId

/-- An open invitation has not been taken up. -/
def Untaken (events : List Event) (db : Database) : Prop :=
  ∀ row ∈ db.invites, row.acceptedAt = none → Unjoined events row.id

/-- No row has been added, and none has changed in what it is known by. -/
structure Within (db db' : Database) : Prop where
  nextId : db.nextId ≤ db'.nextId
  albums : ∀ album ∈ db'.albums, ∃ old ∈ db.albums, old.id = album.id ∧ old.userId = album.userId
  members : ∀ row ∈ db'.members, ∃ old ∈ db.members,
    old.albumId = row.albumId ∧ old.userId = row.userId ∧ old.role = row.role
  albumAssets : ∀ row ∈ db'.albumAssets, row ∈ db.albumAssets
  invites : ∀ row ∈ db'.invites, ∃ old ∈ db.invites,
    { row with acceptedAt := none } = { old with acceptedAt := none } ∧ (row.acceptedAt = none → old.acceptedAt = none)
  shares : ∀ share ∈ db'.shares, share ∈ db.shares
  assets : ∀ asset ∈ db'.assets, ∃ old ∈ db.assets, old.id = asset.id ∧ old.userId = asset.userId

theorem Within.refl (db : Database) : Within db db where
  nextId := Nat.le_refl _
  albums album member := ⟨album, member, rfl, rfl⟩
  members row member := ⟨row, member, rfl, rfl, rfl⟩
  albumAssets _ member := member
  invites row member := ⟨row, member, rfl, id⟩
  shares _ member := member
  assets asset member := ⟨asset, member, rfl, rfl⟩

theorem Within.trans {db'' : Database} (first : Within db db') (second : Within db' db'') : Within db db'' where
  nextId := Nat.le_trans first.nextId second.nextId
  albums album member := by
    obtain ⟨middle, there, id, userId⟩ := second.albums album member
    obtain ⟨old, here, id', userId'⟩ := first.albums middle there
    exact ⟨old, here, id'.trans id, userId'.trans userId⟩
  members row member := by
    obtain ⟨middle, there, album, userId, role⟩ := second.members row member
    obtain ⟨old, here, album', userId', role'⟩ := first.members middle there
    exact ⟨old, here, album'.trans album, userId'.trans userId, role'.trans role⟩
  albumAssets row member := first.albumAssets row (second.albumAssets row member)
  invites row member := by
    obtain ⟨middle, there, same, still⟩ := second.invites row member
    obtain ⟨old, here, same', still'⟩ := first.invites middle there
    exact ⟨old, here, same.trans same', fun none_ => still' (still none_)⟩
  shares share member := first.shares share (second.shares share member)
  assets asset member := by
    obtain ⟨middle, there, id, userId⟩ := second.assets asset member
    obtain ⟨old, here, id', userId'⟩ := first.assets middle there
    exact ⟨old, here, id'.trans id, userId'.trans userId⟩

theorem Belongs.within (within : Within db db') (belongs : Belongs db.assets db.nextId assetId userId) :
    Belongs db'.assets db'.nextId assetId userId where
  given := Nat.lt_of_lt_of_le belongs.given within.nextId
  owner asset member same := by
    obtain ⟨old, here, id, owner⟩ := within.assets asset member
    exact owner.symm.trans (belongs.owner old here (id.trans same))

theorem Rows.within (rows : Rows functions events db) (within : Within db db') : Rows functions events db' where
  albums album member := by
    obtain ⟨old, here, id, userId⟩ := within.albums album member
    exact id ▸ userId ▸ rows.albums old here
  members row member := by
    obtain ⟨old, here, album, userId, role⟩ := within.members row member
    exact album ▸ userId ▸ role ▸ rows.members old here
  placed row member := by
    obtain ⟨userId, belongs, placed⟩ := rows.placed row (within.albumAssets row member)
    exact ⟨userId, belongs.within within, placed⟩
  invites row member := by
    obtain ⟨old, here, same, _⟩ := within.invites row member
    exact same ▸ rows.invites old here
  shares share member := by
    obtain ⟨linked, belongs⟩ := rows.shares share (within.shares share member)
    exact ⟨linked, belongs.within within⟩
  assets asset member := by
    obtain ⟨old, here, id, userId⟩ := within.assets asset member
    exact id ▸ userId ▸ (rows.assets old here).within within

theorem Untaken.within (untaken : Untaken events db) (within : Within db db') : Untaken events db' := by
  intro row member open_
  obtain ⟨old, here, same, still⟩ := within.invites row member
  have id := congrArg AlbumInvite.id same
  exact (congrArg (Unjoined events) id).mpr (untaken old here (still open_))

theorem Rows.mono (grows : ∀ e ∈ events, e ∈ later) (rows : Rows functions events db) : Rows functions later db where
  albums album member := (rows.albums album member).mono grows
  members row member := (rows.members row member).mono grows
  placed row member := by
    obtain ⟨userId, belongs, placed⟩ := rows.placed row member
    exact ⟨userId, belongs, placed.mono grows⟩
  invites row member := (rows.invites row member).mono grows
  shares share member := (rows.shares share member).imp_left (·.mono grows)
  assets := rows.assets

end Drivebound.Collaboration
