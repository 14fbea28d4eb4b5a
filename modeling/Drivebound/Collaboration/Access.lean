import Drivebound.Collaboration.Provenance

/-! Who may change and who may see what, in every order of the requests. The lock on an invitation
keeps it from being taken up twice; everything else a request found out stays true. -/
namespace Drivebound.Collaboration
open Chronicle Sessions Run

variable {functions : Functions} {events later : List Event} {db db' : Database} {user : User} {change : Change}
  {userId albumId assetId : UUID} {role minimum : Role}

/-! ### What a change does to the rows -/

theorem dropAlbums_within (db : Database) (gone : Album → Bool) : Within db (db.dropAlbums gone) where
  nextId := Nat.le_refl _
  albums album member := ⟨album, (List.mem_filter.mp member).1, rfl, rfl⟩
  members row member := ⟨row, (List.mem_filter.mp member).1, rfl, rfl, rfl⟩
  albumAssets _ member := (List.mem_filter.mp member).1
  invites row member := ⟨row, (List.mem_filter.mp member).1, rfl, id⟩
  shares _ member := member
  assets asset member := ⟨asset, member, rfl, rfl⟩

theorem dropAsset_within (db : Database) (id : UUID) : Within db (db.dropAsset id) :=
  { Within.refl db with
    albumAssets := fun _ member => (List.mem_filter.mp member).1
    shares := fun _ member => (List.mem_filter.mp member).1
    assets := fun asset member => ⟨asset, (List.mem_filter.mp member).1, rfl, rfl⟩ }

theorem withoutUser_within (db : Database) (userId : UUID) : Within db (db.withoutUser userId) := by
  refine (dropAlbums_within db _).trans { Within.refl _ with
    members := fun row member => ⟨row, (List.mem_filter.mp member).1, rfl, rfl, rfl⟩
    invites := fun row member => ⟨row, (List.mem_filter.mp member).1, rfl, id⟩
    shares := fun _ member => (List.mem_filter.mp member).1 }

theorem markAccepted_within (db : Database) (id : UUID) (now : Timestamp) : Within db (db.markAccepted id now) :=
  { Within.refl db with
    invites := by
      intro row member
      obtain ⟨old, here, rfl⟩ := List.mem_map.mp member
      by_cases same : old.id = id
      · rw [if_pos same]
        exact ⟨old, here, rfl, fun accepted => by cases accepted⟩
      · rw [if_neg same]
        exact ⟨old, here, rfl, fun open_ => open_⟩ }

theorem elsewhere_within (db : Database) (change : Elsewhere) (store : ∀ asset, change ≠ .store asset) :
    Within db (db.elsewhere functions change) := by
  cases change with
  | store asset => exact absurd rfl (store asset)
  | change assetId change =>
    refine { Within.refl db with assets := fun asset member => ?_ }
    obtain ⟨old, here, rfl⟩ := List.mem_map.mp member
    by_cases same : old.id = assetId
    · rw [if_pos same]
      exact ⟨old, here, rfl, rfl⟩
    · rw [if_neg same]
      exact ⟨old, here, rfl, rfl⟩
  | purge assetId => exact dropAsset_within db assetId
  | erase userId email =>
    refine (withoutUser_within db userId).trans { Within.refl _ with invites := fun row member => ?_ }
    exact ⟨row, (List.mem_filter.mp member).1, rfl, id⟩
  | forget userId =>
    refine (withoutUser_within db userId).trans { Within.refl _ with members := fun row member => ?_ }
    obtain ⟨old, here, rfl⟩ := List.mem_map.mp member
    by_cases own : old.invitedBy = some userId
    · rw [if_pos own]
      exact ⟨old, here, rfl, rfl, rfl⟩
    · rw [if_neg own]
      exact ⟨old, here, rfl, rfl, rfl⟩
  | suppress userId evidence => exact { Within.refl db with }

/-- A new asset gets an identifier that nothing refers to. -/
theorem Belongs.store (asset : Asset) (belongs : Belongs db.assets db.nextId assetId userId) :
    Belongs (db.elsewhere functions (.store asset)).assets (db.elsewhere functions (.store asset)).nextId assetId
      userId where
  given := Nat.lt_succ_of_lt belongs.given
  owner other member same := by
    rcases List.mem_append.mp member with old | new
    · exact belongs.owner other old same
    · cases List.mem_singleton.mp new
      exact absurd same (Nat.ne_of_gt belongs.given)

theorem Rows.store (asset : Asset) (rows : Rows functions events db) :
    Rows functions events (db.elsewhere functions (.store asset)) where
  albums := rows.albums
  members := rows.members
  placed row member := by
    obtain ⟨userId, belongs, placed⟩ := rows.placed row member
    exact ⟨userId, belongs.store asset, placed⟩
  invites := rows.invites
  shares share member := (rows.shares share member).imp_right (·.store asset)
  assets other member := by
    rcases List.mem_append.mp member with old | new
    · exact (rows.assets other old).store asset
    · cases List.mem_singleton.mp new
      refine ⟨Nat.lt_succ_self _, fun third among same => ?_⟩
      rcases List.mem_append.mp among with old | new
      · exact absurd same (Nat.ne_of_lt (rows.assets third old).given)
      · cases List.mem_singleton.mp new
        rfl

/-- What a session knows of the rows that its change refers to. -/
def Sure (events : List Event) (db : Database) (user : User) : Change → Prop
  | .addAsset row => Belongs db.assets db.nextId row.assetId user.id
  | .createShare share => Belongs db.assets db.nextId share.assetId share.userId
  | .invite row => row.acceptedAt = none
  | .join invite _ _ => Unjoined events invite.id
  | _ => True

theorem apply_within (applied : db.apply user change = .ok db')
    (plain : change.givenId = none) (add : ∀ row, change ≠ .addAsset row) (share : ∀ share, change ≠ .createShare share)
    (join : ∀ row now, change ≠ .join row now false) : Within db db' := by
  cases change with
  | createAlbum album => cases plain
  | invite row => cases plain
  | addAsset row => exact absurd rfl (add row)
  | createShare row => exact absurd rfl (share row)
  | updateAlbum albumId name description =>
    simp only [Database.apply] at applied
    split at applied
    · cases applied
      refine { Within.refl db with albums := fun album member => ?_ }
      obtain ⟨old, here, rfl⟩ := List.mem_map.mp member
      by_cases same : old.id = albumId
      · rw [if_pos same]
        exact ⟨old, here, rfl, rfl⟩
      · rw [if_neg same]
        exact ⟨old, here, rfl, rfl⟩
    · cases applied
  | deleteAlbum albumId =>
    cases applied
    exact dropAlbums_within db _
  | removeAsset row =>
    cases applied
    exact { Within.refl db with albumAssets := fun _ member => (List.mem_filter.mp member).1 }
  | join row now present =>
    simp only [Database.apply] at applied
    split at applied
    · cases present with
      | false => exact absurd rfl (join row now)
      | true =>
        cases applied
        exact markAccepted_within db row.id now
    · cases applied
  | removeMember albumId userId =>
    cases applied
    exact { Within.refl db with members := fun row member => ⟨row, (List.mem_filter.mp member).1, rfl, rfl, rfl⟩ }

theorem apply_assets (applied : db.apply user change = .ok db') :
    db'.assets = db.assets ∧ db'.nextId = db.nextId := by
  cases change with
  | join row now present =>
    simp only [Database.apply, Database.insertMember] at applied
    split at applied
    · split at applied
      · cases applied
        exact ⟨rfl, rfl⟩
      · split at applied
        · cases applied
          exact ⟨rfl, rfl⟩
        · cases applied
    · cases applied
  | createAlbum album =>
    cases applied
    exact ⟨rfl, rfl⟩
  | deleteAlbum albumId =>
    cases applied
    exact ⟨rfl, rfl⟩
  | removeAsset row =>
    cases applied
    exact ⟨rfl, rfl⟩
  | removeMember albumId userId =>
    cases applied
    exact ⟨rfl, rfl⟩
  | updateAlbum | addAsset | invite | createShare =>
    simp only [Database.apply] at applied
    split at applied
    · cases applied
      exact ⟨rfl, rfl⟩
    · cases applied

theorem Rows.apply (rows : Rows functions events db) (authorized : Authorized functions events user change)
    (sure : Sure events db user change) (applied : db.apply user change = .ok db') :
    Rows functions (events ++ [.committed user change]) db' := by
  have grows := grows_append events (.committed user change)
  have noted : Event.committed user change ∈ events ++ [.committed user change] :=
    List.mem_append_right _ List.mem_cons_self
  have before := rows.mono grows
  cases change with
  | createAlbum album =>
    cases applied
    refine { before with albums := List.forall_mem_append.mpr ⟨before.albums, List.forall_mem_singleton.mpr ?_⟩ }
    exact ⟨user, album, noted, rfl, rfl⟩
  | addAsset row =>
    simp only [Database.apply] at applied
    split at applied
    · cases applied
      refine { before with placed := List.forall_mem_append.mpr ⟨before.placed, List.forall_mem_singleton.mpr ?_⟩ }
      exact ⟨user.id, sure, ⟨user, noted, rfl⟩, EntitledTo.mono grows authorized⟩
    · cases applied
  | invite row =>
    simp only [Database.apply] at applied
    split at applied
    · cases applied
      refine { before with invites := List.forall_mem_append.mpr ⟨before.invites, List.forall_mem_singleton.mpr ?_⟩ }
      have open_ : ({ row with acceptedAt := none } : AlbumInvite) = row := by rw [← (sure : row.acceptedAt = none)]
      rw [open_]
      exact ⟨⟨user, noted⟩, authorized.1.mono grows⟩
    · cases applied
  | createShare share =>
    simp only [Database.apply] at applied
    split at applied
    · cases applied
      refine { before with shares := List.forall_mem_append.mpr ⟨before.shares, List.forall_mem_singleton.mpr ?_⟩ }
      exact ⟨⟨user, noted, authorized.symm⟩, sure⟩
    · cases applied
  | join row now present =>
    have marked := before.within (markAccepted_within db row.id now)
    simp only [Database.apply, Database.insertMember] at applied
    split at applied
    · split at applied
      · cases applied
        exact marked
      · next absent =>
        cases (Bool.not_eq_true _).mp absent
        split at applied
        · cases applied
          refine { marked with members := List.forall_mem_append.mpr ⟨marked.members, List.forall_mem_singleton.mpr ?_⟩ }
          exact .member user row now noted rfl rfl (Addressed.mono grows authorized)
        · cases applied
    · cases applied
  | updateAlbum | deleteAlbum | removeAsset | removeMember =>
    exact before.within (apply_within applied rfl (fun _ same => by cases same) (fun _ same => by cases same)
      fun _ _ same => by cases same)

theorem Untaken.apply (untaken : Untaken events db) (fresh : ∀ id ∈ change.givenId, Unjoined events id)
    (applied : db.apply user change = .ok db') : Untaken (events ++ [.committed user change]) db' := by
  have still : ∀ {id}, Unjoined events id → (Event.committed user change).joinedId = none →
      Unjoined (events ++ [.committed user change]) id :=
    fun unjoined other => unjoined.append fun same => by cases other.symm.trans same
  cases change with
  | join invite now present =>
    have others : ∀ row ∈ (db.markAccepted invite.id now).invites, row.acceptedAt = none →
        Unjoined (events ++ [.committed user (.join invite now present)]) row.id := by
      intro row member open_
      obtain ⟨old, here, rfl⟩ := List.mem_map.mp member
      by_cases same : old.id = invite.id
      · rw [if_pos same] at open_
        cases open_
      · rw [if_neg same] at open_ ⊢
        exact (untaken old here open_).append fun joined => same (Option.some.inj joined).symm
    simp only [Database.apply, Database.insertMember] at applied
    split at applied
    · split at applied
      · cases applied
        exact others
      · split at applied
        · cases applied
          exact others
        · cases applied
    · cases applied
  | invite row =>
    simp only [Database.apply] at applied
    split at applied
    · cases applied
      refine List.forall_mem_append.mpr ⟨fun old member open_ => still (untaken old member open_) rfl,
        List.forall_mem_singleton.mpr fun _ => still (fresh row.id rfl) rfl⟩
    · cases applied
  | createAlbum album =>
    cases applied
    exact fun row member open_ => still (untaken row member open_) rfl
  | addAsset row =>
    simp only [Database.apply] at applied
    split at applied
    · cases applied
      exact fun row member open_ => still (untaken row member open_) rfl
    · cases applied
  | createShare share =>
    simp only [Database.apply] at applied
    split at applied
    · cases applied
      exact fun row member open_ => still (untaken row member open_) rfl
    · cases applied
  | updateAlbum | deleteAlbum | removeAsset | removeMember =>
    have kept := untaken.within (apply_within applied rfl (fun _ same => by cases same) (fun _ same => by cases same)
      fun _ _ same => by cases same)
    exact fun row member open_ => still (kept row member open_) rfl

theorem apply_members (applied : db.apply user change = .ok db') (join : ∀ row now present, change ≠ .join row now present)
    {row : AlbumMember} (member : row ∈ db'.members) : row ∈ db.members := by
  cases change with
  | join invite now present => exact absurd rfl (join invite now present)
  | createAlbum album =>
    cases applied
    exact member
  | deleteAlbum albumId =>
    cases applied
    exact (List.mem_filter.mp member).1
  | removeAsset row =>
    cases applied
    exact member
  | removeMember albumId userId =>
    cases applied
    exact (List.mem_filter.mp member).1
  | updateAlbum | addAsset | invite | createShare =>
    simp only [Database.apply] at applied
    split at applied
    · cases applied
      exact member
    · cases applied

/-- Every member has joined, and has not been removed since. -/
def AllStand (events : List Event) (db : Database) : Prop :=
  ∀ row ∈ db.members, Standing events row.albumId row.userId row.role

theorem AllStand.within (stand : AllStand events db) (within : Within db db') : AllStand events db' := by
  intro row member
  obtain ⟨old, here, album, userId, role⟩ := within.members row member
  exact album ▸ userId ▸ role ▸ stand old here

theorem AllStand.apply (stand : AllStand events db) (applied : db.apply user change = .ok db') :
    AllStand (events ++ [.committed user change]) db' := by
  cases change with
  | join invite now present =>
    have before : AllStand (events ++ [.committed user (.join invite now present)]) db :=
      fun row member => (stand row member).append fun _ same => by cases same
    have marked := before.within (markAccepted_within db invite.id now)
    simp only [Database.apply, Database.insertMember] at applied
    split at applied
    · split at applied
      · cases applied
        exact marked
      · next absent =>
        cases (Bool.not_eq_true _).mp absent
        split at applied
        · cases applied
          refine List.forall_mem_append.mpr ⟨marked, List.forall_mem_singleton.mpr ?_⟩
          exact ⟨events, user, invite, now, [], rfl, rfl, rfl, rfl, fun _ none_ => by cases none_⟩
        · cases applied
    · cases applied
  | removeMember albumId userId =>
    cases applied
    intro row member
    obtain ⟨here, other⟩ := List.mem_filter.mp member
    refine (stand row here).append fun owner same => ?_
    cases same
    simp at other
  | createAlbum | updateAlbum | deleteAlbum | addAsset | removeAsset | invite | createShare =>
    intro row member
    have here := apply_members applied (fun _ _ _ same => by cases same) member
    exact (stand row here).append fun _ same => by cases same

/-! ### Sessions -/

/-- What a session has found out. -/
def Knows (functions : Functions) (r : Database × List Event) : Phase → Prop
  | .admitted user request album role =>
    Entitled functions r.2 user.id album.id role ∧ request.minimum.rank ≤ role.rank
  | .offering user albumId asset =>
    EntitledTo functions r.2 .editor user.id albumId ∧ Belongs r.1.assets r.1.nextId asset.id user.id
  | .invited _ invite now =>
    (Invited r.2 invite ∧ invite.acceptedAt = none ∧ now < invite.expiresAt) ∧ Unjoined r.2 invite.id
  | .welcomed user invite now => Addressed functions r.2 user invite now ∧ Unjoined r.2 invite.id
  | .committing user change => Authorized functions r.2 user change ∧ Sure r.2 r.1 user change
  | .assetRead user asset => Readable functions r.2 user.id asset
  | .listing user visible remaining => ∀ asset ∈ visible ++ remaining, Readable functions r.2 user.id asset
  | .resolved share token password now => SharedRightly functions r.2 share token password now ∧
    Belongs r.1.assets r.1.nextId share.assetId share.userId
  | .idle | .answered _ | .entered .. | .opened .. | .locked .. | .visiting .. => True

/-- The locked invitation. -/
def Holding : Phase → UUID → Prop
  | .locked _ inviteId _, id => id = inviteId
  | .invited _ invite _, id | .welcomed _ invite _, id | .committing _ (.join invite _ _), id => id = invite.id
  | _, _ => False

structure Global (functions : Functions) (r : Database × List Event) : Prop where
  notes : Notes functions r.2 r.1.nextId
  rows : Rows functions r.2 r.1
  untaken : Untaken r.2 r.1
  stand : AllStand r.2 r.1

variable {r r' : Database × List Event} {phase : Phase}

/-- What was found out stays true, as long as the locked invitation is not taken up. -/
theorem Knows.stable (grows : ∀ e ∈ r.2, e ∈ r'.2)
    (belongs : ∀ assetId userId, Belongs r.1.assets r.1.nextId assetId userId →
      Belongs r'.1.assets r'.1.nextId assetId userId)
    (unjoined : ∀ id, Holding phase id → Unjoined r.2 id → Unjoined r'.2 id) (knows : Knows functions r phase) :
    Knows functions r' phase := by
  cases phase with
  | admitted user request album role => exact knows.imp_left (·.mono grows)
  | offering user albumId asset => exact ⟨knows.1.mono grows, belongs _ _ knows.2⟩
  | invited user invite now =>
    obtain ⟨⟨invited, open_⟩, untaken⟩ := knows
    exact ⟨⟨invited.mono grows, open_⟩, unjoined _ rfl untaken⟩
  | welcomed user invite now => exact ⟨knows.1.mono grows, unjoined _ rfl knows.2⟩
  | committing user change =>
    refine ⟨knows.1.mono grows, ?_⟩
    have sure := knows.2
    cases change with
    | addAsset row => exact belongs _ _ sure
    | createShare share => exact belongs _ _ sure
    | invite row => exact sure
    | join invite now present => exact unjoined _ rfl sure
    | createAlbum | updateAlbum | deleteAlbum | removeAsset | removeMember => trivial
  | assetRead user asset => exact Readable.mono grows knows
  | listing user visible remaining => exact fun asset member => (knows asset member).mono grows
  | resolved share token password now =>
    exact ⟨{ knows.1 with linked := knows.1.linked.mono grows }, belongs _ _ knows.2⟩
  | idle | answered | entered | opened | locked | visiting => trivial

/-! ### Steps -/

/-- What an outcome owes the invariant, with the notes after it. -/
abbrev Pays (functions : Functions) (r : Database × List Event) (phase : Phase) (later : List Event)
    (outcome : Step) : Prop :=
  Owes Holding (Global functions) (Knows functions) r phase (outcome.recorded later)

theorem pays_answer {answer : Except Refusal Answer} (global : Global functions (db, events)) :
    Pays functions (db, events) phase events (.finish db (.answered answer)) :=
  Owes.rollback global trivial fun _ held => held

theorem pays_stay {next : Phase} (global : Global functions (db, events)) (arrives : Knows functions (db, events) next)
    (kept : ∀ id, Holding next id → Holding phase id) : Pays functions (db, events) phase events (.stay db next) :=
  Owes.quiet global arrives kept

/-- An answer that shows something. -/
theorem pays_note {event : Event} {answer : Except Refusal Answer} (global : Global functions (db, events))
    (justified : Justified functions events event) (shows : ∀ user change, event ≠ .committed user change) :
    Pays functions (db, events) phase (events ++ [event]) (.finish db (.answered answer)) := by
  have grows := grows_append events event
  have plain : event.joinedId = none := by
    cases event with
    | committed user change => exact absurd rfl (shows user change)
    | served | shared => rfl
  have still : ∀ id, Unjoined events id → Unjoined (events ++ [event]) id :=
    fun id unjoined => unjoined.append fun same => by cases plain.symm.trans same
  have notes : Notes functions (events ++ [event]) db.nextId :=
    global.notes.append (Nat.le_refl _) justified fun id gave => by
      cases event with
      | committed user change => exact absurd rfl (shows user change)
      | served | shared => cases gave
  refine ⟨⟨notes, global.rows.mono grows, fun row member open_ => still _ (global.untaken row member open_),
    fun row member => (global.stand row member).append fun owner => shows owner _⟩, trivial, fun _ held => held, ?_⟩
  intro m apart knows
  exact @Knows.stable functions (db, events) (db, events ++ [event]) m grows (fun _ _ belongs => belongs)
    (fun id _ => still id) knows

theorem album?_mem {album : Album} (found : db.album? albumId = some album) : album ∈ db.albums := by
  unfold Database.album? at found
  exact List.mem_of_find?_eq_some found

theorem requireRole_pays {request : AlbumRequest} {album : Album} (global : Global functions (db, events))
    (entitled : Entitled functions events user.id album.id role) :
    Pays functions (db, events) phase events (requireRole db user request album role) := by
  unfold requireRole
  split
  · exact pays_answer global
  · next enough => exact pays_stay global ⟨entitled, Nat.le_of_not_lt enough⟩ fun _ held => held.elim

theorem openAlbum_pays {request : AlbumRequest} (global : Global functions (db, events)) :
    Pays functions (db, events) phase events (openAlbum db user request albumId) := by
  unfold openAlbum
  cases found : db.album? albumId with
  | none => exact pays_answer global
  | some album =>
    dsimp only
    cases db.evidence album.userId with
    | denied => exact pays_answer global
    | unavailable => exact pays_answer global
    | absent =>
      dsimp only
      split
      · next own => exact requireRole_pays global (.owner (own ▸ global.rows.albums album (album?_mem found)))
      · exact pays_stay global trivial fun _ held => held.elim

theorem findMember_pays {request : AlbumRequest} {album : Album} (global : Global functions (db, events)) :
    Pays functions (db, events) phase events (findMember db user request album) := by
  unfold findMember
  cases found : db.member? album.id user.id with
  | none => exact pays_answer global
  | some member =>
    have holds := List.find?_some found
    simp only [Bool.and_eq_true, decide_eq_true_eq] at holds
    refine requireRole_pays global ?_
    exact holds.1 ▸ holds.2 ▸ global.rows.members member (List.mem_of_find?_eq_some found)

/-- What the statement of `readable_asset` finds. -/
theorem readable_of_find {asset : Asset} (global : Global functions (db, events))
    (found : db.readable? user assetId = some asset) : Readable functions events user.id asset := by
  have member := List.mem_of_find?_eq_some found
  have holds := List.find?_some found
  simp only [Bool.and_eq_true, Bool.or_eq_true, decide_eq_true_eq, List.any_eq_true] at holds
  obtain ⟨⟨-, active⟩, own | ⟨row, placed, same, album, among, named, rights⟩⟩ := holds
  · exact ⟨active, .inl own⟩
  · obtain ⟨owner, belongs, put⟩ := global.rows.placed row placed
    have owned : asset.userId = owner := belongs.owner asset member same.symm
    refine ⟨active, .inr ⟨row.albumId, same ▸ owned ▸ put, ?_⟩⟩
    rcases rights with own | ⟨present, listed, within, mine⟩
    · exact ⟨.owner, Nat.zero_le _, .owner (own ▸ named ▸ global.rows.albums album among)⟩
    · exact ⟨present.role.role, Nat.zero_le _, named ▸ within ▸ mine ▸ global.rows.members present listed⟩

theorem enterRequest_pays {request : Request} {now : Timestamp} {token : String}
    (global : Global functions (db, events)) :
    Pays functions (db, events) (.entered user request) events (enterRequest functions db now token user request) := by
  cases request with
  | createAlbum name description => exact pays_stay global ⟨rfl, trivial⟩ fun _ held => held
  | deleteAlbum albumId =>
    simp only [enterRequest]
    split
    · exact pays_answer global
    · next album found =>
      have holds := List.find?_some found
      simp only [Bool.and_eq_true, decide_eq_true_eq] at holds
      refine pays_stay global ⟨?_, trivial⟩ fun _ held => held
      have created := global.rows.albums album (List.mem_of_find?_eq_some found)
      rw [holds.2] at created
      exact created
  | within albumId request => exact openAlbum_pays global
  | acceptInvite presented =>
    simp only [enterRequest]
    split
    · exact pays_answer global
    · exact ⟨trivial, fun _ held => .inl held⟩
  | createShare assetId password allowDownload hours =>
    simp only [enterRequest]
    split
    · exact pays_answer global
    · next asset found =>
      have holds := List.find?_some found
      simp only [isOwnAsset, Bool.and_eq_true, decide_eq_true_eq] at holds
      refine pays_stay global ⟨rfl, ?_⟩ fun _ held => held
      exact holds.1.2 ▸ global.rows.assets asset (List.mem_of_find?_eq_some found)
  | readAsset assetId =>
    simp only [enterRequest]
    split
    · exact pays_answer global
    · next asset found => exact pays_stay global (readable_of_find global found) fun _ held => held

theorem afterRole_pays {request : AlbumRequest} {album : Album} {now : Timestamp} {token : String}
    (global : Global functions (db, events)) (entitled : Entitled functions events user.id album.id role)
    (enough : request.minimum.rank ≤ role.rank) :
    Pays functions (db, events) phase events (afterRole functions db now token user album request) := by
  cases request with
  | update name description => exact pays_stay global ⟨⟨role, enough, entitled⟩, trivial⟩ fun _ held => held.elim
  | addAsset assetId =>
    simp only [afterRole]
    split
    · exact pays_answer global
    · next asset found =>
      have holds := List.find?_some found
      simp only [isOwnAsset, Bool.and_eq_true, decide_eq_true_eq] at holds
      refine pays_stay global ⟨⟨role, enough, entitled⟩, ?_⟩ fun _ held => held.elim
      exact holds.2 ▸ global.rows.assets asset (List.mem_of_find?_eq_some found)
  | listAssets =>
    refine pays_stay global (fun asset member => ?_) fun _ held => held.elim
    obtain ⟨there, holds⟩ := List.mem_filter.mp member
    simp only [Bool.and_eq_true, decide_eq_true_eq, List.contains_iff_mem] at holds
    obtain ⟨owner, belongs, put⟩ := global.rows.placed _ holds.2
    have owned : asset.userId = owner := belongs.owner asset there rfl
    exact ⟨holds.1, .inr ⟨album.id, owned ▸ put, role, enough, entitled⟩⟩
  | removeAsset assetId =>
    simp only [afterRole]
    split
    · exact pays_stay global ⟨⟨role, enough, entitled⟩, trivial⟩ fun _ held => held.elim
    · exact pays_answer global
  | inviteMember email memberRole =>
    refine pays_stay global ⟨⟨created_of_owner ⟨role, enough, entitled⟩, rfl⟩, rfl⟩ fun _ held => held.elim
  | removeMember memberId =>
    simp only [afterRole]
    split
    · exact pays_answer global
    · next member found =>
      have holds := List.find?_some found
      simp only [Bool.and_eq_true, decide_eq_true_eq] at holds
      refine pays_stay global ⟨?_, trivial⟩ fun _ held => held.elim
      exact ⟨role, enough, holds.1.symm ▸ entitled⟩

theorem checkInvite_pays {invite : AlbumInvite} {now : Timestamp} (global : Global functions (db, events))
    (knows : Knows functions (db, events) (.invited user invite now)) :
    Pays functions (db, events) (.invited user invite now) events (checkInvite functions db user invite now) := by
  obtain ⟨⟨invited, unaccepted, unexpired⟩, unjoined⟩ := knows
  unfold checkInvite
  cases db.album? invite.albumId with
  | none => exact pays_answer global
  | some album =>
    dsimp only
    cases db.evidence album.userId with
    | denied => exact pays_answer global
    | unavailable => exact pays_answer global
    | absent =>
      cases db.evidence invite.invitedBy with
      | denied => exact pays_answer global
      | unavailable => exact pays_answer global
      | absent =>
        dsimp only
        split
        · next addressee =>
          exact pays_stay global ⟨⟨invited, unaccepted, unexpired, addressee⟩, unjoined⟩ fun _ held => held
        · exact pays_answer global

theorem findShare_pays {now : Timestamp} {token : String} {password : Option String}
    (global : Global functions (db, events)) :
    Pays functions (db, events) phase events (findShare functions db now token password) := by
  unfold findShare
  split
  · exact pays_answer global
  · next share found =>
    obtain ⟨linked, belongs⟩ := global.rows.shares share (List.mem_of_find?_eq_some found)
    have presented : share.tokenHash = functions.tokenDigest token := by simpa using List.find?_some found
    split
    · exact pays_answer global
    · split
      · exact pays_answer global
      · next unexpired =>
        split
        · next fits =>
          refine pays_stay global ⟨⟨linked, presented, fun t expires => ?_, fits⟩, belongs⟩ fun _ held => held.elim
          rw [Option.mem_def.mp expires] at unexpired
          simpa using unexpired
        · exact pays_answer global

end Drivebound.Collaboration
