import Drivebound.Collaboration.Access
import Mathlib

/-! What holds of albums and links over every run: who changed a row was entitled to it at that point,
and who was shown an asset owns it, belongs to an album that its owner put it into, or has its link. -/
namespace Drivebound.Collaboration
open Chronicle Sessions Run

variable {functions : Functions} {events later : List Event} {db db' : Database} {user : User} {change : Change}
  {userId albumId assetId : UUID} {phase : Phase} {outcome : Step}

/-! ### Statements -/

theorem note_none {action : Action} (plain : eventOf db phase action = none) : note db phase action events = events := by
  simp [note, plain]

theorem eventOf_none {action : Action} (commit : action ≠ .commit) (proceed : ∀ now token, action ≠ .proceed now token) :
    eventOf db phase action = none := by
  unfold eventOf
  split
  · exact absurd rfl commit
  · exact absurd rfl (proceed _ _)
  · exact absurd rfl (proceed _ _)
  · exact absurd rfl (proceed _ _)
  · rfl

theorem note_some {action : Action} {event : Event} (noted : eventOf db phase action = some event) :
    note db phase action events = events ++ [event] := by
  simp [note, noted]

/-- The locked invitation, read again. -/
theorem invite_of_find {inviteId : UUID} {invite : AlbumInvite} {now : Timestamp}
    (global : Global functions (db, events))
    (found : db.invites.find? (fun invite => invite.id = inviteId && invite.isOpen now) = some invite) :
    invite.id = inviteId ∧ Knows functions (db, events) (.invited user invite now) := by
  have member := List.mem_of_find?_eq_some found
  have holds := List.find?_some found
  simp only [AlbumInvite.isOpen, Bool.and_eq_true, decide_eq_true_eq, Option.isNone_iff_eq_none] at holds
  obtain ⟨same, open_, unexpired⟩ := holds
  have invited : Invited events { invite with acceptedAt := none } := global.rows.invites invite member
  rw [← open_] at invited
  exact ⟨same, ⟨invited, open_, unexpired⟩, global.untaken invite member open_⟩

theorem proceed_pays {now : Timestamp} {token : String} (global : Global functions (db, events))
    (knows : Knows functions (db, events) phase) (chosen : proceed functions db now token phase = some outcome) :
    Pays functions (db, events) phase (note db phase (.proceed now token) events) outcome := by
  cases phase with
  | idle => cases chosen
  | answered answer => cases chosen
  | committing user change => cases chosen
  | entered user request =>
    cases chosen
    rw [note_none rfl]
    exact enterRequest_pays global
  | opened user request album =>
    cases chosen
    rw [note_none rfl]
    exact findMember_pays global
  | admitted user request album role =>
    cases chosen
    rw [note_none rfl]
    exact afterRole_pays global knows.1 knows.2
  | offering user albumId asset =>
    rw [note_none rfl]
    simp only [proceed] at chosen
    split at chosen
    · cases chosen
      exact pays_answer global
    · cases chosen
      exact pays_stay global knows fun _ held => held
  | locked user inviteId now =>
    rw [note_none rfl]
    simp only [proceed] at chosen
    split at chosen
    · cases chosen
      exact pays_answer global
    · next invite found =>
      cases chosen
      obtain ⟨same, known⟩ := @invite_of_find functions _ db user _ _ _ global found
      exact pays_stay global known fun id held => Eq.trans held same
  | invited user invite now =>
    cases chosen
    rw [note_none rfl]
    exact checkInvite_pays global knows
  | welcomed user invite now =>
    cases chosen
    rw [note_none rfl]
    exact pays_stay global knows fun _ held => held
  | assetRead user asset =>
    cases chosen
    unfold checkAsset
    cases evidence : db.evidence asset.userId with
    | denied =>
      rw [note_none (by simp [eventOf, evidence])]
      exact pays_answer global
    | unavailable =>
      rw [note_none (by simp [eventOf, evidence])]
      exact pays_answer global
    | absent =>
      have noted : eventOf db (.assetRead user asset) (.proceed now token) = some (.served user [asset]) := if_pos evidence
      rw [note_some noted]
      exact pays_note global (List.forall_mem_singleton.mpr knows) fun _ _ same => by cases same
  | listing user visible remaining =>
    cases remaining with
    | nil =>
      cases chosen
      rw [note_some rfl]
      exact pays_note global (fun asset member => knows asset (List.mem_append_left _ member)) fun _ _ same => by cases same
    | cons asset rest =>
      cases chosen
      rw [note_none rfl]
      unfold checkItem
      cases db.evidence asset.userId with
      | denied =>
        refine pays_stay global (fun other member => knows other ?_) fun _ held => held
        rcases List.mem_append.mp member with shown | waiting
        · exact List.mem_append_left _ shown
        · exact List.mem_append_right _ (List.mem_cons_of_mem _ waiting)
      | unavailable => exact pays_answer global
      | absent =>
        refine pays_stay global (fun other member => knows other ?_) fun _ held => held
        rwa [List.append_assoc] at member
  | visiting presented password =>
    cases chosen
    rw [note_none rfl]
    exact findShare_pays global
  | resolved share presented password visited =>
    cases chosen
    obtain ⟨right, belongs⟩ := knows
    unfold sharedAsset
    cases found : db.asset? share.assetId with
    | none =>
      rw [note_none (by simp [eventOf, found])]
      exact pays_answer global
    | some asset =>
      have same : asset.id = share.assetId := by simpa using List.find?_some found
      dsimp only
      split
      · next active =>
        have noted : eventOf db (.resolved share presented password visited) (.proceed now token) =
            some (.shared share presented password visited asset) := by
          simp [eventOf, found, active]
        rw [note_some noted]
        refine pays_note global ⟨right, same, ?_, active⟩ fun _ _ same => by cases same
        exact belongs.owner asset (List.mem_of_find?_eq_some found) same
      · next inactive =>
        rw [note_none (by simp [eventOf, found, inactive])]
        exact pays_answer global

/-! ### Commits -/

theorem numbered_givenId (id : UUID) : ∀ given ∈ (change.numbered id).givenId, given = id := by
  cases change <;> simp [Change.numbered, Change.givenId]

theorem numbered_joinedId (id : UUID) :
    (Event.committed user (change.numbered id)).joinedId = (Event.committed user change).joinedId := by
  cases change <;> rfl

theorem Sure.numbered (id : UUID) (sure : Sure events db user change) : Sure events db user (change.numbered id) := by
  cases change <;> exact sure

/-- What is to be taken up is locked, and nobody has taken it up. -/
theorem joinedId_held (sure : Sure events db user change) {id : UUID}
    (joined : (Event.committed user change).joinedId = some id) :
    Holding (.committing user change) id ∧ Unjoined events id := by
  cases change with
  | join invite now present =>
    cases joined
    exact ⟨rfl, sure⟩
  | createAlbum | updateAlbum | deleteAlbum | addAsset | removeAsset | invite | removeMember | createShare =>
    cases joined

theorem commit_pays (global : Global functions (db, events))
    (knows : Knows functions (db, events) (.committing user change)) (committed : db.commit user change = .ok db') :
    Pays functions (db, events) (.committing user change) (events ++ [.committed user (change.numbered db.nextId)])
      (.finish db' (.answered (.ok .done))) := by
  obtain ⟨authorized, sure⟩ := knows
  have authorized' := authorized.numbered db.nextId
  have sure' := sure.numbered db.nextId
  unfold Database.commit at committed
  cases applied : db.apply user (change.numbered db.nextId) with
  | error refusal =>
    rw [applied] at committed
    cases committed
  | ok middle =>
    rw [applied] at committed
    cases committed
    obtain ⟨assets, nextId⟩ := apply_assets applied
    have bump : Within middle { middle with nextId := middle.nextId + 1 } :=
      { Within.refl middle with nextId := Nat.le_succ _ }
    have given := @numbered_givenId change db.nextId
    have justified : Justified functions events (.committed user (change.numbered db.nextId)) := by
      refine ⟨authorized', fun id joined => ?_⟩
      rw [numbered_joinedId] at joined
      exact (joinedId_held sure joined).2
    have numbered : ∀ id ∈ (Event.committed user (change.numbered db.nextId)).givenId,
        db.nextId ≤ id ∧ id < middle.nextId + 1 := by
      intro id member
      rw [given id member, nextId]
      exact ⟨Nat.le_refl _, Nat.lt_succ_self _⟩
    have notes := global.notes.append (nextId ▸ Nat.le_succ middle.nextId) justified numbered
    have fresh : ∀ id ∈ (change.numbered db.nextId).givenId, Unjoined events id := fun id member =>
      global.notes.unused (fun _ _ => joined_given) (Nat.le_of_eq (given id member).symm)
    refine ⟨⟨notes, (global.rows.apply authorized' sure' applied).within bump,
      (global.untaken.apply fresh applied).within bump, (global.stand.apply applied).within bump⟩,
      trivial, fun _ held => held, fun m apart known => ?_⟩
    refine Knows.stable (grows_append events _) (fun assetId userId belongs => ?_) (fun id held unjoined => ?_) known
    · refine ⟨?_, fun asset member => belongs.owner asset (assets ▸ member)⟩
      exact Nat.lt_succ_of_lt (nextId.symm ▸ belongs.given)
    · refine unjoined.append fun joined => ?_
      rw [numbered_joinedId] at joined
      exact apart id (joinedId_held sure joined).1 held

theorem elsewhere_pays (change : Elsewhere) (global : Global functions (db, events)) :
    Pays functions (db, events) .idle events (.finish (db.elsewhere functions change) .idle) := by
  by_cases store : ∃ asset, change = .store asset
  · obtain ⟨asset, rfl⟩ := store
    refine ⟨⟨global.notes.le (Nat.le_succ _), global.rows.store asset, global.untaken, global.stand⟩, trivial,
      fun _ held => held, fun m _ known => ?_⟩
    exact @Knows.stable functions (db, events) (db.elsewhere functions (.store asset), events) m (fun _ member => member)
      (fun assetId userId belongs => @Belongs.store functions db userId assetId asset belongs)
      (fun _ _ unjoined => unjoined) known
  · have within := @elsewhere_within functions db change fun asset same => store ⟨asset, same⟩
    refine ⟨⟨global.notes.le within.nextId, global.rows.within within, global.untaken.within within,
      global.stand.within within⟩, trivial, fun _ held => held, fun m _ known => ?_⟩
    exact @Knows.stable functions (db, events) (_, events) m (fun _ member => member)
      (fun _ _ belongs => belongs.within within) (fun _ _ unjoined => unjoined) known

theorem program_pays {action : Action} (global : Global functions (db, events))
    (knows : Knows functions (db, events) phase) (chosen : program functions db phase action = some outcome) :
    Pays functions (db, events) phase (note db phase action events) outcome := by
  cases action with
  | proceed now token => exact proceed_pays global knows (by simpa only [program] using chosen)
  | fail =>
    rw [note_none (eventOf_none (fun same => by cases same) fun _ _ same => by cases same)]
    cases phase <;> cases chosen <;> exact pays_answer global
  | commit =>
    cases phase with
    | committing user change =>
      simp only [program] at chosen
      split at chosen
      · next db' committed =>
        cases chosen
        rw [note_some (by simp only [eventOf, committed]; rfl)]
        exact commit_pays global knows committed
      · next refusal refused =>
        cases chosen
        rw [note_none (by simp only [eventOf, refused]; rfl)]
        exact pays_answer global
    | _ => cases chosen
  | enter user request =>
    rw [note_none (eventOf_none (fun same => by cases same) fun _ _ same => by cases same)]
    cases phase <;> cases chosen <;> exact pays_stay global trivial fun _ held => held
  | visit token password =>
    rw [note_none (eventOf_none (fun same => by cases same) fun _ _ same => by cases same)]
    cases phase <;> cases chosen <;> exact pays_stay global trivial fun _ held => held
  | elsewhere change =>
    rw [note_none (eventOf_none (fun same => by cases same) fun _ _ same => by cases same)]
    cases phase with
    | idle =>
      cases chosen
      exact elsewhere_pays change global
    | _ => cases chosen

/-! ### Runs -/

abbrev Guarded (functions : Functions) : Recorded → Prop := Sound Holding (Global functions) (Knows functions)

/-- No albums, links or assets yet. -/
def begin (evidence : UUID → Evidence) : Recorded := Store.idle (⟨[], [], [], [], [], [], 0, evidence⟩, []) .idle

theorem begin_guarded (evidence : UUID → Evidence) : Guarded functions (begin evidence) := by
  have rows : Rows functions [] ⟨[], [], [], [], [], [], 0, evidence⟩ := by
    constructor <;> simp
  exact Sound.idle ⟨Notes.nil 0, rows, List.forall_mem_nil _, List.forall_mem_nil _⟩ trivial fun _ held => held

variable {evidence : UUID → Evidence} {labels : List (Nat × Action)} {s s' : Recorded} {before : List Event}

theorem run_guarded (reached : run (recordedStep functions) (begin evidence) labels = some s) : Guarded functions s :=
  run_sound (fun _ _ _ _ global knows chosen => program_pays global knows chosen) (begin_guarded evidence) reached

/-! An album and a link. -/

def plainTexts : Functions := ⟨id, fun _ password => password, fun password stored => password = stored, id, id⟩

def owner : User := ⟨10, "o"⟩

def guest : User := ⟨20, "g"⟩

def photo : Asset where
  id := 1
  userId := 10
  logicalId := 1
  version := 1
  lifecycleState := .active
  supersededAt := none
  trashedAt := none
  purgeAfter := none
  deletedBy := none
  originalPath := "p"
  checksum := "c"
  storageChecksum := "c"
  encryptionVersion := 0
  fileSize := 3
  thumbnailPath := none
  previewPath := none
  storageSource := .managed
  originalFilename := none

/-- A request with so many statements. -/
def request (q : Nat) (user : User) (request : Request) (statements : Nat) (token : String) : List (Nat × Action) :=
  (q, .enter user request) :: List.replicate statements (q, .proceed 100 token)

/-- An album with a photo, and an invitation to it. -/
def opening : List (Nat × Action) :=
  request 1 owner (.createAlbum "a" none) 1 "" ++ [(1, .commit), (0, .elsewhere (.store photo))] ++
    request 1 owner (.within 0 (.addAsset 1)) 3 "" ++ [(1, .commit)] ++
    request 1 owner (.within 0 (.inviteMember "g" .viewer)) 2 "t" ++ [(1, .commit)]

def invitation : AlbumInvite := ⟨3, 0, "g", .viewer, "t", 10, 604900, none⟩

def album : Album := ⟨0, 10, "a", none⟩

def opened : List Event :=
  [.committed owner (.createAlbum album), .committed owner (.addAsset ⟨0, 1⟩), .committed owner (.invite invitation)]

/-- Two requests take up the invitation; the second one waits for the first. -/
def joining : List (Nat × Action) :=
  request 2 guest (.acceptInvite "t") 4 "" ++ [(3, .enter guest (.acceptInvite "t")), (2, .commit)]

def joined : List Event := opened ++ [.committed guest (.join invitation 100 false)]

def looking : List (Nat × Action) := (3, .fail) :: request 3 guest (.within 0 .listAssets) 5 ""

def linking : List (Nat × Action) :=
  request 1 owner (.createShare 1 (some "s") true (some 1)) 1 "u" ++ [(1, .commit), (4, .visit "u" (some "s"))] ++
    List.replicate 2 (4, .proceed 200 "")

def link : ShareLink := ⟨4, 10, 1, "u", some "s", true, some 3700⟩

abbrev Story (labels : List (Nat × Action)) (s : Recorded) : Prop :=
  run (recordedStep plainTexts) (begin fun _ => .absent) labels = some s

/-- Who changed something was entitled to it by what had been committed before: he created the album, or had once joined
it, removed since or not. An album has one owner, and nobody else ever has the rank of one. -/
theorem changes_are_authorized (reached : run (recordedStep functions) (begin evidence) labels = some s)
    (noted : before ++ [.committed user change] <+: s.shared.2) :
    Authorized functions before user change ∧ ∀ albumId owner creator,
      EntitledTo functions s.shared.2 .owner owner albumId → Created s.shared.2 albumId creator → owner = creator := by
  obtain ⟨notes, -⟩ := (run_guarded reached).global
  exact ⟨(notes.justified before _ noted).1, fun albumId owner creator entitled created =>
    created_sole notes (created_of_owner entitled) created⟩

theorem guest_is_authorized : ∃ s, Story (opening ++ joining) s ∧ (Authorized plainTexts opened guest
    (.join invitation 100 false) ∧ ∀ albumId owner creator, EntitledTo plainTexts s.shared.2 .owner owner albumId →
      Created s.shared.2 albumId creator → owner = creator) := by
  have joins : (run (recordedStep plainTexts) (begin fun _ => .absent) (opening ++ joining)).any fun s =>
      opened ++ [.committed guest (.join invitation 100 false)] <+: s.shared.2 := by decide
  obtain ⟨s, reached, noted⟩ := (Option.any_eq_true _ _).mp joins
  exact ⟨s, reached, changes_are_authorized reached (of_decide_eq_true noted)⟩

/-- An invitation is taken up by its addressee, in time, and by one request only. -/
theorem invitations_are_taken_up_once {invite : AlbumInvite} {now : Timestamp} {present : Bool}
    (reached : run (recordedStep functions) (begin evidence) labels = some s)
    (noted : before ++ [.committed user (.join invite now present)] <+: s.shared.2) :
    Addressed functions before user invite now ∧ Unjoined before invite.id := by
  obtain ⟨notes, -⟩ := (run_guarded reached).global
  obtain ⟨authorized, unjoined⟩ := notes.justified before _ noted
  exact ⟨authorized, unjoined invite.id rfl⟩

theorem guest_joins_once : ∃ s, Story (opening ++ joining) s ∧
    Addressed plainTexts opened guest invitation 100 ∧ Unjoined opened invitation.id := by
  have joins : (run (recordedStep plainTexts) (begin fun _ => .absent) (opening ++ joining)).any fun s =>
      opened ++ [.committed guest (.join invitation 100 false)] <+: s.shared.2 := by decide
  obtain ⟨s, reached, noted⟩ := (Option.any_eq_true _ _).mp joins
  exact ⟨s, reached, invitations_are_taken_up_once reached (of_decide_eq_true noted)⟩

theorem served_assets_are_readable {assets : List Asset} {asset : Asset}
    (reached : run (recordedStep functions) (begin evidence) labels = some s)
    (noted : before ++ [.served user assets] <+: s.shared.2) (shown : asset ∈ assets) :
    Readable functions before user.id asset :=
  (run_guarded reached).global.notes.justified before _ noted asset shown

theorem guest_may_look : ∃ s, Story (opening ++ joining ++ looking) s ∧ Readable plainTexts joined guest.id photo := by
  have looks : (run (recordedStep plainTexts) (begin fun _ => .absent) (opening ++ joining ++ looking)).any fun s =>
      joined ++ [.served guest [photo]] <+: s.shared.2 := by decide
  obtain ⟨s, reached, noted⟩ := (Option.any_eq_true _ _).mp looks
  exact ⟨s, reached, served_assets_are_readable reached (of_decide_eq_true noted) (List.mem_singleton_self photo)⟩

/-- Who is shown an asset through a link came with its token and password and in time; the asset is the link's
owner's own. -/
theorem shared_assets_are_linked {share : ShareLink} {token : String} {password : Option String} {now : Timestamp}
    {asset : Asset} (reached : run (recordedStep functions) (begin evidence) labels = some s)
    (noted : before ++ [.shared share token password now asset] <+: s.shared.2) :
    SharedRightly functions before share token password now ∧ asset.id = share.assetId ∧
      asset.userId = share.userId ∧ asset.lifecycleState = .active :=
  (run_guarded reached).global.notes.justified before _ noted

theorem photo_is_linked : ∃ s, Story (opening ++ linking) s ∧
    SharedRightly plainTexts (opened ++ [.committed owner (.createShare link)]) link "u" (some "s") 200 ∧
      photo.id = link.assetId ∧ photo.userId = link.userId ∧ photo.lifecycleState = .active := by
  have links : (run (recordedStep plainTexts) (begin fun _ => .absent) (opening ++ linking)).any fun s =>
      opened ++ [.committed owner (.createShare link)] ++ [.shared link "u" (some "s") 200 photo] <+: s.shared.2 := by
    decide
  obtain ⟨s, reached, noted⟩ := (Option.any_eq_true _ _).mp links
  exact ⟨s, reached, shared_assets_are_linked reached (of_decide_eq_true noted)⟩

/-! ### Admission -/

theorem requireRole_arrives {request request' : AlbumRequest} {album album' : Album} {role role' : Role} {user' : User}
    (arrives : (requireRole db user request album role).arrival = .admitted user' request' album' role') :
    user' = user ∧ album' = album ∧ role' = role ∧ request'.minimum.rank ≤ role'.rank := by
  unfold requireRole at arrives
  split at arrives
  · cases arrives
  · next enough =>
    cases arrives
    exact ⟨rfl, rfl, rfl, Nat.le_of_not_lt enough⟩

/-- The row that admits a user. -/
def AdmittedBy (db : Database) (user : User) (album : Album) (role : Role) : Prop :=
  (role = .owner ∧ album ∈ db.albums ∧ album.userId = user.id) ∨
    ∃ member ∈ db.members, member.albumId = album.id ∧ member.userId = user.id ∧ role = member.role.role

theorem proceed_arrives {request : AlbumRequest} {album : Album} {role : Role} {now : Timestamp} {token : String}
    (chosen : proceed functions db now token phase = some outcome)
    (arrives : outcome.arrival = .admitted user request album role) :
    request.minimum.rank ≤ role.rank ∧ AdmittedBy db user album role := by
  cases phase with
  | idle | answered | committing => cases chosen
  | entered visitor entered =>
    cases chosen
    cases entered with
    | within albumId entered =>
      simp only [enterRequest, openAlbum] at arrives
      split at arrives
      · cases arrives
      · next found =>
        split at arrives
        · cases arrives
        · cases arrives
        · split at arrives
          · next own =>
            obtain ⟨rfl, rfl, rfl, enough⟩ := requireRole_arrives arrives
            exact ⟨enough, .inl ⟨rfl, album?_mem found, own⟩⟩
          · cases arrives
    | createAlbum => cases arrives
    | deleteAlbum | acceptInvite | createShare | readAsset =>
      simp only [enterRequest] at arrives
      split at arrives <;> cases arrives
  | opened visitor entered opened =>
    cases chosen
    simp only [findMember] at arrives
    split at arrives
    · cases arrives
    · next member found =>
      obtain ⟨rfl, rfl, rfl, enough⟩ := requireRole_arrives arrives
      have holds := List.find?_some found
      simp only [Bool.and_eq_true, decide_eq_true_eq] at holds
      exact ⟨enough, .inr ⟨member, List.mem_of_find?_eq_some found, holds.1, holds.2, rfl⟩⟩
  | admitted visitor entered opened given =>
    cases chosen
    cases entered with
    | addAsset | removeAsset | removeMember =>
      simp only [afterRole] at arrives
      split at arrives <;> cases arrives
    | update | listAssets | inviteMember => cases arrives
  | offering | locked =>
    simp only [proceed] at chosen
    split at chosen <;> cases chosen <;> cases arrives
  | invited visitor invite now =>
    cases chosen
    unfold checkInvite at arrives
    repeat' split at arrives
    all_goals cases arrives
  | welcomed =>
    cases chosen
    cases arrives
  | assetRead =>
    cases chosen
    unfold checkAsset at arrives
    split at arrives <;> cases arrives
  | listing visitor visible remaining =>
    cases remaining with
    | nil =>
      cases chosen
      cases arrives
    | cons asset rest =>
      cases chosen
      unfold checkItem at arrives
      split at arrives <;> cases arrives
  | visiting =>
    cases chosen
    unfold findShare at arrives
    repeat' split at arrives
    all_goals cases arrives
  | resolved =>
    cases chosen
    unfold sharedAsset at arrives
    repeat' split at arrives
    all_goals cases arrives

theorem program_arrives {action : Action} {request : AlbumRequest} {album : Album} {role : Role}
    (chosen : program functions db phase action = some outcome)
    (arrives : outcome.arrival = .admitted user request album role) :
    request.minimum.rank ≤ role.rank ∧ AdmittedBy db user album role := by
  cases action with
  | proceed now token => exact proceed_arrives (by simpa only [program] using chosen) arrives
  | commit =>
    cases phase with
    | committing =>
      simp only [program] at chosen
      split at chosen <;> cases chosen <;> cases arrives
    | _ => cases chosen
  | enter | visit | fail | elsewhere =>
    cases phase <;> cases chosen <;> cases arrives

/-- A session gets as far as a change or a listing of an album only with the rank it takes: as the one who created
the album, or as a member who joined it and has not been removed since. -/
theorem admission_is_current {q : Nat} {action : Action} {request : AlbumRequest} {album : Album} {role : Role}
    (reached : run (recordedStep functions) (begin evidence) labels = some s)
    (stepped : recordedStep functions s (q, action) = some s')
    (admitted : s'.locals q = .admitted user request album role) :
    request.minimum.rank ≤ role.rank ∧ ((role = .owner ∧ Created s.shared.2 album.id user.id) ∨
      ∃ memberRole, role = memberRole.role ∧ Standing s.shared.2 album.id user.id memberRole) := by
  have global := (run_guarded reached).global
  obtain ⟨outcome, chosen, acted⟩ := Option.bind_eq_some_iff.mp stepped
  obtain ⟨plain, decided, rfl⟩ := Option.map_eq_some_iff.mp chosen
  have arrives : plain.arrival = .admitted user request album role := by
    rw [Store.act_locals acted, Function.update_self, recorded_arrival] at admitted
    exact admitted
  obtain ⟨enough, ⟨rfl, among, own⟩ | ⟨member, listed, same, mine, rfl⟩⟩ := program_arrives decided arrives
  · exact ⟨enough, .inl ⟨rfl, own ▸ global.rows.albums album among⟩⟩
  · exact ⟨enough, .inr ⟨member.role, rfl, same ▸ mine ▸ global.stand member listed⟩⟩

theorem guest_is_admitted : ∃ s s', Story (opening ++ joining ++ looking.take 3) s ∧
    recordedStep plainTexts s (3, .proceed 100 "") = some s' ∧
      AlbumRequest.listAssets.minimum.rank ≤ Role.viewer.rank ∧ ((Role.viewer = .owner ∧ Created s.shared.2 0 20) ∨
        ∃ memberRole, Role.viewer = memberRole.role ∧ Standing s.shared.2 0 20 memberRole) := by
  have admits : (run (recordedStep plainTexts) (begin fun _ => .absent) (opening ++ joining ++ looking.take 3)).any
      fun s => (recordedStep plainTexts s (3, .proceed 100 "")).any fun s' =>
        s'.locals 3 = .admitted guest .listAssets album .viewer := by decide
  obtain ⟨s, reached, after⟩ := (Option.any_eq_true _ _).mp admits
  obtain ⟨s', stepped, admitted⟩ := (Option.any_eq_true _ _).mp after
  exact ⟨s, s', reached, stepped, admission_is_current reached stepped (of_decide_eq_true admitted)⟩

end Drivebound.Collaboration
