import Drivebound.Federation.Keeping
import Mathlib

/-! Every commit keeps what the rows and the notes keep, and notes only what is justified. -/
namespace Drivebound.Federation
open Chronicle Sessions

variable {functions : Functions} {settings : Settings} {events later : List Event} {db db' : Database}
  {r r' r'' : Database × List Event} {userId sessionId : UUID} {mode : Mode} {vouch : Vouch} {event : Event}
  {keys : LockKey → Prop} {now : Timestamp} {settled : Settled}

structure Global (functions : Functions) (r : Database × List Event) : Prop where
  notes : Notes functions r.2 r.1.nextId
  rows : Rows functions r.2 r.1

/-- The key of the transaction's row. -/
abbrev tokenKey (functions : Functions) (id : UUID) : LockKey :=
  .token (functions.tokenDigest (functions.opaqueToken id))

structure Keeps (functions : Functions) (keys : LockKey → Prop) (r r' : Database × List Event) : Prop where
  global : Global functions r'
  steady : Steady functions keys r r'

theorem Keeps.trans (first : Keeps functions keys r r') (second : Keeps functions keys r' r'') :
    Keeps functions keys r r'' where
  global := second.global
  steady := {
    grows := fun e member => second.steady.grows e (first.steady.grows e member)
    leaves := first.steady.leaves.trans second.steady.leaves
    unspent := fun id free unspent => second.steady.unspent id free (first.steady.unspent id free unspent) }

/-- A change of the rows that nothing is noted of. -/
theorem keeps_rows (global : Global functions r) (rows : Rows functions r.2 db') (leaves : Leaves keys r.1 db') :
    Keeps functions keys r (db', r.2) where
  global := ⟨global.notes.le leaves.nextId, rows⟩
  steady := ⟨fun _ member => member, leaves, fun _ _ unspent => unspent⟩

/-- A note that uses only a transaction that is locked, and whose row is used already. -/
theorem keeps_note (global : Global functions (db, events)) (justified : Justified functions events event)
    (plain : event.givenToken = none)
    (held : ∀ id, event.usedToken = some id → keys (tokenKey functions id))
    (used : ∀ id, event.usedToken = some id → ∀ row ∈ db.tokens, row.usedAt = none → row.id ≠ id) :
    Keeps functions keys (db, events) (db, events ++ [event]) where
  global := {
    notes := global.notes.append (Nat.le_refl _) justified fun _ gave => by cases plain.symm.trans gave
    rows := global.rows.append fun row member unused same => used _ same row member unused rfl }
  steady := {
    grows := grows_append events event
    leaves := Leaves.refl keys db
    unspent := fun id free unspent => unspent.append fun same => free (held id same) }

theorem keeps_start {sessionId : UUID} (global : Global functions (db, events))
    (linked : ∃ subject, Linked events userId subject)
    (started : settleStart functions db userId sessionId now = .ok settled) :
    Keeps functions keys (db, events) (settled.db, events ++ settled.events) := by
  unfold settleStart at started
  split at started
  · cases started
    have noted := @keeps_note functions events db
      (.started userId sessionId ("reauth." ++ functions.opaqueToken db.nextId) now) keys global linked
      rfl (fun _ same => by cases same) fun _ same => by cases same
    refine noted.trans (keeps_rows noted.global ?_ (leaves_addToken _ _ _ _ _))
    refine noted.global.rows.addToken ⟨rfl, sessionId, now, rfl, rfl,
      List.mem_append_right _ List.mem_cons_self⟩ ?_
    exact noted.global.notes.unused (fun _ _ => used_given) (Nat.le_refl _)
  · cases started

theorem keeps_await {sessionId : Option UUID} {examined : Option Examined} {before : List Event}
    (global : Global functions (db, events)) (vouches : Vouches events mode userId sessionId vouch examined) :
    Keeps functions keys (db, events)
      ((awaitFactor functions db userId sessionId mode vouch examined now before).db,
        events ++ [.deferred db.nextId mode userId sessionId vouch examined now]) where
  global := by
    have noted : Event.deferred db.nextId mode userId sessionId vouch examined now ∈
        events ++ [.deferred db.nextId mode userId sessionId vouch examined now] :=
      List.mem_append_right _ List.mem_cons_self
    constructor
    · refine global.notes.append (Nat.le_succ _) vouches fun token gave => ?_
      cases gave
      exact ⟨Nat.le_refl _, Nat.lt_succ_self _⟩
    · have superseded := global.rows.useTokens
        (fun row => row.userId = userId && row.purpose = .googleMfa mode && row.usedAt.isNone) now
      have used := @Rows.append _ _ _ (.deferred db.nextId mode userId sessionId vouch examined now) superseded
        fun _ _ _ same => by cases same
      refine used.addToken ⟨rfl, vouch, examined, now, rfl, noted⟩ ?_
      exact (global.notes.unused (fun _ _ => used_given) (Nat.le_refl _)).append fun same => by cases same
  steady := {
    grows := grows_append events _
    leaves := (leaves_useTokens _ _).trans (leaves_addToken _ _ _ _ _)
    unspent := fun _ _ unspent => unspent.append fun same => by cases same }

/-- The session of a sign-in. -/
theorem keeps_issue {row : Option User} {grounds : Grounds} {reauthenticatedAt : Option Timestamp} {before : List Event}
    (global : Global functions (db, events)) (justified : Justified functions events (.signedIn row db.nextId grounds))
    (held : ∀ id, (Event.signedIn row db.nextId grounds).usedToken = some id → keys (tokenKey functions id))
    (used : ∀ id, (Event.signedIn row db.nextId grounds).usedToken = some id →
      ∀ row ∈ db.tokens, row.usedAt = none → row.id ≠ id)
    (issued : issueSession functions settings db userId row grounds reauthenticatedAt now before = .ok settled) :
    settled.events = before ++ [.signedIn row db.nextId grounds] ∧
      Keeps functions keys (db, events) (settled.db, events ++ [.signedIn row db.nextId grounds]) := by
  unfold issueSession at issued
  split at issued
  · cases issued
  · cases issued
    have noted := keeps_note global justified rfl held used
    exact ⟨rfl, noted.trans (keeps_rows noted.global (noted.global.rows.addSession _ _ _) (leaves_addSession _ _ _))⟩

theorem keeps_reclaimed {token : AccountToken} {user : User} {current : AuthSession} {examined : Examined}
    (global : Global functions (db, events))
    (knows : Knows functions (db, events) (.reclaimed vouch token user current examined)) :
    Keeps functions (Holding (.reclaimed vouch token user current examined)) (db, events)
      ((settleReclaimed functions db vouch token user current examined now).db,
        events ++ (settleReclaimed functions db vouch token user current examined now).events) := by
  obtain ⟨reclaims, present, here⟩ := knows
  have used : Keeps functions (Holding (.reclaimed vouch token user current examined)) (db, events)
      (db.useTokens (·.id = token.id) now, events) :=
    keeps_rows global (global.rows.useTokens _ _) (leaves_useTokens _ _)
  unfold settleReclaimed
  cases factor : user.factor with
  | some secret =>
    -- Google does not attest that the second factor was used: the grant waits for it.
    exact used.trans (keeps_await used.global reclaims)
  | none =>
    have noted : Keeps functions (Holding (.reclaimed vouch token user current examined))
        (db.useTokens (·.id = token.id) now, events) (db.useTokens (·.id = token.id) now, events ++
          [.reauthenticated (db.user? user.id) (db.session? current.id) (.google vouch (some examined))]) := by
      refine keeps_note used.global ?_ rfl (fun _ same => by cases same)
        fun _ same => by cases same
      exact ⟨user, present.row, current, here.row, present.enabled,
        ⟨here.own, here.unrevoked, examined.session, rfl, here.unexpired⟩, factor, reclaims⟩
    refine used.trans (noted.trans (keeps_rows noted.global (noted.global.rows.setSession _ _) (leaves_setSession ?_)))
    exact List.mem_cons_of_mem _ List.mem_cons_self

/-- A user who signs in by Google has the account linked, from this moment at the latest. -/
theorem keeps_link {target : Target} {user : User} {added : List Event} (global : Global functions (db, events))
    (knows : Knows functions (db, events) (.entering vouch target))
    (linked : link db vouch target = .ok (db', user, added)) :
    Keeps functions (Holding (.entering vouch target)) (db, events) (db', events ++ added) ∧
      SignsIn (events ++ added) user.id vouch ∧
        ∃ row, db'.user? user.id = some row ∧ row.id = user.id ∧ row.disabled = false ∧ row.factor = user.factor := by
  cases target with
  | known found =>
    cases linked
    obtain ⟨signsIn, present⟩ := knows
    rw [List.append_nil]
    exact ⟨keeps_rows global global.rows (Leaves.refl _ _), signsIn, user, present.row, rfl, present.enabled, rfl⟩
  | adopted found =>
    obtain ⟨sound, email, present⟩ := knows
    simp only [link] at linked
    split at linked
    · cases linked
    · cases linked
      have noted : Keeps functions (Holding (.entering vouch (.adopted user))) (db, events)
          (db, events ++ [.linked (db.user? user.id) vouch]) := by
        refine keeps_note global ?_ rfl (fun _ same => by cases same)
          fun _ same => by cases same
        exact ⟨user, present.row, email, sound⟩
      have own : Linked (events ++ [.linked (db.user? user.id) vouch]) user.id vouch.claims.subject :=
        ⟨user, vouch, present.row ▸ List.mem_append_right _ List.mem_cons_self, rfl, rfl⟩
      refine ⟨noted.trans (keeps_rows noted.global ((noted.global.rows.setUser _ _).addIdentity own) ?_), ⟨own, sound⟩,
        { user with emailVerified := true }, ?_, rfl, present.enabled, rfl⟩
      · exact (leaves_setUser List.mem_cons_self).trans (leaves_addIdentity _ _)
      · exact Rows.find?_updateKey_self (fun _ same => same) present.row
  | new =>
    have sound : vouch.Sound := knows
    simp only [link] at linked
    split at linked
    · cases linked
    · cases linked
      let user : User := ⟨db.nextId, vouch.claims.email, true, false, none⟩
      have noted : Keeps functions (Holding (.entering vouch .new)) (db, events)
          (db, events ++ [.linked (some user) vouch]) := by
        refine keeps_note global ?_ rfl (fun _ same => by cases same)
          fun _ same => by cases same
        exact ⟨user, rfl, rfl, sound⟩
      have own : Linked (events ++ [.linked (some user) vouch]) db.nextId vouch.claims.subject :=
        ⟨user, vouch, List.mem_append_right _ List.mem_cons_self, rfl, rfl⟩
      refine ⟨noted.trans (keeps_rows noted.global ((noted.global.rows.addUser user).addIdentity own) ?_), ⟨own, sound⟩,
        user, ?_, rfl, rfl, rfl⟩
      · exact (leaves_addUser _).trans (leaves_addIdentity _ _)
      · -- No older row has the new identifier.
        have none_ : db.users.find? (·.id = db.nextId) = none := by
          rw [List.find?_eq_none]
          intro row member same
          exact Nat.lt_irrefl _ (of_decide_eq_true same ▸ global.rows.users row member)
        have found : (db.users ++ [user]).find? (·.id = db.nextId) = some user := by
          rw [List.find?_append, none_]
          simp [user]
        exact found

theorem keeps_entering {target : Target} (global : Global functions (db, events))
    (knows : Knows functions (db, events) (.entering vouch target))
    (entered : settleEntering functions settings db vouch target now = .ok settled) :
    Keeps functions (Holding (.entering vouch target)) (db, events) (settled.db, events ++ settled.events) := by
  unfold settleEntering at entered
  cases linked : link db vouch target with
  | error reason =>
    rw [linked] at entered
    cases entered
  | ok found =>
    obtain ⟨db', user, added⟩ := found
    rw [linked] at entered
    obtain ⟨keeps, signsIn, row, here, same, enabled, factors⟩ := keeps_link global knows linked
    simp only [bind, Except.bind] at entered
    cases factor : user.factor with
    | some secret =>
      rw [factor] at entered
      cases entered
      have awaited := @keeps_await functions (events ++ added) db' user.id .login vouch
        (Holding (.entering vouch target)) now none none added keeps.global signsIn
      rw [List.append_assoc] at awaited
      exact keeps.trans awaited
    | none =>
      rw [factor] at entered
      have justified : Justified functions (events ++ added)
          (.signedIn (db'.user? user.id) db'.nextId (.google vouch none)) :=
        ⟨row, here, enabled, factors.trans factor, same ▸ signsIn⟩
      obtain ⟨noted, issued⟩ := @keeps_issue _ _ _ _ _ (Holding (.entering vouch target)) _ _ _ _ _ _
        keeps.global justified (fun _ same => by cases same) (fun _ same => by cases same) entered
      rw [noted, ← List.append_assoc]
      exact keeps.trans issued

/-- No row of a transaction that is used can be used again. -/
theorem used_apart {token : UUID} :
    ∀ row ∈ (db.useTokens (·.id = token) now).tokens, row.usedAt = none → row.id ≠ token := by
  intro row member unused same
  obtain ⟨old, -, spared, rfl⟩ := used_tokens _ _ row member unused
  exact of_decide_eq_false spared same

theorem Open.held {token : AccountToken} (open_ : Open functions events token) (held : keys (.token token.tokenHash)) :
    keys (tokenKey functions token.id) := by
  unfold tokenKey
  rw [← open_.hash]
  exact held

theorem keeps_spent {token : AccountToken} (global : Global functions (db, events))
    (open_ : Open functions events token) (held : keys (.token token.tokenHash)) : Keeps functions keys (db, events)
      (db.useTokens (·.id = token.id) now, events ++ [.spent token.id]) := by
  have used : Keeps functions keys (db, events) (db.useTokens (·.id = token.id) now, events) :=
    keeps_rows global (global.rows.useTokens _ _) (leaves_useTokens _ _)
  refine used.trans (keeps_note used.global ⟨open_.awaited, open_.unspent⟩ rfl ?_ ?_)
  · rintro id same
    cases same
    exact open_.held held
  · rintro id same
    cases same
    exact used_apart

theorem keeps_proved {presenting : Presenting} {token : AccountToken} {user : User} {secret : String}
    {session : Option AuthSession} {checked : Timestamp} (global : Global functions (db, events))
    (knows : Knows functions (db, events) (.proved presenting token user secret session checked))
    (ended : settleProved functions settings db presenting token user secret session checked now = .ok settled) :
    Keeps functions (Holding (.proved presenting token user secret session checked)) (db, events)
      (settled.db, events ++ settled.events) := by
  obtain ⟨proving, accepted⟩ := knows
  have awaited := proving.awaited
  have grounds : ∀ id, some token.id = some id →
      Holding (.proved presenting token user secret session checked) (tokenKey functions id) := by
    rintro id same
    cases same
    exact Open.held proving.opened List.mem_cons_self
  have used : Keeps functions (Holding (.proved presenting token user secret session checked)) (db, events)
      ((db.useTokens (·.id = token.id) now).setUser user.id fun row => { row with factor := some secret }, events) := by
    refine keeps_rows global ((global.rows.useTokens _ _).setUser _ _)
      ((leaves_useTokens _ _).trans (leaves_setUser ?_))
    exact List.mem_cons_of_mem _ List.mem_cons_self
  have gone : ∀ id, some token.id = some id → ∀ row ∈ (db.useTokens (·.id = token.id) now).tokens,
      row.usedAt = none → row.id ≠ id := by
    rintro id same
    cases same
    exact used_apart
  obtain ⟨mode, tokenHash, code, asked⟩ := presenting
  cases mode with
  | login =>
    cases session with
    | some session =>
      obtain ⟨vouch, asked, at_, -, -, vouches⟩ := awaited
      cases vouches
    | none =>
      have justified : Justified functions events (.signedIn (db.user? user.id)
          ((db.useTokens (·.id = token.id) now).setUser user.id fun row => { row with factor := some secret }).nextId
            (.factor token.id code asked checked)) :=
        ⟨user, proving.present.row, proving.present.enabled, accepted, awaited, proving.opened.unspent⟩
      obtain ⟨noted, issued⟩ := keeps_issue used.global justified grounds gone ended
      rw [noted]
      exact used.trans issued
  | reauthenticate =>
    cases session with
    | some session =>
      cases ended
      have here := proving.current session rfl
      have justified : Justified functions events (.reauthenticated (db.user? user.id) (db.session? session.id)
          (.factor token.id code asked checked)) :=
        ⟨user, proving.present.row, session, here.row, proving.present.enabled,
          ⟨here.own, here.unrevoked, asked, rfl, here.unexpired⟩, accepted, awaited, proving.opened.unspent⟩
      have noted := keeps_note used.global justified rfl grounds gone
      refine used.trans (noted.trans
        (keeps_rows noted.global (noted.global.rows.setSession _ _) (leaves_setSession ?_)))
      exact List.mem_cons_of_mem _ (List.mem_cons_of_mem _ List.mem_cons_self)
    | none =>
      cases ended
      exact used.trans (keeps_note used.global ⟨proving.opened.awaited, proving.opened.unspent⟩
        rfl grounds gone)

theorem keeps_settle {phase : Phase} (global : Global functions (db, events))
    (knows : Knows functions (db, events) phase) (ended : settle functions settings db now phase = some (.ok settled)) :
    Keeps functions (Holding phase) (db, events) (settled.db, events ++ settled.events) := by
  cases phase with
  | starting userId sessionId => exact keeps_start global knows (Option.some.inj ended)
  | reclaimed vouch token user current examined =>
    cases ended
    exact keeps_reclaimed global knows
  | entering vouch target => exact keeps_entering global knows (Option.some.inj ended)
  | proved presenting token user secret session checked => exact keeps_proved global knows (Option.some.inj ended)
  | spending token reason =>
    cases ended
    exact keeps_spent global knows List.mem_cons_self
  | _ => cases ended

end Drivebound.Federation
