import Drivebound.Auth.Requests
import Drivebound.Core.History

/-! Sessions and their refresh tokens. A ledger keeps the refresh tokens that have been
exchanged, until they are drawn once more, and the sessions that have been revoked. The
rotation locks the row that it has found by its token; a revocation locks the rows that it
revokes, so it waits for a rotation and is found by the next one. -/
namespace Drivebound.Auth
open Sessions Run
open Erasure (User)

structure SessionLedger where
  exchanged : List String
  revoked : List UUID
  deriving DecidableEq, Repr

def SessionLedger.empty : SessionLedger := ⟨[], []⟩

/-- The endpoints that call `issue_session`. -/
def Request.issuesSession : Request → Bool
  | .passwordLogin .. | .completeGoogleMfa _ => true
  | _ => false

/-- A refresh token that is drawn again is another one. -/
def SessionLedger.draw (ledger : SessionLedger) (refreshTokenHash : String) : SessionLedger :=
  { ledger with exchanged := ledger.exchanged.filter (· ≠ refreshTokenHash) }

def SessionLedger.after (ledger : SessionLedger) (db : Database) : Option Event → SessionLedger
  | some (.refreshed session refreshTokenHash) =>
    { ledger with exchanged := session.refreshTokenHash :: ledger.exchanged }.draw refreshTokenHash
  | some (.closed session _) => { ledger with revoked := session :: ledger.revoked }
  | some (.concluded flow _ values) =>
    if flow.request.issuesSession = true then ledger.draw values.refreshTokenHash
    else { ledger with revoked := (db.sessions.filter flow.revokes).map (·.id) ++ ledger.revoked }
  | _ => ledger

/-- A token is exchanged that has not been exchanged before, for a session that has not
been revoked. -/
def Exchanges (ledger : SessionLedger) : Option Event → Prop
  | some (.refreshed session _) =>
    session.refreshTokenHash ∉ ledger.exchanged ∧ session.id ∉ ledger.revoked
  | _ => True

/-- A revoked session does not authenticate. -/
def Admits (ledger : SessionLedger) : Action → Prop
  | .authenticate _ sessionId _ _ => sessionId ∉ ledger.revoked
  | _ => True

structure SessionsKeyed (db : Database) : Prop where
  ids : (db.sessions.map (·.id)).Nodup
  tokens : (db.sessions.map (·.refreshTokenHash)).Nodup

/-- The row of a session that is about to be rotated: what the SELECT has found of it. -/
def Rotatable (db : Database) (session : AuthSession) : Prop :=
  ∃ row ∈ db.sessions, row.id = session.id ∧ row.refreshTokenHash = session.refreshTokenHash ∧
    row.revokedAt = none

def Database.HasSession (db : Database) (id : UUID) : Prop := ∃ row ∈ db.sessions, row.id = id

def KnowsSession (db : Database) : Phase → Prop
  | .refreshing session => Rotatable db session
  | .closing session => db.HasSession session
  | _ => True

structure SessionsRecorded (db : Database) (ledger : SessionLedger) : Prop where
  current : ∀ row ∈ db.sessions, row.refreshTokenHash ∉ ledger.exchanged
  revoked : ∀ row ∈ db.sessions, row.id ∈ ledger.revoked → row.revokedAt ≠ none
  known : ∀ id ∈ ledger.revoked, db.HasSession id

variable {crypto : Crypto} {settings : Settings} {db db' : Database} {phase m : Phase} {action : Action}
  {event : Option Event} {outcome : Step} {flow : Flow} {factor : Factor} {values : Values}
  {ledger : SessionLedger}

@[simp] theorem reauthenticate_tables (session : Option AuthSession) (now : Timestamp) :
    (reauthenticate db session now).users = db.users ∧ (reauthenticate db session now).tokens = db.tokens ∧
      (reauthenticate db session now).recoveryCodes = db.recoveryCodes := by
  cases session <;> exact ⟨rfl, rfl, rfl⟩

/-- The tables that the parts of a commit leave alone. -/
theorem concludeSessions_tables : (concludeSessions settings db flow values).users = db.users ∧
    (concludeSessions settings db flow values).tokens = db.tokens ∧
    (concludeSessions settings db flow values).recoveryCodes = db.recoveryCodes := by
  unfold concludeSessions
  split
  · exact reauthenticate_tables ..
  · exact ⟨rfl, rfl, rfl⟩
  · exact reauthenticate_tables ..
  · exact reauthenticate_tables ..
  · exact reauthenticate_tables ..
  · exact ⟨rfl, rfl, rfl⟩
  · exact ⟨rfl, rfl, rfl⟩
  · exact ⟨rfl, rfl, rfl⟩
  · exact ⟨rfl, rfl, rfl⟩
  · exact ⟨rfl, rfl, rfl⟩

theorem concludeCodes_tables : (concludeCodes db flow factor values).users = db.users ∧
    (concludeCodes db flow factor values).tokens = db.tokens ∧
    (concludeCodes db flow factor values).sessions = db.sessions := by
  simp only [concludeCodes]
  split <;> cases factor <;> exact ⟨rfl, rfl, rfl⟩

@[simp] theorem useToken_tables (token : Option AccountToken) (now : Timestamp) :
    (useToken db token now).users = db.users ∧ (useToken db token now).sessions = db.sessions ∧
      (useToken db token now).recoveryCodes = db.recoveryCodes := by
  cases token <;> exact ⟨rfl, rfl, rfl⟩

theorem concludeTokens_tables : (concludeTokens db flow values).users = db.users ∧
    (concludeTokens db flow values).sessions = db.sessions ∧
    (concludeTokens db flow values).recoveryCodes = db.recoveryCodes := by
  simp only [concludeTokens]
  split <;> exact useToken_tables ..

theorem conclude_sessions : (conclude settings db flow factor values).sessions =
    (concludeSessions settings (db.setUser flow.owner
      (User.flush flow.user.loaded (flow.assign factor values))) flow values).sessions := by
  rw [conclude, concludeTokens_tables.2.1, concludeCodes_tables.2.2]

/-- A change of the rows that leaves alone what a session is found and revoked by. -/
structure Touches (change : AuthSession → AuthSession) : Prop where
  key : ∀ row, (change row).id = row.id
  user : ∀ row, (change row).userId = row.userId
  token : ∀ row, (change row).refreshTokenHash = row.refreshTokenHash
  revokedAt : ∀ row, (change row).revokedAt = row.revokedAt

/-- A change of the rows that revokes what a request revokes. -/
structure Revokes (flow : Flow) (change : AuthSession → AuthSession) : Prop where
  key : ∀ row, (change row).id = row.id
  token : ∀ row, (change row).refreshTokenHash = row.refreshTokenHash
  revoked : ∀ row, (change row).revokedAt = none ↔ flow.revokes row = false ∧ row.revokedAt = none

theorem reauthenticate_touches (session : Option AuthSession) (now : Timestamp) :
    ∃ change, Touches change ∧ (reauthenticate db session now).sessions = db.sessions.map change := by
  cases session with
  | none => exact ⟨id, ⟨fun _ => rfl, fun _ => rfl, fun _ => rfl, fun _ => rfl⟩, (List.map_id _).symm⟩
  | some loaded =>
    refine ⟨_, ⟨fun row => ?_, fun row => ?_, fun row => ?_, fun row => ?_⟩, rfl⟩ <;> split <;> rfl

theorem Flow.revokes_congr {one two : AuthSession} (id : one.id = two.id) (user : one.userId = two.userId) :
    flow.revokes one = flow.revokes two := by
  unfold Flow.revokes
  rw [id, user]

/-- A request that revokes nothing. -/
theorem Touches.revokes {change : AuthSession → AuthSession} (touches : Touches change)
    (spares : ∀ row, flow.revokes row = false) : Revokes flow change := by
  refine ⟨touches.key, touches.token, fun row => ?_⟩
  rw [touches.revokedAt]
  exact ⟨fun live => ⟨spares row, live⟩, And.right⟩

theorem revokeSessions_revokes (flow : Flow) (now : Timestamp) :
    Revokes flow fun row =>
      if flow.revokes row = true ∧ row.revokedAt = none then { row with revokedAt := some now } else row := by
  refine ⟨fun row => ?_, fun row => ?_, fun row => ?_⟩
  · split <;> rfl
  · split <;> rfl
  · split
    · rename_i revoked
      exact ⟨nofun, fun spared => absurd (revoked.1.symm.trans spared.1) nofun⟩
    · rename_i kept
      refine ⟨fun live => ⟨?_, live⟩, And.right⟩
      exact eq_false_of_ne_true fun revokes => kept ⟨revokes, live⟩

theorem Revokes.comp {revoke touch : AuthSession → AuthSession} (revokes : Revokes flow revoke)
    (touches : Touches touch) : Revokes flow (revoke ∘ touch) := by
  refine ⟨fun row => (revokes.key _).trans (touches.key row),
    fun row => (revokes.token _).trans (touches.token row), fun row => (revokes.revoked _).trans ?_⟩
  rw [Flow.revokes_congr (touches.key row) (touches.user row), touches.revokedAt]

/-- What a commit does to the sessions. -/
inductive SessionsChanged (db : Database) : Phase → Option Event → List AuthSession → Prop where
  | same (point event) (quiet : ∀ ledger : SessionLedger, ledger.after db event = ledger)
      (exchanges : ∀ ledger, Exchanges ledger event) : SessionsChanged db point event db.sessions
  | inserted (point flow factor values row) (id : row.id = values.sessionId)
      (token : row.refreshTokenHash = values.refreshTokenHash)
      (fresh : ∀ other ∈ db.sessions, other.id ≠ values.sessionId ∧
        other.refreshTokenHash ≠ values.refreshTokenHash)
      (draws : ∀ ledger : SessionLedger, ledger.after db (some (.concluded flow factor values)) =
        ledger.draw values.refreshTokenHash) :
    SessionsChanged db point (some (.concluded flow factor values)) (db.sessions ++ [row])
  | revoked (flow factor revoking values) (change : AuthSession → AuthSession)
      (covered : ∀ row ∈ db.sessions, flow.revokes row = true → row.revokedAt = none → row.id ∈ revoking)
      (revokes : Revokes flow change)
      (records : ∀ ledger : SessionLedger, ledger.after db (some (.concluded flow factor values)) =
        { ledger with revoked := (db.sessions.filter flow.revokes).map (·.id) ++ ledger.revoked }) :
    SessionsChanged db (.approved flow factor revoking) (some (.concluded flow factor values))
      (db.sessions.map change)
  | refreshed (session refreshTokenHash)
      (fresh : ∀ row ∈ db.sessions, row.refreshTokenHash ≠ refreshTokenHash) :
    SessionsChanged db (.refreshing session) (some (.refreshed session refreshTokenHash))
      (Rows.updateKey (·.id) session.id (fun row => { row with refreshTokenHash }) db.sessions)
  | closed (session now) :
    SessionsChanged db (.closing session) (some (.closed session now))
      (Rows.updateKey (·.id) session (fun row => { row with revokedAt := some now }) db.sessions)

theorem concludeSessions_cases (db : Database) (flow : Flow) (values : Values) :
    (flow.request.issuesSession = true ∧ ∃ row : AuthSession, row.id = values.sessionId ∧
        row.refreshTokenHash = values.refreshTokenHash ∧
        (concludeSessions settings db flow values).sessions = db.sessions ++ [row]) ∨
      (flow.request.issuesSession = false ∧ ∃ change, Revokes flow change ∧
        (concludeSessions settings db flow values).sessions = db.sessions.map change) := by
  obtain ⟨request, owner, user, session, token⟩ := flow
  cases request with
  | passwordLogin password otp setBrowserCookies => exact .inl ⟨rfl, _, rfl, rfl, rfl⟩
  | completeGoogleMfa code => exact .inl ⟨rfl, _, rfl, rfl, rfl⟩
  | changePassword currentPassword otp =>
    obtain ⟨touch, touches, same⟩ := @reauthenticate_touches db session values.now
    refine .inr ⟨rfl, _, (revokeSessions_revokes _ values.now).comp touches, ?_⟩
    rw [← List.map_map, ← same]
    rfl
  | resetPassword => exact .inr ⟨rfl, _, revokeSessions_revokes _ values.now, rfl⟩
  | reauthenticatePassword password otp | confirmMfa code | disableMfa password code =>
    obtain ⟨touch, touches, same⟩ := @reauthenticate_touches db session values.now
    exact .inr ⟨rfl, touch, touches.revokes fun _ => rfl, same⟩
  | setupMfa | verifyEmail | revokeSession target =>
    have touches : Touches id := ⟨fun _ => rfl, fun _ => rfl, fun _ => rfl, fun _ => rfl⟩
    exact .inr ⟨rfl, id, touches.revokes fun _ => rfl, (List.map_id _).symm⟩

theorem concluded_sessions {revoking : List UUID} (admitted : Admitted db flow factor values)
    (covered : ∀ row ∈ db.sessions, flow.revokes row = true → row.revokedAt = none → row.id ∈ revoking) :
    SessionsChanged db (.approved flow factor revoking) (some (.concluded flow factor values))
      (conclude settings db flow factor values).sessions := by
  rw [conclude_sessions]
  rcases @concludeSessions_cases settings (db.setUser flow.owner
      (User.flush flow.user.loaded (flow.assign factor values))) flow values with
    ⟨issues, row, id, token, same⟩ | ⟨spares, change, revokes, same⟩
  · rw [same]
    exact .inserted _ _ _ _ _ id token admitted.2.1 fun _ => if_pos issues
  · rw [same]
    exact .revoked _ _ _ _ change covered revokes fun _ => if_neg (Bool.eq_false_iff.mp spares)

theorem written_sessions (written : Written settings db phase event db') :
    SessionsChanged db phase event db'.sessions := by
  cases written with
  | nothing => exact .same _ _ (fun _ => rfl) fun _ => trivial
  | registered | issued => exact .same _ _ (fun _ => rfl) fun _ => trivial
  | declined owner token now =>
    rw [(useToken_tables token now).2.1]
    exact .same _ _ (fun _ => rfl) fun _ => trivial
  | concluded flow factor revoking values admitted covered => exact concluded_sessions admitted covered
  | refreshed session refreshTokenHash fresh => exact .refreshed _ _ fresh
  | closed session now => exact .closed ..

theorem sessions_keyed (keyed : SessionsKeyed db) (changed : SessionsChanged db phase event db'.sessions) :
    SessionsKeyed db' := by
  suffices (db'.sessions.map (·.id)).Nodup ∧ (db'.sessions.map (·.refreshTokenHash)).Nodup from
    ⟨this.1, this.2⟩
  revert changed
  generalize db'.sessions = rows
  intro changed
  cases changed with
  | same => exact ⟨keyed.ids, keyed.tokens⟩
  | inserted _ flow factor values row id token fresh =>
    simp only [List.map_append, List.map_singleton, List.nodup_append]
    refine ⟨⟨keyed.ids, List.nodup_singleton _, ?_⟩, keyed.tokens, List.nodup_singleton _, ?_⟩
    · intro a member b last
      obtain ⟨other, there, rfl⟩ := List.mem_map.mp member
      rw [List.mem_singleton.mp last, id]
      exact (fresh other there).1
    · intro a member b last
      obtain ⟨other, there, rfl⟩ := List.mem_map.mp member
      rw [List.mem_singleton.mp last, token]
      exact (fresh other there).2
  | revoked flow factor revoking values change covered revokes =>
    have ids : db.sessions.map ((·.id) ∘ change) = db.sessions.map (·.id) :=
      List.map_congr_left fun row _ => revokes.key row
    have tokens : db.sessions.map ((·.refreshTokenHash) ∘ change) = db.sessions.map (·.refreshTokenHash) :=
      List.map_congr_left fun row _ => revokes.token row
    rw [List.map_map, List.map_map, ids, tokens]
    exact ⟨keyed.ids, keyed.tokens⟩
  | refreshed session refreshTokenHash fresh =>
    have ids : (Rows.updateKey (·.id) session.id (fun row => { row with refreshTokenHash })
        db.sessions).map (·.id) = db.sessions.map (·.id) := Rows.updateKey_keys fun _ same => same
    constructor
    · rw [ids]
      exact keyed.ids
    · exact Rows.nodup_updateKey keyed.ids keyed.tokens (fun _ => rfl) fun row member _ => fresh row member
  | closed session now =>
    have ids : (Rows.updateKey (·.id) session (fun row => { row with revokedAt := some now })
        db.sessions).map (·.id) = db.sessions.map (·.id) := Rows.updateKey_keys fun _ same => same
    constructor
    · rw [ids]
      exact keyed.ids
    · have tokens : (Rows.updateKey (·.id) session (fun row => { row with revokedAt := some now })
          db.sessions).map (·.refreshTokenHash) = db.sessions.map (·.refreshTokenHash) :=
        Rows.updateKey_values fun _ => rfl
      rw [tokens]
      exact keyed.tokens

/-- No session is deleted. -/
theorem hasSession_kept (changed : SessionsChanged db phase event db'.sessions) {id : UUID}
    (has : db.HasSession id) : db'.HasSession id := by
  obtain ⟨row, member, rfl⟩ := has
  suffices ∃ row' ∈ db'.sessions, row'.id = row.id from this
  revert changed
  generalize db'.sessions = rows
  intro changed
  cases changed with
  | same => exact ⟨row, member, rfl⟩
  | inserted => exact ⟨row, List.mem_append_left _ member, rfl⟩
  | revoked flow factor revoking values change covered revokes =>
    exact ⟨change row, List.mem_map_of_mem member, revokes.key row⟩
  | refreshed | closed =>
    refine ⟨_, List.mem_map_of_mem member, ?_⟩
    split <;> rfl

/-- What another session does not know to be locked stays as it was found. -/
theorem rotatable_others (changed : SessionsChanged db phase event db'.sessions)
    (apart : locks.Apart phase m) {session : AuthSession} (holds : m.Holds (.session session.id))
    (rotatable : Rotatable db session) : Rotatable db' session := by
  obtain ⟨row, member, id, token, live⟩ := rotatable
  have conflict : ¬ phase.Holds (.session row.id) := fun mine => ((apart _).1 mine).1 (id ▸ holds)
  suffices ∃ row' ∈ db'.sessions, row'.id = row.id ∧ row'.refreshTokenHash = row.refreshTokenHash ∧
      row'.revokedAt = none by
    obtain ⟨row', there, id', token', live'⟩ := this
    exact ⟨row', there, id'.trans id, token'.trans token, live'⟩
  revert changed
  generalize db'.sessions = rows
  intro changed
  cases changed with
  | same => exact ⟨row, member, rfl, rfl, live⟩
  | inserted => exact ⟨row, List.mem_append_left _ member, rfl, rfl, live⟩
  | revoked flow factor revoking values change covered revokes =>
    refine ⟨change row, List.mem_map_of_mem member, revokes.key row, revokes.token row, ?_⟩
    rw [revokes.revoked]
    refine ⟨eq_false_of_ne_true fun chosen => conflict ?_, live⟩
    exact .inr ⟨row.id, covered row member chosen live, rfl⟩
  | refreshed other refreshTokenHash fresh =>
    have different : ¬ row.id = other.id := fun same => conflict (congrArg LockKey.session same)
    exact ⟨_, List.mem_map_of_mem member, by rw [if_neg different], by rw [if_neg different],
      by rw [if_neg different, live]⟩
  | closed other now =>
    have different : ¬ row.id = other := fun same => conflict (congrArg LockKey.session same)
    exact ⟨_, List.mem_map_of_mem member, by rw [if_neg different], by rw [if_neg different],
      by rw [if_neg different, live]⟩

theorem knowsSession_others (changed : SessionsChanged db phase event db'.sessions)
    (apart : locks.Apart phase m) (knows : KnowsSession db m) : KnowsSession db' m := by
  cases m with
  | refreshing session => exact rotatable_others changed apart rfl knows
  | closing session => exact hasSession_kept changed knows
  | _ => trivial

theorem program_knowsSession (chosen : program crypto settings db phase action = some outcome) :
    KnowsSession db outcome.arrival := by
  have arrives := program_arrives chosen
  revert arrives
  generalize outcome.arrival = next
  intro arrives
  cases arrives with
  | refreshing row raw now member live => exact ⟨row, member, rfl, rfl, live⟩
  | closing _ _ row member quiet => exact ⟨row, member, rfl⟩
  | _ => trivial

theorem mem_draw {hash refreshTokenHash : String} :
    hash ∈ (ledger.draw refreshTokenHash).exchanged ↔ hash ∈ ledger.exchanged ∧ hash ≠ refreshTokenHash := by
  simp only [SessionLedger.draw, List.mem_filter, decide_eq_true_eq]

/-- The ledger after a rotation: the row has the token that has just been drawn. -/
theorem refreshed_recorded (keyed : SessionsKeyed db) (recorded : SessionsRecorded db ledger)
    {session : AuthSession} {refreshTokenHash : String} (rotatable : Rotatable db session)
    (same : db'.sessions =
      Rows.updateKey (·.id) session.id (fun row => { row with refreshTokenHash }) db.sessions) :
    SessionsRecorded db' (ledger.after db (some (.refreshed session refreshTokenHash))) := by
  obtain ⟨found, there, foundId, foundToken, _⟩ := rotatable
  have rows : ∀ row ∈ db'.sessions, ∃ before ∈ db.sessions, row.id = before.id ∧
      row.revokedAt = before.revokedAt ∧
      (row.refreshTokenHash = refreshTokenHash ∨
        (before.id ≠ session.id ∧ row.refreshTokenHash = before.refreshTokenHash)) := by
    intro row member
    rw [same] at member
    obtain ⟨before, earlier, rfl⟩ := List.mem_map.mp member
    refine ⟨before, earlier, ?_⟩
    by_cases chosen : before.id = session.id
    · rw [if_pos chosen]
      exact ⟨rfl, rfl, .inl rfl⟩
    · rw [if_neg chosen]
      exact ⟨rfl, rfl, .inr ⟨chosen, rfl⟩⟩
  constructor
  · intro row member
    obtain ⟨before, member, _, _, drawn | ⟨other, kept⟩⟩ := rows row member
    · exact fun among => (mem_draw.mp among).2 drawn
    · intro among
      rcases List.mem_cons.mp (mem_draw.mp among).1 with exchanged | earlier
      · refine other ((congrArg AuthSession.id ?_).trans foundId)
        exact List.inj_on_of_nodup_map keyed.tokens member there
          ((kept.symm.trans exchanged).trans foundToken.symm)
      · exact recorded.current before member (kept ▸ earlier)
  · intro row member gone
    obtain ⟨before, member, id, revokedAt, _⟩ := rows row member
    rw [revokedAt]
    exact recorded.revoked before member (id ▸ gone)
  · intro id gone
    obtain ⟨row, member, found⟩ := recorded.known id gone
    refine ⟨_, by rw [same]; exact List.mem_map_of_mem member, ?_⟩
    split
    · exact found
    · exact found

/-- Rows that keep their token, and stay revoked. -/
theorem kept_recorded (recorded : SessionsRecorded db ledger) {change : AuthSession → AuthSession}
    {gone : List UUID} (key : ∀ row ∈ db.sessions, (change row).id = row.id)
    (token : ∀ row ∈ db.sessions, (change row).refreshTokenHash = row.refreshTokenHash)
    (revoked : ∀ row ∈ db.sessions, row.id ∈ gone ∨ row.revokedAt ≠ none → (change row).revokedAt ≠ none)
    (there : ∀ id ∈ gone, db.HasSession id) (same : db'.sessions = db.sessions.map change) :
    SessionsRecorded db' { ledger with revoked := gone ++ ledger.revoked } := by
  constructor
  · intro row member
    rw [same] at member
    obtain ⟨before, there, rfl⟩ := List.mem_map.mp member
    rw [token before there]
    exact recorded.current before there
  · intro row member among
    rw [same] at member
    obtain ⟨before, origin, rfl⟩ := List.mem_map.mp member
    rw [key before origin] at among
    apply revoked before origin
    rcases List.mem_append.mp among with now | earlier
    · exact .inl now
    · exact .inr (recorded.revoked before origin earlier)
  · intro id among
    have has : db.HasSession id := by
      rcases List.mem_append.mp among with now | earlier
      · exact there id now
      · exact recorded.known id earlier
    obtain ⟨row, member, rfl⟩ := has
    exact ⟨change row, same ▸ List.mem_map_of_mem member, key row member⟩

theorem sessions_recorded (keyed : SessionsKeyed db) (recorded : SessionsRecorded db ledger)
    (knows : KnowsSession db phase) (changed : SessionsChanged db phase event db'.sessions) :
    SessionsRecorded db' (ledger.after db event) := by
  generalize same : db'.sessions = rows at changed
  cases changed with
  | same _ _ quiet _ =>
    rw [quiet]
    refine ⟨fun row member => recorded.current row (same ▸ member),
      fun row member => recorded.revoked row (same ▸ member), fun id gone => ?_⟩
    obtain ⟨row, member, found⟩ := recorded.known id gone
    exact ⟨row, same ▸ member, found⟩
  | inserted _ flow factor values row id token fresh draws =>
    rw [draws]
    constructor
    · intro other member among
      obtain ⟨among, different⟩ := mem_draw.mp among
      rw [same] at member
      rcases List.mem_append.mp member with before | last
      · exact recorded.current other before among
      · exact different (List.mem_singleton.mp last ▸ token)
    · intro other member gone
      rw [same] at member
      rcases List.mem_append.mp member with before | last
      · exact recorded.revoked other before gone
      · obtain ⟨known, there, found⟩ := recorded.known other.id gone
        rw [List.mem_singleton.mp last, id] at found
        exact absurd found (fresh known there).1
    · intro gone among
      obtain ⟨known, there, found⟩ := recorded.known gone among
      exact ⟨known, same ▸ List.mem_append_left _ there, found⟩
  | revoked flow factor revoking values change covered revokes records =>
    rw [records]
    refine kept_recorded recorded (fun row _ => revokes.key row) (fun row _ => revokes.token row)
      (fun row member => ?_) (fun id among => ?_) same
    · rintro (chosen | before) live
      · obtain ⟨other, there, found⟩ := List.mem_map.mp chosen
        obtain ⟨there, selected⟩ := List.mem_filter.mp there
        have itself := List.inj_on_of_nodup_map keyed.ids there member found
        exact absurd ((itself ▸ selected).symm.trans ((revokes.revoked row).mp live).1) nofun
      · exact before ((revokes.revoked row).mp live).2
    · obtain ⟨row, there, found⟩ := List.mem_map.mp among
      exact ⟨row, (List.mem_filter.mp there).1, found⟩
  | refreshed session refreshTokenHash fresh => exact refreshed_recorded keyed recorded knows same
  | closed session now =>
    have there : ∀ id ∈ [session], db.HasSession id := fun id among => List.mem_singleton.mp among ▸ knows
    refine kept_recorded recorded (fun row _ => ?_) (fun row _ => ?_) (fun row _ => ?_) there same
    · split <;> rfl
    · split <;> rfl
    · rintro (chosen | before)
      · rw [if_pos (List.mem_singleton.mp chosen)]
        nofun
      · split
        · nofun
        · exact before

end Drivebound.Auth
