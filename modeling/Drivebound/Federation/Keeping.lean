import Drivebound.Federation.Grounds
import Mathlib

/-! What the rows and the sessions keep. A session relies on the rows that it has locked; what it leaves of the others
is what it finds there. -/
namespace Drivebound.Federation
open Chronicle Sessions

variable {functions : Functions} {settings : Settings} {events later : List Event} {db db' db'' : Database}
  {userId : UUID} {purpose : Purpose} {vouch : Vouch} {event : Event} {keys : LockKey → Prop}

/-! ### Rows -/

/-- A row that a token stands for: the request or the transaction it was issued to. -/
def Backed (functions : Functions) (events : List Event) (row : AccountToken) : Prop :=
  match row.purpose with
  | .googleReauth => row.tokenHash = functions.tokenDigest ("reauth." ++ functions.opaqueToken row.id) ∧
    ∃ sessionId at_, row.sessionId = some sessionId ∧ row.expiresAt = at_ + 600 ∧
      Event.started row.userId sessionId ("reauth." ++ functions.opaqueToken row.id) at_ ∈ events
  | .googleMfa mode => row.tokenHash = functions.tokenDigest (functions.opaqueToken row.id) ∧
    ∃ vouch asked at_, row.expiresAt = at_ + 300 ∧
      Event.deferred row.id mode row.userId row.sessionId vouch asked at_ ∈ events

structure Rows (functions : Functions) (events : List Event) (db : Database) : Prop where
  users : ∀ row ∈ db.users, row.id < db.nextId
  identities : ∀ row ∈ db.identities, Linked events row.userId row.subject
  tokens : ∀ row ∈ db.tokens, Backed functions events row
  unspent : ∀ row ∈ db.tokens, row.usedAt = none → Unspent events row.id

theorem Backed.mono {row : AccountToken} (grows : ∀ e ∈ events, e ∈ later) (backed : Backed functions events row) :
    Backed functions later row := by
  unfold Backed at backed ⊢
  split at backed
  · obtain ⟨hash, sessionId, at_, same, expires, noted⟩ := backed
    exact ⟨hash, sessionId, at_, same, expires, grows _ noted⟩
  · obtain ⟨hash, vouch, asked, at_, expires, noted⟩ := backed
    exact ⟨hash, vouch, asked, at_, expires, grows _ noted⟩

/-- A note that uses none of the tokens that can be used. -/
theorem Rows.append (rows : Rows functions events db)
    (spares : ∀ row ∈ db.tokens, row.usedAt = none → event.usedToken ≠ some row.id) :
    Rows functions (events ++ [event]) db where
  users := rows.users
  identities row member := (rows.identities row member).mono (grows_append events event)
  tokens row member := (rows.tokens row member).mono (grows_append events event)
  unspent row member unused := (rows.unspent row member unused).append (spares row member unused)

theorem Rows.useTokens (rows : Rows functions events db) (chosen : AccountToken → Bool) (now : Timestamp) :
    Rows functions events (db.useTokens chosen now) where
  users := rows.users
  identities := rows.identities
  tokens row member := by
    obtain ⟨old, here, rfl⟩ := List.mem_map.mp member
    split
    · exact rows.tokens old here
    · exact rows.tokens old here
  unspent row member unused := by
    obtain ⟨old, here, rfl⟩ := List.mem_map.mp member
    by_cases taken : chosen old = true
    · rw [if_pos taken] at unused
      cases unused
    · rw [if_neg taken] at unused ⊢
      exact rows.unspent old here unused

theorem used_tokens (chosen : AccountToken → Bool) (now : Timestamp) :
    ∀ row ∈ (db.useTokens chosen now).tokens, row.usedAt = none →
      ∃ old ∈ db.tokens, chosen old = false ∧ row = old := by
  intro row member unused
  obtain ⟨old, here, rfl⟩ := List.mem_map.mp member
  by_cases taken : chosen old = true
  · rw [if_pos taken] at unused
    cases unused
  · rw [if_neg taken]
    exact ⟨old, here, (Bool.not_eq_true _).mp taken, rfl⟩

theorem Rows.setUser (rows : Rows functions events db) (id : UUID) (change : User → User) :
    Rows functions events (db.setUser id change) :=
  { rows with
    users := fun row member => by
      obtain ⟨old, here, rfl⟩ := List.mem_map.mp member
      split
      · exact rows.users old here
      · exact rows.users old here }

theorem Rows.setSession (rows : Rows functions events db) (id : UUID) (change : AuthSession → AuthSession) :
    Rows functions events (db.setSession id change) := { rows with }

theorem Rows.addUser (rows : Rows functions events db) (user : User) : Rows functions events (db.addUser user) :=
  { rows with
    users := List.forall_mem_append.mpr ⟨fun row member => Nat.lt_succ_of_lt (rows.users row member),
      List.forall_mem_singleton.mpr (Nat.lt_succ_self _)⟩ }

theorem Rows.addSession (rows : Rows functions events db) (userId : UUID) (expiresAt : Timestamp)
    (reauthenticatedAt : Option Timestamp) : Rows functions events (db.addSession userId expiresAt reauthenticatedAt) :=
  { rows with users := fun row member => Nat.lt_succ_of_lt (rows.users row member) }

theorem Rows.addIdentity {subject : String} (rows : Rows functions events db) (linked : Linked events userId subject) :
    Rows functions events (db.addIdentity userId subject) :=
  { rows with identities := List.forall_mem_append.mpr ⟨rows.identities, List.forall_mem_singleton.mpr linked⟩ }

theorem Rows.addToken {sessionId : Option UUID} {tokenHash : String} {expiresAt : Timestamp}
    (rows : Rows functions events db)
    (backed : Backed functions events ⟨db.nextId, userId, sessionId, purpose, tokenHash, expiresAt, none⟩)
    (fresh : Unspent events db.nextId) :
    Rows functions events (db.addToken userId sessionId purpose tokenHash expiresAt) where
  users row member := Nat.lt_succ_of_lt (rows.users row member)
  identities := rows.identities
  tokens := List.forall_mem_append.mpr ⟨rows.tokens, List.forall_mem_singleton.mpr backed⟩
  unspent := List.forall_mem_append.mpr ⟨rows.unspent, List.forall_mem_singleton.mpr fun _ => fresh⟩

theorem Rows.deleteUser (rows : Rows functions events db) (id : UUID) : Rows functions events (db.deleteUser id) where
  users row member := rows.users row (List.mem_filter.mp member).1
  identities row member := rows.identities row (List.mem_filter.mp member).1
  tokens row member := rows.tokens row (List.mem_filter.mp member).1
  unspent row member := rows.unspent row (List.mem_filter.mp member).1

theorem Rows.alter (rows : Rows functions events db) (key : LockKey) (change : Alteration) :
    Rows functions events (db.alter key change) := by
  unfold Database.alter
  split
  · exact rows.setUser _ _
  · exact rows.deleteUser _
  · split
    · exact rows.addSession _ _ _
    · exact rows
  · exact rows.setSession _ _
  · exact rows.useTokens _ _
  · exact rows.addUser _
  · exact rows

/-! ### What is left alone -/

/-- What is left as it was of the rows outside these locks. -/
structure Leaves (keys : LockKey → Prop) (db db' : Database) : Prop where
  nextId : db.nextId ≤ db'.nextId
  user : ∀ id row, ¬keys (.user id) → db.user? id = some row → db'.user? id = some row
  session : ∀ id row, ¬keys (.session id) → ¬keys (.user row.userId) → db.session? id = some row →
    db'.session? id = some row

theorem Leaves.refl (keys : LockKey → Prop) (db : Database) : Leaves keys db db :=
  ⟨Nat.le_refl _, fun _ _ _ here => here, fun _ _ _ _ here => here⟩

theorem Leaves.trans (first : Leaves keys db db') (second : Leaves keys db' db'') : Leaves keys db db'' where
  nextId := Nat.le_trans first.nextId second.nextId
  user id row free here := second.user id row free (first.user id row free here)
  session id row free own here := second.session id row free own (first.session id row free own here)

theorem leaves_useTokens (chosen : AccountToken → Bool) (now : Timestamp) : Leaves keys db (db.useTokens chosen now) :=
  ⟨Nat.le_refl _, fun _ _ _ here => here, fun _ _ _ _ here => here⟩

theorem leaves_setUser {id : UUID} {change : User → User} (held : keys (.user id)) :
    Leaves keys db (db.setUser id change) where
  nextId := Nat.le_refl _
  user other row free here := by
    have different : other ≠ id := fun same => free (same ▸ held)
    have keeps : ∀ row : User, row.id = id → ({ change row with id := row.id } : User).id = id := fun _ same => same
    exact (Rows.find?_updateKey_other keeps different).trans here
  session _ _ _ _ here := here

theorem leaves_setSession {id : UUID} {change : AuthSession → AuthSession} (held : keys (.session id)) :
    Leaves keys db (db.setSession id change) where
  nextId := Nat.le_refl _
  user _ _ _ here := here
  session other row free _ here := by
    have different : other ≠ id := fun same => free (same ▸ held)
    have keeps : ∀ row : AuthSession, row.id = id →
        ({ change row with id := row.id, userId := row.userId } : AuthSession).id = id := fun _ same => same
    exact (Rows.find?_updateKey_other keeps different).trans here

theorem find?_append_some {α : Type*} {p : α → Bool} {rows new : List α} {a : α} (found : rows.find? p = some a) :
    (rows ++ new).find? p = some a := by
  rw [List.find?_append, found, Option.some_or]

theorem leaves_addUser (user : User) : Leaves keys db (db.addUser user) :=
  ⟨Nat.le_succ _, fun _ _ _ here => find?_append_some here, fun _ _ _ _ here => here⟩

theorem leaves_addSession (userId : UUID) (expiresAt : Timestamp) (reauthenticatedAt : Option Timestamp) :
    Leaves keys db (db.addSession userId expiresAt reauthenticatedAt) :=
  ⟨Nat.le_succ _, fun _ _ _ here => here, fun _ _ _ _ here => find?_append_some here⟩

theorem leaves_addIdentity (userId : UUID) (subject : String) : Leaves keys db (db.addIdentity userId subject) :=
  ⟨Nat.le_refl _, fun _ _ _ here => here, fun _ _ _ _ here => here⟩

theorem leaves_addToken (userId : UUID) (sessionId : Option UUID) (purpose : Purpose) (tokenHash : String)
    (expiresAt : Timestamp) : Leaves keys db (db.addToken userId sessionId purpose tokenHash expiresAt) :=
  ⟨Nat.le_succ _, fun _ _ _ here => here, fun _ _ _ _ here => here⟩

/-- A filter that keeps the row that is found keeps it found. -/
theorem find?_filter_some {α : Type*} {p q : α → Bool} {rows : List α} {a : α} (found : rows.find? p = some a)
    (kept : q a = true) : (rows.filter q).find? p = some a := by
  induction rows with
  | nil => cases found
  | cons first rest ih =>
    by_cases holds : p first = true
    · rw [List.find?_cons_of_pos holds] at found
      cases found
      rw [List.filter_cons_of_pos kept, List.find?_cons_of_pos holds]
    · rw [List.find?_cons_of_neg holds] at found
      by_cases stays : q first = true
      · rw [List.filter_cons_of_pos stays, List.find?_cons_of_neg holds]
        exact ih found
      · rw [List.filter_cons_of_neg stays]
        exact ih found

theorem user?_id {id : UUID} {row : User} (found : db.user? id = some row) : row.id = id :=
  (Rows.find?_key found).2

theorem leaves_deleteUser {id : UUID} (held : keys (.user id)) : Leaves keys db (db.deleteUser id) where
  nextId := Nat.le_refl _
  user other row free here := by
    refine find?_filter_some here ?_
    have different : row.id ≠ id := fun same => free ((user?_id here).symm.trans same ▸ held)
    simpa using different
  session other row _ own here := by
    refine find?_filter_some here ?_
    have different : row.userId ≠ id := fun same => own (same ▸ held)
    simpa using different

theorem leaves_alter {key : LockKey} {change : Alteration} (held : keys key) :
    Leaves keys db (db.alter key change) := by
  unfold Database.alter
  split
  · exact leaves_setUser held
  · exact leaves_deleteUser held
  · split
    · exact leaves_addSession _ _ _
    · exact Leaves.refl _ _
  · exact leaves_setSession held
  · exact leaves_useTokens _ _
  · exact leaves_addUser _
  · exact Leaves.refl _ _

/-! ### Sessions -/

/-- The rows that a program point relies on. -/
def locks : Phase → List LockKey
  | .claimedUser _ token => [.user token.userId]
  | .claimedSession _ token _ | .claimedToken _ token _ _ _ => .user token.userId :: token.sessionId.toList.map .session
  | .reclaimed _ _ user current _ => [.user user.id, .session current.id]
  | .knownUser _ userId | .foundUser _ userId => [.user userId]
  | .entering _ (.known user) | .entering _ (.adopted user) => [.user user.id]
  | .boundUser _ userId _ => [.user userId]
  | .boundSession _ userId sessionId _ => .user userId :: sessionId.toList.map .session
  | .boundToken presenting userId sessionId _ _ =>
    .token presenting.tokenHash :: .user userId :: sessionId.toList.map .session
  | .proving _ token user _ session | .proved _ token user _ session _ =>
    .token token.tokenHash :: .user user.id :: session.toList.map (.session ·.id)
  | .spending token _ => [.token token.tokenHash]
  | .holding key => [key]
  | _ => []

abbrev Holding (phase : Phase) (key : LockKey) : Prop := key ∈ locks phase

/-- The locked row of a user who is not disabled. -/
structure Present (db : Database) (user : User) : Prop where
  row : db.user? user.id = some user
  enabled : user.disabled = false

/-- The locked row of a session that was current when it was examined. -/
structure Current (db : Database) (userId : UUID) (sessionId : Option UUID) (examined : Timestamp)
    (session : AuthSession) : Prop where
  named : sessionId = some session.id
  row : db.session? session.id = some session
  own : session.userId = userId
  unrevoked : session.revokedAt = none
  unexpired : examined < session.expiresAt

/-- What a callback has checked. -/
structure Checked (vouch : Vouch) : Prop where
  sound : vouch.Sound
  fresh : isReauthentication vouch.state = true → vouch.Fresh

/-- The request that a claimed token was issued to. -/
structure Claimed (events : List Event) (vouch : Vouch) (token : AccountToken) : Prop where
  sound : vouch.Sound
  fresh : vouch.Fresh
  started : ∀ sessionId ∈ token.sessionId, ∃ at_, token.expiresAt = at_ + 600 ∧
    Event.started token.userId sessionId vouch.state at_ ∈ events

/-- The transaction that a cookie presents. -/
def Presents (functions : Functions) (events : List Event) (presenting : Presenting) (userId : UUID)
    (sessionId : Option UUID) : Prop :=
  ∃ id vouch asked at_, Event.deferred id presenting.mode userId sessionId vouch asked at_ ∈ events ∧
    presenting.tokenHash = functions.tokenDigest (functions.opaqueToken id)

/-- A transaction that is locked and has not been used. -/
structure Open (functions : Functions) (events : List Event) (token : AccountToken) : Prop where
  hash : token.tokenHash = functions.tokenDigest (functions.opaqueToken token.id)
  awaited : ∃ event ∈ events, event.givenToken = some token.id
  unspent : Unspent events token.id

structure Proving (functions : Functions) (r : Database × List Event) (presenting : Presenting) (token : AccountToken)
    (user : User) (session : Option AuthSession) : Prop where
  opened : Open functions r.2 token
  awaited : Awaited r.2 presenting.mode user.id (session.map (·.id)) token.id presenting.asked
  present : Present r.1 user
  current : ∀ row ∈ session, Current r.1 user.id (some row.id) presenting.asked row

/-- What a session has found out. -/
def Knows (functions : Functions) (r : Database × List Event) : Phase → Prop
  | .starting userId _ => ∃ subject, Linked r.2 userId subject
  | .vouched vouch | .seeking vouch | .searching vouch | .found vouch _ | .foundUser vouch _ => Checked vouch
  | .claimed vouch token | .claimedUser vouch token => Claimed r.2 vouch token
  | .claimedSession vouch token user => Claimed r.2 vouch token ∧ ∀ row ∈ user, r.1.user? token.userId = some row
  | .claimedToken vouch token user current examined => Claimed r.2 vouch token ∧
    (∀ row ∈ user, r.1.user? token.userId = some row) ∧
      ∀ row ∈ current, Current r.1 token.userId token.sessionId examined row
  | .reclaimed vouch _ user current examined => Reclaims r.2 user.id current.id vouch examined.request ∧
    Present r.1 user ∧ Current r.1 user.id (some current.id) examined.session current
  | .known vouch userId | .knownUser vouch userId => Linked r.2 userId vouch.claims.subject ∧ Checked vouch
  | .entering vouch (.known user) => SignsIn r.2 user.id vouch ∧ Present r.1 user
  | .entering vouch (.adopted user) => vouch.Sound ∧ user.email = vouch.claims.email ∧ Present r.1 user
  | .entering vouch .new => vouch.Sound
  | .bound presenting userId sessionId | .boundUser presenting userId sessionId =>
    Presents functions r.2 presenting userId sessionId
  | .boundSession presenting userId sessionId user =>
    Presents functions r.2 presenting userId sessionId ∧ ∀ row ∈ user, r.1.user? userId = some row
  | .boundToken presenting userId sessionId user session => Presents functions r.2 presenting userId sessionId ∧
    (∀ row ∈ user, r.1.user? userId = some row) ∧ ∀ row ∈ session, Current r.1 userId sessionId presenting.asked row
  | .proving presenting token user secret session =>
    Proving functions r presenting token user session ∧ user.factor = some secret
  | .proved presenting token user _ session checked => Proving functions r presenting token user session ∧
    ∃ secret ∈ user.factor, (functions.verifySecondFactor secret presenting.code checked).isSome
  | .spending token _ => Open functions r.2 token
  | .idle | .answered _ | .authenticating .. | .authenticated .. | .exchanging .. | .presenting _ | .holding _ => True

/-- What a session changes and notes where it holds these locks. -/
structure Steady (functions : Functions) (keys : LockKey → Prop) (r r' : Database × List Event) : Prop where
  grows : ∀ e ∈ r.2, e ∈ r'.2
  leaves : Leaves keys r.1 r'.1
  unspent : ∀ id, ¬keys (.token (functions.tokenDigest (functions.opaqueToken id))) → Unspent r.2 id → Unspent r'.2 id

variable {r r' : Database × List Event} {phase : Phase}

theorem Present.stable {user : User} (leaves : Leaves keys db db') (free : ¬keys (.user user.id))
    (present : Present db user) : Present db' user :=
  { present with row := leaves.user _ _ free present.row }

theorem Current.stable {sessionId : Option UUID} {examined : Timestamp} {session : AuthSession}
    (leaves : Leaves keys db db') (free : ¬keys (.session session.id)) (own : ¬keys (.user userId))
    (current : Current db userId sessionId examined session) : Current db' userId sessionId examined session :=
  { current with row := leaves.session _ _ free (current.own ▸ own) current.row }

theorem Claimed.mono {token : AccountToken} (grows : ∀ e ∈ events, e ∈ later) (claimed : Claimed events vouch token) :
    Claimed later vouch token := by
  refine ⟨claimed.sound, claimed.fresh, fun sessionId named => ?_⟩
  obtain ⟨at_, expires, noted⟩ := claimed.started sessionId named
  exact ⟨at_, expires, grows _ noted⟩

theorem Presents.mono {presenting : Presenting} {sessionId : Option UUID} (grows : ∀ e ∈ events, e ∈ later)
    (presents : Presents functions events presenting userId sessionId) :
    Presents functions later presenting userId sessionId := by
  obtain ⟨id, vouch, asked, at_, noted, hash⟩ := presents
  exact ⟨id, vouch, asked, at_, grows _ noted, hash⟩

theorem Open.stable {token : AccountToken} (steady : Steady functions keys r r')
    (free : ¬keys (.token token.tokenHash)) (open_ : Open functions r.2 token) : Open functions r'.2 token where
  hash := open_.hash
  awaited := by
    obtain ⟨giver, noted, gave⟩ := open_.awaited
    exact ⟨giver, steady.grows _ noted, gave⟩
  unspent := steady.unspent _ (open_.hash ▸ free) open_.unspent

theorem Proving.stable {presenting : Presenting} {token : AccountToken} {user : User} {session : Option AuthSession}
    (steady : Steady functions keys r r') (free : ¬keys (.token token.tokenHash)) (apart : ¬keys (.user user.id))
    (others : ∀ row ∈ session, ¬keys (.session row.id)) (proving : Proving functions r presenting token user session) :
    Proving functions r' presenting token user session where
  opened := proving.opened.stable steady free
  awaited := proving.awaited.mono steady.grows
  present := proving.present.stable steady.leaves apart
  current row member := (proving.current row member).stable steady.leaves (others row member) apart

/-- What was found out stays true, whatever is done to the rows that are not locked here. -/
theorem Knows.stable (steady : Steady functions keys r r') (apart : ∀ key, Holding phase key → ¬keys key)
    (knows : Knows functions r phase) : Knows functions r' phase := by
  have grows := steady.grows
  have leaves := steady.leaves
  cases phase with
  | starting userId sessionId =>
    obtain ⟨subject, linked⟩ := knows
    exact ⟨subject, linked.mono grows⟩
  | vouched | seeking | searching | found | foundUser => exact knows
  | claimed | claimedUser => exact Claimed.mono grows knows
  | claimedSession vouch token user =>
    exact ⟨knows.1.mono grows, fun row member => leaves.user _ _ (apart _ List.mem_cons_self) (knows.2 row member)⟩
  | claimedToken vouch token user current examined =>
    have own := apart _ List.mem_cons_self
    refine ⟨knows.1.mono grows, fun row member => leaves.user _ _ own (knows.2.1 row member), fun row member => ?_⟩
    have here := knows.2.2 row member
    refine here.stable leaves (apart _ (List.mem_cons_of_mem _ ?_)) own
    simp [here.named]
  | reclaimed vouch token user current examined =>
    obtain ⟨reclaims, present, here⟩ := knows
    have own := apart _ List.mem_cons_self
    exact ⟨reclaims.mono grows, present.stable leaves own,
      here.stable leaves (apart _ (List.mem_cons_of_mem _ List.mem_cons_self)) own⟩
  | known | knownUser => exact ⟨knows.1.mono grows, knows.2⟩
  | entering vouch target =>
    cases target with
    | known user => exact ⟨knows.1.mono grows, knows.2.stable leaves (apart _ List.mem_cons_self)⟩
    | adopted user => exact ⟨knows.1, knows.2.1, knows.2.2.stable leaves (apart _ List.mem_cons_self)⟩
    | new => exact knows
  | bound | boundUser => exact Presents.mono grows knows
  | boundSession presenting userId sessionId user =>
    exact ⟨knows.1.mono grows, fun row member => leaves.user _ _ (apart _ List.mem_cons_self) (knows.2 row member)⟩
  | boundToken presenting userId sessionId user session =>
    have own := apart _ (List.mem_cons_of_mem _ List.mem_cons_self)
    refine ⟨knows.1.mono grows, fun row member => leaves.user _ _ own (knows.2.1 row member), fun row member => ?_⟩
    have here := knows.2.2 row member
    refine here.stable leaves (apart _ (List.mem_cons_of_mem _ (List.mem_cons_of_mem _ ?_))) own
    simp [here.named]
  | proving presenting token user secret session =>
    refine ⟨knows.1.stable steady (apart _ List.mem_cons_self)
      (apart _ (List.mem_cons_of_mem _ List.mem_cons_self)) fun row member => apart _ ?_, knows.2⟩
    exact List.mem_cons_of_mem _ (List.mem_cons_of_mem _ (List.mem_map_of_mem (Option.mem_toList.mpr member)))
  | proved presenting token user secret session checked =>
    refine ⟨knows.1.stable steady (apart _ List.mem_cons_self)
      (apart _ (List.mem_cons_of_mem _ List.mem_cons_self)) fun row member => apart _ ?_, knows.2⟩
    exact List.mem_cons_of_mem _ (List.mem_cons_of_mem _ (List.mem_map_of_mem (Option.mem_toList.mpr member)))
  | spending token reason => exact Open.stable steady (apart _ List.mem_cons_self) knows
  | idle | answered | authenticating | authenticated | exchanging | presenting | holding => trivial

end Drivebound.Federation
