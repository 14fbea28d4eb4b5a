import Drivebound.Core.Chronicle
import Drivebound.Federation.Requests
import Mathlib

/-! What a grant stands on. A commit is noted with the rows that it finds; a session is reauthenticated, and a
sign-in gets its session, for what is found among the notes before. -/
namespace Drivebound.Federation
open Chronicle Sessions

def Vouch.Sound (vouch : Vouch) : Prop := vouch.claims.nonce = vouch.nonce ∧ vouch.claims.emailVerified = true

/-- Google has seen the user just now. -/
def Vouch.Fresh (vouch : Vouch) : Prop :=
  ∃ seen ∈ vouch.claims.authTime, (vouch.asked : Int) - 300 ≤ seen ∧ seen ≤ (vouch.asked : Int) + 60

section Notes
variable (functions : Functions) (events : List Event)

/-- A Google account that vouched for the address of the user was linked to him. -/
def Linked (userId : UUID) (subject : String) : Prop :=
  ∃ user vouch, Event.linked (some user) vouch ∈ events ∧ user.id = userId ∧ vouch.claims.subject = subject

/-- What Google vouched for is what the session had asked for, less than ten minutes before. -/
structure Reclaims (userId sessionId : UUID) (vouch : Vouch) (examined : Timestamp) : Prop where
  started : ∃ at_, Event.started userId sessionId vouch.state at_ ∈ events ∧ examined < at_ + 600
  linked : Linked events userId vouch.claims.subject
  sound : vouch.Sound
  fresh : vouch.Fresh

structure SignsIn (userId : UUID) (vouch : Vouch) : Prop where
  linked : Linked events userId vouch.claims.subject
  sound : vouch.Sound

def Vouches : Mode → UUID → Option UUID → Vouch → Option Examined → Prop
  | .reauthenticate, userId, some sessionId, vouch, some examined =>
    Reclaims events userId sessionId vouch examined.request
  | .login, userId, none, vouch, none => SignsIn events userId vouch
  | _, _, _, _, _ => False

def Event.usedToken : Event → Option UUID
  | .reauthenticated _ _ (.factor token _ _ _) | .signedIn _ _ (.factor token _ _ _) | .spent token => some token
  | _ => none

/-- The transaction that an event begins. -/
def Event.givenToken : Event → Option UUID
  | .deferred token .. => some token
  | _ => none

def Unspent (token : UUID) : Prop := Unused Event.usedToken events token

/-- Google vouched for the transaction less than five minutes ago. -/
def Awaited (mode : Mode) (userId : UUID) (sessionId : Option UUID) (token : UUID) (examined : Timestamp) : Prop :=
  ∃ vouch asked at_, Event.deferred token mode userId sessionId vouch asked at_ ∈ events ∧ examined < at_ + 300 ∧
    Vouches events mode userId sessionId vouch asked

/-- Without a second factor what Google vouches for is enough; with one, a code of it has to follow. -/
def Granted (mode : Mode) (user : User) (sessionId : Option UUID) : Grounds → Prop
  | .google vouch examined => user.factor = none ∧ Vouches events mode user.id sessionId vouch examined
  | .factor token code examined checked =>
    (∃ secret ∈ user.factor, (functions.verifySecondFactor secret code checked).isSome) ∧
      Awaited events mode user.id sessionId token examined ∧ Unspent events token

/-- When the session was examined that the grounds are good for. -/
def Grounds.examined : Grounds → Option Timestamp
  | .google _ examined => examined.map (·.session)
  | .factor _ _ examined _ => some examined

/-- The session is the user's own; it has not been revoked, and had not expired when it was examined. -/
structure InForce (user : User) (session : AuthSession) (grounds : Grounds) : Prop where
  own : session.userId = user.id
  unrevoked : session.revokedAt = none
  unexpired : ∃ examined ∈ grounds.examined, examined < session.expiresAt

/-- What a note needs of the notes before it. -/
def Justified : Event → Prop
  | .started userId _ _ _ => ∃ subject, Linked events userId subject
  | .linked row vouch => ∃ user ∈ row, user.email = vouch.claims.email ∧ vouch.Sound
  | .deferred _ mode userId sessionId vouch examined _ => Vouches events mode userId sessionId vouch examined
  | .reauthenticated row session grounds => ∃ user ∈ row, ∃ current ∈ session, user.disabled = false ∧
    InForce user current grounds ∧ Granted functions events .reauthenticate user (some current.id) grounds
  | .signedIn row _ grounds =>
    ∃ user ∈ row, user.disabled = false ∧ Granted functions events .login user none grounds
  | .spent token => (∃ event ∈ events, event.givenToken = some token) ∧ Unspent events token

end Notes

variable {functions : Functions} {events later : List Event} {userId sessionId : UUID} {mode : Mode}
  {vouch : Vouch} {event : Event} {examined : Timestamp}

theorem Linked.mono {subject : String} (grows : ∀ e ∈ events, e ∈ later) (linked : Linked events userId subject) :
    Linked later userId subject := by
  obtain ⟨user, vouch, noted, same, own⟩ := linked
  exact ⟨user, vouch, grows _ noted, same, own⟩

theorem Reclaims.mono (grows : ∀ e ∈ events, e ∈ later) (reclaims : Reclaims events userId sessionId vouch examined) :
    Reclaims later userId sessionId vouch examined := by
  obtain ⟨⟨at_, noted, inTime⟩, linked, sound, fresh⟩ := reclaims
  exact ⟨⟨at_, grows _ noted, inTime⟩, linked.mono grows, sound, fresh⟩

theorem SignsIn.mono (grows : ∀ e ∈ events, e ∈ later) (signsIn : SignsIn events userId vouch) :
    SignsIn later userId vouch :=
  { signsIn with linked := signsIn.linked.mono grows }

theorem Vouches.mono {sessionId : Option UUID} {examined : Option Examined} (grows : ∀ e ∈ events, e ∈ later)
    (vouches : Vouches events mode userId sessionId vouch examined) :
    Vouches later mode userId sessionId vouch examined := by
  cases mode <;> cases sessionId <;> cases examined <;> try exact vouches
  · exact SignsIn.mono grows vouches
  · exact Reclaims.mono grows vouches

theorem Awaited.mono {sessionId : Option UUID} {token : UUID} (grows : ∀ e ∈ events, e ∈ later)
    (awaited : Awaited events mode userId sessionId token examined) :
    Awaited later mode userId sessionId token examined := by
  obtain ⟨vouch, asked, at_, noted, inTime, vouches⟩ := awaited
  exact ⟨vouch, asked, at_, grows _ noted, inTime, vouches.mono grows⟩

abbrev Notes (functions : Functions) : List Event → UUID → Prop :=
  Chronicle.Notes (Justified functions) Event.givenToken

/-- Only a transaction that was begun is used. -/
theorem used_given {before : List Event} (justified : Justified functions before event) :
    ∀ id ∈ event.usedToken, ∃ giver ∈ before, id ∈ giver.givenToken := by
  intro id used
  cases event with
  | reauthenticated row session grounds =>
    cases grounds with
    | google vouch examined => cases used
    | factor token code examined checked =>
      cases used
      obtain ⟨user, -, current, -, -, -, -, ⟨vouch, asked, at_, noted, -⟩, -⟩ := justified
      exact ⟨_, noted, rfl⟩
  | signedIn row session grounds =>
    cases grounds with
    | google vouch examined => cases used
    | factor token code examined checked =>
      cases used
      obtain ⟨user, -, -, -, ⟨vouch, asked, at_, noted, -⟩, -⟩ := justified
      exact ⟨_, noted, rfl⟩
  | spent token =>
    cases used
    exact justified.1
  | started | linked | deferred => cases used

end Drivebound.Federation
