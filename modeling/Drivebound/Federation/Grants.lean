import Drivebound.Federation.Steps
import Mathlib

/-! What Google may do for an account, in every order of the requests. It is linked only to the account whose address
it has vouched for; without a second factor it reauthenticates the session that asked for it; with one it takes a
code of it, for which there is one attempt. -/
namespace Drivebound.Federation
open Chronicle Sessions Run

variable {functions : Functions} {settings : Settings}

abbrev Guarded (functions : Functions) : Recorded → Prop := Sound Holding (Global functions) (Knows functions)

/-- No accounts yet. -/
def begin : Recorded := Store.idle (⟨[], [], [], [], 0⟩, []) .idle

theorem begin_guarded : Guarded functions begin := by
  have rows : Rows functions [] ⟨[], [], [], [], 0⟩ := by constructor <;> simp
  exact Sound.idle ⟨Notes.nil 0, rows⟩ trivial fun _ held => by cases held

variable {labels : List (Nat × Action)} {s : Recorded} {before middle after : List Event}

theorem run_guarded (digests : Function.Injective functions.tokenDigest)
    (tokens : Function.Injective functions.opaqueToken)
    (reached : run (recordedStep functions settings) begin labels = some s) : Guarded functions s :=
  run_sound (fun _ _ _ _ global knows chosen => program_pays digests tokens global knows chosen) begin_guarded reached

theorem run_justified {event : Event} (digests : Function.Injective functions.tokenDigest)
    (tokens : Function.Injective functions.opaqueToken)
    (reached : run (recordedStep functions settings) begin labels = some s)
    (noted : before ++ [event] <+: s.shared.2) : Justified functions before event :=
  (run_guarded digests tokens reached).global.notes.justified before event noted

/-! Two accounts, one of them with a second factor. -/

def plainTexts : Functions where
  tokenDigest := id
  opaqueToken id := String.ofList (List.replicate id 'x')
  verifySecondFactor secret code _ := if code = secret then some secret else none
  suppressed _ := false

theorem plainTexts_tokens : Function.Injective plainTexts.opaqueToken := by
  intro one two same
  have lengths := congrArg List.length (String.ofList_injective same)
  rwa [List.length_replicate, List.length_replicate] at lengths

def thirtyDays : Settings := ⟨true, 30⟩

def register (email : String) (factor : Option String) : List (Nat × Action) :=
  [(0, .hold (.user 0)), (0, .alter (.register ⟨0, email, false, false, factor⟩))]

def claims (email : String) : Claims := ⟨none, true, some 1000, "g", email⟩

/-- A callback that Google vouches for, up to its commit. -/
def callback (state email : String) (statements : Nat) : List (Nat × Action) :=
  [(1, .callback ⟨some "c", some state, false, some state, none⟩), (1, .google (some (claims email)) 1000)] ++
    List.replicate statements (1, .proceed 1000) ++ [(1, .commit 1000)]

def plainUser : User := ⟨0, "a", false, false, none⟩

def plainSession : AuthSession := ⟨1, 0, 2593000, none, none⟩

def reauthenticating : List (Nat × Action) :=
  register "a" none ++ callback "s" "a" 5 ++
    [(2, .start 0 1 1000), (2, .proceed 1000), (2, .proceed 1000), (2, .commit 1000)] ++ callback "reauth.xx" "a" 5

def plainEvents : List Event :=
  let vouch : Vouch := ⟨"s", none, claims "a", 1000⟩
  [.linked (some plainUser) vouch, .signedIn (some { plainUser with emailVerified := true }) 1 (.google vouch none),
    .started 0 1 "reauth.xx" 1000]

def plainGrounds : Grounds := .google ⟨"reauth.xx", none, claims "a", 1000⟩ (some ⟨1000, 1000⟩)

def completing (raw code : String) : List (Nat × Action) :=
  [(2, .complete .login raw code 1000)] ++ List.replicate 6 (2, .proceed 1000) ++ [(2, .commit 1000)]

/-- A wrong code, and with a new transaction the right one. -/
def signingIn : List (Nat × Action) :=
  register "b" (some "k") ++ callback "s" "b" 5 ++ completing "x" "wrong" ++ callback "s" "b" 4 ++ completing "xx" "k"

def guardedUser : User := ⟨0, "b", false, false, some "k"⟩

def guardedEvents : List Event :=
  let vouch : Vouch := ⟨"s", none, claims "b", 1000⟩
  [.linked (some guardedUser) vouch, .deferred 1 .login 0 none vouch none 1000]

def secondAttempt : Event := .deferred 2 .login 0 none ⟨"s", none, claims "b", 1000⟩ none 1000

def guardedSignIn : Event := .signedIn (some { guardedUser with emailVerified := true }) 3 (.factor 2 "k" 1000 1000)

abbrev Story (labels : List (Nat × Action)) (s : Recorded) : Prop :=
  run (recordedStep plainTexts thirtyDays) begin labels = some s

/-- `google_callback` and `complete_google_mfa_reauthentication` reauthenticate a session of a user who is not disabled;
it has not been revoked, and had not expired when it was examined. Where the user has no second factor, that session had
asked for it less than ten minutes before, and Google has just seen the user of an account that is linked to him. Where
he has one, a code of it is accepted for a transaction of that very session that Google was asked to vouch for less than
five minutes before, and that has not been used. -/
theorem reauthentications_are_granted {row : Option User} {session : Option AuthSession} {grounds : Grounds}
    (digests : Function.Injective functions.tokenDigest) (tokens : Function.Injective functions.opaqueToken)
    (reached : run (recordedStep functions settings) begin labels = some s)
    (noted : before ++ [.reauthenticated row session grounds] <+: s.shared.2) :
    ∃ user ∈ row, ∃ current ∈ session, user.disabled = false ∧ InForce user current grounds ∧
      Granted functions before .reauthenticate user (some current.id) grounds :=
  run_justified digests tokens reached noted

theorem plain_user_reauthenticates : ∃ s, Story reauthenticating s ∧
    ∃ user ∈ some { plainUser with emailVerified := true }, ∃ current ∈ some plainSession, user.disabled = false ∧
      InForce user current plainGrounds ∧
        Granted plainTexts plainEvents .reauthenticate user (some current.id) plainGrounds := by
  have grants : (run (recordedStep plainTexts thirtyDays) begin reauthenticating).any fun s =>
      plainEvents ++ [.reauthenticated (some { plainUser with emailVerified := true }) (some plainSession)
        plainGrounds] <+: s.shared.2 := by decide +kernel
  obtain ⟨s, reached, noted⟩ := (Option.any_eq_true _ _).mp grants
  exact ⟨s, reached, reauthentications_are_granted Function.injective_id plainTexts_tokens reached
    (of_decide_eq_true noted)⟩

/-- A session is opened for a user who is not disabled and whose Google account vouches for him; where he has a second
factor, not before a code of it is accepted for that sign-in. -/
theorem sign_ins_are_granted {row : Option User} {session : UUID} {grounds : Grounds}
    (digests : Function.Injective functions.tokenDigest) (tokens : Function.Injective functions.opaqueToken)
    (reached : run (recordedStep functions settings) begin labels = some s)
    (noted : before ++ [.signedIn row session grounds] <+: s.shared.2) :
    ∃ user ∈ row, user.disabled = false ∧ Granted functions before .login user none grounds :=
  run_justified digests tokens reached noted

theorem guarded_user_signs_in : ∃ s, Story signingIn s ∧
    ∃ user ∈ some { guardedUser with emailVerified := true }, user.disabled = false ∧
      Granted plainTexts (guardedEvents ++ [.spent 1, secondAttempt]) .login user none
        (.factor 2 "k" 1000 1000) := by
  have grants : (run (recordedStep plainTexts thirtyDays) begin signingIn).any fun s =>
      guardedEvents ++ [.spent 1, secondAttempt] ++ [guardedSignIn] <+: s.shared.2 := by decide +kernel
  obtain ⟨s, reached, noted⟩ := (Option.any_eq_true _ _).mp grants
  exact ⟨s, reached, sign_ins_are_granted Function.injective_id plainTexts_tokens reached (of_decide_eq_true noted)⟩

/-- There is one attempt at a transaction, right or wrong. -/
theorem transactions_are_used_once {event later : Event} {token : UUID}
    (digests : Function.Injective functions.tokenDigest) (tokens : Function.Injective functions.opaqueToken)
    (reached : run (recordedStep functions settings) begin labels = some s)
    (noted : before ++ event :: middle ++ [later] <+: s.shared.2) (used : event.usedToken = some token) :
    later.usedToken ≠ some token := by
  intro again
  have justified := run_justified digests tokens reached noted
  have unspent : Unspent (before ++ event :: middle) token := by
    cases later with
    | reauthenticated row session grounds =>
      cases grounds with
      | google vouch examined => cases again
      | factor id code examined checked =>
        cases again
        obtain ⟨user, -, current, -, -, -, -, -, unspent⟩ := justified
        exact unspent
    | signedIn row session grounds =>
      cases grounds with
      | google vouch examined => cases again
      | factor id code examined checked =>
        cases again
        obtain ⟨user, -, -, -, -, unspent⟩ := justified
        exact unspent
    | spent id =>
      cases again
      exact justified.2
    | started | linked | deferred => cases again
  exact unspent event (List.mem_append_right _ List.mem_cons_self) used

theorem first_attempt_is_over : ∃ s, Story signingIn s ∧ guardedSignIn.usedToken ≠ some 1 := by
  have grants : (run (recordedStep plainTexts thirtyDays) begin signingIn).any fun s =>
      guardedEvents ++ .spent 1 :: [secondAttempt] ++ [guardedSignIn] <+: s.shared.2 := by decide +kernel
  obtain ⟨s, reached, noted⟩ := (Option.any_eq_true _ _).mp grants
  exact ⟨s, reached, transactions_are_used_once Function.injective_id plainTexts_tokens reached
    (of_decide_eq_true noted) rfl⟩

/-- A Google account is linked to the user whose address it has vouched for as verified. -/
theorem links_are_vouched {identity : ExternalIdentity} (digests : Function.Injective functions.tokenDigest)
    (tokens : Function.Injective functions.opaqueToken)
    (reached : run (recordedStep functions settings) begin labels = some s)
    (member : identity ∈ s.shared.1.identities) :
    ∃ user vouch, Event.linked (some user) vouch ∈ s.shared.2 ∧ user.id = identity.userId ∧
      vouch.claims.subject = identity.subject ∧ user.email = vouch.claims.email ∧ vouch.Sound := by
  have global := (run_guarded digests tokens reached).global
  obtain ⟨user, vouch, noted, same, subject⟩ := global.rows.identities identity member
  obtain ⟨earlier, -, justified⟩ := global.notes.of_mem noted
  obtain ⟨found, present, email, sound⟩ := justified
  cases present
  exact ⟨user, vouch, noted, same, subject, email, sound⟩

theorem plain_user_is_linked : ∃ s, Story reauthenticating s ∧
    ∃ user vouch, Event.linked (some user) vouch ∈ s.shared.2 ∧ user.id = 0 ∧ vouch.claims.subject = "g" ∧
      user.email = vouch.claims.email ∧ vouch.Sound := by
  have links : (run (recordedStep plainTexts thirtyDays) begin reauthenticating).any fun s =>
      ⟨0, "g"⟩ ∈ s.shared.1.identities := by decide +kernel
  obtain ⟨s, reached, member⟩ := (Option.any_eq_true _ _).mp links
  exact ⟨s, reached, links_are_vouched Function.injective_id plainTexts_tokens reached (of_decide_eq_true member)⟩

end Drivebound.Federation
