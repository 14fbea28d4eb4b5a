import Drivebound.Core.History
import Drivebound.Passkeys.Accounts

/-! What the ceremonies do with their challenges. The history keeps every challenge as it
was issued and what became of it, and for a session the one issued last of each protected
purpose; an id that is drawn once more names another challenge. -/
namespace Drivebound.Passkeys
open Sessions Run

variable {Document : Type}

inductive Fate where
  | accepted | burned
  deriving DecidableEq, Repr

structure Issued where
  row : WebAuthnChallenge
  fate : Option Fate
  deriving DecidableEq, Repr

structure Ledger where
  challenges : UUID → Option Issued
  latest : UUID → Purpose → Option UUID

def Ledger.empty : Ledger := ⟨fun _ => none, fun _ _ => none⟩

def Ledger.issue (ledger : Ledger) (row : WebAuthnChallenge) : Ledger where
  challenges := Function.update ledger.challenges row.id (some ⟨row, none⟩)
  latest session purpose :=
    if row.sessionId = some session ∧ row.purpose = purpose then some row.id
    else ledger.latest session purpose

def Ledger.conclude (ledger : Ledger) (id : UUID) (fate : Fate) : Ledger :=
  { ledger with
    challenges := Function.update ledger.challenges id
      ((ledger.challenges id).map fun issued => { issued with fate := some fate }) }

/-- The ceremony that a verdict completes; `none` where it fails. -/
def Verdict.purpose : Verdict → Option Purpose
  | .signIn .. => some .passkeyAuthentication
  | .register _ => some .passkeyRegistration
  | .reauthenticate .. => some .passkeyReauthentication
  | _ => none

/-- The user that a ceremony has been completed for. -/
def Verdict.userId : Verdict → Option UUID
  | .signIn user _ _ => some user.id
  | .register credential => some credential.userId
  | .reauthenticate session _ _ => some session.userId
  | _ => none

def Ledger.after (settings : Settings) (db : Database) (phase : Phase Document) (action : Action Document)
    (ledger : Ledger) : Ledger :=
  match issuedBy settings db phase action, concludedBy db phase action with
  | some row, _ => ledger.issue row
  | none, some conclusion =>
    ledger.conclude conclusion.challenge.id
      (if conclusion.verdict.purpose.isSome then .accepted else .burned)
  | none, none => ledger

def ledgerAfter (settings : Settings) (s : Service Document) (label : Nat × Action Document)
    (_ : Service Document) (ledger : Ledger) : Ledger :=
  ledger.after settings s.shared (s.locals label.1) label.2

abbrev ledgerStep (webauthn : WebAuthn Document) (settings : Settings) :
    Service Document × Ledger → Nat × Action Document → Option (Service Document × Ledger) :=
  noted (step webauthn settings) (ledgerAfter settings)

/-- The challenge, as it was issued, is one for the request that completes its ceremony. -/
structure Fits (ledger : Ledger) (row : WebAuthnChallenge) (conclusion : Conclusion Document) :
    Prop where
  purpose : conclusion.verdict.purpose = some row.purpose
  lifetime : conclusion.usedAt < row.expiresAt
  user : ∀ user, row.userId = some user → conclusion.verdict.userId = some user
  discoverable : row.userId = none → row.discoverable = true
  session : row.sessionId = conclusion.attempt.sessionId
  latest : ∀ session, row.sessionId = some session → ledger.latest session row.purpose = some row.id

/-- It has been issued and neither accepted nor burned since. -/
def Legitimate (ledger : Ledger) (conclusion : Conclusion Document) : Prop :=
  ∃ row, row.id = conclusion.challenge.id ∧ ledger.challenges row.id = some ⟨row, none⟩ ∧
    Fits ledger row conclusion

/-- A ceremony is completed with a challenge that is issued for it, and a concluded one
uses its challenge up, completed or not. -/
def Honours (webauthn : WebAuthn Document) (settings : Settings) (s : Service Document × Ledger)
    (label : Nat × Action Document) : Prop :=
  ∀ t, ledgerStep webauthn settings s label = some t → ∀ conclusion,
    concludedBy s.1.shared (s.1.locals label.1) label.2 = some conclusion →
      (conclusion.verdict.purpose.isSome = true → Legitimate s.2 conclusion) ∧
      ∀ row ∈ t.1.shared.challenges, row.id = conclusion.challenge.id → row.usedAt ≠ none

/-- The challenge that an attempt has consumed and that its transaction has not committed yet. -/
def Phase.spending : Phase Document → Option WebAuthnChallenge
  | .consumed _ challenge _ | .verified _ challenge _ _ | .counted _ challenge _ _ | .inserting _ challenge _ _ =>
    some challenge
  | .concluding _ spent _ => spent.map (·.1)
  | _ => none

/-- Everything of the attempt has been accepted. -/
def Phase.completes : Phase Document → Bool
  | .concluding _ _ verdict => verdict.purpose.isSome
  | _ => false

/-- An attempt that has consumed its challenge goes on with it until it is used up for good, whatever it is rejected
for. Only a crash cuts it off; an attempt that is accepted can still fail with its commit. -/
def Burns (webauthn : WebAuthn Document) (settings : Settings) (s : Service Document × Ledger)
    (label : Nat × Action Document) : Prop :=
  ∀ t, ledgerStep webauthn settings s label = some t → ∀ challenge,
    (s.1.locals label.1).spending = some challenge → (s.1.locals label.1).completes = false → label.2 ≠ .stop →
      (t.1.locals label.1).spending = some challenge ∨
        ∀ row ∈ t.1.shared.challenges, row.id = challenge.id → row.usedAt ≠ none

/-- The unused challenges are among those issued, and for a session the one issued last. -/
structure Recorded (db : Database) (ledger : Ledger) : Prop where
  known : ∀ row ∈ db.challenges, row.usedAt = none → ledger.challenges row.id = some ⟨row, none⟩
  latest : ∀ row ∈ db.challenges, row.usedAt = none → ∀ session, row.sessionId = some session →
    ledger.latest session row.purpose = some row.id

structure Bound (db : Database) : Prop where
  unique : (db.challenges.map (·.id)).Nodup
  login : ∀ row ∈ db.challenges, row.purpose = .passkeyAuthentication → row.sessionId = none

def Database.SessionOwner (db : Database) (session user : UUID) : Prop :=
  ∃ row ∈ db.session? session, row.userId = user

structure Binding.Sound (db : Database) (binding : Binding) : Prop where
  login : binding.purpose = .passkeyAuthentication → binding.sessionId = none
  owner : ∀ session, binding.sessionId = some session →
    ∃ user, binding.userId = some user ∧ db.SessionOwner session user

/-- The instances of a request belong together. -/
def Attempt.Standing (db : Database) : Attempt Document → Prop
  | .register user session _ _ | .reauthenticate user session _ =>
    db.SessionOwner session.id user.id ∧ session.userId = user.id
  | .signIn _ _ candidate user => ∀ row, user = some row → row.id = candidate.userId
  | .malformed => True

/-- The consumed challenge is still there as it was found. -/
structure Spending (db : Database) (attempt : Attempt Document) (challenge : WebAuthnChallenge)
    (usedAt : Timestamp) : Prop where
  stored : db.challenge? challenge.id = some challenge
  purpose : challenge.purpose = attempt.purpose
  acceptable : Acceptable challenge attempt.userId attempt.sessionId usedAt
  standing : attempt.Standing db

def Verdict.Sound (attempt : Attempt Document) (challenge : WebAuthnChallenge) : Verdict → Prop
  | .signIn user _ _ => attempt.purpose = .passkeyAuthentication ∧
    (∀ other, challenge.userId = some other → other = user.id) ∧
    (challenge.userId = none → challenge.discoverable = true)
  | .register credential => attempt.purpose = .passkeyRegistration ∧
    attempt.userId = some credential.userId
  | .reauthenticate session _ _ => attempt.purpose = .passkeyReauthentication ∧
    attempt.userId = some session.userId
  | _ => True

def Attends (db : Database) : Phase Document → Prop
  | .authenticated user session _ | .locked user session _ =>
    db.SessionOwner session.id user.id ∧ session.userId = user.id
  | .issuing binding | .cleaning binding _ _ _ => binding.Sound db
  | .attempting attempt _ => attempt.Standing db
  | .consumed attempt challenge usedAt | .verified attempt challenge usedAt _
  | .counted attempt challenge usedAt _ => Spending db attempt challenge usedAt
  | .inserting attempt challenge usedAt credential => Spending db attempt challenge usedAt ∧
    attempt.purpose = .passkeyRegistration ∧ attempt.userId = some credential.userId
  | .concluding attempt (some (challenge, usedAt)) verdict =>
    Spending db attempt challenge usedAt ∧ verdict.Sound attempt challenge
  | _ => True

variable {webauthn : WebAuthn Document} {settings : Settings} {db db' : Database}
  {phase m : Phase Document} {action : Action Document} {outcome : Step Document}

@[simp] theorem supersede_id (binding : Binding) (now : Timestamp) (row : WebAuthnChallenge) :
    (supersede binding now row).id = row.id := by
  unfold supersede
  split <;> rfl

@[simp] theorem supersede_purpose (binding : Binding) (now : Timestamp) (row : WebAuthnChallenge) :
    (supersede binding now row).purpose = row.purpose := by
  unfold supersede
  split <;> rfl

@[simp] theorem supersede_sessionId (binding : Binding) (now : Timestamp) (row : WebAuthnChallenge) :
    (supersede binding now row).sessionId = row.sessionId := by
  unfold supersede
  split <;> rfl

/-- A challenge that is not superseded is left as it is. -/
theorem supersede_unused {binding : Binding} {now : Timestamp} {row : WebAuthnChallenge}
    (unused : (supersede binding now row).usedAt = none) :
    supersede binding now row = row ∧ ∀ session, row.sessionId = some session →
      ¬ (binding.sessionId = some session ∧ binding.purpose = row.purpose) := by
  unfold supersede at unused ⊢
  split at unused
  · contradiction
  · rename_i spared
    rw [if_neg spared]
    refine ⟨rfl, fun session bound same => spared ?_⟩
    exact ⟨by rw [same.1]; rfl, bound.trans same.1.symm, same.2.symm, unused⟩

theorem conclude_challenges (spent : Option (WebAuthnChallenge × Timestamp)) (verdict : Verdict)
    (now : Timestamp) (sessionId : UUID) :
    (conclude settings db spent verdict now sessionId).challenges = (spendChallenge db spent).challenges := by
  cases verdict <;> rfl

/-- The rows that `create_challenge` leaves unused. -/
theorem unused_createChallenge {deleted : List UUID} {binding : Binding} {now : Timestamp}
    {new row : WebAuthnChallenge} (member : row ∈ (createChallenge db deleted binding now new).challenges)
    (unused : row.usedAt = none) : row = new ∨
      (row ∈ db.challenges ∧ row.id ∉ deleted ∧ ∀ session, row.sessionId = some session →
        ¬ (binding.sessionId = some session ∧ binding.purpose = row.purpose)) := by
  rcases List.mem_append.mp member with before | added
  · obtain ⟨old, there, rfl⟩ := List.mem_map.mp before
    obtain ⟨here, kept⟩ := List.mem_filter.mp there
    obtain ⟨same, spared⟩ := supersede_unused unused
    rw [same]
    exact .inr ⟨here, of_decide_eq_true kept, spared⟩
  · exact .inl (List.mem_singleton.mp added)

/-- The rows that a consumption leaves unused. -/
theorem unused_spendChallenge {challenge row : WebAuthnChallenge} {usedAt : Timestamp}
    (member : row ∈ (spendChallenge db (some (challenge, usedAt))).challenges)
    (unused : row.usedAt = none) : row ∈ db.challenges ∧ row.id ≠ challenge.id := by
  obtain ⟨old, there, rfl⟩ := List.mem_map.mp member
  split at unused
  · contradiction
  · rename_i other
    rw [if_neg other]
    exact ⟨there, other⟩

theorem session?_conclude {spent : Option (WebAuthnChallenge × Timestamp)} {verdict : Verdict}
    {now : Timestamp} {sessionId session user : UUID} (owner : db.SessionOwner session user) :
    (conclude settings db spent verdict now sessionId).SessionOwner session user := by
  obtain ⟨row, found, own⟩ := owner
  have there : (spendChallenge db spent).sessions.find? (·.id = session) = some row := by
    cases spent <;> exact found
  cases verdict with
  | refused | rejected | duplicate | limit | register credential => exact ⟨row, there, own⟩
  | signIn signedIn stored verified =>
    refine ⟨row, ?_, own⟩
    rw [Option.mem_def, Database.session?, conclude, applyVerdict, Database.insertSession, List.find?_append]
    exact congrArg (Option.or · _) there
  | reauthenticate current stored verified =>
    have updated : (conclude settings db spent (.reauthenticate current stored verified) now sessionId).session?
        session = ((spendChallenge db spent).sessions.find? (·.id = session)).map fun row =>
          if row.id = current.id then { row with
            reauthenticatedAt := Attributes.flush current.reauthenticatedAt (some now) row.reauthenticatedAt }
          else row := Rows.find?_updateKey fun _ same => same
    rw [there, Option.map_some] at updated
    refine ⟨_, updated, ?_⟩
    split
    · exact own
    · exact own

theorem written_sessionOwner (written : Written settings db phase action db') {session user : UUID}
    (owner : db.SessionOwner session user) : db'.SessionOwner session user := by
  cases written with
  | concluded => exact session?_conclude owner
  | granted user method => cases method <;> exact owner
  | _ => exact owner

theorem written_bound (bound : Bound db) (attends : Attends db phase)
    (written : Written settings db phase action db') : Bound db' := by
  cases written with
  | nothing | removed => exact ⟨bound.unique, bound.login⟩
  | granted user method => cases method <;> exact ⟨bound.unique, bound.login⟩
  | issued binding now deleted id challenge createdAt fresh issues =>
    constructor
    · have ids : ((db.challenges.filter (·.id ∉ deleted)).map (supersede binding now)).map (·.id) =
          (db.challenges.filter (·.id ∉ deleted)).map (·.id) := by
        rw [List.map_map]
        exact List.map_congr_left fun row _ => supersede_id binding now row
      simp only [createChallenge]
      rw [List.map_append, ids, List.map_singleton, List.nodup_append]
      refine ⟨bound.unique.sublist (List.filter_sublist.map _), List.nodup_singleton _, ?_⟩
      intro old member new added
      obtain ⟨row, there, rfl⟩ := List.mem_map.mp member
      rw [List.mem_singleton.mp added]
      obtain ⟨here, kept⟩ := List.mem_filter.mp there
      exact fresh row here (of_decide_eq_true kept)
    · intro row member login
      rcases List.mem_append.mp member with before | added
      · obtain ⟨old, there, rfl⟩ := List.mem_map.mp before
        rw [supersede_purpose] at login
        rw [supersede_sessionId]
        exact bound.login old (List.mem_of_mem_filter there) login
      · rw [List.mem_singleton.mp added] at login ⊢
        exact attends.login login
  | concluded attempt spent verdict now sessionId =>
    cases spent with
    | none =>
      refine ⟨?_, ?_⟩ <;> rw [conclude_challenges]
      · exact bound.unique
      · exact bound.login
    | some challenge =>
      refine ⟨?_, ?_⟩ <;> rw [conclude_challenges]
      · have ids : (spendChallenge db (some challenge)).challenges.map (·.id) = db.challenges.map (·.id) :=
          Rows.updateKey_keys fun _ same => same
        rw [ids]
        exact bound.unique
      · intro row member login
        obtain ⟨old, there, rfl⟩ := List.mem_map.mp member
        split at login
        · rename_i same
          rw [if_pos same]
          exact bound.login old there login
        · rename_i other
          rw [if_neg other]
          exact bound.login old there login

theorem SessionOwner.unique {session user other : UUID} (one : db.SessionOwner session user)
    (two : db.SessionOwner session other) : user = other := by
  obtain ⟨row, found, rfl⟩ := one
  obtain ⟨same, there, rfl⟩ := two
  rw [Option.some.inj (found.symm.trans there)]

theorem Attempt.Standing.mono {attempt : Attempt Document} (standing : attempt.Standing db)
    (owners : ∀ session user, db.SessionOwner session user → db'.SessionOwner session user) :
    attempt.Standing db' := by
  cases attempt with
  | register user session document name | reauthenticate user session document =>
    exact ⟨owners _ _ standing.1, standing.2⟩
  | signIn document parsed candidate user => exact standing
  | malformed => trivial

theorem Binding.Sound.mono {binding : Binding} (sound : binding.Sound db)
    (owners : ∀ session user, db.SessionOwner session user → db'.SessionOwner session user) :
    binding.Sound db' := by
  refine ⟨sound.login, fun session bound => ?_⟩
  obtain ⟨user, same, owner⟩ := sound.owner session bound
  exact ⟨user, same, owners session user owner⟩

/-- A consumed challenge that is bound to a session belongs to the user whose row its
request has locked. -/
theorem Spending.owner {attempt : Attempt Document} {challenge : WebAuthnChallenge}
    {usedAt : Timestamp} (spending : Spending db attempt challenge usedAt) (bound : Bound db)
    {session : UUID} (same : challenge.sessionId = some session) :
    ∃ user, attempt.owner = some user ∧ db.SessionOwner session user := by
  obtain ⟨member, _⟩ := Rows.find?_key spending.stored
  obtain ⟨_, _, _, sessions⟩ := spending.acceptable
  have standing := spending.standing
  have login : challenge.purpose = .passkeyAuthentication → False := fun purpose => by
    rw [bound.login challenge member purpose] at same
    contradiction
  cases attempt with
  | register user current document name | reauthenticate user current document =>
    have here : challenge.sessionId = some current.id := sessions rfl
    obtain rfl := Option.some.inj (here.symm.trans same)
    exact ⟨user.id, rfl, standing.1⟩
  | signIn document parsed candidate user => exact absurd spending.purpose login
  | malformed => exact absurd spending.purpose login

section Interference

variable {attempt : Attempt Document} {challenge : WebAuthnChallenge} {usedAt : Timestamp}

theorem stored_others (bound : Bound db) (bound' : Bound db') (attends : Attends db phase)
    (written : Written settings db phase action db') (apart : locks.Apart phase m)
    (holds : ∀ k, attempt.Locks k ∨ k = .challenge challenge.id → m.Holds k)
    (spending : Spending db attempt challenge usedAt) :
    db'.challenge? challenge.id = some challenge := by
  obtain ⟨member, _⟩ := Rows.find?_key spending.stored
  have conflict : ∀ k, phase.Holds k → ¬ (attempt.Locks k ∨ k = .challenge challenge.id) :=
    fun k mine theirs => ((apart k).1 mine).1 (holds k theirs)
  cases written with
  | nothing | removed => exact spending.stored
  | granted user method => cases method <;> exact spending.stored
  | issued binding now deleted id bytes createdAt fresh issues =>
    have kept : challenge.id ∉ deleted := fun deletes =>
      conflict (.challenge challenge.id) (.inr ⟨challenge.id, deletes, rfl⟩) (.inr rfl)
    have spared : supersede binding now challenge = challenge := by
      apply if_neg
      rintro ⟨protected', same, -, -⟩
      obtain ⟨session, current⟩ := Option.isSome_iff_exists.mp protected'
      obtain ⟨user, bindingUser, issuer⟩ := attends.owner session current
      obtain ⟨owner, attemptUser, consumer⟩ := spending.owner bound (same.trans current)
      obtain rfl := SessionOwner.unique issuer consumer
      exact conflict (.user user) (.inl ⟨protected', user, bindingUser, rfl⟩)
        (.inl ⟨user, attemptUser, rfl⟩)
    refine (Rows.find?_key_iff bound'.unique).mpr ⟨List.mem_append_left _ ?_, rfl⟩
    exact List.mem_map.mpr ⟨challenge, List.mem_filter.mpr ⟨member, decide_eq_true kept⟩, spared⟩
  | concluded other spent verdict now sessionId =>
    rw [Database.challenge?, conclude_challenges]
    cases spent with
    | none => exact spending.stored
    | some consumed =>
      have different : challenge.id ≠ consumed.1.id := fun same =>
        conflict (.challenge consumed.1.id) (.inr (.inl ⟨consumed, rfl, rfl⟩)) (.inr (same ▸ rfl))
      have kept : (spendChallenge db (some consumed)).challenge? challenge.id = db.challenge? challenge.id :=
        Rows.find?_updateKey_other (fun _ same => same) different
      exact kept.trans spending.stored

theorem spending_others (bound : Bound db) (bound' : Bound db') (attends : Attends db phase)
    (written : Written settings db phase action db') (apart : locks.Apart phase m)
    (holds : ∀ k, attempt.Locks k ∨ k = .challenge challenge.id → m.Holds k)
    (spending : Spending db attempt challenge usedAt) : Spending db' attempt challenge usedAt :=
  ⟨stored_others bound bound' attends written apart holds spending, spending.purpose,
    spending.acceptable, spending.standing.mono fun _ _ => written_sessionOwner written⟩

theorem attends_others (bound : Bound db) (attends : Attends db phase)
    (written : Written settings db phase action db') (apart : locks.Apart phase m)
    (other : Attends db m) : Attends db' m := by
  have bound' := written_bound bound attends written
  have owners : ∀ session user, db.SessionOwner session user → db'.SessionOwner session user :=
    fun _ _ => written_sessionOwner written
  cases m with
  | authenticated user session endpoint | locked user session endpoint =>
    exact ⟨owners _ _ other.1, other.2⟩
  | issuing binding | cleaning binding now pending deleted => exact Binding.Sound.mono other owners
  | attempting attempt challengeId => exact Attempt.Standing.mono other owners
  | consumed attempt challenge usedAt | verified attempt challenge usedAt registration
  | counted attempt challenge usedAt registration =>
    exact spending_others bound bound' attends written apart (fun k held => held) other
  | inserting attempt challenge usedAt credential =>
    refine ⟨spending_others bound bound' attends written apart ?_ other.1, other.2⟩
    rintro k (owned | spent)
    · exact .inl owned
    · exact .inr (.inl spent)
  | concluding attempt spent verdict =>
    cases spent with
    | none => trivial
    | some consumed =>
      refine ⟨spending_others bound bound' attends written apart ?_ other.1, other.2⟩
      rintro k (owned | rfl)
      · exact .inl owned
      · exact .inr (.inl ⟨consumed, rfl, rfl⟩)
  | _ => trivial

end Interference

section Arrivals

variable {attempt : Attempt Document} {challenge : WebAuthnChallenge} {usedAt : Timestamp}

theorem begin_attends {user : User} {session : AuthSession} {endpoint : Endpoint Document}
    (standing : db.SessionOwner session.id user.id ∧ session.userId = user.id) :
    Attends db (begin db user session endpoint).arrival := by
  cases endpoint with
  | registrationOptions | reauthenticationOptions =>
    simp only [begin]
    split
    · trivial
    · refine ⟨(fun same => by cases same), fun current same => ?_⟩
      cases same
      exact ⟨user.id, rfl, standing.1⟩
  | registrationVerify challengeId document name | reauthenticationVerify challengeId document =>
    exact standing
  | deletePasskey passkeyId =>
    simp only [begin]
    split <;> trivial

theorem consume_attends {challengeId : UUID} {now : Timestamp} (standing : attempt.Standing db) :
    Attends db (consume db attempt challengeId now).arrival := by
  unfold consume
  split
  · trivial
  · rename_i row found
    obtain ⟨there, purpose⟩ := Option.filter_eq_some_iff.mp found
    simp only [Outcome.arrival]
    split
    · rename_i acceptable
      refine ⟨?_, of_decide_eq_true purpose, acceptable, standing⟩
      rw [(Rows.find?_key there).2]
      exact there
    · trivial

theorem signInVerdict_sound {document : Document} {parsed : ParsedCredential}
    {stored : PasskeyCredential} {user : Option User}
    (standing : (Attempt.signIn document parsed stored user).Standing db) :
    (signInVerdict webauthn document parsed stored user challenge).Sound
      (.signIn document parsed stored user) challenge := by
  unfold signInVerdict
  split_ifs with foreign unbound handle
  · trivial
  · trivial
  · trivial
  · cases user with
    | none => trivial
    | some row =>
      cases verifyAssertion webauthn document stored challenge with
      | none => trivial
      | some verified =>
        dsimp only
        split_ifs
        · trivial
        · have same : row.id = stored.userId := standing row rfl
          refine ⟨rfl, fun other bound => ?_, fun free => ?_⟩
          · by_contra different
            refine foreign ⟨by rw [bound]; rfl, fun own => different ?_⟩
            exact (Option.some.inj (bound.symm.trans own)).trans same.symm
          · by_contra fixed
            exact unbound ⟨free, Bool.eq_false_of_not_eq_true fixed⟩

theorem reauthenticationVerdict_sound {document : Document} {parsed : ParsedCredential}
    {stored : PasskeyCredential} {user : User} {session : AuthSession}
    (standing : (Attempt.reauthenticate user session document).Standing db) :
    (reauthenticationVerdict webauthn document parsed stored user session challenge).Sound
      (.reauthenticate user session document) challenge := by
  unfold reauthenticationVerdict
  split_ifs
  · trivial
  · trivial
  · split
    · trivial
    · exact ⟨rfl, congrArg some standing.2.symm⟩

theorem examine_attends (spending : Spending db attempt challenge usedAt) :
    Attends db (examine webauthn db attempt challenge usedAt).arrival := by
  have standing := spending.standing
  unfold examine
  cases attempt with
  | malformed => exact ⟨spending, trivial⟩
  | signIn document parsed candidate user =>
    dsimp only
    split
    · exact ⟨spending, trivial⟩
    · exact ⟨spending, signInVerdict_sound standing⟩
  | register user session document name =>
    dsimp only
    split
    · exact ⟨spending, trivial⟩
    · exact spending
  | reauthenticate user session document =>
    dsimp only
    split
    · exact ⟨spending, trivial⟩
    · split
      · exact ⟨spending, trivial⟩
      · exact ⟨spending, reauthenticationVerdict_sound standing⟩

theorem program_attends (attends : Attends db phase)
    (chosen : program webauthn settings db phase action = some outcome) :
    Attends (outcome.result db) outcome.arrival := by
  cases action with
  | loginOptions email =>
    cases phase with
    | idle =>
      cases chosen
      cases email <;> exact ⟨fun _ => rfl, nofun⟩
    | _ => contradiction
  | loginVerify challengeId document =>
    simp only [program] at chosen
    split at chosen
    · split at chosen
      · cases chosen
        trivial
      · split at chosen <;> (cases chosen; trivial)
    · contradiction
  | authenticate userId sessionId now endpoint =>
    simp only [program] at chosen
    split at chosen
    · rename_i user session found current
      split_ifs at chosen with admitted
      cases chosen
      have sameUser : user.id = userId := (Rows.find?_key found).2
      have sameSession : session.id = sessionId := (Rows.find?_key current).2
      have owned : session.userId = user.id := admitted.1.trans sameUser.symm
      exact ⟨⟨session, sameSession ▸ current, owned⟩, owned⟩
    · contradiction
  | lockUser =>
    simp only [program] at chosen
    split at chosen
    · split at chosen
      · cases chosen
        trivial
      · cases chosen
        exact attends
    · cases chosen
      exact fun row found => (Rows.find?_key found).2
    · contradiction
  | begin =>
    cases phase with
    | locked user session endpoint =>
      cases chosen
      rw [begin_result]
      exact begin_attends attends
    | _ => contradiction
  | cleanup now =>
    cases phase with
    | issuing binding =>
      cases chosen
      exact attends
    | _ => contradiction
  | deleteChallenge =>
    simp only [program] at chosen
    split at chosen
    · cases chosen
      exact attends
    · contradiction
  | issue id challenge createdAt =>
    simp only [program] at chosen
    split at chosen
    · split at chosen <;> (cases chosen; trivial)
    · contradiction
  | consume now =>
    cases phase with
    | attempting attempt challengeId =>
      cases chosen
      rw [consume_result]
      exact consume_attends attends
    | _ => contradiction
  | examine =>
    cases phase with
    | consumed attempt challenge usedAt =>
      cases chosen
      rw [examine_result]
      exact examine_attends attends
    | _ => contradiction
  | count =>
    simp only [program] at chosen
    split at chosen
    · split at chosen
      · cases chosen
        simp only [Outcome.arrival, Outcome.result, countRegistration]
        split_ifs
        · exact ⟨attends, trivial⟩
        · exact ⟨attends, trivial⟩
        · exact attends
      · contradiction
    · cases chosen
      unfold countRemoval
      split <;> trivial
    · contradiction
  | insert id =>
    simp only [program] at chosen
    split at chosen
    · split at chosen
      · cases chosen
        simp only [Outcome.arrival, Outcome.result]
        split
        · exact ⟨attends, trivial⟩
        · exact ⟨attends, rfl, rfl⟩
      · contradiction
    · contradiction
  | flush =>
    cases phase with
    | inserting attempt challenge usedAt credential =>
      cases chosen
      refine ⟨attends.1, ?_⟩
      split
      · trivial
      · exact attends.2
    | _ => contradiction
  | commit now sessionId =>
    simp only [program] at chosen
    split at chosen
    · split at chosen
      · split at chosen <;> (cases chosen; trivial)
      · cases chosen
        trivial
    · cases chosen
      trivial
    · cases chosen
      trivial
    · contradiction
  | grant user method =>
    cases phase <;> cases chosen
    trivial
  | stop =>
    cases chosen
    trivial

end Arrivals

/-- The invariant: the sessions know what they hold, and the ledger knows the rows. -/
structure Audited (s : Service Document × Ledger) : Prop where
  guarded : Guarded locks Bound Attends s.1
  recorded : Recorded s.1.shared s.2

theorem recorded_issue {ledger : Ledger} (recorded : Recorded db ledger) {binding : Binding}
    {now createdAt : Timestamp} {deleted : List UUID} {id : UUID} {bytes : Bytes}
    (fresh : ∀ row ∈ db.challenges, row.id ∉ deleted → row.id ≠ id) :
    Recorded (createChallenge db deleted binding now (newChallenge settings binding now id bytes createdAt))
      (ledger.issue (newChallenge settings binding now id bytes createdAt)) := by
  constructor
  · intro row member unused
    rcases unused_createChallenge member unused with rfl | ⟨there, kept, _⟩
    · exact Function.update_self ..
    · exact (Function.update_of_ne (fresh row there kept) ..).trans (recorded.known row there unused)
  · intro row member unused session bound
    rcases unused_createChallenge member unused with rfl | ⟨there, kept, spared⟩
    · exact if_pos ⟨bound, rfl⟩
    · have older := recorded.latest row there unused session bound
      exact (if_neg fun same => spared session bound same).trans older

theorem recorded_conclude {ledger : Ledger} (recorded : Recorded db ledger)
    {challenge : WebAuthnChallenge} {usedAt : Timestamp} {fate : Fate}
    (challenges : db'.challenges = (spendChallenge db (some (challenge, usedAt))).challenges) :
    Recorded db' (ledger.conclude challenge.id fate) := by
  constructor
  · intro row member unused
    obtain ⟨there, other⟩ := unused_spendChallenge (challenges ▸ member) unused
    exact (Function.update_of_ne other ..).trans (recorded.known row there unused)
  · intro row member unused
    obtain ⟨there, _⟩ := unused_spendChallenge (challenges ▸ member) unused
    exact recorded.latest row there unused

theorem Recorded.of_eq {ledger : Ledger} (recorded : Recorded db ledger)
    (challenges : db'.challenges = db.challenges) : Recorded db' ledger :=
  ⟨fun row member => recorded.known row (challenges ▸ member),
    fun row member => recorded.latest row (challenges ▸ member)⟩

theorem written_recorded {ledger : Ledger} (recorded : Recorded db ledger)
    (written : Written settings db phase action db') :
    Recorded db' (ledger.after settings db phase action) := by
  cases written with
  | nothing _ _ issues concludes =>
    rw [Ledger.after, issues, concludes]
    exact recorded
  | issued binding now deleted id challenge createdAt fresh issues =>
    rw [Ledger.after, issues]
    exact recorded_issue recorded fresh
  | concluded attempt spent verdict now sessionId concludes =>
    cases spent with
    | none => exact recorded.of_eq (conclude_challenges ..)
    | some consumed =>
      have issues : issuedBy settings db (Phase.concluding attempt (some consumed) verdict)
          (.commit now sessionId) = none := rfl
      rw [Ledger.after, issues, concludes consumed rfl]
      exact recorded_conclude recorded (conclude_challenges ..)
  | removed => exact recorded.of_eq rfl
  | granted user method => cases method <;> exact recorded.of_eq rfl

/-- A ceremony is concluded in one place only. -/
theorem written_concludes {conclusion : Conclusion Document}
    (written : Written settings db phase action db') (concludes : concludedBy db phase action = some conclusion) :
    ∃ now sessionId, phase = .concluding conclusion.attempt (some (conclusion.challenge, conclusion.usedAt))
        conclusion.verdict ∧
      db' = conclude settings db (some (conclusion.challenge, conclusion.usedAt)) conclusion.verdict now
        sessionId := by
  cases written with
  | nothing _ _ _ quiet => exact absurd (quiet.symm.trans concludes) nofun
  | issued => contradiction
  | concluded attempt spent verdict now sessionId yields =>
    cases spent with
    | none => contradiction
    | some consumed =>
      cases Option.some.inj ((yields consumed rfl).symm.trans concludes)
      exact ⟨now, sessionId, rfl, rfl⟩
  | removed => contradiction
  | granted => contradiction

/-- The challenge of a completed ceremony fits it. -/
theorem Spending.fits {ledger : Ledger} (recorded : Recorded db ledger) (bound : Bound db)
    {conclusion : Conclusion Document}
    (spending : Spending db conclusion.attempt conclusion.challenge conclusion.usedAt)
    (sound : conclusion.verdict.Sound conclusion.attempt conclusion.challenge)
    (completed : conclusion.verdict.purpose.isSome = true) :
    Fits ledger conclusion.challenge conclusion := by
  obtain ⟨attempt, challenge, usedAt, verdict⟩ := conclusion
  obtain ⟨member, _⟩ := Rows.find?_key spending.stored
  obtain ⟨unused, lifetime, users, sessions⟩ := spending.acceptable
  have latest := recorded.latest challenge member unused
  -- A ceremony behind `current_auth` has the challenge compared with its user and session.
  have protected' : ∀ user, attempt.userId = some user →
      (∀ other, challenge.userId = some other → some user = some other) ∧
      (challenge.userId = none → challenge.discoverable = true) := by
    intro user same
    have own : challenge.userId = some user := (users (same ▸ rfl)).trans same
    exact ⟨fun other bound => own.symm.trans bound, fun free => absurd (own.symm.trans free) nofun⟩
  have session : challenge.sessionId = attempt.sessionId := by
    cases attempt with
    | register user current document name | reauthenticate user current document => exact sessions rfl
    | signIn document parsed candidate user => exact bound.login challenge member spending.purpose
    | malformed => exact bound.login challenge member spending.purpose
  cases verdict with
  | signIn user stored verified =>
    refine ⟨congrArg some (spending.purpose.trans sound.1).symm, lifetime, fun other same => ?_,
      sound.2.2, session, latest⟩
    rw [sound.2.1 other same]
    rfl
  | register credential =>
    obtain ⟨own, free⟩ := protected' _ sound.2
    exact ⟨congrArg some (spending.purpose.trans sound.1).symm, lifetime, own, free, session, latest⟩
  | reauthenticate current stored verified =>
    obtain ⟨own, free⟩ := protected' _ sound.2
    exact ⟨congrArg some (spending.purpose.trans sound.1).symm, lifetime, own, free, session, latest⟩
  | _ => contradiction

theorem step_audited {s t : Service Document × Ledger} {label : Nat × Action Document}
    (audited : Audited s) (stepped : ledgerStep webauthn settings s label = some t) : Audited t := by
  obtain ⟨moved, recorded⟩ := noted_iff.mp stepped
  have bound := audited.guarded.global
  have attends := audited.guarded.session label.1
  constructor
  · apply audited.guarded.step moved
    intro outcome chosen
    have written := program_written chosen
    exact ⟨program_keeps chosen, written_bound bound attends written, program_attends attends chosen,
      fun _ apart other => attends_others bound attends written apart other⟩
  · obtain ⟨outcome, chosen, acted⟩ := Option.bind_eq_some_iff.mp moved
    rw [recorded, Store.act_shared acted]
    exact written_recorded audited.recorded (program_written chosen)

theorem step_honours {s : Service Document × Ledger} {label : Nat × Action Document}
    (audited : Audited s) : Honours webauthn settings s label := by
  intro t stepped conclusion concludes
  obtain ⟨moved, _⟩ := noted_iff.mp stepped
  obtain ⟨outcome, chosen, acted⟩ := Option.bind_eq_some_iff.mp moved
  obtain ⟨now, sessionId, phase, result⟩ := written_concludes (program_written chosen) concludes
  have attends := audited.guarded.session label.1
  rw [phase] at attends
  obtain ⟨spending, sound⟩ := attends
  constructor
  · intro completed
    obtain ⟨member, _⟩ := Rows.find?_key spending.stored
    exact ⟨conclusion.challenge, rfl, audited.recorded.known _ member spending.acceptable.1,
      spending.fits audited.recorded audited.guarded.global sound completed⟩
  · intro row member same unused
    rw [Store.act_shared acted, result, conclude_challenges] at member
    exact (unused_spendChallenge member unused).2 same

theorem examine_spends {attempt : Attempt Document} {challenge : WebAuthnChallenge} {usedAt : Timestamp} :
    (examine webauthn db attempt challenge usedAt).arrival.spending = some challenge := by
  unfold examine
  cases attempt with
  | malformed => rfl
  | signIn document parsed candidate user =>
    dsimp only
    split <;> rfl
  | register user session document name =>
    dsimp only
    split <;> rfl
  | reauthenticate user session document =>
    dsimp only
    split
    · rfl
    · split <;> rfl

/-- What becomes of a consumed challenge: every exit of a rejected attempt commits its consumption. -/
theorem program_spends {challenge : WebAuthnChallenge}
    (chosen : program webauthn settings db phase action = some outcome)
    (spending : phase.spending = some challenge) (open_ : phase.completes = false) (going : action ≠ .stop) :
    outcome.arrival.spending = some challenge ∨ ∃ usedAt verdict now sessionId,
      outcome.result db = conclude settings db (some (challenge, usedAt)) verdict now sessionId := by
  cases phase with
  | consumed attempt challenge' usedAt =>
    cases spending
    cases action with
    | examine =>
      cases chosen
      exact .inl examine_spends
    | stop => exact absurd rfl going
    | _ => cases chosen
  | verified attempt challenge' usedAt registration =>
    cases spending
    cases action with
    | count =>
      simp only [program] at chosen
      split at chosen <;> cases chosen
      refine .inl ?_
      simp only [Outcome.arrival, countRegistration]
      split_ifs <;> rfl
    | stop => exact absurd rfl going
    | _ => cases chosen
  | counted attempt challenge' usedAt registration =>
    cases spending
    cases action with
    | insert id =>
      simp only [program] at chosen
      split at chosen <;> cases chosen
      refine .inl ?_
      simp only [Outcome.arrival]
      split_ifs <;> rfl
    | stop => exact absurd rfl going
    | _ => cases chosen
  | inserting attempt challenge' usedAt credential =>
    cases spending
    cases action with
    | flush =>
      cases chosen
      exact .inl rfl
    | stop => exact absurd rfl going
    | _ => cases chosen
  | concluding attempt spent verdict =>
    obtain ⟨⟨consumed, usedAt⟩, rfl, rfl⟩ := Option.map_eq_some_iff.mp spending
    cases action with
    | commit now sessionId =>
      cases verdict with
      | signIn | register | reauthenticate => cases open_
      | refused | rejected | duplicate | limit =>
        cases chosen
        exact .inr ⟨usedAt, _, now, sessionId, rfl⟩
    | stop => exact absurd rfl going
    | _ => cases chosen
  | _ => cases spending

theorem step_burns (s : Service Document × Ledger) (label : Nat × Action Document) :
    Burns webauthn settings s label := by
  intro t stepped challenge spending open_ going
  obtain ⟨moved, _⟩ := noted_iff.mp stepped
  obtain ⟨outcome, chosen, acted⟩ := Option.bind_eq_some_iff.mp moved
  rw [Store.act_locals acted, Store.act_shared acted, Function.update_self]
  rcases program_spends chosen spending open_ going with onward | ⟨usedAt, verdict, now, sessionId, result⟩
  · exact .inl onward
  · refine .inr fun row member same unused => ?_
    rw [result, conclude_challenges] at member
    exact (unused_spendChallenge member unused).2 same

/-- In every run from an empty table of challenges, a ceremony is completed with a challenge
that was issued for it and neither accepted nor burned before, within its lifetime and, for
a session, the last one issued; a concluded attempt uses its challenge up, and an attempt that
is rejected does not end before it has. -/
theorem challenges_are_used_once (webauthn : WebAuthn Document) (settings : Settings) (db : Database)
    (labels : List (Nat × Action Document)) :
    Along (ledgerStep webauthn settings)
      (fun s label => Honours webauthn settings s label ∧ Burns webauthn settings s label)
      (start { db with challenges := [] }, Ledger.empty) labels := by
  have initial : Audited ((start { db with challenges := [] } : Service Document), Ledger.empty) := by
    refine ⟨Guarded.idle ⟨List.nodup_nil, nofun⟩ trivial (fun _ never => never) fun _ never => never, ?_⟩
    exact ⟨nofun, nofun⟩
  refine along_of_invariant (C := fun _ _ => True) ?_ ?_ initial (along_true _ _)
  · exact fun _ _ _ audited _ stepped => step_audited audited stepped
  · exact fun s label audited _ => ⟨step_honours audited, step_burns s label⟩

end Drivebound.Passkeys
