import Drivebound.Auth.SecondFactor

/-! What a request proves before it changes the password of an account, disables its second
factor or renews a session. The password is compared with the hash of an instance that was
loaded in front of the lock, and the same instance says whether a second factor is asked
for; the code itself is compared with the row. A password reset revokes the sessions of the
account, which locks every one of them. -/
namespace Drivebound.Auth
open Sessions Run
open Erasure (User)

/-- The requests that ask an account with a password for it. -/
def Request.provesPassword : Request → Bool
  | .changePassword .. | .reauthenticatePassword .. | .disableMfa .. => true
  | _ => false

/-- The factor is one of the account as it is stored: none where it is not enrolled, a code
of its secret, or one of its recovery codes. -/
def Factor.Fits (crypto : Crypto) (db : Database) (row : User) (code : Option String) : Factor → Prop
  | .notRequired => row.totpEnabledAt = none
  | .totp step => row.totpEnabledAt ≠ none ∧ ∃ secret given, row.totpSecretEncrypted = some secret ∧
      code = some given ∧ crypto.totpAt secret step = normalizeCode given
  | .recovery codeHash => row.totpEnabledAt ≠ none ∧
      (∃ given, code = some given ∧ codeHash = crypto.tokenDigest (normalizeCode given)) ∧
      ∃ recovery ∈ db.recoveryCodes, recovery.userId = row.id ∧ recovery.codeHash = codeHash ∧
        recovery.usedAt = none

/-- The password and the factor are those of the account as it is stored. -/
def Flow.Possesses (crypto : Crypto) (db : Database) (flow : Flow) (factor : Factor) : Prop :=
  ∃ row, db.user? flow.owner = some row ∧
    flow.request.password.any (crypto.verifyPassword · row.passwordHash) = true ∧
      factor.Fits crypto db row flow.request.code

def Possesses (crypto : Crypto) (db : Database) : Option Event → Prop
  | some (.concluded flow factor _) => flow.request.provesPassword = true → flow.Possesses crypto db factor
  | _ => True

/-- The columns that a request reads off its instance are the ones that are stored. -/
structure Shows (user row : User) : Prop where
  password : row.passwordHash = user.passwordHash
  enabledAt : row.totpEnabledAt = user.totpEnabledAt
  secret : row.totpSecretEncrypted = user.totpSecretEncrypted

instance (user row : User) : Decidable (Shows user row) :=
  decidable_of_iff (row.passwordHash = user.passwordHash ∧ row.totpEnabledAt = user.totpEnabledAt ∧
    row.totpSecretEncrypted = user.totpSecretEncrypted)
    ⟨fun ⟨password, enabledAt, secret⟩ => ⟨password, enabledAt, secret⟩,
      fun shows => ⟨shows.password, shows.enabledAt, shows.secret⟩⟩

/-- A request that is granted the lock has loaded an account with a password, as it is
stored now. -/
def Shown (db : Database) : Phase → Action → Prop
  | .authenticated request user _, .lockUser => request.provesPassword = true →
    user.passwordEnabled = true ∧ ∀ row ∈ db.user? user.id, Shows user row
  | _, _ => True

instance (db : Database) (phase : Phase) (action : Action) : Decidable (Shown db phase action) := by
  unfold Shown
  split
  · rename_i user _
    have : Decidable (∀ row ∈ db.user? user.id, Shows user row) := Option.decidableForallMem ..
    infer_instance
  · exact isTrue trivial

/-- The instance of a request is as the account is stored. -/
structure Flow.Shown (db : Database) (flow : Flow) : Prop where
  enabled : flow.user.current.passwordEnabled = true
  shows : ∃ row, db.user? flow.owner = some row ∧ Shows flow.user.current row

def KnowsPossession (crypto : Crypto) (db : Database) : Phase → Prop
  | .locked flow => flow.request.provesPassword = true → flow.Shown db
  | .proving flow => flow.request.provesPassword = true → flow.Shown db ∧
    flow.request.password.any (crypto.verifyPassword · flow.user.current.passwordHash) = true
  | .approved flow factor _ => flow.request.provesPassword = true → flow.Possesses crypto db factor
  | _ => True

abbrev sessionStep (crypto : Crypto) (settings : Settings) :
    Service × SessionLedger → Nat × Action → Option (Service × SessionLedger) :=
  noted (step crypto settings) fun s label _ ledger =>
    ledger.after s.shared (eventOf s.shared (s.locals label.1) label.2)

variable {crypto : Crypto} {settings : Settings} {db db' : Database} {phase m : Phase} {action : Action}
  {event : Option Event} {outcome : Step} {flow : Flow} {factor : Factor} {user user' : Instance}
  {code : Option String} {currentStep : Nat} {row : User}

theorem proveFactor_fits {secret given : String} (enrolled : row.totpEnabledAt ≠ none)
    (stored : row.totpSecretEncrypted = some secret)
    (proof : proveFactor crypto db row secret given currentStep = some (user', factor)) :
    factor.Fits crypto db row (some given) := by
  simp only [proveFactor] at proof
  split at proof
  · rename_i step found
    split_ifs at proof
    cases proof
    refine ⟨enrolled, secret, given, stored, rfl, ?_⟩
    split_ifs at found
    unfold matchingTotpStep at found
    simpa using List.find?_some found
  · obtain ⟨recovery, chosen, same⟩ := Option.map_eq_some_iff.mp proof
    cases same
    have matched := List.find?_some chosen
    simp only [decide_eq_true_eq] at matched
    exact ⟨enrolled, ⟨given, rfl, matched.2.1⟩, recovery, List.mem_of_find?_eq_some chosen, matched.1, rfl,
      matched.2.2⟩

/-- The code is compared with the row, whether one is asked for with the instance. -/
theorem verifySecondFactor_fits (found : db.user? user.current.id = some row) (shows : Shows user.current row)
    (proof : verifySecondFactor crypto db user code currentStep = some (user', factor)) :
    factor.Fits crypto db row code := by
  rcases User.verifySecondFactor_some proof with ⟨unset, same⟩ | ⟨stored, secret, same, enrolled, present, proved⟩
  · cases same
    exact shows.enabledAt.trans unset
  · obtain rfl := Option.some.inj (same.symm.trans found)
    split at proved
    · contradiction
    · split at proved
      · contradiction
      · exact proveFactor_fits enrolled present proved

theorem Request.provesPassword_of_purpose {request : Request} {purpose : Purpose}
    (redeems : request.purpose = some purpose) : request.provesPassword = false := by
  cases request <;> first | rfl | contradiction

theorem program_knowsPossession (knows : KnowsPossession crypto db phase) (known : KnowsFactor db phase)
    (shown : Shown db phase action) (chosen : program crypto settings db phase action = some outcome) :
    KnowsPossession crypto db outcome.arrival := by
  have arrives := program_arrives chosen
  generalize outcome.arrival = next at arrives ⊢
  cases arrives with
  | login => nofun
  | locked request user session row found =>
    intro proves
    obtain ⟨enabled, shows⟩ := shown proves
    have stored : ∃ row, db.user? user.id = some row ∧ Shows user row := ⟨row, found, shows row found⟩
    cases request <;> first | exact ⟨enabled, stored⟩ | contradiction
  | redeemed request owner token row now member purpose
  | transacted request owner token row now member purpose =>
    intro proves
    exact absurd ((Request.provesPassword_of_purpose purpose).symm.trans proves) nofun
  | passed flow now enabled password => exact fun proves => ⟨knows proves, password⟩
  | recent flow now disabled => exact fun proves => absurd (disabled.symm.trans (knows proves).enabled) nofun
  | setup flow now kind | confirmed flow now code step kind =>
    intro proves
    rw [kind] at proves
    contradiction
  | proved flow now user factor proof =>
    intro proves
    obtain ⟨shown, password⟩ := knows proves
    obtain ⟨row, found, shows⟩ := shown.shows
    refine ⟨row, found, ?_, verifySecondFactor_fits ?_ shows proof⟩
    · rw [shows.password]
      exact password
    · rw [known.1]
      exact found
  | revoking => exact knows
  | _ => trivial

theorem fits_others (keyed : CodesKeyed db) (known : KnowsFactor db phase)
    (written : Written settings db phase event db') (spared : ¬ phase.Holds (.user row.id))
    (fits : factor.Fits crypto db row code) : factor.Fits crypto db' row code := by
  cases factor with
  | notRequired => exact fits
  | totp step => exact fits
  | recovery codeHash =>
    obtain ⟨enrolled, given, recovery, member, own, hash, unused⟩ := fits
    exact ⟨enrolled, given, recovery, code_others keyed known written member (own ▸ spared), own, hash, unused⟩

theorem shown_others (written : Written settings db phase event db') (spared : ¬ phase.Holds (.user flow.owner))
    (shown : flow.Shown db) : flow.Shown db' := by
  obtain ⟨enabled, row, found, shows⟩ := shown
  exact ⟨enabled, row, user?_others written spared found, shows⟩

theorem knowsPossession_others (keyed : CodesKeyed db) (known : KnowsFactor db phase)
    (written : Written settings db phase event db') (apart : locks.Apart phase m)
    (knows : KnowsPossession crypto db m) : KnowsPossession crypto db' m := by
  cases m with
  | locked flow =>
    have spared : ¬ phase.Holds (.user flow.owner) := fun mine => ((apart _).1 mine).1 rfl
    exact fun proves => shown_others written spared (knows proves)
  | proving flow =>
    have spared : ¬ phase.Holds (.user flow.owner) := fun mine => ((apart _).1 mine).1 rfl
    exact fun proves => ⟨shown_others written spared (knows proves).1, (knows proves).2⟩
  | approved flow factor revoking =>
    have spared : ¬ phase.Holds (.user flow.owner) := fun mine => ((apart _).1 mine).1 (.inl rfl)
    intro proves
    obtain ⟨row, found, password, fits⟩ := knows proves
    have own : row.id = flow.owner := (Rows.find?_key found).2
    exact ⟨row, user?_others written spared found, password, fits_others keyed known written (own ▸ spared) fits⟩
  | _ => trivial

theorem written_possesses (knows : KnowsPossession crypto db phase)
    (written : Written settings db phase event db') : Possesses crypto db event := by
  cases written with
  | concluded flow factor revoking values => exact knows
  | _ => trivial

/-- A session that authenticates a request has not been revoked. -/
theorem program_admits {ledger : SessionLedger} (recorded : SessionsRecorded db ledger)
    (chosen : program crypto settings db phase action = some outcome) : Admits ledger action := by
  cases action with
  | authenticate userId sessionId now request =>
    simp only [program] at chosen
    split at chosen
    · rename_i user session found current
      split_ifs at chosen with admitted
      obtain ⟨member, rfl⟩ := Rows.find?_key current
      exact fun gone => recorded.revoked session member gone admitted.2.2.1
    · contradiction
  | _ => trivial

/-- What a step does with the sessions that it finds. -/
structure Bars (ledger : SessionLedger) (s : Service) (label : Nat × Action) : Prop where
  exchanges : Exchanges ledger (eventOf s.shared (s.locals label.1) label.2)
  admits : Admits ledger label.2

/-- The invariant of the sessions. -/
structure Barred (s : Service × SessionLedger) : Prop where
  guarded : Guarded locks SessionsKeyed KnowsSession s.1
  recorded : SessionsRecorded s.1.shared s.2

theorem step_barred {s t : Service × SessionLedger} {label : Nat × Action} (barred : Barred s)
    (stepped : sessionStep crypto settings s label = some t) : Barred t := by
  obtain ⟨moved, history⟩ := noted_iff.mp stepped
  have keyed := barred.guarded.global
  have knows := barred.guarded.session label.1
  constructor
  · apply barred.guarded.step moved
    intro outcome chosen
    have changed := written_sessions (program_written chosen)
    refine ⟨program_keeps chosen, sessions_keyed keyed changed, ?_, fun m apart other => ?_⟩
    · rcases program_settled chosen with same | ended
      · rw [same]
        exact program_knowsSession chosen
      · rw [ended]
        trivial
    · exact knowsSession_others changed apart other
  · obtain ⟨outcome, chosen, acted⟩ := Option.bind_eq_some_iff.mp moved
    rw [history, Store.act_shared acted]
    exact sessions_recorded keyed barred.recorded knows (written_sessions (program_written chosen))

theorem step_bars {s t : Service × SessionLedger} {label : Nat × Action} (barred : Barred s)
    (stepped : sessionStep crypto settings s label = some t) : Bars s.2 s.1 label := by
  obtain ⟨moved, _⟩ := noted_iff.mp stepped
  obtain ⟨outcome, chosen, _⟩ := Option.bind_eq_some_iff.mp moved
  exact ⟨written_exchanges barred.recorded (barred.guarded.session label.1) (program_written chosen),
    program_admits barred.recorded chosen⟩

def Remembers (crypto : Crypto) (db : Database) (phase : Phase) : Prop :=
  KnowsFactor db phase ∧ KnowsPossession crypto db phase

theorem step_remembers {s t : Service} {label : Nat × Action}
    (guarded : Guarded locks CodesKeyed (Remembers crypto) s)
    (shown : Shown s.shared (s.locals label.1) label.2)
    (stepped : step crypto settings s label = some t) : Guarded locks CodesKeyed (Remembers crypto) t := by
  have keyed := guarded.global
  obtain ⟨factor, possession⟩ := guarded.session label.1
  apply guarded.step stepped
  intro outcome chosen
  have written := program_written chosen
  refine ⟨program_keeps chosen, codes_keyed keyed written, ?_, fun m apart other => ?_⟩
  · rcases program_settled chosen with same | ended
    · rw [same]
      exact ⟨program_knowsFactor factor chosen, program_knowsPossession possession factor shown chosen⟩
    · rw [ended]
      exact ⟨trivial, trivial⟩
  · exact ⟨knowsFactor_others keyed factor written apart other.1,
      knowsPossession_others keyed factor written apart other.2⟩

theorem step_possesses {s t : Service} {label : Nat × Action}
    (guarded : Guarded locks CodesKeyed (Remembers crypto) s)
    (stepped : step crypto settings s label = some t) :
    Possesses crypto s.shared (eventOf s.shared (s.locals label.1) label.2) := by
  obtain ⟨outcome, chosen, _⟩ := Option.bind_eq_some_iff.mp stepped
  exact written_possesses (guarded.session label.1).2 (program_written chosen)

/-- What a step owes the owner of an account. -/
def Protects (crypto : Crypto) (settings : Settings) (s : Service × SessionLedger) (label : Nat × Action) :
    Prop :=
  ∀ t, sessionStep crypto settings s label = some t → Bars s.2 s.1 label ∧
    Possesses crypto s.1.shared (eventOf s.1.shared (s.1.locals label.1) label.2)

/-- In every run a session that was revoked, as a password reset does with all of the
account, is neither refreshed nor authenticates a request. Where the requests that prove a
password have loaded the account as they find it behind the lock, and with a password, the
password and the second factor that they commit with are those that are stored. -/
theorem stored_passwords_are_proved (crypto : Crypto) (settings : Settings) (db : Database)
    (labels : List (Nat × Action)) (sessions : SessionsKeyed db) (codes : CodesKeyed db) :
    Along (sessionStep crypto settings)
      (fun s label => ∀ t, sessionStep crypto settings s label = some t → Bars s.2 s.1 label)
      (start db, SessionLedger.empty) labels ∧
    (Along (sessionStep crypto settings) (fun s label => Shown s.1.shared (s.1.locals label.1) label.2)
      (start db, SessionLedger.empty) labels →
    Along (sessionStep crypto settings) (Protects crypto settings) (start db, SessionLedger.empty) labels) := by
  have barred : Barred (start db, SessionLedger.empty) := by
    refine ⟨Guarded.idle sessions trivial (fun _ never => never) fun _ never => never, ?_⟩
    exact ⟨fun _ _ => List.not_mem_nil, fun _ _ never => absurd never List.not_mem_nil,
      fun _ never => absurd never List.not_mem_nil⟩
  have initial : Guarded locks CodesKeyed (Remembers crypto) (start db : Service) :=
    Guarded.idle codes ⟨trivial, trivial⟩ (fun _ never => never) fun _ never => never
  have bars : Along (sessionStep crypto settings)
      (fun s label => ∀ t, sessionStep crypto settings s label = some t → Bars s.2 s.1 label)
      (start db, SessionLedger.empty) labels := by
    refine along_of_invariant (C := fun _ _ => True) ?_ ?_ barred (along_true _ _)
    · exact fun _ _ _ barred _ stepped => step_barred barred stepped
    · exact fun _ _ barred _ _ stepped => step_bars barred stepped
  refine ⟨bars, fun shown => ?_⟩
  have possesses : Along (sessionStep crypto settings)
      (fun s label => ∀ t, sessionStep crypto settings s label = some t →
        Possesses crypto s.1.shared (eventOf s.1.shared (s.1.locals label.1) label.2))
      (start db, SessionLedger.empty) labels := by
    refine along_of_invariant (I := fun s => Guarded locks CodesKeyed (Remembers crypto) s.1) ?_ ?_ initial shown
    · exact fun _ _ _ guarded shown stepped => step_remembers guarded shown (noted_iff.mp stepped).1
    · exact fun _ _ guarded _ _ stepped => step_possesses guarded (noted_iff.mp stepped).1
  exact (bars.and possesses).mono fun s label both t stepped => ⟨both.1 t stepped, both.2 t stepped⟩

/-- An account with the password "old" and two sessions. -/
def household : Database where
  users := [{ newUser 1 "owner@example.org" "old" 0 with emailVerifiedAt := some 0 }]
  sessions := [⟨1, 1, "r1", 5000, none, none⟩, ⟨2, 1, "r2", 5000, none, none⟩]
  tokens := []
  recoveryCodes := []

def replacing (now : Timestamp) (passwordDigest : String) : Values := ⟨now, 9, "x", passwordDigest, "", []⟩

/-- The first session changes the password and signs out the second one. -/
def change : List (Nat × Action) :=
  [(1, .authenticate 1 1 100 (.changePassword (some "old") none)), (1, .lockUser), (1, .check 110),
    (1, .prove 110), (1, .lockSession 2), (1, .commit (replacing 120 "new"))]

theorem changed_password_was_proved :
    Along (sessionStep authenticator defaults) (Protects authenticator defaults)
      (start household, .empty) change ∧
    (run (sessionStep authenticator defaults) (start household, .empty) change).any
      (fun s => s.1.shared.users.map (·.passwordHash) = [.digest "new"] ∧ s.2.revoked = [2]) = true :=
  ⟨(stored_passwords_are_proved authenticator defaults household change ⟨by decide, by decide⟩
    List.nodup_nil).2
    (by decide +kernel), by decide +kernel⟩

/-- The password is reset while a request with the old one waits for the lock. -/
def overtaken : List (Nat × Action) :=
  [(1, .authenticate 1 1 100 (.changePassword (some "old") none)),
    (2, .requestToken "owner@example.org" .passwordReset), (2, .issue "link" 110),
    (2, .presentToken "link" .resetPassword), (2, .lockUser), (2, .redeem 120), (2, .lockSession 1),
    (2, .lockSession 2), (2, .commit (replacing 130 "new")),
    (1, .lockUser), (1, .check 140), (1, .prove 140), (1, .commit (replacing 150 "stolen"))]

/-- A supplied password is the one that is stored. -/
def Matches (crypto : Crypto) (db : Database) : Option Event → Bool
  | some (.concluded flow _ _) => !flow.request.provesPassword || (db.user? flow.owner).all fun row =>
    flow.request.password.any (crypto.verifyPassword · row.passwordHash)
  | _ => true

theorem Possesses.matches (possesses : Possesses crypto db event) : Matches crypto db event = true := by
  match event with
  | some (.concluded flow factor values) =>
    cases proves : flow.request.provesPassword with
    | false => simp only [Matches, proves, Bool.not_false, Bool.true_or]
    | true =>
      obtain ⟨row, found, password, _⟩ := possesses proves
      simp only [Matches, found, Option.all_some, password, Bool.or_true]
  | none | some (.registered ..) | some (.issued ..) | some (.declined ..) | some (.refreshed ..)
  | some (.closed ..) => rfl

/-- The old password changes the new one. -/
theorem replaced_password_is_accepted : ¬ ∀ (crypto : Crypto) (settings : Settings) (db : Database)
    (labels : List (Nat × Action)), SessionsKeyed db → CodesKeyed db →
      Along (sessionStep crypto settings) (Protects crypto settings) (start db, SessionLedger.empty) labels := by
  intro always
  have protects := always authenticator defaults household overtaken ⟨by decide, by decide⟩ List.nodup_nil
  have matched : Along (sessionStep authenticator defaults)
      (fun s label => (sessionStep authenticator defaults s label).isSome = true →
        Matches authenticator s.1.shared (eventOf s.1.shared (s.1.locals label.1) label.2) = true)
      (start household, .empty) overtaken := by
    refine protects.mono fun s label protects enabled => ?_
    obtain ⟨t, stepped⟩ := Option.isSome_iff_exists.mp enabled
    exact (protects t stepped).2.matches
  exact absurd matched (by decide +kernel)

end Drivebound.Auth
