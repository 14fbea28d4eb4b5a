import Drivebound.Auth.Tokens

/-! The codes that a second factor is proved with. A ledger keeps the last TOTP step that
was accepted since the enrolment of an account, the enrolment's own included, and the
recovery codes that it can still use. An acceptance is written back by an instance that was
loaded behind the lock. A disabling may be written back by an older one; where that shows no
enrolment there is none, as no request enrols an account that is not enrolled. -/
namespace Drivebound.Auth
open Sessions Run Attributes
open Erasure (User)

structure FactorLedger where
  steps : UUID → Option Nat
  codes : List (UUID × String)

/-- The ledger of an account that nothing is known about but its rows. -/
def FactorLedger.initial (db : Database) : FactorLedger where
  steps user := (db.user? user).bind (·.totpLastUsedStep)
  codes := (db.recoveryCodes.filter (·.usedAt = none)).map fun row => (row.userId, row.codeHash)

namespace FactorLedger

def accept (ledger : FactorLedger) (owner : UUID) : Factor → FactorLedger
  | .notRequired => ledger
  | .totp step => { ledger with steps := Function.update ledger.steps owner (some step) }
  | .recovery codeHash => { ledger with codes := ledger.codes.filter (·.2 ≠ codeHash) }

def drop (ledger : FactorLedger) (owner : UUID) : FactorLedger :=
  { ledger with codes := ledger.codes.filter (·.1 ≠ owner) }

def after (ledger : FactorLedger) : Option Event → FactorLedger
  | some (.concluded flow factor values) =>
    let accepted := ledger.accept flow.owner factor
    match flow.request with
    | .disableMfa .. => accepted.drop flow.owner
    | .confirmMfa _ =>
      let dropped := accepted.drop flow.owner
      { dropped with codes := dropped.codes ++ values.codeHashes.map fun codeHash => (flow.owner, codeHash) }
    | _ => accepted
  | _ => ledger

end FactorLedger

def Request.confirms : Request → Bool
  | .confirmMfa _ => true
  | _ => false

def Request.disables : Request → Bool
  | .disableMfa .. => true
  | _ => false

/-- An accepted step is later than the ones before it, unless it confirms an enrolment; an
accepted recovery code is one that can still be used. -/
def Advances (ledger : FactorLedger) : Option Event → Prop
  | some (.concluded flow (.totp step) _) => flow.request.confirms = true ∨
    (ledger.steps flow.owner).all (· < step) = true
  | some (.concluded flow (.recovery codeHash) _) => (flow.owner, codeHash) ∈ ledger.codes
  | _ => True

instance (ledger : FactorLedger) : (event : Option Event) → Decidable (Advances ledger event)
  | some (.concluded flow (.totp step) _) =>
    inferInstanceAs (Decidable (flow.request.confirms = true ∨ (ledger.steps flow.owner).all (· < step) = true))
  | some (.concluded flow (.recovery codeHash) _) =>
    inferInstanceAs (Decidable ((flow.owner, codeHash) ∈ ledger.codes))
  | some (.concluded _ .notRequired _) | none | some (.registered ..) | some (.issued ..)
  | some (.declined ..) | some (.refreshed ..) | some (.closed ..) => isTrue trivial

/-- A request that is not concluded leaves the accounts and their codes alone. -/
def Spares (db db' : Database) : Option Event → Prop
  | none | some (.declined ..) => db'.users = db.users ∧ db'.recoveryCodes = db.recoveryCodes
  | _ => True

abbrev factorStep (crypto : Crypto) (settings : Settings) :
    Service × FactorLedger → Nat × Action → Option (Service × FactorLedger) :=
  noted (step crypto settings) fun s label _ ledger =>
    ledger.after (eventOf s.shared (s.locals label.1) label.2)

/-- The verdict of `verify_second_factor`. -/
inductive Verified (db : Database) (user : Instance) : Instance → Factor → Prop where
  | notRequired (unset : user.current.totpEnabledAt = none) : Verified db user user .notRequired
  | totp (row step) (found : db.user? user.current.id = some row) (enrolled : row.totpEnabledAt ≠ none)
      (later : ∀ last, row.totpLastUsedStep = some last → last < step) :
    Verified db user ⟨row, { row with totpLastUsedStep := some step }⟩ (.totp step)
  | recovery (row code) (found : db.user? user.current.id = some row) (enrolled : row.totpEnabledAt ≠ none)
      (member : code ∈ db.recoveryCodes) (own : code.userId = row.id) (unused : code.usedAt = none) :
    Verified db user (.fresh row) (.recovery code.codeHash)

/-- The row of the owner is still the one that the instance was loaded from. -/
def Flow.Current (db : Database) (flow : Flow) : Prop := db.user? flow.owner = some flow.user.loaded

def Unset (db : Database) (user : UUID) : Prop := ∀ row ∈ db.user? user, row.totpEnabledAt = none

/-- A disabling whose instance shows no enrolment finds none. -/
def ShowsEnrolment (db : Database) : Phase → Prop
  | .authenticated _ user _ => user.totpEnabledAt = none → Unset db user.id
  | .locked flow | .proving flow | .approved flow _ _ =>
    flow.request.disables = true → flow.user.loaded.totpEnabledAt = none → Unset db flow.owner
  | _ => True

/-- What an approved request knows of the factor it was proved with. -/
def Flow.Proved (db : Database) (flow : Flow) : Factor → Prop
  | .notRequired => flow.user.current = flow.user.loaded ∧ flow.request.confirms = false
  | .totp step => flow.Current db ∧
    (flow.request.confirms = true ∧ flow.user.current = flow.user.loaded ∨
      flow.request.confirms = false ∧ flow.user.loaded.totpEnabledAt ≠ none ∧
        flow.user.current = { flow.user.loaded with totpLastUsedStep := some step } ∧
        ∀ last, flow.user.loaded.totpLastUsedStep = some last → last < step)
  | .recovery codeHash => flow.Current db ∧ flow.user.current = flow.user.loaded ∧
    flow.request.confirms = false ∧ ∃ code ∈ db.recoveryCodes, code.userId = flow.owner ∧
      code.codeHash = codeHash ∧ code.usedAt = none

def KnowsFactor (db : Database) : Phase → Prop
  | .locked flow => flow.user.current.id = flow.owner ∧ flow.user.current = flow.user.loaded ∧
    (flow.request.confirms = true → flow.Current db)
  | .proving flow => flow.user.current.id = flow.owner ∧ flow.user.current = flow.user.loaded ∧
    flow.request.confirms = false
  | .approved flow factor _ => flow.Proved db factor
  | _ => True

def CodesKeyed (db : Database) : Prop := (db.recoveryCodes.map (·.codeHash)).Nodup

/-- The ledger is not ahead of the rows. -/
structure FactorsRecorded (db : Database) (ledger : FactorLedger) : Prop where
  steps : ∀ user row, db.user? user = some row → row.totpEnabledAt ≠ none →
    ∀ last, ledger.steps user = some last → ∃ stored, row.totpLastUsedStep = some stored ∧ last ≤ stored
  codes : ∀ row ∈ db.recoveryCodes, row.usedAt = none → (row.userId, row.codeHash) ∈ ledger.codes

variable {crypto : Crypto} {settings : Settings} {db db' : Database} {phase m : Phase} {action : Action}
  {event : Option Event} {outcome : Step} {flow : Flow} {factor : Factor} {values : Values}
  {ledger : FactorLedger} {user user' : Instance} {code : Option String} {currentStep : Nat}

theorem proveFactor_verified {row : User} {secret code : String}
    (found : db.user? user.current.id = some row) (enrolled : row.totpEnabledAt ≠ none)
    (proof : proveFactor crypto db row secret code currentStep = some (user', factor)) :
    Verified db user user' factor := by
  simp only [proveFactor] at proof
  split at proof
  · rename_i step _
    split_ifs at proof with replayed
    cases proof
    refine .totp row step found enrolled fun last same => ?_
    rw [same] at replayed
    exact Nat.lt_of_not_le fun early => replayed (decide_eq_true early)
  · obtain ⟨recovery, chosen, same⟩ := Option.map_eq_some_iff.mp proof
    cases same
    have matched := List.find?_some chosen
    simp only [decide_eq_true_eq] at matched
    exact .recovery row recovery found enrolled (List.mem_of_find?_eq_some chosen) matched.1 matched.2.2

theorem verifySecondFactor_verified
    (proof : verifySecondFactor crypto db user code currentStep = some (user', factor)) :
    Verified db user user' factor := by
  rcases User.verifySecondFactor_some proof with ⟨unset, same⟩ | ⟨row, secret, found, enrolled, _, proved⟩
  · cases same
    exact .notRequired unset
  · split at proved
    · contradiction
    · split at proved
      · contradiction
      · exact proveFactor_verified found enrolled proved

section Codes

variable {chosen : MfaRecoveryCode → Bool} {row : MfaRecoveryCode} {now : Timestamp}

theorem unused_useCodes (member : row ∈ (db.useCodes chosen now).recoveryCodes) (unused : row.usedAt = none) :
    row ∈ db.recoveryCodes ∧ chosen row = false := by
  obtain ⟨before, there, rfl⟩ := List.mem_map.mp member
  by_cases selected : chosen before = true
  · rw [if_pos selected] at unused
    contradiction
  · rw [if_neg selected]
    exact ⟨there, eq_false_of_ne_true selected⟩

theorem kept_useCodes (member : row ∈ db.recoveryCodes) (spared : chosen row = false) :
    row ∈ (db.useCodes chosen now).recoveryCodes :=
  List.mem_map.mpr ⟨row, member, if_neg (Bool.eq_false_iff.mp spared)⟩

theorem hashes_useCodes (chosen : MfaRecoveryCode → Bool) (now : Timestamp) :
    (db.useCodes chosen now).recoveryCodes.map (·.codeHash) = db.recoveryCodes.map (·.codeHash) := by
  rw [Database.useCodes, List.map_map]
  apply List.map_congr_left
  intro row _
  simp only [Function.comp_apply]
  split <;> rfl

/-- The code that was accepted is used. -/
def spendCode (db : Database) (factor : Factor) (now : Timestamp) : Database :=
  match factor with
  | .recovery codeHash => db.useCodes (·.codeHash = codeHash) now
  | _ => db

def Factor.Spends (factor : Factor) (row : MfaRecoveryCode) : Prop := factor = .recovery row.codeHash

theorem unused_spendCode (member : row ∈ (spendCode db factor now).recoveryCodes) (unused : row.usedAt = none) :
    row ∈ db.recoveryCodes ∧ ¬ factor.Spends row := by
  cases factor with
  | notRequired => exact ⟨member, nofun⟩
  | totp step => exact ⟨member, nofun⟩
  | recovery codeHash =>
    obtain ⟨there, spared⟩ := unused_useCodes member unused
    exact ⟨there, fun spends => of_decide_eq_false spared (Factor.recovery.inj spends).symm⟩

theorem kept_spendCode (member : row ∈ db.recoveryCodes) (spared : ¬ factor.Spends row) :
    row ∈ (spendCode db factor now).recoveryCodes := by
  cases factor with
  | notRequired => exact member
  | totp step => exact member
  | recovery codeHash =>
    exact kept_useCodes member (decide_eq_false fun same => spared (congrArg Factor.recovery same.symm))

theorem hashes_spendCode : (spendCode db factor now).recoveryCodes.map (·.codeHash) =
    db.recoveryCodes.map (·.codeHash) := by
  cases factor with
  | recovery codeHash => exact hashes_useCodes ..
  | _ => rfl

/-- The codes that a commit leaves unused. -/
theorem unused_concludeCodes (member : row ∈ (concludeCodes db flow factor values).recoveryCodes)
    (unused : row.usedAt = none) :
    (row ∈ db.recoveryCodes ∧ ¬ factor.Spends row ∧
      (flow.request.confirms = true ∨ flow.request.disables = true → row.userId ≠ flow.owner)) ∨
    (flow.request.confirms = true ∧ row.userId = flow.owner ∧ row.codeHash ∈ values.codeHashes) := by
  obtain ⟨request, owner, user, session, token⟩ := flow
  cases request with
  | disableMfa password code =>
    have among : row ∈ ((spendCode db factor values.now).useCodes (·.userId = owner) values.now).recoveryCodes :=
      member
    obtain ⟨there, foreign⟩ := unused_useCodes among unused
    obtain ⟨before, spared⟩ := unused_spendCode there unused
    exact .inl ⟨before, spared, fun _ => of_decide_eq_false foreign⟩
  | confirmMfa code =>
    have among : row ∈ ((spendCode db factor values.now).useCodes (·.userId = owner) values.now).recoveryCodes ++
        values.codeHashes.map (⟨owner, ·, none⟩) := member
    rcases List.mem_append.mp among with kept | added
    · obtain ⟨there, foreign⟩ := unused_useCodes kept unused
      obtain ⟨before, spared⟩ := unused_spendCode there unused
      exact .inl ⟨before, spared, fun _ => of_decide_eq_false foreign⟩
    · obtain ⟨codeHash, new, rfl⟩ := List.mem_map.mp added
      exact .inr ⟨rfl, rfl, new⟩
  | _ =>
    have among : row ∈ (spendCode db factor values.now).recoveryCodes := member
    obtain ⟨before, spared⟩ := unused_spendCode among unused
    refine .inl ⟨before, spared, ?_⟩
    rintro (never | never) <;> contradiction

/-- The codes of other accounts are left alone. -/
theorem kept_concludeCodes (member : row ∈ db.recoveryCodes) (foreign : row.userId ≠ flow.owner)
    (spared : ¬ factor.Spends row) : row ∈ (concludeCodes db flow factor values).recoveryCodes := by
  have there : row ∈ (spendCode db factor values.now).recoveryCodes := kept_spendCode member spared
  obtain ⟨request, owner, user, session, token⟩ := flow
  cases request with
  | disableMfa password code => exact kept_useCodes there (decide_eq_false foreign)
  | confirmMfa code => exact List.mem_append_left _ (kept_useCodes there (decide_eq_false foreign))
  | _ => exact there

theorem hashes_concludeCodes (keyed : CodesKeyed db) (admitted : Admitted db flow factor values) :
    ((concludeCodes db flow factor values).recoveryCodes.map (·.codeHash)).Nodup := by
  have before : ((spendCode db factor values.now).recoveryCodes.map (·.codeHash)).Nodup := by
    rw [hashes_spendCode]
    exact keyed
  obtain ⟨_, _, distinct, fresh⟩ := admitted
  obtain ⟨request, owner, user, session, token⟩ := flow
  cases request with
  | disableMfa password code =>
    exact (congrArg List.Nodup (hashes_useCodes (·.userId = owner) values.now)).mpr before
  | confirmMfa code =>
    have old : ((spendCode db factor values.now).useCodes (·.userId = owner)
        values.now).recoveryCodes.map (·.codeHash) = db.recoveryCodes.map (·.codeHash) :=
      (hashes_useCodes _ _).trans hashes_spendCode
    have new : (values.codeHashes.map fun codeHash => (⟨owner, codeHash, none⟩ : MfaRecoveryCode)).map
        (·.codeHash) = values.codeHashes := by
      rw [List.map_map]
      exact List.map_id _
    have all : (((spendCode db factor values.now).useCodes (·.userId = owner) values.now).recoveryCodes ++
        values.codeHashes.map fun codeHash => (⟨owner, codeHash, none⟩ : MfaRecoveryCode)).map (·.codeHash) =
        db.recoveryCodes.map (·.codeHash) ++ values.codeHashes := by
      rw [List.map_append, old, new]
    refine (congrArg List.Nodup all).mpr (List.nodup_append.mpr ⟨keyed, distinct, ?_⟩)
    intro hash member other added same
    obtain ⟨row, there, rfl⟩ := List.mem_map.mp member
    exact fresh row there (same ▸ added)
  | _ => exact before

theorem useCodes_congr (same : db.recoveryCodes = db'.recoveryCodes) :
    (db.useCodes chosen now).recoveryCodes = (db'.useCodes chosen now).recoveryCodes := by
  rw [Database.useCodes, Database.useCodes, same]

theorem concludeCodes_congr (same : db.recoveryCodes = db'.recoveryCodes) :
    (concludeCodes db flow factor values).recoveryCodes =
      (concludeCodes db' flow factor values).recoveryCodes := by
  have spent : (spendCode db factor values.now).recoveryCodes =
      (spendCode db' factor values.now).recoveryCodes := by
    cases factor with
    | recovery codeHash => exact useCodes_congr same
    | _ => exact same
  obtain ⟨request, owner, user, session, token⟩ := flow
  cases request with
  | disableMfa password code => exact useCodes_congr spent
  | confirmMfa code => exact congrArg (· ++ _) (useCodes_congr spent)
  | _ => exact spent

theorem conclude_codes : (conclude settings db flow factor values).recoveryCodes =
    (concludeCodes db flow factor values).recoveryCodes := by
  rw [conclude, concludeTokens_tables.2.2]
  apply concludeCodes_congr
  rw [concludeSessions_tables.2.2]
  rfl

end Codes

theorem codes_keyed (keyed : CodesKeyed db) (written : Written settings db phase event db') :
    CodesKeyed db' := by
  cases written with
  | concluded flow factor revoking values admitted covered =>
    rw [CodesKeyed, conclude_codes]
    exact hashes_concludeCodes keyed admitted
  | declined owner token now =>
    rw [CodesKeyed, (useToken_tables token now).2.2]
    exact keyed
  | _ => exact keyed

/-- An account that a step has not locked is left alone. -/
theorem user?_others (written : Written settings db phase event db') {id : UUID} {row : User}
    (spared : ¬ phase.Holds (.user id)) (found : db.user? id = some row) : db'.user? id = some row := by
  cases written with
  | nothing | issued | refreshed | closed => exact found
  | registered =>
    have first : db.users.find? (·.id = id) = some row := found
    rw [Database.user?, createAccountToken, insertUser, List.find?_append, first]
    rfl
  | concluded flow factor revoking values admitted covered =>
    have different : id ≠ flow.owner := by
      rintro rfl
      exact spared (.inl rfl)
    have kept : (db.setUser flow.owner (User.flush flow.user.loaded (flow.assign factor values))).users.find?
        (·.id = id) = db.users.find? (·.id = id) := Rows.find?_updateKey_other (fun _ same => same) different
    rw [Database.user?, conclude_users, kept]
    exact found
  | declined owner token now =>
    rw [Database.user?, (useToken_tables token now).1]
    exact found

/-- The account of a request after its commit. -/
theorem user?_concluded {row : User} (found : db.user? flow.owner = some row) :
    (conclude settings db flow factor values).user? flow.owner =
      some (User.flush flow.user.loaded (flow.assign factor values) row) := by
  rw [Database.user?, conclude_users]
  exact Rows.find?_updateKey_self (fun _ same => same) found

theorem code_others (keyed : CodesKeyed db) (knows : KnowsFactor db phase)
    (written : Written settings db phase event db') {row : MfaRecoveryCode} (member : row ∈ db.recoveryCodes)
    (spared : ¬ phase.Holds (.user row.userId)) : row ∈ db'.recoveryCodes := by
  cases written with
  | concluded flow factor revoking values admitted covered =>
    have foreign : row.userId ≠ flow.owner := fun own => spared (.inl (congrArg LockKey.user own))
    rw [conclude_codes]
    refine kept_concludeCodes member foreign fun spends => ?_
    have proved : flow.Proved db factor := knows
    rw [spends] at proved
    obtain ⟨_, _, _, code, there, own, same, _⟩ := proved
    exact foreign (List.inj_on_of_nodup_map keyed there member same ▸ own)
  | declined owner token now =>
    rw [(useToken_tables token now).2.2]
    exact member
  | _ => exact member

theorem proved_others (keyed : CodesKeyed db) (known : KnowsFactor db phase)
    (written : Written settings db phase event db') (spared : ¬ phase.Holds (.user flow.owner))
    (proved : flow.Proved db factor) : flow.Proved db' factor := by
  cases factor with
  | notRequired => exact proved
  | totp step => exact ⟨user?_others written spared proved.1, proved.2⟩
  | recovery codeHash =>
    obtain ⟨current, same, kind, code, member, own, hash, unused⟩ := proved
    refine ⟨user?_others written spared current, same, kind, code, ?_, own, hash, unused⟩
    exact code_others keyed known written member (own ▸ spared)

theorem knowsFactor_others (keyed : CodesKeyed db) (known : KnowsFactor db phase)
    (written : Written settings db phase event db') (apart : locks.Apart phase m)
    (knows : KnowsFactor db m) : KnowsFactor db' m := by
  cases m with
  | locked flow =>
    have spared : ¬ phase.Holds (.user flow.owner) := fun mine => ((apart _).1 mine).1 rfl
    exact ⟨knows.1, knows.2.1, fun kind => user?_others written spared (knows.2.2 kind)⟩
  | proving flow => exact knows
  | approved flow factor revoking =>
    have spared : ¬ phase.Holds (.user flow.owner) := fun mine => ((apart _).1 mine).1 (.inl rfl)
    exact proved_others keyed known written spared knows
  | _ => trivial

theorem Request.confirms_of_password {request : Request} {accepts : String → Bool}
    (password : request.password.any accepts = true) : request.confirms = false := by
  cases request <;> first | rfl | contradiction

theorem Request.confirms_of_purpose {request : Request} {purpose : Purpose}
    (redeems : request.purpose = some purpose) : request.confirms = false := by
  cases request <;> first | rfl | contradiction

theorem program_knowsFactor (knows : KnowsFactor db phase)
    (chosen : program crypto settings db phase action = some outcome) :
    KnowsFactor db outcome.arrival := by
  have arrives := program_arrives chosen
  generalize outcome.arrival = next at arrives ⊢
  cases arrives with
  | login email password otp setBrowserCookies row member => exact ⟨rfl, rfl, nofun⟩
  | locked request user session row found =>
    have same : row.id = user.id := (Rows.find?_key found).2
    cases request with
    | confirmMfa code => exact ⟨same, rfl, fun _ => found⟩
    | _ => exact ⟨rfl, rfl, nofun⟩
  | redeemed request owner token row now member purpose => exact ⟨rfl, Request.confirms_of_purpose purpose⟩
  | transacted request owner token row now member purpose unused found =>
    exact ⟨(Rows.find?_key found).2, rfl, Request.confirms_of_purpose purpose⟩
  | passed flow now enabled password =>
    exact ⟨knows.1, knows.2.1, Request.confirms_of_password password⟩
  | recent flow now password recent kind =>
    obtain ⟨request, owner, user, session, token⟩ := flow
    refine ⟨knows.2.1, ?_⟩
    cases request <;> first | rfl | contradiction
  | setup flow now kind =>
    refine ⟨knows.2.1, ?_⟩
    rw [kind]
    rfl
  | confirmed flow now code step kind =>
    have confirms : flow.request.confirms = true := by rw [kind]; rfl
    exact ⟨knows.2.2 confirms, .inl ⟨confirms, knows.2.1⟩⟩
  | proved flow now user factor proof =>
    obtain ⟨owner, same, kind⟩ := knows
    cases verifySecondFactor_verified proof with
    | notRequired unset => exact ⟨same, kind⟩
    | totp row step found enrolled later =>
      rw [owner] at found
      exact ⟨found, .inr ⟨kind, enrolled, rfl, later⟩⟩
    | recovery row code found enrolled member own unused =>
      rw [owner] at found
      have id : row.id = flow.owner := (Rows.find?_key found).2
      exact ⟨found, rfl, kind, code, member, own.trans id, rfl, unused⟩
  | revoking => exact knows
  | _ => trivial

theorem after_steps : (ledger.after (some (.concluded flow factor values))).steps =
    (ledger.accept flow.owner factor).steps := by
  obtain ⟨request, owner, user, session, token⟩ := flow
  cases request <;> rfl

theorem accept_steps_other {id owner : UUID} (other : id ≠ owner) :
    (ledger.accept owner factor).steps id = ledger.steps id := by
  cases factor with
  | totp step => exact Function.update_of_ne other ..
  | _ => rfl

/-- What a request other than a confirmation and a disabling assigns to the enrolment. -/
theorem assign_keeps (confirms : flow.request.confirms = false) (disables : flow.request.disables = false) :
    (flow.assign factor values).totpLastUsedStep = flow.user.current.totpLastUsedStep ∧
      (flow.assign factor values).totpEnabledAt = flow.user.current.totpEnabledAt := by
  obtain ⟨request, owner, user, session, token⟩ := flow
  cases request with
  | confirmMfa code => contradiction
  | disableMfa password code => contradiction
  | passwordLogin password otp setBrowserCookies =>
    simp only [Flow.assign]
    split <;> exact ⟨rfl, rfl⟩
  | _ => exact ⟨rfl, rfl⟩

theorem assign_disables (disables : flow.request.disables = true) :
    (flow.assign factor values).totpLastUsedStep = none ∧ (flow.assign factor values).totpEnabledAt = none := by
  obtain ⟨request, owner, user, session, token⟩ := flow
  cases request with
  | disableMfa password code => exact ⟨rfl, rfl⟩
  | _ => contradiction

theorem assign_confirms {step : Nat} (confirms : flow.request.confirms = true) :
    (flow.assign (.totp step) values).totpLastUsedStep = some step := by
  obtain ⟨request, owner, user, session, token⟩ := flow
  cases request with
  | confirmMfa code => rfl
  | _ => contradiction

/-- A commit through a current instance leaves what it assigns. -/
theorem flush_current {stored assigned : User} :
    (User.flush stored assigned stored).totpLastUsedStep = assigned.totpLastUsedStep ∧
      (User.flush stored assigned stored).totpEnabledAt = assigned.totpEnabledAt :=
  ⟨flush_fresh .., flush_fresh ..⟩

/-- The CHECK is made when the secret has been assigned and the time of the enrolment has not. -/
theorem confirmed_enrolled {row : User} (admitted : Admitted db flow factor values)
    (confirms : flow.request.confirms = true) (current : flow.Current db)
    (same : flow.user.current = flow.user.loaded) (found : db.user? flow.owner = some row) :
    row.totpEnabledAt ≠ none := by
  obtain ⟨request, owner, ⟨loaded, _⟩, session, token⟩ := flow
  obtain rfl : row = loaded := Option.some.inj (found.symm.trans current)
  cases same
  cases request with
  | confirmMfa code =>
    have early := (admitted.1 row found _ List.mem_cons_self).2
    have last := (admitted.1 row found _ (List.mem_cons_of_mem _ List.mem_cons_self)).2
    simp only [User.flush, flush_fresh, Flow.assign, Option.isSome_some] at early last
    rw [last] at early
    exact Option.isSome_iff_ne_none.mp early.symm
  | _ => contradiction

/-- No commit enrols an account that is not enrolled. -/
theorem concluded_unset (proved : flow.Proved db factor) (admitted : Admitted db flow factor values)
    (unset : Unset db flow.owner) : Unset (conclude settings db flow factor values) flow.owner := by
  intro row found
  cases before : db.user? flow.owner with
  | none =>
    have looked : (db.setUser flow.owner (User.flush flow.user.loaded (flow.assign factor values))).users.find?
        (·.id = flow.owner) = (db.user? flow.owner).map fun row => if row.id = flow.owner then
          User.flush flow.user.loaded (flow.assign factor values) row else row :=
      Rows.find?_updateKey fun _ same => same
    rw [Option.mem_def, Database.user?, conclude_users, looked, before] at found
    contradiction
  | some old =>
    have unenrolled := unset old before
    rw [Option.mem_def, user?_concluded before] at found
    cases found
    cases confirms : flow.request.confirms with
    | true =>
      cases factor with
      | totp step =>
        obtain ⟨current, ⟨_, same⟩ | ⟨never, _⟩⟩ := proved
        · exact absurd unenrolled (confirmed_enrolled admitted confirms current same before)
        · exact absurd (confirms.symm.trans never) (by decide)
      | notRequired => exact absurd (confirms.symm.trans proved.2) (by decide)
      | recovery codeHash => exact absurd (confirms.symm.trans proved.2.2.1) (by decide)
    | false =>
      have kept : flow.user.current.totpEnabledAt = flow.user.loaded.totpEnabledAt := by
        cases factor with
        | totp step =>
          obtain ⟨_, ⟨_, same⟩ | ⟨_, _, same, _⟩⟩ := proved <;> rw [same]
        | notRequired => rw [proved.1]
        | recovery codeHash => rw [proved.2.1]
      simp only [User.flush]
      cases kind : flow.request.disables with
      | true =>
        rw [(@assign_disables flow factor values kind).2, unenrolled]
        unfold flush
        split <;> rfl
      | false => rw [(@assign_keeps flow factor values confirms kind).2, kept, flush_untouched, unenrolled]

theorem unset_kept (knows : KnowsFactor db phase) (written : Written settings db phase event db') {id : UUID}
    (unset : Unset db id) : Unset db' id := by
  cases written with
  | nothing | issued | refreshed | closed => exact unset
  | registered new email passwordDigest tokenHash now =>
    intro row found
    have looked : (db.users ++ [newUser new email passwordDigest now]).find? (·.id = id) = some row := found
    rw [List.find?_append] at looked
    rcases Option.or_eq_some_iff.mp looked with before | ⟨_, added⟩
    · exact unset row before
    · rw [List.mem_singleton.mp (List.mem_of_find?_eq_some added)]
      rfl
  | concluded flow factor revoking values admitted covered =>
    by_cases own : id = flow.owner
    · rw [own] at unset ⊢
      exact concluded_unset knows admitted unset
    · intro row found
      have kept : (db.setUser flow.owner (User.flush flow.user.loaded (flow.assign factor values))).users.find?
          (·.id = id) = db.users.find? (·.id = id) := Rows.find?_updateKey_other (fun _ same => same) own
      rw [Option.mem_def, Database.user?, conclude_users, kept] at found
      exact unset row found
  | declined owner token now =>
    intro row found
    rw [Option.mem_def, Database.user?, (useToken_tables token now).1] at found
    exact unset row found

theorem showsEnrolment_others (known : KnowsFactor db phase) (written : Written settings db phase event db')
    (shows : ShowsEnrolment db m) : ShowsEnrolment db' m := by
  cases m with
  | authenticated request user session => exact fun none_ => unset_kept known written (shows none_)
  | locked flow | proving flow | approved flow factor revoking =>
    exact fun kind none_ => unset_kept known written (shows kind none_)
  | _ => trivial

theorem Request.disables_of_purpose {request : Request} {purpose : Purpose}
    (redeems : request.purpose = some purpose) : request.disables = false := by
  cases request <;> first | rfl | contradiction

theorem program_showsEnrolment (knows : KnowsFactor db phase) (shows : ShowsEnrolment db phase)
    (chosen : program crypto settings db phase action = some outcome) : ShowsEnrolment db outcome.arrival := by
  have arrives := program_arrives chosen
  generalize outcome.arrival = next at arrives ⊢
  cases arrives with
  | authenticated userId sessionId now request user session kind found =>
    intro none_ row here
    have same : user.id = userId := (Rows.find?_key found).2
    rw [same] at here
    exact Option.some.inj (found.symm.trans here) ▸ none_
  | login => exact fun kind => by cases kind
  | locked request user session row found =>
    intro kind none_
    cases request with
    | disableMfa password code => exact shows none_
    | _ => cases kind
  | redeemed request owner token row now member purpose =>
    exact fun kind => absurd (kind.symm.trans (Request.disables_of_purpose purpose)) (by decide)
  | transacted request owner token row now member purpose =>
    exact fun kind => absurd (kind.symm.trans (Request.disables_of_purpose purpose)) (by decide)
  | passed | recent | setup | confirmed | revoking => exact shows
  | proved flow now user factor proof =>
    intro kind none_
    cases verifySecondFactor_verified proof with
    | notRequired unset => exact shows kind none_
    | totp row step found enrolled => exact absurd none_ enrolled
    | recovery row code found enrolled => exact absurd none_ enrolled
  | _ => trivial

/-- The step that an enrolled account has after a commit is not behind the last accepted. -/
theorem concluded_steps {before : User} (proved : flow.Proved db factor)
    (found : db.user? flow.owner = some before)
    (shows : flow.request.disables = true → flow.user.loaded.totpEnabledAt = none → Unset db flow.owner)
    (recorded : before.totpEnabledAt ≠ none → ∀ last, ledger.steps flow.owner = some last →
      ∃ stored, before.totpLastUsedStep = some stored ∧ last ≤ stored)
    (enrolled : (User.flush flow.user.loaded (flow.assign factor values) before).totpEnabledAt ≠ none)
    (last : Nat) (accepted : (ledger.accept flow.owner factor).steps flow.owner = some last) :
    ∃ stored, (User.flush flow.user.loaded (flow.assign factor values) before).totpLastUsedStep =
      some stored ∧ last ≤ stored := by
  cases factor with
  | totp step =>
    obtain ⟨current, shown⟩ := proved
    obtain rfl := Option.some.inj (current.symm.trans found)
    have noted : Function.update ledger.steps flow.owner (some step) flow.owner = some last := accepted
    rw [Function.update_self] at noted
    have latest : step = last := Option.some.inj noted
    rw [flush_current.2] at enrolled
    rw [flush_current.1, ← latest]
    refine ⟨step, ?_, Nat.le_refl step⟩
    rcases shown with ⟨confirms, _⟩ | ⟨confirms, _, same, _⟩
    · exact assign_confirms confirms
    · cases kind : flow.request.disables with
      | true => exact absurd (assign_disables kind).2 enrolled
      | false => rw [(assign_keeps confirms kind).1, same]
  | recovery codeHash =>
    obtain ⟨current, same, confirms, _⟩ := proved
    obtain rfl := Option.some.inj (current.symm.trans found)
    rw [flush_current.2] at enrolled
    rw [flush_current.1]
    cases kind : flow.request.disables with
    | true => exact absurd (assign_disables kind).2 enrolled
    | false =>
      obtain ⟨keepsStep, keepsEnrolment⟩ := @assign_keeps flow (.recovery codeHash) values confirms kind
      rw [keepsEnrolment, same] at enrolled
      rw [keepsStep, same]
      exact recorded enrolled last accepted
  | notRequired =>
    obtain ⟨same, confirms⟩ := proved
    simp only [User.flush] at enrolled ⊢
    cases kind : flow.request.disables with
    | true =>
      obtain ⟨noStep, noEnrolment⟩ := @assign_disables flow .notRequired values kind
      rw [noEnrolment] at enrolled
      have stays : flow.user.loaded.totpEnabledAt = none ∧ before.totpEnabledAt ≠ none := by
        unfold flush at enrolled
        split at enrolled
        · rename_i unset
          exact ⟨unset.symm, enrolled⟩
        · exact absurd rfl enrolled
      exact absurd (shows kind stays.1 before found) stays.2
    | false =>
      obtain ⟨keepsStep, keepsEnrolment⟩ := @assign_keeps flow .notRequired values confirms kind
      rw [keepsEnrolment, same, flush_untouched] at enrolled
      rw [keepsStep, same, flush_untouched]
      exact recorded enrolled last accepted

theorem mem_after_codes {row : MfaRecoveryCode} (among : (row.userId, row.codeHash) ∈ ledger.codes)
    (spared : ¬ factor.Spends row)
    (foreign : flow.request.confirms = true ∨ flow.request.disables = true → row.userId ≠ flow.owner) :
    (row.userId, row.codeHash) ∈ (ledger.after (some (.concluded flow factor values))).codes := by
  have accepted : (row.userId, row.codeHash) ∈ (ledger.accept flow.owner factor).codes := by
    cases factor with
    | recovery codeHash =>
      refine List.mem_filter.mpr ⟨among, decide_eq_true fun same => spared ?_⟩
      exact congrArg Factor.recovery same.symm
    | _ => exact among
  obtain ⟨request, owner, user, session, token⟩ := flow
  cases request with
  | disableMfa password code =>
    exact List.mem_filter.mpr ⟨accepted, decide_eq_true (foreign (.inr rfl))⟩
  | confirmMfa code =>
    exact List.mem_append_left _ (List.mem_filter.mpr ⟨accepted, decide_eq_true (foreign (.inl rfl))⟩)
  | _ => exact accepted

theorem mem_after_new {row : MfaRecoveryCode} (confirms : flow.request.confirms = true)
    (own : row.userId = flow.owner) (new : row.codeHash ∈ values.codeHashes) :
    (row.userId, row.codeHash) ∈ (ledger.after (some (.concluded flow factor values))).codes := by
  obtain ⟨request, owner, user, session, token⟩ := flow
  cases request with
  | confirmMfa code =>
    refine List.mem_append_right _ (List.mem_map.mpr ⟨row.codeHash, new, ?_⟩)
    exact congrArg (·, row.codeHash) own.symm
  | _ => contradiction

theorem concluded_recorded (proved : flow.Proved db factor) (recorded : FactorsRecorded db ledger)
    (shows : flow.request.disables = true → flow.user.loaded.totpEnabledAt = none → Unset db flow.owner) :
    FactorsRecorded (conclude settings db flow factor values)
      (ledger.after (some (.concluded flow factor values))) := by
  constructor
  · intro user row found enrolled last accepted
    rw [after_steps] at accepted
    rw [Database.user?, conclude_users] at found
    have looked : (db.setUser flow.owner (User.flush flow.user.loaded (flow.assign factor values))).users.find?
        (·.id = user) = (db.user? user).map fun row => if row.id = flow.owner then
          User.flush flow.user.loaded (flow.assign factor values) row else row :=
      Rows.find?_updateKey fun _ same => same
    rw [looked] at found
    obtain ⟨before, there, rfl⟩ := Option.map_eq_some_iff.mp found
    have id : before.id = user := (Rows.find?_key there).2
    by_cases own : before.id = flow.owner
    · rw [if_pos own] at enrolled ⊢
      obtain rfl : user = flow.owner := id.symm.trans own
      exact concluded_steps proved there shows (recorded.steps _ before there) enrolled last accepted
    · rw [if_neg own] at enrolled ⊢
      rw [accept_steps_other (id ▸ own)] at accepted
      exact recorded.steps user before there enrolled last accepted
  · intro row member unused
    rw [conclude_codes] at member
    rcases unused_concludeCodes member unused with ⟨there, spared, foreign⟩ | ⟨confirms, own, new⟩
    · exact mem_after_codes (recorded.codes row there unused) spared foreign
    · exact mem_after_new confirms own new

/-- Step lemma of the ledger. -/
theorem factors_recorded (knows : KnowsFactor db phase) (shows : ShowsEnrolment db phase)
    (recorded : FactorsRecorded db ledger) (written : Written settings db phase event db') :
    FactorsRecorded db' (ledger.after event) := by
  cases written with
  | nothing | issued | refreshed | closed => exact ⟨recorded.steps, recorded.codes⟩
  | registered id email passwordDigest tokenHash now =>
    refine ⟨fun user row found enrolled => ?_, recorded.codes⟩
    have looked : (db.users ++ [newUser id email passwordDigest now]).find? (·.id = user) = some row := found
    rw [List.find?_append] at looked
    rcases Option.or_eq_some_iff.mp looked with before | ⟨_, new⟩
    · exact recorded.steps user row before enrolled
    · rw [List.mem_singleton.mp (List.mem_of_find?_eq_some new)] at enrolled
      exact absurd rfl enrolled
  | concluded flow factor revoking values => exact concluded_recorded knows recorded shows
  | declined owner token now =>
    obtain ⟨users, _, codes⟩ := @useToken_tables db token now
    refine ⟨fun user row found => ?_, fun row member => ?_⟩
    · rw [Database.user?, users] at found
      exact recorded.steps user row found
    · rw [codes] at member
      exact recorded.codes row member

theorem written_advances (knows : KnowsFactor db phase) (recorded : FactorsRecorded db ledger)
    (written : Written settings db phase event db') : Advances ledger event := by
  cases written with
  | concluded flow factor revoking values =>
    cases factor with
    | notRequired => trivial
    | totp step =>
      obtain ⟨current, ⟨confirms, _⟩ | ⟨_, enrolled, _, later⟩⟩ := knows
      · exact .inl confirms
      · right
        cases accepted : ledger.steps flow.owner with
        | none => rfl
        | some last =>
          obtain ⟨stored, same, bound⟩ := recorded.steps _ _ current enrolled last accepted
          exact decide_eq_true (Nat.lt_of_le_of_lt bound (later stored same))
    | recovery codeHash =>
      obtain ⟨_, _, _, code, member, own, rfl, unused⟩ := knows
      have live := recorded.codes code member unused
      rw [own] at live
      exact live
  | _ => trivial

theorem written_spares (written : Written settings db phase event db') : Spares db db' event := by
  cases written with
  | nothing => exact ⟨rfl, rfl⟩
  | declined owner token now => exact ⟨(useToken_tables token now).1, (useToken_tables token now).2.2⟩
  | _ => trivial

abbrev Knowing (db : Database) (phase : Phase) : Prop := KnowsFactor db phase ∧ ShowsEnrolment db phase

/-- The invariant: the requests know what they hold, and the ledger is not ahead. -/
structure Kept (s : Service × FactorLedger) : Prop where
  guarded : Guarded locks CodesKeyed Knowing s.1
  recorded : FactorsRecorded s.1.shared s.2

theorem step_kept {s t : Service × FactorLedger} {label : Nat × Action} (kept : Kept s)
    (stepped : factorStep crypto settings s label = some t) : Kept t := by
  obtain ⟨moved, history⟩ := noted_iff.mp stepped
  have keyed := kept.guarded.global
  obtain ⟨knows, shows⟩ := kept.guarded.session label.1
  constructor
  · apply kept.guarded.step moved
    intro outcome chosen
    have written := program_written chosen
    refine ⟨program_keeps chosen, codes_keyed keyed written, ?_, fun m apart other => ?_⟩
    · rcases program_settled chosen with same | ended
      · rw [same]
        exact ⟨program_knowsFactor knows chosen, program_showsEnrolment knows shows chosen⟩
      · rw [ended]
        exact ⟨trivial, trivial⟩
    · exact ⟨knowsFactor_others keyed knows written apart other.1, showsEnrolment_others knows written other.2⟩
  · obtain ⟨outcome, chosen, acted⟩ := Option.bind_eq_some_iff.mp moved
    rw [history, Store.act_shared acted]
    exact factors_recorded knows shows kept.recorded (program_written chosen)

/-- What a step does with the codes that it is given. -/
def ProvesOnce (crypto : Crypto) (settings : Settings) (s : Service × FactorLedger) (label : Nat × Action) :
    Prop :=
  ∀ t, factorStep crypto settings s label = some t →
    Advances s.2 (eventOf s.1.shared (s.1.locals label.1) label.2) ∧
      Spares s.1.shared t.1.shared (eventOf s.1.shared (s.1.locals label.1) label.2)

theorem step_provesOnce {s : Service × FactorLedger} {label : Nat × Action} (kept : Kept s) :
    ProvesOnce crypto settings s label := by
  intro t stepped
  obtain ⟨moved, _⟩ := noted_iff.mp stepped
  obtain ⟨outcome, chosen, acted⟩ := Option.bind_eq_some_iff.mp moved
  have written := program_written chosen
  rw [Store.act_shared acted]
  exact ⟨written_advances (kept.guarded.session label.1).1 kept.recorded written, written_spares written⟩

/-- In every run the accepted TOTP steps of an account increase from its enrolment on, a
recovery code is accepted once and only until the next enrolment or disabling, and a
request that is not concluded leaves both alone. -/
theorem codes_are_accepted_once (crypto : Crypto) (settings : Settings) (db : Database)
    (labels : List (Nat × Action)) (unique : (db.recoveryCodes.map (·.codeHash)).Nodup) :
    Along (factorStep crypto settings) (ProvesOnce crypto settings) (start db, FactorLedger.initial db)
      labels := by
  have initial : Kept (start db, FactorLedger.initial db) := by
    refine ⟨Guarded.idle unique ⟨trivial, trivial⟩ (fun _ never => never) fun _ never => never, ?_,
      fun row member unused => ?_⟩
    · intro user row found enrolled last same
      have stored : (db.user? user).bind (·.totpLastUsedStep) = some last := same
      have looked : db.user? user = some row := found
      rw [looked] at stored
      exact ⟨last, stored, Nat.le_refl last⟩
    · exact List.mem_map.mpr ⟨row, List.mem_filter.mpr ⟨member, decide_eq_true unused⟩, rfl⟩
  refine along_of_invariant (C := fun _ _ => True) ?_ ?_ initial (along_true _ _)
  · exact fun _ _ _ kept _ stepped => step_kept kept stepped
  · exact fun _ _ kept _ => step_provesOnce kept

/-- The codes of two steps. -/
def authenticator : Crypto where
  verifyPassword password hash := hash = .digest password
  tokenDigest code := code
  totpAt _ step := if step = 9 then "000009" else if step = 12 then "000012" else if step = 13 then "000013" else ""

def defaults : Settings where
  accessTokenMinutes := 15
  refreshSessionDays := 30
  recentAuthMinutes := 10

/-- An account with a linked identity that was enrolled before its steps were recorded. -/
def legacy : Database where
  users := [{ newUser 1 "owner@example.org" "secret" 0 with
    passwordEnabled := false
    passwordSetAt := none
    emailVerifiedAt := some 0
    totpSecretEncrypted := some "A"
    totpEnabledAt := some 5 }]
  sessions := [⟨1, 1, "r1", 5000, none, some 200⟩]
  tokens := []
  recoveryCodes := []

def draws (now : Timestamp) (sessionId : UUID) (refreshTokenHash : String) : Values :=
  ⟨now, sessionId, refreshTokenHash, "", "B", []⟩

def signIn (t : Nat) (code : String) (now : Timestamp) (sessionId : UUID) (refreshTokenHash : String) :
    List (Nat × Action) :=
  [(t, .login "owner@example.org" "secret" (some code) true), (t, .check now), (t, .prove now),
    (t, .commit (draws now sessionId refreshTokenHash))]

/-- The enrolled account sets up another secret and confirms it. -/
def enrolling : List (Nat × Action) :=
  [(4, .authenticate 1 1 300 .setupMfa), (4, .lockUser), (4, .check 300), (4, .commit (draws 300 9 "x")),
    (4, .authenticate 1 1 310 (.confirmMfa "000012")), (4, .lockUser), (4, .check 360),
    (4, .commit (draws 360 9 "x"))]

/-- Two sign-ins with later and later codes, an enrolment between them. -/
theorem renewals_are_accepted :
    Along (factorStep authenticator defaults) (ProvesOnce authenticator defaults)
      (start legacy, .initial legacy) (signIn 2 "000009" 270 2 "r2" ++ enrolling ++ signIn 3 "000013" 390 3 "r3") ∧
    (run (factorStep authenticator defaults) (start legacy, .initial legacy)
      (signIn 2 "000009" 270 2 "r2" ++ enrolling ++ signIn 3 "000013" 390 3 "r3")).any
      (fun s => s.2.steps 1 = some 13) = true :=
  ⟨codes_are_accepted_once authenticator defaults legacy _ (by decide), by decide +kernel⟩

/-- An account that is not enrolled stays so: the confirmation fails at its first flush. -/
example : (run (step authenticator defaults) (start { legacy with users := legacy.users.map fun row =>
    { row with totpSecretEncrypted := none, totpEnabledAt := none } }) enrolling).any
      (fun s => s.shared.users.all (·.totpEnabledAt = none)) = true := by decide +kernel

end Drivebound.Auth
