import Drivebound.Federation.Commits
import Mathlib

/-! Every statement of a request keeps what its session has found out. The re-read rows are locked; what a cookie or a
state is the digest of says which request or transaction a token row stands for. -/
namespace Drivebound.Federation
open Chronicle Sessions Run

variable {functions : Functions} {settings : Settings} {events : List Event} {db : Database} {phase : Phase}
  {outcome : Step} {vouch : Vouch} {now : Timestamp}

/-- What an outcome owes the invariant, with the notes after it. -/
abbrev Pays (functions : Functions) (r : Database × List Event) (phase : Phase) (later : List Event)
    (outcome : Step) : Prop :=
  Owes Holding (Global functions) (Knows functions) r phase (outcome.recorded later)

theorem pays_refuse {reason : String} (global : Global functions (db, events)) :
    Pays functions (db, events) phase events (refuse db reason) :=
  Owes.rollback global trivial fun _ held => by cases held

theorem pays_stay {next : Phase} (global : Global functions (db, events)) (arrives : Knows functions (db, events) next)
    (kept : ∀ key, Holding next key → Holding phase key) : Pays functions (db, events) phase events (.stay db next) :=
  Owes.quiet global arrives kept

theorem pays_free {next : Phase} (global : Global functions (db, events)) (arrives : Knows functions (db, events) next)
    (free : locks next = []) : Pays functions (db, events) phase events (.stay db next) :=
  pays_stay global arrives fun key held => by cases (free ▸ held : key ∈ [])

theorem isReauthentication_append (token : String) : isReauthentication ("reauth." ++ token) = true := by
  unfold isReauthentication
  rw [String.toList_append, List.isPrefixOf_iff_prefix]
  exact List.prefix_append _ _

theorem token?_mem {tokenHash : String} {purpose : Purpose} {token : AccountToken}
    (found : db.token? tokenHash purpose = some token) :
    token ∈ db.tokens ∧ token.tokenHash = tokenHash ∧ token.purpose = purpose := by
  have holds := List.find?_some found
  simp only [Bool.and_eq_true, decide_eq_true_eq] at holds
  exact ⟨List.mem_of_find?_eq_some found, holds⟩

/-- A token that is found for a state was issued with it. -/
theorem claimed_of_found {token : AccountToken} (digests : Function.Injective functions.tokenDigest)
    (global : Global functions (db, events)) (checked : Checked vouch)
    (found : db.token? (functions.tokenDigest vouch.state) .googleReauth = some token) :
    Claimed events vouch token := by
  obtain ⟨member, hash, purpose⟩ := token?_mem found
  have backed := global.rows.tokens token member
  unfold Backed at backed
  rw [purpose] at backed
  obtain ⟨issued, sessionId, at_, named, expires, started⟩ := backed
  have state : vouch.state = "reauth." ++ functions.opaqueToken token.id := digests (hash.symm.trans issued)
  refine ⟨checked.sound, checked.fresh (state ▸ isReauthentication_append _), fun other same => ?_⟩
  cases named.symm.trans same
  exact ⟨at_, expires, state ▸ started⟩

/-- The row that a session's re-read finds. -/
theorem current_of_active {userId : UUID} {sessionId : Option UUID} {row : AuthSession}
    (found : row ∈ sessionId.bind (db.activeSession? userId now)) : Current db userId sessionId now row := by
  obtain ⟨id, rfl, active⟩ := Option.bind_eq_some_iff.mp found
  obtain ⟨here, holds⟩ := Option.filter_eq_some_iff.mp active
  have same : row.id = id := (Rows.find?_key here).2
  simp only [Bool.and_eq_true, decide_eq_true_eq, Option.isNone_iff_eq_none] at holds
  exact ⟨congrArg some same.symm, same.symm ▸ here, holds.1.1, holds.1.2, holds.2⟩

theorem checkClaim_pays {token : AccountToken} {user : Option User} {current : Option AuthSession}
    {examined : Timestamp} (global : Global functions (db, events))
    (knows : Knows functions (db, events) (.claimedToken vouch token user current examined)) :
    Pays functions (db, events) (.claimedToken vouch token user current examined) events
      (checkClaim db vouch token user current examined now) := by
  obtain ⟨claimed, rows, sessions⟩ := knows
  unfold checkClaim
  split
  · exact pays_refuse global
  · split
    · exact pays_refuse global
    · next usable =>
      split
      · exact pays_refuse global
      · next identity =>
        cases current with
        | none => exact pays_refuse global
        | some current =>
          cases user with
          | none => exact pays_refuse global
          | some user =>
            dsimp only
            split
            · exact pays_refuse global
            · next enabled =>
              have row := rows user rfl
              have same : user.id = token.userId := user?_id row
              have here := sessions current rfl
              have linked : Linked events token.userId vouch.claims.subject := by
                simp only [Bool.not_eq_true', Bool.not_eq_false, List.any_eq_true, Bool.and_eq_true,
                  decide_eq_true_eq] at identity
                obtain ⟨row, member, subject, own⟩ := identity
                exact subject ▸ own ▸ global.rows.identities row member
              obtain ⟨at_, expires, started⟩ := claimed.started current.id here.named
              have inTime : now < at_ + 600 := by
                simp only [Bool.or_eq_true, decide_eq_true_eq, not_or, Nat.not_le] at usable
                exact expires ▸ usable.2
              refine pays_stay global ⟨⟨⟨at_, same ▸ started, inTime⟩, same ▸ linked, claimed.sound, claimed.fresh⟩,
                ⟨same ▸ row, (Bool.not_eq_true _).mp enabled⟩,
                ⟨rfl, here.row, same ▸ here.own, here.unrevoked, here.unexpired⟩⟩ ?_
              intro key held
              simp only [Holding, locks, List.mem_cons, List.not_mem_nil, or_false] at held
              rcases held with rfl | rfl
              · exact same ▸ List.mem_cons_self
              · refine List.mem_cons_of_mem _ ?_
                simp [here.named]

/-- A session that the transaction names is current, or the transaction is over. -/
theorem session_of_complete {userId : UUID} {sessionId : Option UUID} {session : Option AuthSession}
    {examined : Timestamp} (current : ∀ row ∈ session, Current db userId sessionId examined row)
    (complete : (sessionId.isSome && session.isNone) = false) : sessionId = session.map (·.id) := by
  cases session with
  | none => simpa using complete
  | some row => exact (current row rfl).named

theorem consume_pays {presenting : Presenting} {userId : UUID} {sessionId : Option UUID} {user : Option User}
    {session : Option AuthSession} (digests : Function.Injective functions.tokenDigest)
    (tokens : Function.Injective functions.opaqueToken) (global : Global functions (db, events))
    (knows : Knows functions (db, events) (.boundToken presenting userId sessionId user session)) :
    Pays functions (db, events) (.boundToken presenting userId sessionId user session) events
      (consume db presenting sessionId user session) := by
  obtain ⟨presents, rows, sessions⟩ := knows
  unfold consume
  cases found : db.token? presenting.tokenHash (.googleMfa presenting.mode) with
  | none => exact pays_refuse global
  | some token =>
    obtain ⟨member, hash, purpose⟩ := token?_mem found
    have backed := global.rows.tokens token member
    unfold Backed at backed
    rw [purpose] at backed
    obtain ⟨issued, vouch, asked, at_, expires, deferred⟩ := backed
    dsimp only
    split
    · exact pays_refuse global
    · next unused =>
      have open_ : Open functions events token :=
        ⟨issued, ⟨_, deferred, rfl⟩, global.rows.unspent token member (by simpa using unused)⟩
      have spend : Pays functions (db, events) (.boundToken presenting userId sessionId user session) events
          (.stay db (.spending token "google_mfa_transaction_invalid")) := by
        refine pays_stay global open_ fun key held => ?_
        cases List.mem_singleton.mp held
        exact hash ▸ List.mem_cons_self
      split
      · exact spend
      · next inTime =>
        cases user with
        | none => exact spend
        | some user =>
          cases factor : user.factor with
          | none => simpa only [factor] using spend
          | some secret =>
            simp only [factor]
            split
            · exact spend
            · next complete =>
              -- The row is the one that the cookie was issued for: its user and its session are the locked ones.
              obtain ⟨id, other, otherAsked, otherAt, noted, same⟩ := presents
              have one : token.id = id := tokens (digests (issued.symm.trans (hash.trans same)))
              have event := global.notes.sole _ deferred _ noted token.id rfl (congrArg some one.symm)
              injection event with _ _ own bound
              obtain ⟨before, earlier, vouched⟩ := global.notes.of_mem deferred
              have vouches : Vouches events presenting.mode token.userId token.sessionId vouch asked :=
                Vouches.mono earlier vouched
              simp only [Bool.not_eq_true, Bool.or_eq_false_iff] at complete
              have row := rows user rfl
              have mine : user.id = userId := user?_id row
              have named := session_of_complete sessions complete.2
              refine pays_stay global ⟨⟨open_, ?_, ⟨mine ▸ row, complete.1⟩, fun current here => ?_⟩, factor⟩ ?_
              · rw [mine, ← named, ← own, ← bound]
                exact ⟨vouch, asked, at_, deferred, expires ▸ Nat.lt_of_not_le inTime, vouches⟩
              · have there := sessions current here
                exact ⟨rfl, there.row, mine ▸ there.own, there.unrevoked, there.unexpired⟩
              · intro key held
                simp only [Holding, locks, named, hash, mine] at held ⊢
                simpa using held

theorem proceed_pays (digests : Function.Injective functions.tokenDigest)
    (tokens : Function.Injective functions.opaqueToken) (global : Global functions (db, events))
    (knows : Knows functions (db, events) phase) (chosen : proceed functions settings db now phase = some outcome) :
    Pays functions (db, events) phase events outcome := by
  cases phase with
  | idle | answered | starting | exchanging | reclaimed | entering | proved | spending | holding => cases chosen
  | authenticating userId sessionId =>
    simp only [proceed] at chosen
    split at chosen <;> cases chosen
    · exact pays_free global trivial rfl
    · exact pays_refuse global
  | authenticated userId sessionId =>
    simp only [proceed] at chosen
    split at chosen
    · cases chosen
      exact pays_refuse global
    · split at chosen <;> cases chosen
      · next own =>
        obtain ⟨row, member, same⟩ := List.any_eq_true.mp own
        exact pays_free global ⟨row.subject, of_decide_eq_true same ▸ global.rows.identities row member⟩ rfl
      · exact pays_refuse global
  | vouched vouch =>
    simp only [proceed] at chosen
    split at chosen
    · next token found =>
      cases chosen
      exact pays_free global (claimed_of_found digests global knows found) rfl
    · split at chosen <;> cases chosen
      · exact pays_refuse global
      · exact pays_free global knows rfl
  | claimed vouch token =>
    cases chosen
    exact ⟨knows, fun key held => .inl (List.mem_singleton.mp held)⟩
  | claimedUser vouch token =>
    have rows : ∀ row ∈ db.user? token.userId, db.user? token.userId = some row := fun _ found => found
    simp only [proceed] at chosen
    split at chosen <;> cases chosen
    · next id named =>
      refine ⟨⟨knows, rows⟩, fun key held => ?_⟩
      simp only [Holding, locks, named] at held ⊢
      simpa [or_comm] using held
    · next unnamed =>
      refine pays_stay global ⟨knows, rows⟩ fun key held => ?_
      simp only [Holding, locks, unnamed] at held ⊢
      simpa using held
  | claimedSession vouch token user =>
    cases chosen
    exact ⟨⟨knows.1, knows.2, fun row found => current_of_active found⟩, fun key held => .inr held⟩
  | claimedToken vouch token user current examined =>
    cases chosen
    exact checkClaim_pays global knows
  | seeking vouch =>
    simp only [proceed] at chosen
    split at chosen <;> cases chosen
    · next identity found =>
      have linked := global.rows.identities identity (List.mem_of_find?_eq_some found)
      have subject : identity.subject = vouch.claims.subject := by simpa using List.find?_some found
      exact pays_free global ⟨subject ▸ linked, knows⟩ rfl
    · exact pays_free global knows rfl
  | known vouch userId =>
    cases chosen
    exact ⟨knows, fun key held => .inl (List.mem_singleton.mp held)⟩
  | knownUser vouch userId =>
    have signsIn : SignsIn events userId vouch := ⟨knows.1, knows.2.sound⟩
    simp only [proceed] at chosen
    split at chosen
    · -- The user is gone, and the link with him.
      cases chosen
      exact pays_free global knows.2 rfl
    · next user found =>
      have mine : user.id = userId := user?_id found
      split at chosen <;> cases chosen
      · exact pays_refuse global
      · next enabled =>
        refine pays_stay global ⟨mine ▸ signsIn, mine ▸ found, (Bool.not_eq_true _).mp enabled⟩ fun key held => ?_
        exact mine ▸ held
  | searching vouch =>
    simp only [proceed] at chosen
    split at chosen <;> cases chosen
    · exact pays_free global knows rfl
    · exact pays_free global knows.sound rfl
  | found vouch userId =>
    cases chosen
    exact ⟨knows, fun key held => .inl (List.mem_singleton.mp held)⟩
  | foundUser vouch userId =>
    have checked : Checked vouch := knows
    simp only [proceed] at chosen
    split at chosen
    · cases chosen
      exact pays_free global checked.sound rfl
    · next user kept =>
      obtain ⟨found, email⟩ := Option.filter_eq_some_iff.mp kept
      have mine : user.id = userId := user?_id found
      split at chosen <;> cases chosen
      · exact pays_refuse global
      · next enabled =>
        refine pays_stay global ⟨checked.sound, of_decide_eq_true email, mine ▸ found, (Bool.not_eq_true _).mp enabled⟩
          fun key held => ?_
        exact mine ▸ held
  | presenting presenting =>
    simp only [proceed] at chosen
    split at chosen <;> cases chosen
    · exact pays_refuse global
    · next token found =>
      obtain ⟨member, hash, purpose⟩ := token?_mem found
      have backed := global.rows.tokens token member
      unfold Backed at backed
      rw [purpose] at backed
      obtain ⟨issued, vouch, asked, at_, expires, deferred⟩ := backed
      exact pays_free global ⟨token.id, vouch, asked, at_, deferred, hash.symm.trans issued⟩ rfl
  | bound presenting userId sessionId =>
    cases chosen
    exact ⟨knows, fun key held => .inl (List.mem_singleton.mp held)⟩
  | boundUser presenting userId sessionId =>
    have rows : ∀ row ∈ db.user? userId, db.user? userId = some row := fun _ found => found
    simp only [proceed] at chosen
    split at chosen <;> cases chosen
    · refine ⟨⟨knows, rows⟩, fun key held => ?_⟩
      simp only [Holding, locks] at held ⊢
      simpa [or_comm] using held
    · exact pays_stay global ⟨knows, rows⟩ fun _ held => held
  | boundSession presenting userId sessionId user =>
    cases chosen
    refine ⟨⟨knows.1, knows.2, fun row found => current_of_active found⟩, fun key held => ?_⟩
    exact List.mem_cons.mp held
  | boundToken presenting userId sessionId user session =>
    cases chosen
    exact consume_pays digests tokens global knows
  | proving presenting token user secret session =>
    obtain ⟨proving, factor⟩ := knows
    simp only [proceed] at chosen
    split at chosen <;> cases chosen
    · refine pays_stay global proving.opened fun key held => ?_
      cases List.mem_singleton.mp held
      exact List.mem_cons_self
    · next accepted =>
      exact pays_stay global ⟨proving, secret, factor, by simp [accepted]⟩ fun _ held => held

theorem enterCallback_pays {presented : Presented} (global : Global functions (db, events)) :
    Pays functions (db, events) phase events (enterCallback settings db presented) := by
  unfold enterCallback
  split
  · exact pays_refuse global
  · split
    · split
      · exact pays_free global trivial rfl
      · exact pays_refuse global
    · exact pays_refuse global

theorem receiveClaims_pays {state : String} {nonce : Option String} (answer : Option Claims)
    (global : Global functions (db, events)) :
    Pays functions (db, events) phase events (receiveClaims db state nonce now answer) := by
  cases answer with
  | none => exact pays_refuse global
  | some claims =>
    simp only [receiveClaims]
    split
    · exact pays_refuse global
    · next verified =>
      split
      · exact pays_refuse global
      · next recent =>
        simp only [Bool.or_eq_true, decide_eq_true_eq, not_or, not_not, Bool.not_eq_true'] at verified
        refine pays_free global ⟨⟨verified.1, by simpa using verified.2⟩, fun again => ?_⟩ rfl
        have fresh : requireFreshGoogleAuthentication claims now = true := by
          simpa [again] using recent
        obtain ⟨seen, present, bounds⟩ := (Option.any_eq_true _ _).mp fresh
        simp only [Bool.and_eq_true, decide_eq_true_eq] at bounds
        exact ⟨seen, present, bounds⟩

theorem pays_keeps {db' : Database} {later : List Event} {next : Phase}
    (keeps : Keeps functions (Holding phase) (db, events) (db', later)) (arrives : Knows functions (db', later) next)
    (free : locks next = []) : Pays functions (db, events) phase later (.finish db' next) := by
  refine ⟨keeps.global, arrives, fun key held => ?_, fun m apart knows => ?_⟩
  · cases (free ▸ held : key ∈ [])
  · exact knows.stable keeps.steady fun key held taken => apart key taken held

theorem note_plain {action : Action} (plain : ∀ now, action ≠ .commit now) :
    note functions settings db phase action events = events := by
  unfold note
  split
  · exact absurd rfl (plain _)
  · rfl

theorem program_pays {action : Action} (digests : Function.Injective functions.tokenDigest)
    (tokens : Function.Injective functions.opaqueToken) (global : Global functions (db, events))
    (knows : Knows functions (db, events) phase) (chosen : program functions settings db phase action = some outcome) :
    Pays functions (db, events) phase (note functions settings db phase action events) outcome := by
  cases action with
  | commit now =>
    simp only [program] at chosen
    obtain ⟨result, ended, rfl⟩ := Option.map_eq_some_iff.mp chosen
    cases result with
    | error reason =>
      simp only [note, ended]
      exact pays_refuse global
    | ok settled =>
      simp only [note, ended]
      exact pays_keeps (keeps_settle global knows ended) trivial rfl
  | proceed now =>
    rw [note_plain fun _ same => by cases same]
    exact proceed_pays digests tokens global knows (by simpa only [program] using chosen)
  | start userId sessionId now =>
    rw [note_plain fun _ same => by cases same]
    cases phase with
    | idle | answered =>
      simp only [program] at chosen
      split at chosen
      · cases chosen
        exact pays_refuse global
      · split at chosen <;> cases chosen
        · exact pays_free global trivial rfl
        · exact pays_refuse global
    | _ => cases chosen
  | callback presented =>
    rw [note_plain fun _ same => by cases same]
    cases phase with
    | idle | answered =>
      cases chosen
      exact enterCallback_pays global
    | _ => cases chosen
  | google answer now =>
    rw [note_plain fun _ same => by cases same]
    cases phase with
    | exchanging =>
      cases chosen
      exact receiveClaims_pays answer global
    | _ => cases chosen
  | complete mode raw code now =>
    rw [note_plain fun _ same => by cases same]
    cases phase with
    | idle | answered =>
      simp only [program] at chosen
      split at chosen <;> cases chosen
      · exact pays_refuse global
      · exact pays_free global trivial rfl
    | _ => cases chosen
  | fail =>
    rw [note_plain fun _ same => by cases same]
    cases phase <;> cases chosen <;> exact Owes.rollback global trivial fun _ held => by cases held
  | hold key =>
    rw [note_plain fun _ same => by cases same]
    cases phase with
    | idle | answered =>
      cases chosen
      exact ⟨trivial, fun other held => .inl (List.mem_singleton.mp held)⟩
    | _ => cases chosen
  | alter change =>
    rw [note_plain fun _ same => by cases same]
    cases phase with
    | holding key =>
      cases chosen
      exact pays_keeps (keeps_rows global (global.rows.alter key change) (leaves_alter List.mem_cons_self)) trivial rfl
    | _ => cases chosen

end Drivebound.Federation
