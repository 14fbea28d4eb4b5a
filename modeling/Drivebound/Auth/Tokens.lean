import Drivebound.Auth.Sessions

/-! The links that are mailed to an account. A ledger keeps every token as it was issued and
what became of it: a newer one of its purpose supersedes it, a request uses it, a password
reset retires what is left. Issuing and consuming lock the account first, so a token that
has been found unused behind the lock is unused until its request commits. -/
namespace Drivebound.Auth
open Sessions Run
open Erasure (User)

inductive Standing where
  | live | superseded | used | retired
  deriving DecidableEq, Repr

structure Issue where
  userId : UUID
  purpose : Purpose
  expiresAt : Timestamp
  standing : Standing
  deriving DecidableEq, Repr

abbrev TokenLedger := String → Option Issue

namespace TokenLedger

def spend (ledger : TokenLedger) (tokenHash : String) : TokenLedger :=
  Function.update ledger tokenHash ((ledger tokenHash).map fun issue => { issue with standing := .used })

def retire (ledger : TokenLedger) (user : UUID) (purpose : Purpose) (standing : Standing) : TokenLedger :=
  fun tokenHash => (ledger tokenHash).map fun issue =>
    if issue.userId = user ∧ issue.purpose = purpose ∧ issue.standing = .live then { issue with standing }
    else issue

def issue (ledger : TokenLedger) (user : UUID) (purpose : Purpose) (tokenHash : String) (now : Timestamp) :
    TokenLedger :=
  Function.update (ledger.retire user purpose .superseded) tokenHash
    (some ⟨user, purpose, now + purpose.lifetime, .live⟩)

def after (ledger : TokenLedger) : Option Event → TokenLedger
  | some (.registered user tokenHash now) => ledger.issue user.id .verifyEmail tokenHash now
  | some (.issued user purpose tokenHash now) => ledger.issue user purpose tokenHash now
  | some (.concluded flow _ _) =>
    let spent := flow.token.elim ledger fun token => ledger.spend token.tokenHash
    match flow.request with
    | .resetPassword => spent.retire flow.owner .passwordReset .retired
    | _ => spent
  | some (.declined _ token _) => token.elim ledger fun token => ledger.spend token.tokenHash
  | _ => ledger

end TokenLedger

/-- The token is one that the request of `flow` may use. -/
structure Redeemable (ledger : TokenLedger) (flow : Flow) (tokenHash : String) (issue : Issue) : Prop where
  issued : ledger tokenHash = some issue
  live : issue.standing = .live
  purpose : flow.request.purpose = some issue.purpose
  owner : issue.userId = flow.owner

/-- The flow of a request whose token has been accepted. -/
def Phase.flow? : Phase → Option Flow
  | .proving flow | .approved flow _ _ => some flow
  | _ => none

/-- A token is accepted within its lifetime, for its purpose and its user. -/
def Accepts (ledger : TokenLedger) (phase : Phase) (action : Action) (next : Phase) : Prop :=
  ∀ request tokenHash owner now flow, phase = .redeeming request tokenHash owner → action = .redeem now →
    next.flow? = some flow → flow.request = request ∧ flow.token.map (·.tokenHash) = some tokenHash ∧
      ∃ issue, Redeemable ledger flow tokenHash issue ∧ now < issue.expiresAt

/-- A commit of an endpoint that redeems tokens uses up a live one. -/
def Consumes (ledger : TokenLedger) : Option Event → Prop
  | some (.concluded flow _ _) => flow.request.purpose.isSome = true →
    ∃ token issue, flow.token = some token ∧ Redeemable ledger flow token.tokenHash issue
  | some (.declined owner (some token) _) =>
    ∃ issue, ledger token.tokenHash = some issue ∧ issue.standing = .live ∧ issue.userId = owner
  | _ => True

/-- The links of a purpose that an account can still use. -/
def Database.outstanding (db : Database) (user : UUID) (purpose : Purpose) : List AccountToken :=
  db.tokens.filter fun row => row.userId = user ∧ row.purpose = purpose ∧ row.usedAt = none

/-- The unused tokens are live ones, as they were issued. -/
def Known (tokens : List AccountToken) (ledger : TokenLedger) : Prop :=
  ∀ row ∈ tokens, row.usedAt = none →
    ledger row.tokenHash = some ⟨row.userId, row.purpose, row.expiresAt, .live⟩

structure TokensKeyed (db : Database) : Prop where
  hashes : (db.tokens.map (·.tokenHash)).Nodup
  owners : ∀ row ∈ db.tokens, ∃ user ∈ db.users, user.id = row.userId
  outstanding : ∀ user purpose, (db.outstanding user purpose).length ≤ 1

/-- The token of a request is still there as it was found. -/
def Flow.Redeems (db : Database) (flow : Flow) : Prop :=
  match flow.token with
  | none => flow.request.purpose = none
  | some token => flow.request.purpose = some token.purpose ∧ token ∈ db.tokens ∧ token.usedAt = none ∧
    token.userId = flow.owner

def KnowsToken (db : Database) : Phase → Prop
  | .authenticated request _ _ => request.authenticated = true
  | .presented _ tokenHash owner | .redeeming _ tokenHash owner =>
    ∃ row ∈ db.tokens, row.tokenHash = tokenHash ∧ row.userId = owner
  | .locked flow | .proving flow | .approved flow _ _ => flow.Redeems db
  | .rejected owner (some token) => token ∈ db.tokens ∧ token.usedAt = none ∧ token.userId = owner
  | .issuing user _ => ∃ row ∈ db.users, row.id = user.id
  | _ => True

/-- A change of the rows that uses some of them up. -/
def Uses (change : AccountToken → AccountToken) : Prop :=
  ∀ row, change row = row ∨ ∃ now, change row = { row with usedAt := some now }

/-- What a commit does to the tokens. -/
inductive TokensChanged (db : Database) (accounts : List User) (point : Phase) :
    List AccountToken → Prop where
  | used (change : AccountToken → AccountToken) (uses : Uses change)
      (covered : ∀ row ∈ db.tokens, change row ≠ row → point.Holds (.user row.userId)) :
    TokensChanged db accounts point (db.tokens.map change)
  | issued (new : AccountToken) (change : AccountToken → AccountToken) (uses : Uses change)
      (covered : ∀ row ∈ db.tokens, change row ≠ row → point.Holds (.user row.userId))
      (supersedes : ∀ row, row.userId = new.userId → row.purpose = new.purpose → (change row).usedAt ≠ none)
      (fresh : ∀ row ∈ db.tokens, row.tokenHash ≠ new.tokenHash)
      (owner : ∃ account ∈ accounts, account.id = new.userId) :
    TokensChanged db accounts point (db.tokens.map change ++ [new])

variable {crypto : Crypto} {settings : Settings} {db db' : Database} {phase m : Phase} {action : Action}
  {event : Option Event} {outcome : Step} {flow : Flow} {factor : Factor} {values : Values}
  {ledger : TokenLedger} {now : Timestamp}

theorem useTokens_uses (chosen : AccountToken → Bool) (now : Timestamp) : Uses fun row =>
    if chosen row = true ∧ row.usedAt = none then { row with usedAt := some now } else row := by
  intro row
  dsimp only
  split
  · exact .inr ⟨now, rfl⟩
  · exact .inl rfl

theorem Uses.comp {first second : AccountToken → AccountToken} (one : Uses first) (two : Uses second) :
    Uses (second ∘ first) := by
  intro row
  have later := two (first row)
  rw [Function.comp_apply]
  rcases one row with same | ⟨now, used⟩
  · rw [same] at later ⊢
    exact later
  · rw [used] at later ⊢
    rcases later with same | ⟨then', used⟩
    · exact .inr ⟨now, same⟩
    · exact .inr ⟨then', used⟩

theorem Uses.key {change : AccountToken → AccountToken} (uses : Uses change) (row : AccountToken) :
    (change row).tokenHash = row.tokenHash ∧ (change row).userId = row.userId ∧
      (change row).purpose = row.purpose := by
  rcases uses row with same | ⟨now, used⟩
  · rw [same]
    exact ⟨rfl, rfl, rfl⟩
  · rw [used]
    exact ⟨rfl, rfl, rfl⟩

theorem Uses.unused {change : AccountToken → AccountToken} (uses : Uses change) {row : AccountToken}
    (unused : (change row).usedAt = none) : change row = row := by
  rcases uses row with same | ⟨now, used⟩
  · exact same
  · rw [used] at unused
    contradiction

/-- The rows that a request uses are those of its user. -/
theorem concludeTokens_uses (keyed : TokensKeyed db) (redeems : flow.Redeems db) :
    ∃ change, Uses change ∧ (∀ row ∈ db.tokens, change row ≠ row → row.userId = flow.owner) ∧
      (concludeTokens db flow values).tokens = db.tokens.map change := by
  have spends : ∃ change, Uses change ∧ (∀ row ∈ db.tokens, change row ≠ row → row.userId = flow.owner) ∧
      (useToken db flow.token values.now).tokens = db.tokens.map change := by
    unfold Flow.Redeems at redeems
    split at redeems
    · rename_i absent
      rw [absent]
      exact ⟨id, fun _ => .inl rfl, fun _ _ changed => absurd rfl changed, (List.map_id _).symm⟩
    · rename_i token present
      obtain ⟨_, member, _, owner⟩ := redeems
      rw [present]
      refine ⟨_, useTokens_uses _ values.now, fun row there changed => ?_, rfl⟩
      by_cases chosen : row.tokenHash = token.tokenHash
      · rw [List.inj_on_of_nodup_map keyed.hashes there member chosen]
        exact owner
      · exact absurd (if_neg fun both => chosen (of_decide_eq_true both.1)) changed
  obtain ⟨change, uses, own, same⟩ := spends
  simp only [concludeTokens]
  split
  · refine ⟨_, uses.comp (useTokens_uses (fun row => row.userId = flow.owner ∧ row.purpose = .passwordReset)
      values.now), fun row there changed => ?_, ?_⟩
    · by_contra foreign
      have kept : change row = row := by
        by_contra moved
        exact foreign (own row there moved)
      rw [Function.comp_apply, kept] at changed
      exact changed (if_neg fun both => foreign (of_decide_eq_true both.1).1)
    · rw [← List.map_map, ← same]
      rfl
  · exact ⟨change, uses, own, same⟩

theorem concludeTokens_congr (same : db.tokens = db'.tokens) :
    (concludeTokens db flow values).tokens = (concludeTokens db' flow values).tokens := by
  have spent : (useToken db flow.token values.now).tokens = (useToken db' flow.token values.now).tokens := by
    cases flow.token with
    | none => exact same
    | some token =>
      simp only [useToken, Database.useTokens]
      rw [same]
  simp only [concludeTokens]
  split
  · simp only [Database.useTokens]
    rw [spent]
  · exact spent

theorem conclude_tokens : (conclude settings db flow factor values).tokens =
    (concludeTokens db flow values).tokens := by
  apply concludeTokens_congr
  rw [concludeCodes_tables.2.1, concludeSessions_tables.2.1]
  rfl

/-- The rows that a newer link leaves, and the link. -/
theorem createAccountToken_changed {user : UUID} {purpose : Purpose} {tokenHash : String}
    (covered : ∀ row ∈ db.tokens, row.userId = user → phase.Holds (.user user))
    (fresh : ∀ row ∈ db.tokens, row.tokenHash ≠ tokenHash) {accounts : List User}
    (owner : ∃ account ∈ accounts, account.id = user) :
    TokensChanged db accounts phase (createAccountToken db user purpose tokenHash now).tokens := by
  rw [createAccountToken_tokens]
  refine .issued _ _ (useTokens_uses (fun row => row.userId = user ∧ row.purpose = purpose) now)
    (fun row member changed => ?_) (fun row own kind unused => ?_) fresh owner
  · by_cases chosen : row.userId = user
    · rw [chosen]
      exact covered row member chosen
    · exact absurd (if_neg fun both => chosen (of_decide_eq_true both.1).1) changed
  · have kept := (useTokens_uses (fun row => row.userId = user ∧ row.purpose = purpose) now).unused unused
    rw [kept] at unused
    rw [if_pos ⟨decide_eq_true ⟨own, kind⟩, unused⟩] at kept
    rw [← kept] at unused
    contradiction

theorem unchanged {accounts : List User} : TokensChanged db accounts phase db.tokens := by
  have same : TokensChanged db accounts phase (db.tokens.map id) :=
    .used id (fun _ => .inl rfl) fun _ _ changed => absurd rfl changed
  rwa [List.map_id] at same

theorem written_tokens (keyed : TokensKeyed db) (knows : KnowsToken db phase)
    (written : Written settings db phase event db') : TokensChanged db db'.users phase db'.tokens := by
  cases written with
  | nothing | refreshed | closed => exact unchanged
  | registered id email passwordDigest tokenHash now user token =>
    refine createAccountToken_changed (fun row member own => ?_) token
      ⟨_, List.mem_append_right _ List.mem_cons_self, rfl⟩
    obtain ⟨owner, there, same⟩ := keyed.owners row member
    exact absurd (same.trans own) (user owner there)
  | issued user purpose tokenHash now token =>
    have holds : (Phase.issuing user purpose).Holds (.user user.id) := rfl
    exact createAccountToken_changed (fun _ _ _ => holds) token knows
  | concluded flow factor revoking values admitted covered =>
    obtain ⟨change, uses, own, same⟩ := @concludeTokens_uses db flow values keyed knows
    rw [conclude_tokens, same]
    exact .used change uses fun row member changed => .inl (congrArg LockKey.user (own row member changed))
  | declined owner token now =>
    cases token with
    | none => exact unchanged
    | some token =>
      obtain ⟨member, _, same⟩ := knows
      refine .used _ (useTokens_uses (·.tokenHash = token.tokenHash) now) fun row there changed => ?_
      by_cases chosen : row.tokenHash = token.tokenHash
      · rw [List.inj_on_of_nodup_map keyed.hashes there member chosen]
        exact congrArg LockKey.user same
      · exact absurd (if_neg fun both => chosen (of_decide_eq_true both.1)) changed

theorem mapped_row {change : AccountToken → AccountToken} (uses : Uses change) {rows : List AccountToken}
    {row : AccountToken} (member : row ∈ rows) :
    ∃ row' ∈ rows.map change, row'.tokenHash = row.tokenHash ∧ row'.userId = row.userId :=
  ⟨change row, List.mem_map_of_mem member, (uses.key row).1, (uses.key row).2.1⟩

/-- No token is deleted. -/
theorem token_kept (changed : TokensChanged db db'.users phase db'.tokens) {row : AccountToken}
    (member : row ∈ db.tokens) :
    ∃ row' ∈ db'.tokens, row'.tokenHash = row.tokenHash ∧ row'.userId = row.userId := by
  revert changed
  generalize db'.tokens = rows
  intro changed
  cases changed with
  | used change uses => exact mapped_row uses member
  | issued new change uses =>
    obtain ⟨row', there, same⟩ := mapped_row uses member
    exact ⟨row', List.mem_append_left _ there, same⟩

/-- A token of a user that another session has locked is left alone. -/
theorem token_others (changed : TokensChanged db db'.users phase db'.tokens) (apart : locks.Apart phase m)
    {row : AccountToken} (holds : m.Holds (.user row.userId)) (member : row ∈ db.tokens) :
    row ∈ db'.tokens := by
  have conflict : ¬ phase.Holds (.user row.userId) := fun mine => ((apart _).1 mine).1 holds
  revert changed
  generalize db'.tokens = rows
  intro changed
  cases changed with
  | used change uses covered =>
    have spared : change row = row := by
      by_contra moved
      exact conflict (covered row member moved)
    exact List.mem_map.mpr ⟨row, member, spared⟩
  | issued new change uses covered =>
    have spared : change row = row := by
      by_contra moved
      exact conflict (covered row member moved)
    exact List.mem_append_left _ (List.mem_map.mpr ⟨row, member, spared⟩)

theorem conclude_users : (conclude settings db flow factor values).users =
    (db.setUser flow.owner (User.flush flow.user.loaded (flow.assign factor values))).users := by
  rw [conclude, concludeTokens_tables.1, concludeCodes_tables.1, concludeSessions_tables.1]

/-- No user is deleted. -/
theorem user_kept (written : Written settings db phase event db') {id : UUID}
    (exists' : ∃ user ∈ db.users, user.id = id) : ∃ user ∈ db'.users, user.id = id := by
  obtain ⟨user, member, rfl⟩ := exists'
  cases written with
  | nothing | issued | refreshed | closed => exact ⟨user, member, rfl⟩
  | registered => exact ⟨user, List.mem_append_left _ member, rfl⟩
  | concluded flow factor revoking values admitted covered =>
    rw [conclude_users]
    refine ⟨_, List.mem_map_of_mem member, ?_⟩
    split <;> rfl
  | declined owner token now =>
    rw [(useToken_tables token now).1]
    exact ⟨user, member, rfl⟩

theorem outstanding_map {change : AccountToken → AccountToken} (uses : Uses change)
    (rows : List AccountToken) (user : UUID) (purpose : Purpose) :
    ((rows.map change).filter fun row => row.userId = user ∧ row.purpose = purpose ∧ row.usedAt = none).length ≤
      (rows.filter fun row => row.userId = user ∧ row.purpose = purpose ∧ row.usedAt = none).length := by
  rw [List.filter_map, List.length_map]
  refine List.Sublist.length_le (List.monotone_filter_right rows fun row left => ?_)
  have left := of_decide_eq_true left
  have same := uses.unused left.2.2
  rw [same] at left
  exact decide_eq_true left

theorem tokens_outstanding (keyed : TokensKeyed db) (changed : TokensChanged db db'.users phase db'.tokens)
    (user : UUID) (purpose : Purpose) : (db'.outstanding user purpose).length ≤ 1 := by
  have before := keyed.outstanding user purpose
  unfold Database.outstanding at before ⊢
  revert changed
  generalize db'.tokens = rows
  intro changed
  cases changed with
  | used change uses => exact Nat.le_trans (outstanding_map uses db.tokens user purpose) before
  | issued new change uses covered supersedes =>
    rw [List.filter_append, List.length_append]
    by_cases own : new.userId = user ∧ new.purpose = purpose
    · have gone : ((db.tokens.map change).filter fun row =>
          row.userId = user ∧ row.purpose = purpose ∧ row.usedAt = none) = [] := by
        rw [List.filter_eq_nil_iff]
        intro row member left
        obtain ⟨old, there, rfl⟩ := List.mem_map.mp member
        obtain ⟨sameUser, samePurpose, unused⟩ := of_decide_eq_true left
        rw [(uses.key old).2.1] at sameUser
        rw [(uses.key old).2.2] at samePurpose
        exact supersedes old (sameUser.trans own.1.symm) (samePurpose.trans own.2.symm) unused
      rw [gone, List.length_nil, Nat.zero_add]
      exact List.length_filter_le _ [new]
    · have foreign : ([new].filter fun row =>
          row.userId = user ∧ row.purpose = purpose ∧ row.usedAt = none) = [] := by
        rw [List.filter_eq_nil_iff]
        intro row member left
        obtain ⟨sameUser, samePurpose, _⟩ := of_decide_eq_true left
        rw [List.mem_singleton.mp member] at sameUser samePurpose
        exact own ⟨sameUser, samePurpose⟩
      rw [foreign, List.length_nil, Nat.add_zero]
      exact Nat.le_trans (outstanding_map uses db.tokens user purpose) before

theorem tokens_hashes (keyed : TokensKeyed db) (changed : TokensChanged db db'.users phase db'.tokens) :
    (db'.tokens.map (·.tokenHash)).Nodup := by
  have mapped : ∀ change : AccountToken → AccountToken, Uses change →
      (db.tokens.map change).map (·.tokenHash) = db.tokens.map (·.tokenHash) := by
    intro change uses
    rw [List.map_map]
    exact List.map_congr_left fun row _ => (uses.key row).1
  revert changed
  generalize db'.tokens = rows
  intro changed
  cases changed with
  | used change uses =>
    rw [mapped change uses]
    exact keyed.hashes
  | issued new change uses covered supersedes fresh =>
    rw [List.map_append, mapped change uses, List.map_singleton, List.nodup_append]
    refine ⟨keyed.hashes, List.nodup_singleton _, fun hash member last added => ?_⟩
    obtain ⟨row, there, rfl⟩ := List.mem_map.mp member
    rw [List.mem_singleton.mp added]
    exact fresh row there

theorem tokens_keyed (keyed : TokensKeyed db) (knows : KnowsToken db phase)
    (written : Written settings db phase event db') : TokensKeyed db' := by
  have changed := written_tokens keyed knows written
  refine ⟨tokens_hashes keyed changed, fun row member => ?_, tokens_outstanding keyed changed⟩
  have mapped : ∀ change, Uses change → row ∈ db.tokens.map change →
      ∃ user ∈ db'.users, user.id = row.userId := by
    intro change uses among
    obtain ⟨before, there, rfl⟩ := List.mem_map.mp among
    rw [(uses.key before).2.1]
    exact user_kept written (keyed.owners before there)
  generalize db'.tokens = rows at changed member
  cases changed with
  | used change uses => exact mapped change uses member
  | issued new change uses _ _ _ owner =>
    rcases List.mem_append.mp member with before | last
    · exact mapped change uses before
    · rw [List.mem_singleton.mp last]
      exact owner

theorem redeems_others (changed : TokensChanged db db'.users phase db'.tokens) (apart : locks.Apart phase m)
    (holds : m.Holds (.user flow.owner)) (redeems : flow.Redeems db) : flow.Redeems db' := by
  unfold Flow.Redeems at redeems ⊢
  split
  · rename_i absent
    rw [absent] at redeems
    exact redeems
  · rename_i token present
    rw [present] at redeems
    obtain ⟨purpose, member, unused, owner⟩ := redeems
    exact ⟨purpose, token_others changed apart (owner ▸ holds) member, unused, owner⟩

theorem knowsToken_others (keyed : TokensKeyed db) (known : KnowsToken db phase)
    (written : Written settings db phase event db') (apart : locks.Apart phase m)
    (knows : KnowsToken db m) : KnowsToken db' m := by
  have changed := written_tokens keyed known written
  cases m with
  | authenticated request user session => exact knows
  | presented request tokenHash owner | redeeming request tokenHash owner =>
    obtain ⟨row, member, rfl, rfl⟩ := knows
    exact token_kept changed member
  | locked flow | proving flow => exact redeems_others changed apart rfl knows
  | approved flow factor revoking => exact redeems_others changed apart (.inl rfl) knows
  | rejected owner token =>
    cases token with
    | none => trivial
    | some token =>
      obtain ⟨member, unused, rfl⟩ := knows
      exact ⟨token_others changed apart rfl member, unused, rfl⟩
  | issuing user purpose => exact user_kept written knows
  | _ => trivial

/-- An endpoint behind `current_auth` redeems no token. -/
theorem Request.purpose_authenticated {request : Request} (kind : request.authenticated = true) :
    request.purpose = none := by
  cases request <;> first | rfl | contradiction

theorem program_knowsToken (keyed : TokensKeyed db) (knows : KnowsToken db phase)
    (chosen : program crypto settings db phase action = some outcome) : KnowsToken db outcome.arrival := by
  have arrives := program_arrives chosen
  revert arrives
  generalize outcome.arrival = next
  intro arrives
  cases arrives with
  | authenticated userId sessionId now request user session kind => exact kind
  | login => rfl
  | issuing email purpose row member => exact ⟨row, member, rfl⟩
  | presented raw request token member => exact ⟨token, member, rfl, rfl⟩
  | redeeming => exact knows
  | locked request user session row => exact Request.purpose_authenticated knows
  | redeemed request owner token row now member purpose unused
  | transacted request owner token row now member purpose unused =>
    obtain ⟨issued, there, same, own⟩ := knows
    have itself := List.inj_on_of_nodup_map keyed.hashes member there same.symm
    exact ⟨purpose, member, unused, itself ▸ own⟩
  | burned request owner token now member unused =>
    obtain ⟨issued, there, same, own⟩ := knows
    have itself := List.inj_on_of_nodup_map keyed.hashes member there same.symm
    exact ⟨member, unused, itself ▸ own⟩
  | rejected flow | unproved flow =>
    obtain ⟨request, owner, user, session, token⟩ := flow
    cases token with
    | none => trivial
    | some token => exact knows.2
  | passed | recent | setup | confirmed | revoking => exact knows
  | proved flow now user factor proof => exact knows
  | idle | refreshing | closing => trivial

theorem unused_useTokens {chosen : AccountToken → Bool} {row : AccountToken}
    (member : row ∈ (db.useTokens chosen now).tokens) (unused : row.usedAt = none) :
    row ∈ db.tokens ∧ chosen row = false := by
  obtain ⟨before, there, rfl⟩ := List.mem_map.mp member
  have kept := (useTokens_uses chosen now).unused unused
  rw [kept] at unused ⊢
  refine ⟨there, eq_false_of_ne_true fun selected => ?_⟩
  rw [if_pos ⟨selected, unused⟩] at kept
  rw [← kept] at unused
  contradiction

theorem known_spend {token : AccountToken} (known : Known db.tokens ledger) :
    Known (db.useTokens (·.tokenHash = token.tokenHash) now).tokens (ledger.spend token.tokenHash) := by
  intro row member unused
  obtain ⟨there, spared⟩ := unused_useTokens member unused
  exact (Function.update_of_ne (of_decide_eq_false spared) ..).trans (known row there unused)

theorem known_retire {user : UUID} {purpose : Purpose} {standing : Standing} (known : Known db.tokens ledger) :
    Known (db.useTokens (fun row => row.userId = user ∧ row.purpose = purpose) now).tokens
      (ledger.retire user purpose standing) := by
  intro row member unused
  obtain ⟨there, spared⟩ := unused_useTokens member unused
  rw [TokenLedger.retire, known row there unused, Option.map_some,
    if_neg fun both => of_decide_eq_false spared ⟨both.1, both.2.1⟩]

theorem known_issue {user : UUID} {purpose : Purpose} {tokenHash : String} (known : Known db.tokens ledger)
    (fresh : ∀ row ∈ db.tokens, row.tokenHash ≠ tokenHash) :
    Known (createAccountToken db user purpose tokenHash now).tokens
      (ledger.issue user purpose tokenHash now) := by
  intro row member unused
  rw [createAccountToken_tokens] at member
  rcases List.mem_append.mp member with before | last
  · have other : row.tokenHash ≠ tokenHash := fresh row (unused_useTokens before unused).1
    exact (Function.update_of_ne other ..).trans (known_retire known row before unused)
  · rw [List.mem_singleton.mp last]
    exact Function.update_self ..

theorem known_useToken {token : Option AccountToken} (known : Known db.tokens ledger) :
    Known (useToken db token now).tokens (token.elim ledger fun token => ledger.spend token.tokenHash) := by
  cases token with
  | none => exact known
  | some token => exact known_spend known

/-- Step lemma of the ledger. -/
theorem written_known (known : Known db.tokens ledger) (written : Written settings db phase event db') :
    Known db'.tokens (ledger.after event) := by
  cases written with
  | nothing | refreshed | closed => exact known
  | registered id email passwordDigest tokenHash now user token => exact known_issue known token
  | issued user purpose tokenHash now token => exact known_issue known token
  | concluded flow factor revoking values admitted covered =>
    rw [conclude_tokens]
    have spent : Known (useToken db flow.token values.now).tokens
      (flow.token.elim ledger fun token => ledger.spend token.tokenHash) := known_useToken known
    obtain ⟨request, owner, user, session, token⟩ := flow
    cases request with
    | resetPassword => exact known_retire spent
    | _ => exact spent
  | declined owner token now => exact known_useToken known

theorem Flow.Redeems.redeemable (known : Known db.tokens ledger) {token : AccountToken}
    (redeems : flow.Redeems db) (present : flow.token = some token) :
    ∃ issue, Redeemable ledger flow token.tokenHash issue := by
  unfold Flow.Redeems at redeems
  rw [present] at redeems
  obtain ⟨purpose, member, unused, owner⟩ := redeems
  exact ⟨_, known token member unused, rfl, purpose, owner⟩

theorem program_accepts (keyed : TokensKeyed db) (knows : KnowsToken db phase) (known : Known db.tokens ledger)
    (chosen : program crypto settings db phase action = some outcome) :
    Accepts ledger phase action outcome.arrival := by
  have knows' := program_knowsToken keyed knows chosen
  have arrives := program_arrives chosen
  generalize outcome.arrival = next at knows' arrives ⊢
  rintro request tokenHash owner now flow rfl rfl accepted
  cases arrives with
  | idle => contradiction
  | closing => contradiction
  | redeemed request owner token row now member purpose unused found lifetime
  | transacted request owner token row now member purpose unused found lifetime =>
    cases accepted
    obtain ⟨_, _, _, own⟩ := knows'
    exact ⟨rfl, rfl, _, ⟨known token member unused, rfl, purpose, own⟩, lifetime⟩
  | burned => contradiction

theorem written_consumes (knows : KnowsToken db phase) (known : Known db.tokens ledger)
    (written : Written settings db phase event db') : Consumes ledger event := by
  cases written with
  | concluded flow factor revoking values admitted covered =>
    intro redeeming
    cases present : flow.token with
    | none =>
      have quiet : flow.Redeems db := knows
      unfold Flow.Redeems at quiet
      rw [present] at quiet
      rw [quiet] at redeeming
      contradiction
    | some token =>
      obtain ⟨issue, redeemable⟩ := Flow.Redeems.redeemable known knows present
      exact ⟨token, issue, rfl, redeemable⟩
  | declined owner token now =>
    cases token with
    | none => trivial
    | some token =>
      obtain ⟨member, unused, own⟩ := knows
      exact ⟨_, known token member unused, rfl, own⟩
  | _ => trivial

structure Ledger where
  tokens : TokenLedger
  sessions : SessionLedger

def Ledger.empty : Ledger := ⟨fun _ => none, .empty⟩

def ledgerAfter (s : Service) (label : Nat × Action) (_ : Service) (ledger : Ledger) : Ledger :=
  let event := eventOf s.shared (s.locals label.1) label.2
  ⟨ledger.tokens.after event, ledger.sessions.after s.shared event⟩

abbrev ledgerStep (crypto : Crypto) (settings : Settings) :
    Service × Ledger → Nat × Action → Option (Service × Ledger) :=
  noted (step crypto settings) ledgerAfter

/-- What a step does with the tokens that it finds. -/
structure Honours (ledger : Ledger) (s t : Service) (label : Nat × Action) : Prop where
  outstanding : ∀ user purpose, (t.shared.outstanding user purpose).length ≤ 1
  accepts : Accepts ledger.tokens (s.locals label.1) label.2 (t.locals label.1)
  consumes : Consumes ledger.tokens (eventOf s.shared (s.locals label.1) label.2)
  exchanges : Exchanges ledger.sessions (eventOf s.shared (s.locals label.1) label.2)

def Keyed (db : Database) : Prop := TokensKeyed db ∧ SessionsKeyed db

def Knows (db : Database) (phase : Phase) : Prop := KnowsToken db phase ∧ KnowsSession db phase

/-- The invariant: the requests know what they hold, and the ledger knows the rows. -/
structure Audited (s : Service × Ledger) : Prop where
  guarded : Guarded locks Keyed Knows s.1
  known : Known s.1.shared.tokens s.2.tokens
  recorded : SessionsRecorded s.1.shared s.2.sessions

theorem written_exchanges {ledger : SessionLedger} (recorded : SessionsRecorded db ledger)
    (knows : KnowsSession db phase) (written : Written settings db phase event db') :
    Exchanges ledger event := by
  cases written with
  | refreshed session refreshTokenHash fresh =>
    obtain ⟨row, member, id, token, live⟩ := knows
    refine ⟨token ▸ recorded.current row member, fun gone => ?_⟩
    exact recorded.revoked row member (id ▸ gone) live
  | _ => trivial

theorem knows_kept (keyed : Keyed db) (knows : Knows db phase)
    (chosen : program crypto settings db phase action = some outcome) :
    Knows (outcome.result db) outcome.arrival := by
  rcases program_settled chosen with same | ended
  · rw [same]
    exact ⟨program_knowsToken keyed.1 knows.1 chosen, program_knowsSession chosen⟩
  · rw [ended]
    exact ⟨trivial, trivial⟩

theorem step_guarded {s t : Service} {label : Nat × Action} (guarded : Guarded locks Keyed Knows s)
    (stepped : step crypto settings s label = some t) : Guarded locks Keyed Knows t := by
  have keyed := guarded.global
  have knows := guarded.session label.1
  apply guarded.step stepped
  intro outcome chosen
  have written := program_written chosen
  have changed := written_sessions written
  refine ⟨program_keeps chosen, ⟨tokens_keyed keyed.1 knows.1 written, sessions_keyed keyed.2 changed⟩,
    knows_kept keyed knows chosen, fun m apart other => ?_⟩
  exact ⟨knowsToken_others keyed.1 knows.1 written apart other.1, knowsSession_others changed apart other.2⟩

theorem step_audited {s t : Service × Ledger} {label : Nat × Action} (audited : Audited s)
    (stepped : ledgerStep crypto settings s label = some t) : Audited t := by
  obtain ⟨moved, history⟩ := noted_iff.mp stepped
  obtain ⟨outcome, chosen, acted⟩ := Option.bind_eq_some_iff.mp moved
  have written := program_written chosen
  refine ⟨step_guarded audited.guarded moved, ?_, ?_⟩
  · rw [history, Store.act_shared acted]
    exact written_known audited.known written
  · rw [history, Store.act_shared acted]
    exact sessions_recorded audited.guarded.global.2 audited.recorded
      (audited.guarded.session label.1).2 (written_sessions written)

theorem step_honours {s t : Service × Ledger} {label : Nat × Action} (audited : Audited s)
    (stepped : ledgerStep crypto settings s label = some t) : Honours s.2 s.1 t.1 label := by
  have after := step_audited audited stepped
  obtain ⟨moved, _⟩ := noted_iff.mp stepped
  obtain ⟨outcome, chosen, acted⟩ := Option.bind_eq_some_iff.mp moved
  have written := program_written chosen
  have keyed := audited.guarded.global
  have knows := audited.guarded.session label.1
  have arrival : t.1.locals label.1 = outcome.arrival := by
    rw [Store.act_locals acted, Function.update_self]
  refine ⟨after.guarded.global.1.outstanding, ?_, written_consumes knows.1 audited.known written,
    written_exchanges audited.recorded knows.2 written⟩
  rw [arrival]
  exact program_accepts keyed.1 knows.1 audited.known chosen

/-- In every run from empty tables of tokens and sessions, an account has at most one unused
link of a purpose after every step; a link is accepted within its lifetime, for its purpose
and its user, and used up by a commit, only if it has been neither used nor superseded nor
retired by a password reset; and a refresh token is exchanged only once, for a session that
has not been revoked. -/
theorem links_are_used_once (crypto : Crypto) (settings : Settings) (db : Database)
    (labels : List (Nat × Action)) :
    Along (ledgerStep crypto settings)
      (fun s label => ∀ t, ledgerStep crypto settings s label = some t → Honours s.2 s.1 t.1 label)
      (start { db with tokens := [], sessions := [] }, Ledger.empty) labels := by
  have initial : Audited (start { db with tokens := [], sessions := [] }, Ledger.empty) := by
    refine ⟨Guarded.idle ⟨⟨List.nodup_nil, nofun, fun _ _ => Nat.zero_le 1⟩, List.nodup_nil, List.nodup_nil⟩
      ⟨trivial, trivial⟩ (fun _ never => never) fun _ never => never, nofun, nofun, nofun, nofun⟩
  refine along_of_invariant (C := fun _ _ => True) ?_ ?_ initial (along_true _ _)
  · exact fun _ _ _ audited _ stepped => step_audited audited stepped
  · exact fun _ _ audited _ _ stepped => step_honours audited stepped

end Drivebound.Auth
