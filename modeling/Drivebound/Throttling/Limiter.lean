import Drivebound.Core.Windows
import Mathlib

/-! `enforce_rate_limit` and `reset_rate_limit` of `services/accounts.py`. Whatever requests come in whatever
order, a source and an account get so many attempts in any window, and nobody is refused without them. -/
namespace Drivebound.Throttling
open Run Windows

/-- `ip_address` with the networks of the proxies, and the functions on texts. -/
structure Functions (α : Type*) where
  ipAddress : String → Option α
  str : α → String
  trustedProxyNetworks : List (α → Bool)
  sha256 : String → String
  lower : String → String
  strip : String → String

structure Settings where
  jwtSecret : String
  authRateLimitAttempts : Nat
  authRateLimitWindowSeconds : Nat
  /-- `remote_access_enabled or production_like` -/
  exposed : Bool

structure Request where
  peer : Option String
  forwardedFor : Option String
  deriving DecidableEq, Repr

structure Refusal where
  status : Nat
  detail : String
  retryAfter : Nat
  deriving DecidableEq, Repr

/-- Where the call of the script may end. -/
inductive Reply where
  | answered
  /-- The script ran, its answer is lost. -/
  | lost
  | unreachable
  deriving DecidableEq, Repr

/-- The keys of Redis, and its clock in milliseconds. -/
structure State where
  clock : Nat
  keys : String → Option Counter

inductive Action where
  | tick (milliseconds : Nat)
  | enforce (request : Request) (identity : Option String) (reply : Reply)
  | reset (request : Request) (identity : Option String) (reached : Bool)
  deriving DecidableEq, Repr

section Model
variable {α : Type*} (functions : Functions α) (settings : Settings)

def trustedPeer (peer : String) : Bool :=
  (functions.ipAddress peer).any fun address => functions.trustedProxyNetworks.any (· address)

/-- `forwarded.split(",", 1)[0].strip() if forwarded else ""` -/
def candidate (forwarded : Option String) : String :=
  (forwarded.filter (· ≠ "")).elim "" fun text => functions.strip (String.ofList (text.toList.takeWhile (· ≠ ',')))

/-- The address of `request_context`. -/
def clientIp (request : Request) : Option String :=
  request.peer.map fun peer =>
    if trustedPeer functions peer then
      let candidate := candidate functions request.forwardedFor
      if candidate = "" then peer else ((functions.ipAddress candidate).map functions.str).getD peer
    else peer

/-- An address in an f-string. -/
def spelled (ip : Option String) : String := ip.getD "None"

def key (fingerprint : String) : String := "auth-rate:" ++ functions.sha256 fingerprint

def sourceKey (ip : Option String) : String := key functions (settings.jwtSecret ++ ":ip:" ++ spelled ip)

def pairKey (identity : String) (ip : Option String) : String :=
  key functions (settings.jwtSecret ++ ":pair:" ++ (functions.lower identity ++ ":" ++ spelled ip))

def identityKey (identity : String) : String :=
  key functions (settings.jwtSecret ++ ":identity:" ++ functions.lower identity)

def fingerprints (request : Request) : Option String → List String
  | none => [sourceKey functions settings (clientIp functions request)]
  | some identity => [pairKey functions settings identity (clientIp functions request),
      identityKey functions settings identity, sourceKey functions settings (clientIp functions request)]

/-- The script: one key after the other. -/
def script (span now : Nat) : (String → Option Counter) → List String → (String → Option Counter) × List Nat
  | keys, [] => (keys, [])
  | keys, key :: rest =>
    let counter := hit span now (keys key)
    let (keys, counts) := script span now (Function.update keys key (some counter)) rest
    (keys, counter.count :: counts)

def Settings.span (settings : Settings) : Nat := settings.authRateLimitWindowSeconds * 1000

def exceeded (counts : List Nat) : Option String → Bool
  | none => settings.authRateLimitAttempts * 10 < counts.getD 0 0
  | some _ => settings.authRateLimitAttempts < counts.getD 0 0 || settings.authRateLimitAttempts < counts.getD 1 0 ||
    settings.authRateLimitAttempts * 10 < counts.getD 2 0

def enforceRateLimit (s : State) (request : Request) (identity : Option String) :
    Reply → Except Refusal Unit × State
  | .unreachable => (unavailable, s)
  | .lost => (unavailable, { s with keys := counted.1 })
  | .answered =>
    (if exceeded settings counted.2 identity then
      .error ⟨429, "Too many attempts. Please wait and try again.", settings.authRateLimitWindowSeconds⟩
    else .ok (), { s with keys := counted.1 })
where
  counted := script settings.span s.clock s.keys (fingerprints functions settings request identity)
  unavailable := if settings.exposed then
      .error ⟨503, "Authentication protection is temporarily unavailable. Please try again.", 30⟩
    else .ok ()

def resetRateLimit (s : State) (request : Request) : Option String → State
  | none => s
  | some identity =>
    { s with
      keys := Function.update (Function.update s.keys
        (pairKey functions settings identity (clientIp functions request)) none)
        (identityKey functions settings identity) none }

def step (s : State) : Action → Option State
  | .tick milliseconds => some { s with clock := s.clock + milliseconds }
  | .enforce request identity reply => some (enforceRateLimit functions settings s request identity reply).2
  | .reset request identity reached => some (if reached then resetRateLimit functions settings s request identity else s)

/-- The attempt is let through. -/
def Lets (request : Request) (identity : Option String) (reply : Reply) (s : State) : Prop :=
  (enforceRateLimit functions settings s request identity reply).1 = .ok ()

instance (request : Request) (identity : Option String) (reply : Reply) (s : State) :
    Decidable (Lets functions settings request identity reply s) := inferInstanceAs (Decidable (_ = _))

end Model

variable {α : Type*} {functions : Functions α} {settings : Settings} {s t : State} {request : Request}
  {identity : Option String} {reply : Reply} {ip : Option String} {name other : String} {labels : List Action}

/-! ### Keys -/

theorem key_inj (injective : Function.Injective functions.sha256) {one two : String}
    (same : key functions one = key functions two) : one = two := by
  refine injective ?_
  simpa only [key, String.append_right_inj] using same

theorem source_ne_pair (injective : Function.Injective functions.sha256) :
    sourceKey functions settings ip ≠ pairKey functions settings name ip' := by
  intro same
  have texts := congrArg String.toList (key_inj injective same)
  simp [String.append_assoc, String.toList_append] at texts

theorem source_ne_identity (injective : Function.Injective functions.sha256) :
    sourceKey functions settings ip ≠ identityKey functions settings name := by
  intro same
  have texts := congrArg String.toList (key_inj injective same)
  simp [String.append_assoc, String.toList_append] at texts

theorem pair_ne_identity (injective : Function.Injective functions.sha256) :
    pairKey functions settings name ip ≠ identityKey functions settings other := by
  intro same
  have texts := congrArg String.toList (key_inj injective same)
  simp [String.append_assoc, String.toList_append] at texts

theorem identityKey_inj (injective : Function.Injective functions.sha256)
    (same : identityKey functions settings name = identityKey functions settings other) :
    functions.lower name = functions.lower other := by
  simpa only [String.append_right_inj] using key_inj injective same

theorem fingerprints_nodup (injective : Function.Injective functions.sha256) :
    (fingerprints functions settings request identity).Nodup := by
  cases identity with
  | none => exact List.nodup_singleton _
  | some name =>
    have first := @pair_ne_identity α functions settings (clientIp functions request) name name injective
    have second := (@source_ne_pair α functions settings (clientIp functions request) name
      (clientIp functions request) injective).symm
    have third := (@source_ne_identity α functions settings (clientIp functions request) name injective).symm
    simp [fingerprints, first, second, third]

/-! ### The script -/

/-- A script with every key once hits the counter of each, and tells its count. -/
theorem script_keys {span now : Nat} {keys : String → Option Counter} {among : List String} (once : among.Nodup) :
    (∀ key, (script span now keys among).1 key = if key ∈ among then some (hit span now (keys key)) else keys key) ∧
      (script span now keys among).2 = among.map fun key => (hit span now (keys key)).count := by
  induction among generalizing keys with
  | nil => exact ⟨fun key => rfl, rfl⟩
  | cons first rest ih =>
    obtain ⟨fresh, once⟩ := List.nodup_cons.mp once
    obtain ⟨after, counts⟩ := @ih (Function.update keys first (some (hit span now (keys first)))) once
    refine ⟨fun key => ?_, ?_⟩
    · simp only [script, after]
      by_cases same : key = first
      · subst same
        simp [fresh]
      · simp [same]
    · simp only [script, counts, List.map_cons, List.cons.injEq, true_and]
      refine List.map_congr_left fun key member => ?_
      have different : key ≠ first := fun same => fresh (same ▸ member)
      rw [Function.update_of_ne different]

/-- The counter of a key after an attempt. -/
theorem enforce_key (injective : Function.Injective functions.sha256) (key : String) :
    (enforceRateLimit functions settings s request identity reply).2.keys key =
      if reply ≠ .unreachable ∧ key ∈ fingerprints functions settings request identity then
        some (hit settings.span s.clock (s.keys key)) else s.keys key := by
  have after := (@script_keys settings.span s.clock s.keys _
    (@fingerprints_nodup α functions settings request identity injective)).1 key
  cases reply with
  | unreachable => simp [enforceRateLimit]
  | lost => simpa [enforceRateLimit, enforceRateLimit.counted] using after
  | answered => simpa [enforceRateLimit, enforceRateLimit.counted] using after

theorem enforce_clock : (enforceRateLimit functions settings s request identity reply).2.clock = s.clock := by
  cases reply <;> rfl

theorem step_forward (stepped : step functions settings s action = some t) : s.clock ≤ t.clock := by
  cases action with
  | tick milliseconds =>
    cases stepped
    exact Nat.le_add_right _ _
  | enforce request identity reply =>
    cases stepped
    rw [enforce_clock]
  | reset request identity reached =>
    cases stepped
    cases reached <;> cases identity <;> exact Nat.le_refl _

/-- What a reset drops. -/
def Drops (functions : Functions α) (settings : Settings) (key : String) : Action → Prop
  | .reset request (some name) true =>
    key = pairKey functions settings name (clientIp functions request) ∨ key = identityKey functions settings name
  | _ => False

/-- What an attempt hits. -/
def uses (functions : Functions α) (settings : Settings) (key : String) : Action → Bool
  | .enforce request identity reply => reply ≠ .unreachable && key ∈ fingerprints functions settings request identity
  | _ => false

theorem step_key (injective : Function.Injective functions.sha256) (key : String)
    (stepped : step functions settings s action = some t) :
    t.keys key = s.keys key ∨ Drops functions settings key action ∧ t.keys key = none ∨
      uses functions settings key action ∧ t.keys key = some (hit settings.span s.clock (s.keys key)) := by
  cases action with
  | tick milliseconds =>
    cases stepped
    exact .inl rfl
  | enforce request identity reply =>
    cases stepped
    have after := @enforce_key α functions settings s request identity reply injective key
    split at after
    · next used => exact .inr (.inr ⟨by simpa [uses] using used, after⟩)
    · exact .inl after
  | reset request identity reached =>
    cases stepped
    cases reached with
    | false => exact .inl rfl
    | true =>
      cases identity with
      | none => exact .inl rfl
      | some name =>
        by_cases drops : Drops functions settings key (.reset request (some name) true)
        · refine .inr (.inl ⟨drops, ?_⟩)
          rcases drops with rfl | rfl <;> simp [resetRateLimit, Function.update_apply]
        · obtain ⟨notPair, notIdentity⟩ := not_or.mp drops
          exact .inl (by simp [resetRateLimit, notPair, notIdentity])

theorem step_counts (injective : Function.Injective functions.sha256) (key : String) :
    Counts (step functions settings) State.clock (·.keys key) settings.span
      (fun _ action => ¬Drops functions settings key action) where
  forward _ _ _ _ stepped := step_forward stepped
  moves _ _ _ spared stepped := by
    rcases step_key injective key stepped with same | ⟨drops, -⟩ | ⟨-, hits⟩
    · exact .inl same
    · exact absurd drops spared
    · exact .inr hits

theorem step_earned (injective : Function.Injective functions.sha256) (key : String) :
    Earned (step functions settings) State.clock (·.keys key) settings.span
      (fun _ action => uses functions settings key action) where
  forward _ _ _ stepped := step_forward stepped
  moves _ _ _ stepped := (step_key injective key stepped).imp_right (·.imp_left (·.2))

/-- An exposed deployment lets an attempt through only where the script has answered. -/
theorem lets_counts (injective : Function.Injective functions.sha256) (exposed : settings.exposed = true)
    (lets : Lets functions settings request identity reply s) :
    reply = .answered ∧ exceeded settings ((fingerprints functions settings request identity).map fun key =>
      (hit settings.span s.clock (s.keys key)).count) identity = false := by
  have counts := (@script_keys settings.span s.clock s.keys _
    (@fingerprints_nodup α functions settings request identity injective)).2
  cases reply with
  | unreachable | lost => simp [Lets, enforceRateLimit, enforceRateLimit.unavailable, exposed] at lets
  | answered =>
    refine ⟨rfl, ?_⟩
    simpa [Lets, enforceRateLimit, enforceRateLimit.counted, counts] using lets

/-! ### Budgets -/

/-- An attempt from this address is let through. -/
def letsFrom (functions : Functions α) (settings : Settings) (peer : String) (s : State) : Action → Bool
  | .enforce request identity reply => request.peer = some peer && Lets functions settings request identity reply s
  | _ => false

/-- An attempt on this account is let through. -/
def letsAs (functions : Functions α) (settings : Settings) (name : String) (s : State) : Action → Bool
  | .enforce request (some other) reply =>
    functions.lower other = functions.lower name && Lets functions settings request (some other) reply s
  | _ => false

theorem clientIp_direct {peer : String} (direct : trustedPeer functions peer = false) (own : request.peer = some peer) :
    clientIp functions request = some peer := by
  simp [clientIp, own, direct]

/-- A success gives no address its attempts back. -/
theorem source_kept (injective : Function.Injective functions.sha256) (action : Action) :
    ¬Drops functions settings (sourceKey functions settings ip) action := by
  cases action with
  | tick | enforce => exact fun drops => drops
  | reset request identity reached =>
    cases identity <;> cases reached <;> try exact fun drops => drops
    rintro (same | same)
    · exact source_ne_pair injective same
    · exact source_ne_identity injective same

/-- A digest for each of the three texts. -/
def digests : Equiv.Perm String :=
  Equiv.swap "s:ip:9.9.9.9" "c967c08f387ab63560f51d0664d868137daa94156d541202eb58c2f756608f9c" *
    Equiv.swap "s:identity:login:a" "3829e7d97333075aa2f343574aea65c1cddaacbca07fc1afa37dd6926af4761f" *
    Equiv.swap "s:pair:login:a:9.9.9.9" "fa92b29602695225ee37c482a5cf7226eaacc8751368a5f92b304c811b8348ad"

def oneAddress : Functions String := ⟨some, id, [], digests, id, id⟩

/-- One attempt in a quarter of an hour. -/
def strict : Settings := ⟨"s", 1, 900, true⟩

def direct : Request := ⟨some "9.9.9.9", none⟩

def attempt : Action := .enforce direct (some "login:a") .answered

def fresh : State := ⟨0, fun _ => none⟩

/-- In any window, an address that is no proxy's gets twice ten times the attempts of an account at most, whatever it
sends along and on whatever accounts it tries. -/
theorem source_budget (injective : Function.Injective functions.sha256) (exposed : settings.exposed = true)
    {peer : String} (direct : trustedPeer functions peer = false) (s : State) (labels : List Action) (start : Nat) :
    tally (step functions settings)
        (During State.clock start settings.span fun s action => letsFrom functions settings peer s action) s labels ≤
      2 * (settings.authRateLimitAttempts * 10) := by
  have counts := @step_counts α functions settings injective (sourceKey functions settings (some peer))
  refine tally_during counts ?_ (along_of_forall s fun action _ => source_kept injective action) start
  intro s action t lets stepped
  cases action with
  | tick | reset => cases lets
  | enforce request identity reply =>
    simp only [letsFrom, Bool.and_eq_true, decide_eq_true_eq] at lets
    obtain ⟨own, lets⟩ := lets
    obtain ⟨rfl, enough⟩ := lets_counts injective exposed lets
    have source := clientIp_direct direct own
    have uses : sourceKey functions settings (some peer) ∈ fingerprints functions settings request identity := by
      cases identity <;> simp [fingerprints, source]
    cases stepped
    refine ⟨by simp [enforce_key injective, uses], ?_⟩
    cases identity <;> simp [fingerprints, exceeded, source] at enough
    · exact enough
    · exact enough.2

theorem direct_budget : tally (step oneAddress strict) (During State.clock 0 strict.span fun s action =>
    letsFrom oneAddress strict "9.9.9.9" s action) fresh [attempt, attempt] ≤ 2 * (1 * 10) :=
  source_budget digests.injective rfl rfl fresh [attempt, attempt] 0

/-- The attempts on the account start anew. -/
def Forgives (functions : Functions α) (name : String) : Action → Prop
  | .reset _ (some other) _ => functions.lower other = functions.lower name
  | _ => False

/-- In any window in which nobody gets past the account's check, twice its attempts are let through at most, from
however many addresses. -/
theorem account_budget (injective : Function.Injective functions.sha256) (exposed : settings.exposed = true)
    {name : String} {s : State} {labels : List Action} (unforgiven : ∀ action ∈ labels, ¬Forgives functions name action)
    (start : Nat) :
    tally (step functions settings)
        (During State.clock start settings.span fun s action => letsAs functions settings name s action) s labels ≤
      2 * settings.authRateLimitAttempts := by
  have counts := @step_counts α functions settings injective (identityKey functions settings name)
  refine tally_during counts ?_ (along_of_forall s fun action member drops => unforgiven action member ?_) start
  · intro s action t lets stepped
    cases action with
    | tick | reset => cases lets
    | enforce request identity reply =>
      cases identity with
      | none => cases lets
      | some other =>
        simp only [letsAs, Bool.and_eq_true, decide_eq_true_eq] at lets
        obtain ⟨same, lets⟩ := lets
        obtain ⟨rfl, enough⟩ := lets_counts injective exposed lets
        have own : identityKey functions settings name = identityKey functions settings other := by
          simp [identityKey, same]
        have uses : identityKey functions settings name ∈ fingerprints functions settings request (some other) := by
          simp [fingerprints, own]
        cases stepped
        refine ⟨by simp [enforce_key injective, uses], ?_⟩
        simp [fingerprints, exceeded] at enough
        rw [own]
        exact enough.1.2
  · cases action with
    | tick | enforce => exact drops.elim
    | reset request identity reached =>
      cases identity <;> cases reached <;> try exact drops.elim
      rcases drops with same | same
      · exact absurd same.symm (pair_ne_identity injective)
      · exact (identityKey_inj injective same).symm

theorem login_budget : tally (step oneAddress strict) (During State.clock 0 strict.span fun s action =>
    letsAs oneAddress strict "login:a" s action) fresh [attempt, attempt] ≤ 2 * 1 := by
  refine account_budget digests.injective rfl (fun action member => ?_) 0
  rcases List.mem_pair.mp member with rfl | rfl <;> exact fun forgives => forgives

/-! ### Refusals -/

/-- An attempt that was counted for an address. -/
def countedFrom (functions : Functions α) (ip : Option String) : Action → Bool
  | .enforce request _ reply => reply ≠ .unreachable && spelled (clientIp functions request) = spelled ip
  | _ => false

/-- An attempt that was counted for an account. -/
def countedAs (functions : Functions α) (name : String) : Action → Bool
  | .enforce _ (some other) reply => reply ≠ .unreachable && functions.lower other = functions.lower name
  | _ => false

/-- An attempt that was counted for an account and an address, as they are written together. -/
def countedFor (functions : Functions α) (name : String) (ip : Option String) : Action → Bool
  | .enforce request (some other) reply => reply ≠ .unreachable &&
    functions.lower other ++ ":" ++ spelled (clientIp functions request) = functions.lower name ++ ":" ++ spelled ip
  | _ => false

theorem countedFrom_of_uses (injective : Function.Injective functions.sha256) {action : Action}
    (used : uses functions settings (sourceKey functions settings ip) action = true) : countedFrom functions ip action := by
  cases action with
  | tick | reset => cases used
  | enforce request identity reply =>
    simp only [uses, countedFrom, Bool.and_eq_true, decide_eq_true_eq] at used ⊢
    obtain ⟨counted, among⟩ := used
    refine ⟨counted, ?_⟩
    have source : sourceKey functions settings ip = sourceKey functions settings (clientIp functions request) := by
      cases identity <;> simpa [fingerprints, source_ne_pair injective, source_ne_identity injective] using among
    have texts := key_inj injective source
    simpa only [String.append_right_inj, eq_comm] using texts

theorem countedAs_of_uses (injective : Function.Injective functions.sha256) {action : Action}
    (used : uses functions settings (identityKey functions settings name) action = true) :
    countedAs functions name action := by
  cases action with
  | tick | reset => cases used
  | enforce request identity reply =>
    simp only [uses, Bool.and_eq_true, decide_eq_true_eq] at used
    obtain ⟨counted, among⟩ := used
    cases identity with
    | none => simp [fingerprints, (source_ne_identity injective).symm] at among
    | some other =>
      have own : identityKey functions settings name = identityKey functions settings other := by
        simpa [fingerprints, (source_ne_identity injective).symm, (pair_ne_identity injective).symm] using among
      simp [countedAs, counted, identityKey_inj injective own]

theorem countedFor_of_uses (injective : Function.Injective functions.sha256) {action : Action}
    (used : uses functions settings (pairKey functions settings name ip) action = true) :
    countedFor functions name ip action := by
  cases action with
  | tick | reset => cases used
  | enforce request identity reply =>
    simp only [uses, Bool.and_eq_true, decide_eq_true_eq] at used
    obtain ⟨counted, among⟩ := used
    cases identity with
    | none => simp [fingerprints, (source_ne_pair injective).symm] at among
    | some other =>
      have own : pairKey functions settings name ip = pairKey functions settings other (clientIp functions request) := by
        simpa [fingerprints, (source_ne_pair injective).symm, pair_ne_identity injective] using among
      have texts := key_inj injective own
      have texts : functions.lower name ++ (":" ++ spelled ip) =
          functions.lower other ++ (":" ++ spelled (clientIp functions request)) := by
        simpa only [String.append_assoc, String.append_right_inj] using texts
      simp [countedFor, counted, String.append_assoc, texts]

/-- The attempts of the last window. -/
def recent (functions : Functions α) (settings : Settings) (clock : Nat) (labels : List Action) (now : Nat)
    (counted : Action → Bool) : Nat :=
  tally (step functions settings) (fun t action => counted action ∧ now < t.clock + settings.span)
    ⟨clock, fun _ => none⟩ labels

theorem count_le_recent (injective : Function.Injective functions.sha256) {clock : Nat} {counted : Action → Bool}
    (reached : run (step functions settings) ⟨clock, fun _ => none⟩ labels = some s) {key : String}
    (used : ∀ action, uses functions settings key action = true → counted action = true) :
    (hit settings.span s.clock (s.keys key)).count ≤ recent functions settings clock labels s.clock counted + 1 := by
  have earned := count_earned (@step_earned α functions settings injective key) rfl reached
  refine Nat.le_trans earned (Nat.succ_le_succ (tally_mono ?_ _ labels))
  exact fun t action within => ⟨used action within.1, within.2⟩

/-- Who is refused made so many attempts in the last window, from his address, on the account, or both. -/
theorem refusals_are_earned (injective : Function.Injective functions.sha256) {clock : Nat}
    (reached : run (step functions settings) ⟨clock, fun _ => none⟩ labels = some s)
    (refused : ¬Lets functions settings request identity .answered s) :
    settings.authRateLimitAttempts * 10 ≤
      recent functions settings clock labels s.clock (countedFrom functions (clientIp functions request)) ∨
    ∃ name, identity = some name ∧
      (settings.authRateLimitAttempts ≤ recent functions settings clock labels s.clock (countedAs functions name) ∨
      settings.authRateLimitAttempts ≤ recent functions settings clock labels s.clock
        (countedFor functions name (clientIp functions request))) := by
  have counts := (@script_keys settings.span s.clock s.keys _
    (@fingerprints_nodup α functions settings request identity injective)).2
  have exceeds : exceeded settings ((fingerprints functions settings request identity).map fun key =>
      (hit settings.span s.clock (s.keys key)).count) identity = true := by
    simpa [Lets, enforceRateLimit, enforceRateLimit.counted, counts] using refused
  have source := count_le_recent injective reached fun action =>
    @countedFrom_of_uses α functions settings (clientIp functions request) injective action
  cases identity with
  | none =>
    simp only [fingerprints, exceeded, List.map_cons, List.getD_cons_zero, decide_eq_true_eq] at exceeds
    exact .inl (by omega)
  | some name =>
    have account := count_le_recent injective reached fun action =>
      @countedAs_of_uses α functions settings name injective action
    have both := count_le_recent injective reached fun action =>
      @countedFor_of_uses α functions settings (clientIp functions request) name injective action
    simp only [fingerprints, exceeded, List.map_cons, List.map_nil, List.getD_cons_zero, List.getD_cons_succ,
      Bool.or_eq_true, decide_eq_true_eq] at exceeds
    rcases exceeds with (pair | own) | all
    · exact .inr ⟨name, rfl, .inr (by omega)⟩
    · exact .inr ⟨name, rfl, .inl (by omega)⟩
    · exact .inl (by omega)

theorem second_attempt_is_earned :
    1 * 10 ≤ recent oneAddress strict 0 [attempt] 0 (countedFrom oneAddress (some "9.9.9.9")) ∨
    ∃ name, some "login:a" = some name ∧
      (1 ≤ recent oneAddress strict 0 [attempt] 0 (countedAs oneAddress name) ∨
      1 ≤ recent oneAddress strict 0 [attempt] 0 (countedFor oneAddress name (some "9.9.9.9"))) := by
  have reached : run (step oneAddress strict) fresh [attempt] =
      some (enforceRateLimit oneAddress strict fresh direct (some "login:a") .answered).2 := rfl
  have refused : ¬Lets oneAddress strict direct (some "login:a") .answered
      (enforceRateLimit oneAddress strict fresh direct (some "login:a") .answered).2 := by decide +kernel
  exact refusals_are_earned digests.injective reached refused

end Drivebound.Throttling
