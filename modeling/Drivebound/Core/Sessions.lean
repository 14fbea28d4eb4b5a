import Mathlib.Logic.Function.Basic
import Mathlib.Data.List.Basic
import Drivebound.Core.Run

/-! Sessions over a shared store with row and advisory locks. Every session has
a local state (its program point and what it has cached); a lock is owned by one
session or shared by several, and ending a transaction gives up all of them.
`Sound` is the invariant of such a system: a global part, a part for each
session, and ownership of the locks each program point relies on. The rules
reduce a step to what it does to these parts, where another session is only
interfered with while it holds none of the locks of the one that moves. -/
namespace Drivebound.Sessions

variable {ρ ς κ τ : Type*}

structure Store (ρ ς κ τ : Type*) where
  shared : ρ
  owner : κ → Option τ
  sharers : κ → List τ
  locals : τ → ς

namespace Store

variable [DecidableEq τ]

/-- No session is running and no lock is held. -/
def idle (shared : ρ) (resting : ς) : Store ρ ς κ τ :=
  ⟨shared, fun _ => none, fun _ => [], fun _ => resting⟩

def free (s : Store ρ ς κ τ) (t : τ) (k : κ) : Bool :=
  s.owner k == none || s.owner k == some t

/-- The session moves; nothing shared changes. -/
def stay (s : Store ρ ς κ τ) (t : τ) (l : ς) : Store ρ ς κ τ :=
  { s with locals := Function.update s.locals t l }

/-- The session moves and changes what is shared, keeping its locks. -/
def write (s : Store ρ ς κ τ) (t : τ) (r : ρ) (l : ς) : Store ρ ς κ τ :=
  { s with shared := r, locals := Function.update s.locals t l }

/-- A transaction ends (commit, rollback or crash): its locks are given up. -/
def finish (s : Store ρ ς κ τ) (t : τ) (r : ρ) (l : ς) : Store ρ ς κ τ where
  shared := r
  owner k := if s.owner k = some t then none else s.owner k
  sharers k := (s.sharers k).filter (· != t)
  locals := Function.update s.locals t l

@[simp] theorem stay_shared (s : Store ρ ς κ τ) (t : τ) (l : ς) :
    (s.stay t l).shared = s.shared := rfl

@[simp] theorem write_shared (s : Store ρ ς κ τ) (t : τ) (r : ρ) (l : ς) :
    (s.write t r l).shared = r := rfl

@[simp] theorem finish_shared (s : Store ρ ς κ τ) (t : τ) (r : ρ) (l : ς) :
    (s.finish t r l).shared = r := rfl

variable [DecidableEq κ]

/-- An exclusive lock is granted when nobody else owns or shares it. -/
def lock (s : Store ρ ς κ τ) (t : τ) (k : κ) (l : ς) : Option (Store ρ ς κ τ) :=
  if s.free t k && (s.sharers k).all (· == t) then
    some { s with
      owner := Function.update s.owner k (some t)
      locals := Function.update s.locals t l }
  else none

/-- A shared lock is granted when nobody else owns it. -/
def share (s : Store ρ ς κ τ) (t : τ) (k : κ) (l : ς) : Option (Store ρ ς κ τ) :=
  if s.free t k then
    some { s with
      sharers := Function.update s.sharers k (t :: s.sharers k)
      locals := Function.update s.locals t l }
  else none

theorem lock_shared {s s' : Store ρ ς κ τ} (granted : s.lock t k l = some s') :
    s'.shared = s.shared := by
  unfold lock at granted
  split at granted
  · cases granted
    rfl
  · contradiction

theorem share_shared {s s' : Store ρ ς κ τ} (granted : s.share t k l = some s') :
    s'.shared = s.shared := by
  unfold share at granted
  split at granted
  · cases granted
    rfl
  · contradiction

end Store

/-- What a session does in one step: it goes on, asks for a lock or ends its
transaction. `stay` and `finish` say what becomes of the shared part. -/
inductive Outcome (ρ ς κ : Type*) where
  | stay (shared : ρ) (l : ς)
  | lock (k : κ) (l : ς)
  | share (k : κ) (l : ς)
  | finish (shared : ρ) (l : ς)

/-- A lock that is not free leaves the session waiting. -/
def Store.act [DecidableEq τ] [DecidableEq κ] (s : Store ρ ς κ τ) (t : τ) :
    Outcome ρ ς κ → Option (Store ρ ς κ τ)
  | .stay r l => some (s.write t r l)
  | .lock k l => s.lock t k l
  | .share k l => s.share t k l
  | .finish r l => some (s.finish t r l)

/-- One step of session `t` under a program for all sessions. -/
def Store.step [DecidableEq τ] [DecidableEq κ] {α : Type*}
    (program : ρ → ς → α → Option (Outcome ρ ς κ)) (s : Store ρ ς κ τ) (label : τ × α) :
    Option (Store ρ ς κ τ) :=
  (program s.shared (s.locals label.1) label.2).bind (s.act label.1)

/-- `holding l k` says that the program point `l` relies on lock `k`. -/
structure Sound (holding : ς → κ → Prop) (G : ρ → Prop) (I : ρ → ς → Prop)
    (s : Store ρ ς κ τ) : Prop where
  global : G s.shared
  session : ∀ t, I s.shared (s.locals t)
  owned : ∀ t k, holding (s.locals t) k → s.owner k = some t

/-- What an outcome owes the invariant, for a session at `l` that finds `r`. -/
def Owes (holding : ς → κ → Prop) (G : ρ → Prop) (I : ρ → ς → Prop) (r : ρ) (l : ς) :
    Outcome ρ ς κ → Prop
  | .stay r' l' => G r' ∧ I r' l' ∧ (∀ k, holding l' k → holding l k) ∧
    ∀ m, (∀ k, holding l k → ¬ holding m k) → I r m → I r' m
  | .lock k l' => I r l' ∧ ∀ k', holding l' k' → k' = k ∨ holding l k'
  | .share _ l' => I r l' ∧ ∀ k', holding l' k' → holding l k'
  | .finish r' l' => G r' ∧ I r' l' ∧ (∀ k, ¬ holding l' k) ∧
    ∀ m, (∀ k, holding l k → ¬ holding m k) → I r m → I r' m

/-- A session that asks for nothing shared to change owes its own part only. -/
theorem Owes.quiet {holding : ς → κ → Prop} {G : ρ → Prop} {I : ρ → ς → Prop}
    (global : G r) (arrives : I r l') (kept : ∀ k, holding l' k → holding l k) :
    Owes holding G I r l (.stay r l' : Outcome ρ ς κ) :=
  ⟨global, arrives, kept, fun _ _ held => held⟩

theorem Owes.rollback {holding : ς → κ → Prop} {G : ρ → Prop} {I : ρ → ς → Prop}
    (global : G r) (arrives : I r l') (none : ∀ k, ¬ holding l' k) :
    Owes holding G I r l (.finish r l' : Outcome ρ ς κ) :=
  ⟨global, arrives, none, fun _ _ held => held⟩

namespace Sound

variable {holding : ς → κ → Prop} {G : ρ → Prop} {I : ρ → ς → Prop} {s s' : Store ρ ς κ τ}

theorem exclusive (sound : Sound holding G I s)
    (one : holding (s.locals t) k) (two : holding (s.locals u) k) : t = u :=
  Option.some.inj ((sound.owned t k one).symm.trans (sound.owned u k two))

theorem idle {shared : ρ} {resting : ς} (global : G shared) (session : I shared resting)
    (none : ∀ k, ¬ holding resting k) :
    Sound holding G I (Store.idle shared resting : Store ρ ς κ τ) :=
  ⟨global, fun _ => session, fun _ k held => absurd held (none k)⟩

variable [DecidableEq τ]

/-- Every rule is an instance of this one: the moved session is right where it
arrives, the others are right after the change, and no lock is taken away. -/
theorem move (sound : Sound holding G I s) (t : τ) {owner : κ → Option τ}
    {sharers : κ → List τ} (global : G r) (arrives : I r l)
    (others : ∀ m, (∀ k, holding (s.locals t) k → ¬ holding m k) → I s.shared m → I r m)
    (mine : ∀ k, holding l k → owner k = some t)
    (theirs : ∀ u k, u ≠ t → s.owner k = some u → owner k = some u) :
    Sound holding G I ⟨r, owner, sharers, Function.update s.locals t l⟩ := by
  refine ⟨global, fun u => ?_, fun u k held => ?_⟩
  · by_cases same : u = t
    · subst same
      simpa only [Function.update_self] using arrives
    · simp only [Function.update_of_ne same]
      refine others _ (fun k ownsT ownsU => same ?_) (sound.session u)
      exact (sound.exclusive ownsT ownsU).symm
  · by_cases same : u = t
    · subst same
      exact mine k (by simpa only [Function.update_self] using held)
    · simp only [Function.update_of_ne same] at held
      exact theirs u k same (sound.owned u k held)

theorem stay (sound : Sound holding G I s) (arrives : I s.shared l)
    (kept : ∀ k, holding l k → holding (s.locals t) k) :
    Sound holding G I (s.stay t l) :=
  sound.move t sound.global arrives (fun _ _ h => h)
    (fun k held => sound.owned t k (kept k held)) (fun _ _ _ h => h)

theorem write (sound : Sound holding G I s) (global : G r) (arrives : I r l)
    (kept : ∀ k, holding l k → holding (s.locals t) k)
    (others : ∀ m, (∀ k, holding (s.locals t) k → ¬ holding m k) → I s.shared m → I r m) :
    Sound holding G I (s.write t r l) :=
  sound.move t global arrives others
    (fun k held => sound.owned t k (kept k held)) (fun _ _ _ h => h)

theorem finish (sound : Sound holding G I s) (global : G r) (arrives : I r l)
    (none : ∀ k, ¬ holding l k)
    (others : ∀ m, (∀ k, holding (s.locals t) k → ¬ holding m k) → I s.shared m → I r m) :
    Sound holding G I (s.finish t r l) := by
  refine sound.move t global arrives others (fun k held => absurd held (none k)) ?_
  intro u k different owns
  have other : s.owner k ≠ some t := fun mine =>
    different (Option.some.inj (owns.symm.trans mine))
  simpa only [if_neg other] using owns

/-- Ending a transaction without a change: rollback, refusal or crash. -/
theorem abandon (sound : Sound holding G I s) (arrives : I s.shared l)
    (none : ∀ k, ¬ holding l k) : Sound holding G I (s.finish t s.shared l) :=
  sound.finish sound.global arrives none (fun _ _ h => h)

variable [DecidableEq κ]

theorem lock (sound : Sound holding G I s) (granted : s.lock t k l = some s')
    (arrives : I s.shared l)
    (kept : ∀ k', holding l k' → k' = k ∨ holding (s.locals t) k') :
    Sound holding G I s' := by
  unfold Store.lock at granted
  split at granted
  · rename_i grantable
    cases granted
    simp only [Store.free, Bool.and_eq_true, Bool.or_eq_true, beq_iff_eq] at grantable
    refine sound.move t sound.global arrives (fun _ _ h => h) (fun k' held => ?_) ?_
    · rcases kept k' held with rfl | before
      · exact Function.update_self ..
      · by_cases same : k' = k
        · subst same
          exact Function.update_self ..
        · rw [Function.update_of_ne same]
          exact sound.owned t k' before
    · intro u k' different owns
      have other : k' ≠ k := by
        rintro rfl
        rcases grantable.1 with unowned | mine
        · exact absurd (owns.symm.trans unowned) (by simp)
        · exact different (Option.some.inj (owns.symm.trans mine))
      rwa [Function.update_of_ne other]
  · contradiction

theorem share (sound : Sound holding G I s) (granted : s.share t k l = some s')
    (arrives : I s.shared l) (kept : ∀ k', holding l k' → holding (s.locals t) k') :
    Sound holding G I s' := by
  unfold Store.share at granted
  split at granted
  · cases granted
    exact sound.move t sound.global arrives (fun _ _ h => h)
      (fun k' held => sound.owned t k' (kept k' held)) (fun _ _ _ h => h)
  · contradiction

theorem act (sound : Sound holding G I s) (owes : Owes holding G I s.shared (s.locals t) outcome)
    (acted : s.act t outcome = some s') : Sound holding G I s' := by
  cases outcome with
  | stay r l =>
    cases acted
    exact sound.write owes.1 owes.2.1 owes.2.2.1 owes.2.2.2
  | lock k l => exact sound.lock acted owes.1 owes.2
  | share k l => exact sound.share acted owes.1 owes.2
  | finish r l =>
    cases acted
    exact sound.finish owes.1 owes.2.1 owes.2.2.1 owes.2.2.2

/-- The step rule: a program keeps the invariant if every outcome pays what it owes. -/
theorem step {α : Type*} {program : ρ → ς → α → Option (Outcome ρ ς κ)} {label : τ × α}
    (sound : Sound holding G I s) (stepped : s.step program label = some s')
    (owes : ∀ outcome, program s.shared (s.locals label.1) label.2 = some outcome →
      Owes holding G I s.shared (s.locals label.1) outcome) : Sound holding G I s' := by
  obtain ⟨outcome, chosen, acted⟩ := Option.bind_eq_some_iff.mp stepped
  exact sound.act (owes outcome chosen) acted

end Sound

/-- What is shared after an outcome. -/
def Outcome.result (r : ρ) : Outcome ρ ς κ → ρ
  | .stay r' _ | .finish r' _ => r'
  | .lock _ _ | .share _ _ => r

theorem Store.act_shared [DecidableEq τ] [DecidableEq κ] {s s' : Store ρ ς κ τ}
    (acted : s.act t outcome = some s') : s'.shared = outcome.result s.shared := by
  cases outcome with
  | stay r l =>
    cases acted
    rfl
  | lock k l => exact lock_shared acted
  | share k l => exact share_shared acted
  | finish r l =>
    cases acted
    rfl

/-- Where the session is after an outcome. -/
def Outcome.arrival : Outcome ρ ς κ → ς
  | .stay _ l | .lock _ l | .share _ l | .finish _ l => l

theorem Store.act_locals [DecidableEq τ] [DecidableEq κ] {s s' : Store ρ ς κ τ}
    (acted : s.act t outcome = some s') :
    s'.locals = Function.update s.locals t outcome.arrival := by
  cases outcome with
  | stay r l =>
    cases acted
    rfl
  | lock k l =>
    simp only [Store.act, Store.lock] at acted
    split at acted
    · cases acted
      rfl
    · contradiction
  | share k l =>
    simp only [Store.act, Store.share] at acted
    split at acted
    · cases acted
      rfl
    · contradiction
  | finish r l =>
    cases acted
    rfl

/-- A session that no step of the run belongs to stays where it was. -/
theorem Store.run_locals [DecidableEq τ] [DecidableEq κ] {α : Type*}
    {program : ρ → ς → α → Option (Outcome ρ ς κ)} {s t : Store ρ ς κ τ} {labels : List (τ × α)}
    {q : τ} (reached : Run.run (Store.step program) s labels = some t)
    (absent : ∀ label ∈ labels, label.1 ≠ q) : t.locals q = s.locals q := by
  induction labels generalizing s with
  | nil =>
    cases reached
    rfl
  | cons label rest ih =>
    obtain ⟨middle, stepped, following⟩ := Run.run_cons_iff.mp reached
    obtain ⟨outcome, _, acted⟩ := Option.bind_eq_some_iff.mp stepped
    have later := ih following fun other member => absent other (List.mem_cons_of_mem _ member)
    have here : middle.locals q = s.locals q := by
      rw [Store.act_locals acted, Function.update_of_ne (absent label List.mem_cons_self).symm]
    exact later.trans here

end Drivebound.Sessions
