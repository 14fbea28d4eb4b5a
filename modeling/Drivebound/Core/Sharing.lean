import Drivebound.Core.Sessions

/-! Program points that rely on exclusive and on shared locks. What `Guarded` adds to
the ownership of a lock is that nobody owns what another session shares, so a session
that moves is interfered with by sessions only that rely on no conflicting lock. -/
namespace Drivebound.Sessions

variable {ρ ς κ τ : Type*}

/-- The locks that a program point relies on. -/
structure Locks (ς κ : Type*) where
  exclusive : ς → κ → Prop
  shared : ς → κ → Prop

/-- Two program points that rely on no conflicting locks. -/
def Locks.Apart (locks : Locks ς κ) (l m : ς) : Prop :=
  ∀ k, (locks.exclusive l k → ¬ locks.exclusive m k ∧ ¬ locks.shared m k) ∧
    (locks.shared l k → ¬ locks.exclusive m k)

/-- The locks at the point of arrival are held already or granted now. -/
def Locks.Keeps (locks : Locks ς κ) (l : ς) : Outcome ρ ς κ → Prop
  | .stay _ l' => (∀ k, locks.exclusive l' k → locks.exclusive l k) ∧
    ∀ k, locks.shared l' k → locks.shared l k
  | .lock k l' => (∀ k', locks.exclusive l' k' → k' = k ∨ locks.exclusive l k') ∧
    ∀ k', locks.shared l' k' → locks.shared l k'
  | .share k l' => (∀ k', locks.exclusive l' k' → locks.exclusive l k') ∧
    ∀ k', locks.shared l' k' → k' = k ∨ locks.shared l k'
  | .finish _ l' => (∀ k, ¬ locks.exclusive l' k) ∧ ∀ k, ¬ locks.shared l' k

/-- Every session holds the locks that it relies on. -/
structure Held (locks : Locks ς κ) (s : Store ρ ς κ τ) : Prop where
  owned : ∀ t k, locks.exclusive (s.locals t) k → s.owner k = some t
  sharing : ∀ t k, locks.shared (s.locals t) k → t ∈ s.sharers k
  alone : ∀ k t u, s.owner k = some t → u ∈ s.sharers k → u = t

namespace Held

variable {locks : Locks ς κ} {s s' : Store ρ ς κ τ} {t u : τ}

theorem apart (held : Held locks s) (different : t ≠ u) : locks.Apart (s.locals t) (s.locals u) := by
  intro k
  refine ⟨fun mine => ⟨fun theirs => ?_, fun theirs => ?_⟩, fun mine theirs => ?_⟩
  · exact different (Option.some.inj ((held.owned t k mine).symm.trans (held.owned u k theirs)))
  · exact different (held.alone k t u (held.owned t k mine) (held.sharing u k theirs)).symm
  · exact different (held.alone k u t (held.owned u k theirs) (held.sharing t k mine))

variable [DecidableEq τ]

/-- The moved session holds its locks, the others keep theirs. -/
theorem move (held : Held locks s) {r : ρ} {l : ς} {owner : κ → Option τ} {sharers : κ → List τ}
    (owned : ∀ k, locks.exclusive l k → owner k = some t)
    (sharing : ∀ k, locks.shared l k → t ∈ sharers k)
    (owners : ∀ u k, u ≠ t → s.owner k = some u → owner k = some u)
    (shares : ∀ u k, u ≠ t → u ∈ s.sharers k → u ∈ sharers k)
    (alone : ∀ k t u, owner k = some t → u ∈ sharers k → u = t) :
    Held locks ⟨r, owner, sharers, Function.update s.locals t l⟩ := by
  refine ⟨fun u k relies => ?_, fun u k relies => ?_, alone⟩
  · by_cases same : u = t
    · subst same
      exact owned k (by simpa only [Function.update_self] using relies)
    · simp only [Function.update_of_ne same] at relies
      exact owners u k same (held.owned u k relies)
  · by_cases same : u = t
    · subst same
      exact sharing k (by simpa only [Function.update_self] using relies)
    · simp only [Function.update_of_ne same] at relies
      exact shares u k same (held.sharing u k relies)

variable [DecidableEq κ]

theorem act {outcome : Outcome ρ ς κ} (held : Held locks s)
    (keeps : locks.Keeps (s.locals t) outcome) (acted : s.act t outcome = some s') : Held locks s' := by
  cases outcome with
  | stay r l =>
    cases acted
    exact held.move (fun k relies => held.owned t k (keeps.1 k relies))
      (fun k relies => held.sharing t k (keeps.2 k relies)) (fun _ _ _ owns => owns)
      (fun _ _ _ shares => shares) held.alone
  | finish r l =>
    cases acted
    refine held.move (fun k relies => absurd relies (keeps.1 k))
      (fun k relies => absurd relies (keeps.2 k)) (fun u k different owns => ?_)
      (fun u k different shares => ?_) fun k v u owns shares => ?_
    · have other : s.owner k ≠ some t := fun mine =>
        different (Option.some.inj (owns.symm.trans mine))
      simpa only [if_neg other] using owns
    · exact List.mem_filter.mpr ⟨shares, by simpa using different⟩
    · split at owns
      · contradiction
      · exact held.alone k v u owns (List.mem_filter.mp shares).1
  | lock k l =>
    simp only [Store.act, Store.lock] at acted
    split at acted
    · rename_i grantable
      cases acted
      simp only [Store.free, Bool.and_eq_true, Bool.or_eq_true, beq_iff_eq, List.all_eq_true] at grantable
      refine held.move (fun k' relies => ?_) (fun k' relies => held.sharing t k' (keeps.2 k' relies))
        (fun u k' different owns => ?_) (fun _ _ _ shares => shares) fun k' v u owns shares => ?_
      · rcases keeps.1 k' relies with rfl | before
        · exact Function.update_self ..
        · by_cases same : k' = k
          · subst same
            exact Function.update_self ..
          · rw [Function.update_of_ne same]
            exact held.owned t k' before
      · have other : k' ≠ k := by
          rintro rfl
          rcases grantable.1 with unowned | mine
          · exact absurd (owns.symm.trans unowned) (by simp)
          · exact different (Option.some.inj (owns.symm.trans mine))
        rwa [Function.update_of_ne other]
      · by_cases same : k' = k
        · subst same
          rw [Function.update_self] at owns
          exact (grantable.2 u shares).trans (Option.some.inj owns)
        · rw [Function.update_of_ne same] at owns
          exact held.alone k' v u owns shares
    · contradiction
  | share k l =>
    simp only [Store.act, Store.share] at acted
    split at acted
    · rename_i grantable
      cases acted
      simp only [Store.free, Bool.or_eq_true, beq_iff_eq] at grantable
      refine held.move (fun k' relies => held.owned t k' (keeps.1 k' relies)) (fun k' relies => ?_)
        (fun _ _ _ owns => owns) (fun u k' different shares => ?_) fun k' v u owns shares => ?_
      · rcases keeps.2 k' relies with rfl | before
        · rw [Function.update_self]
          exact List.mem_cons_self
        · by_cases same : k' = k
          · subst same
            rw [Function.update_self]
            exact List.mem_cons_self
          · rw [Function.update_of_ne same]
            exact held.sharing t k' before
      · by_cases same : k' = k
        · subst same
          rw [Function.update_self]
          exact List.mem_cons_of_mem t shares
        · rwa [Function.update_of_ne same]
      · by_cases same : k' = k
        · subst same
          rw [Function.update_self] at shares
          rcases List.mem_cons.mp shares with rfl | before
          · rcases grantable with unowned | mine
            · rw [unowned] at owns
              contradiction
            · exact Option.some.inj (mine.symm.trans owns)
          · exact held.alone k' v u owns before
        · rw [Function.update_of_ne same] at shares
          exact held.alone k' v u owns shares
    · contradiction

end Held

/-- The invariant of a system with shared locks: a global part and a part for each session. -/
structure Guarded (locks : Locks ς κ) (G : ρ → Prop) (I : ρ → ς → Prop) (s : Store ρ ς κ τ) :
    Prop where
  held : Held locks s
  global : G s.shared
  session : ∀ t, I s.shared (s.locals t)

namespace Guarded

variable {locks : Locks ς κ} {G : ρ → Prop} {I : ρ → ς → Prop} {s s' : Store ρ ς κ τ}

theorem idle {shared : ρ} {resting : ς} (global : G shared) (session : I shared resting)
    (exclusive : ∀ k, ¬ locks.exclusive resting k) (none : ∀ k, ¬ locks.shared resting k) :
    Guarded locks G I (Store.idle shared resting : Store ρ ς κ τ) :=
  ⟨⟨fun _ k relies => absurd relies (exclusive k), fun _ k relies => absurd relies (none k),
    fun _ _ _ owns => nomatch owns⟩, global, fun _ => session⟩

variable [DecidableEq τ] [DecidableEq κ]

/-- The step rule: what an outcome changes is right for the session that moves, and for
every other one that relies on no conflicting lock. -/
theorem step {α : Type*} {program : ρ → ς → α → Option (Outcome ρ ς κ)} {label : τ × α}
    (guarded : Guarded locks G I s) (stepped : s.step program label = some s')
    (owes : ∀ outcome, program s.shared (s.locals label.1) label.2 = some outcome →
      locks.Keeps (s.locals label.1) outcome ∧ G (outcome.result s.shared) ∧
      I (outcome.result s.shared) outcome.arrival ∧
      ∀ m, locks.Apart (s.locals label.1) m → I s.shared m → I (outcome.result s.shared) m) :
    Guarded locks G I s' := by
  obtain ⟨outcome, chosen, acted⟩ := Option.bind_eq_some_iff.mp stepped
  obtain ⟨keeps, global, arrives, others⟩ := owes outcome chosen
  have shared := Store.act_shared acted
  refine ⟨guarded.held.act keeps acted, shared ▸ global, fun u => ?_⟩
  rw [shared, Store.act_locals acted]
  by_cases same : u = label.1
  · rw [same, Function.update_self]
    exact arrives
  · rw [Function.update_of_ne same]
    exact others _ (guarded.held.apart (Ne.symm same)) (guarded.session u)

end Guarded

end Drivebound.Sessions
