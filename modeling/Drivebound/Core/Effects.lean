import Mathlib.Init

/-! Programs over a state that may raise: what was done to the state before an exception
stays done. `Does` is a triple with one postcondition for the value and one for the
exception, and every construct has its rule. -/
namespace Drivebound.Effects

abbrev Act (σ ε : Type) := ExceptT ε (StateM σ)

variable {σ ε α β : Type}

/-- From every state with `P` the program ends with `Q`, or it raises with `E`. -/
def Does (P : σ → Prop) (act : Act σ ε α) (Q : α → σ → Prop) (E : ε → σ → Prop) : Prop :=
  ∀ s, P s → match act.run.run s with
    | (.ok a, t) => Q a t
    | (.error e, t) => E e t

/-- `if not condition: raise error` -/
def demand (condition : Prop) [Decidable condition] (error : ε) : Act σ ε Unit :=
  if condition then pure () else throw error

/-- A program on a part of the state. -/
def zoom {τ : Type} (part : σ → τ) (put : σ → τ → σ) (act : Act τ ε α) : Act σ ε α :=
  ExceptT.mk fun s => ((act.run.run (part s)).1, put s (act.run.run (part s)).2)

namespace Does

variable {P P' : σ → Prop} {Q Q' : α → σ → Prop} {R : β → σ → Prop} {E E' : ε → σ → Prop} {body : Act σ ε α}

theorem pure {a : α} (holds : ∀ s, P s → Q a s) : Does P (pure a) Q E := fun s => holds s

theorem throw {e : ε} (holds : ∀ s, P s → E e s) : Does P (throw e) Q E := fun s => holds s

theorem get {Q : σ → σ → Prop} (holds : ∀ s, P s → Q s s) : Does (ε := ε) P get Q E := fun s => holds s

theorem set {Q : PUnit → σ → Prop} {t : σ} (holds : ∀ s, P s → Q ⟨⟩ t) : Does (ε := ε) P (set t) Q E :=
  fun s => holds s

theorem modify {f : σ → σ} {Q : PUnit → σ → Prop} (holds : ∀ s, P s → Q ⟨⟩ (f s)) :
    Does (ε := ε) P (modify f) Q E := fun s => holds s

theorem bind_run (next : α → Act σ ε β) (s : σ) : (body >>= next).run.run s =
    match body.run.run s with
    | (.ok a, t) => (next a).run.run t
    | (.error e, t) => (.error e, t) := by
  have ran : (body >>= next).run.run s =
      (ExceptT.bindCont next (body.run.run s).1).run (body.run.run s).2 := rfl
  rw [ran]
  generalize body.run.run s = result
  obtain ⟨value, t⟩ := result
  cases value with
  | ok a => rfl
  | error e => rfl

theorem bind {next : α → Act σ ε β} (first : Does P body Q E) (later : ∀ a, Does (Q a) (next a) R E) :
    Does P (body >>= next) R E := by
  intro s holds
  have here := first s holds
  rw [bind_run]
  generalize body.run.run s = result at here
  obtain ⟨value, t⟩ := result
  cases value with
  | ok a => exact later a t here
  | error e => exact here

theorem ite {c : Prop} [Decidable c] {other : Act σ ε α} (yes : c → Does P body Q E)
    (no : ¬ c → Does P other Q E) : Does P (if c then body else other) Q E := by
  split
  · next holds => exact yes holds
  · next fails => exact no fails

theorem demand {c : Prop} [Decidable c] {e : ε} (refused : ¬c → ∀ s, P s → E e s) :
    Does P (demand c e) (fun _ s => c ∧ P s) E := by
  apply Does.ite
  · intro holds
    exact Does.pure fun s here => ⟨holds, here⟩
  · intro fails
    exact Does.throw (refused fails)

/-- What the state has of a fact that does not depend on it. -/
theorem pull {p : Prop} (does : p → Does P body Q E) : Does (fun s => p ∧ P s) body Q E :=
  fun s holds => does holds.1 s holds.2

theorem pick {ι : Type} {P : ι → σ → Prop} (does : ∀ i, Does (P i) body Q E) :
    Does (fun s => ∃ i, P i s) body Q E := by
  rintro s ⟨i, holds⟩
  exact does i s holds

theorem each (does : ∀ s, P s → Does (· = s) body Q E) : Does P body Q E := fun s holds => does s holds s rfl

theorem tryCatch_run (handler : ε → Act σ ε α) (s : σ) : (tryCatchThe ε body handler).run.run s =
    match body.run.run s with
    | (.ok a, t) => (.ok a, t)
    | (.error e, t) => (handler e).run.run t := by
  have ran : (tryCatchThe ε body handler).run.run s =
      (match (body.run.run s).1 with
      | .ok a => (Pure.pure (.ok a) : StateM σ (Except ε α))
      | .error e => (handler e).run).run (body.run.run s).2 := rfl
  rw [ran]
  generalize body.run.run s = result
  obtain ⟨value, t⟩ := result
  cases value with
  | ok a => rfl
  | error e => rfl

/-- What the body raises is handled from the state in which it was raised. -/
theorem caught {handler : ε → Act σ ε α} {D : ε → σ → Prop} (tried : Does P body Q D)
    (handled : ∀ e, Does (D e) (handler e) Q E) : Does P (tryCatchThe ε body handler) Q E := by
  intro s holds
  have here := tried s holds
  rw [tryCatch_run]
  generalize body.run.run s = result at here
  obtain ⟨value, t⟩ := result
  cases value with
  | ok a => exact here
  | error e => exact handled e t here

theorem tryFinally_run (last : Act σ ε β) (s : σ) :
    (tryFinally body last).run.run s =
      match body.run.run s with
      | (result, t) =>
        match last.run.run t with
        | (.ok _, u) => (result, u)
        | (.error other, u) => (.error other, u) := by
  unfold tryFinally
  simp only [tryFinally', Functor.map, ExceptT.map, ExceptT.mk, ExceptT.run, StateT.run, Bind.bind, StateT.bind]
  generalize (body : StateT σ Id (Except ε α)) s = ended
  obtain ⟨result, t⟩ := ended
  cases result with
  | ok a =>
    dsimp only
    generalize (last : StateT σ Id (Except ε β)) t = after
    obtain ⟨result, u⟩ := after
    cases result <;> rfl
  | error e =>
    dsimp only
    generalize (last : StateT σ Id (Except ε β)) t = after
    obtain ⟨result, u⟩ := after
    cases result <;> rfl

/-- The last part runs after the value and after the exception; what it raises itself takes
precedence. -/
theorem lastly {last : Act σ ε β} {S : α → σ → Prop} {D : ε → σ → Prop} (tried : Does P body S D)
    (done : ∀ a, Does (S a) last (fun _ => Q a) E) (raised : ∀ e, Does (D e) last (fun _ => E e) E) :
    Does P (tryFinally body last) Q E := by
  intro s holds
  have here := tried s holds
  rw [tryFinally_run]
  generalize body.run.run s = result at here
  obtain ⟨value, t⟩ := result
  cases value with
  | ok a =>
    have after := done a t here
    dsimp only
    generalize last.run.run t = outcome at after
    obtain ⟨value, u⟩ := outcome
    cases value <;> exact after
  | error e =>
    have after := raised e t here
    dsimp only
    generalize last.run.run t = outcome at after
    obtain ⟨value, u⟩ := outcome
    cases value <;> exact after

theorem mono (does : Does P body Q E) (before : ∀ s, P' s → P s) (value : ∀ a s, Q a s → Q' a s)
    (raised : ∀ e s, E e s → E' e s) : Does P' body Q' E' := by
  intro s holds
  have here := does s (before s holds)
  generalize body.run.run s = result at here ⊢
  obtain ⟨outcome, t⟩ := result
  cases outcome with
  | ok a => exact value a t here
  | error e => exact raised e t here

end Does

end Drivebound.Effects
