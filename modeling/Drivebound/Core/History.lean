import Drivebound.Core.Sessions
import Drivebound.Core.Run

/-! History variables. A program is run together with a record of what its steps
did; the record is written by the steps and read by none of them, so forgetting it
gives back the runs of the program. -/
namespace Drivebound.Sessions
open Run

variable {ρ ς κ τ α η : Type*}

/-- The outcome with the history after it. Waiting for a lock is not recorded. -/
def Outcome.recorded (h : η) : Outcome ρ ς κ → Outcome (ρ × η) ς κ
  | .stay r l => .stay (r, h) l
  | .lock k l => .lock k l
  | .share k l => .share k l
  | .finish r l => .finish (r, h) l

/-- The program with a history that `note` extends at every step. -/
def recorded (program : ρ → ς → α → Option (Outcome ρ ς κ)) (note : ρ → ς → α → η → η)
    (r : ρ × η) (l : ς) (a : α) : Option (Outcome (ρ × η) ς κ) :=
  (program r.1 l a).map (·.recorded (note r.1 l a r.2))

def Store.forget (s : Store (ρ × η) ς κ τ) : Store ρ ς κ τ :=
  ⟨s.shared.1, s.owner, s.sharers, s.locals⟩

@[simp] theorem recorded_arrival (h : η) (outcome : Outcome ρ ς κ) :
    (outcome.recorded h).arrival = outcome.arrival := by
  cases outcome <;> rfl

@[simp] theorem recorded_result (r : ρ × η) (h : η) (outcome : Outcome ρ ς κ) :
    ((outcome.recorded h).result r).1 = outcome.result r.1 := by
  cases outcome <;> rfl

section Runs

variable [DecidableEq τ] [DecidableEq κ] {program : ρ → ς → α → Option (Outcome ρ ς κ)}
  {note : ρ → ς → α → η → η}

theorem act_forget (s : Store (ρ × η) ς κ τ) (t : τ) (h : η) (outcome : Outcome ρ ς κ) :
    (s.act t (outcome.recorded h)).map Store.forget = s.forget.act t outcome := by
  cases outcome with
  | stay r l => rfl
  | finish r l => rfl
  | lock k l =>
    simp only [Outcome.recorded, Store.act, Store.lock, Store.free, Store.forget]
    exact apply_ite (Option.map Store.forget) _ _ _
  | share k l =>
    simp only [Outcome.recorded, Store.act, Store.share, Store.free, Store.forget]
    exact apply_ite (Option.map Store.forget) _ _ _

theorem step_forget (s : Store (ρ × η) ς κ τ) (label : τ × α) :
    (Store.step (recorded program note) s label).map Store.forget =
      Store.step program s.forget label := by
  simp only [Store.step, recorded]
  cases chosen : program s.shared.1 (s.locals label.1) label.2 with
  | none => simp only [Store.forget, chosen, Option.map_none, Option.bind_none]
  | some outcome =>
    simp only [Store.forget, chosen, Option.map_some, Option.bind_some]
    exact act_forget s label.1 _ outcome

/-- Every run of the program has its history, and forgetting it gives the run back. -/
theorem run_forget (s : Store (ρ × η) ς κ τ) (labels : List (τ × α)) :
    (run (Store.step (recorded program note)) s labels).map Store.forget =
      run (Store.step program) s.forget labels := by
  induction labels generalizing s with
  | nil => rfl
  | cons label rest ih =>
    have here : (Store.step (recorded program note) s label).map Store.forget =
        Store.step program s.forget label := step_forget s label
    rw [run_cons, run_cons, ← here]
    cases Store.step (recorded program note) s label with
    | none => rfl
    | some s' => exact ih s'

end Runs

/-- What a recorded outcome owes an invariant that also speaks of the history, where
the outcome itself pays for the part without it. -/
theorem Owes.recorded {holding : ς → κ → Prop} {G : ρ → Prop} {I : ρ → ς → Prop}
    {H : ρ × η → Prop} {J : ρ × η → ς → Prop} {r : ρ × η} {h : η} {outcome : Outcome ρ ς κ}
    (base : Owes holding G I r.1 l outcome)
    (global : H ((outcome.recorded h).result r))
    (arrives : J ((outcome.recorded h).result r) outcome.arrival)
    (others : ∀ m, (∀ k, holding l k → ¬ holding m k) → I r.1 m → J r m →
      J ((outcome.recorded h).result r) m) :
    Owes holding (fun r => G r.1 ∧ H r) (fun r l => I r.1 l ∧ J r l) r l
      (outcome.recorded h) := by
  cases outcome with
  | stay r' l' =>
    obtain ⟨global', arrives', kept, others'⟩ := base
    exact ⟨⟨global', global⟩, ⟨arrives', arrives⟩, kept, fun m apart both =>
      ⟨others' m apart both.1, others m apart both.1 both.2⟩⟩
  | lock k l' => exact ⟨⟨base.1, arrives⟩, base.2⟩
  | share k l' => exact ⟨⟨base.1, arrives⟩, base.2⟩
  | finish r' l' =>
    obtain ⟨global', arrives', none, others'⟩ := base
    exact ⟨⟨global', global⟩, ⟨arrives', arrives⟩, none, fun m apart both =>
      ⟨others' m apart both.1, others m apart both.1 both.2⟩⟩

end Drivebound.Sessions

namespace Drivebound.Run

variable {S A η : Type*} {step : S → A → Option S} {note : S → A → S → η → η}

/-- The steps with a history of the whole state, which `note` extends. -/
def noted (step : S → A → Option S) (note : S → A → S → η → η) (s : S × η) (a : A) : Option (S × η) :=
  (step s.1 a).map fun t => (t, note s.1 a t s.2)

theorem noted_iff {s t : S × η} : noted step note s a = some t ↔
    step s.1 a = some t.1 ∧ t.2 = note s.1 a t.1 s.2 := by
  constructor
  · intro stepped
    obtain ⟨u, here, rfl⟩ := Option.map_eq_some_iff.mp stepped
    exact ⟨here, rfl⟩
  · rintro ⟨here, history⟩
    rw [noted, here, Option.map_some, ← history]

/-- Every run has its history, and forgetting it gives the run back. -/
theorem run_noted (s : S × η) (labels : List A) :
    (run (noted step note) s labels).map Prod.fst = run step s.1 labels := by
  induction labels generalizing s with
  | nil => rfl
  | cons a rest ih =>
    rw [run_cons, run_cons, noted]
    cases step s.1 a with
    | none => rfl
    | some t => exact ih (t, note s.1 a t s.2)

end Drivebound.Run
