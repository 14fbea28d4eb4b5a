import Mathlib

/-! Rules for computations that may raise. `Ends` is a pair of postconditions,
one for the value and one for the error, so that a state carried by the error is
described like the one carried by the value. -/
namespace Drivebound.Checked

theorem bind_ok_iff {x : Except ε α} {f : α → Except ε β} :
    (x >>= f) = .ok r ↔ ∃ a, x = .ok a ∧ f a = .ok r := by
  constructor
  · intro same
    cases x with
    | error e => contradiction
    | ok a => exact ⟨a, rfl, same⟩
  · rintro ⟨a, rfl, same⟩
    exact same

theorem mapError_ok_iff {x : Except ε α} {g : ε → δ} : x.mapError g = .ok r ↔ x = .ok r := by
  cases x <;> simp [Except.mapError]

theorem map_ok_iff {x : Except ε α} {f : α → β} :
    x.map f = .ok r ↔ ∃ a, x = .ok a ∧ f a = r := by
  cases x <;> simp [Except.map]

theorem toOption_some_iff {x : Except ε α} : x.toOption = some a ↔ x = .ok a := by
  cases x <;> simp [Except.toOption]

def Ends (P : α → Prop) (E : ε → Prop) : Except ε α → Prop
  | .ok a => P a
  | .error e => E e

namespace Ends

variable {P P' : α → Prop} {Q : β → Prop} {E : ε → Prop}

theorem bind {x : Except ε α} {f : α → Except ε β} (first : Ends P E x)
    (next : ∀ a, P a → Ends Q E (f a)) : Ends Q E (x >>= f) := by
  cases x with
  | error e => exact first
  | ok a => exact next a first

theorem mapError {x : Except ε α} {g : ε → δ} {F : δ → Prop} (first : Ends P E x)
    (maps : ∀ e, E e → F (g e)) : Ends P F (x.mapError g) := by
  cases x with
  | error e => exact maps e first
  | ok a => exact first

theorem mono {x : Except ε α} (first : Ends P E x) (weaker : ∀ a, P a → P' a) :
    Ends P' E x := by
  cases x with
  | error e => exact first
  | ok a => exact weaker a first

/-- The value alone is described. -/
theorem values {x : Except ε α} (ends : Ends P E x) : Ends P (fun _ => True) x := by
  cases x with
  | error e => exact True.intro
  | ok a => exact ends

theorem and {F : ε → Prop} {x : Except ε α} (first : Ends P E x) (second : Ends P' F x) :
    Ends (fun a => P a ∧ P' a) (fun e => E e ∧ F e) x := by
  cases x with
  | error e => exact ⟨first, second⟩
  | ok a => exact ⟨first, second⟩

theorem value {x : Except ε α} (ends : Ends P E x) (same : x = .ok a) : P a := by
  subst same
  exact ends

theorem raised {x : Except ε α} (ends : Ends P E x) (same : x = .error e) : E e := by
  subst same
  exact ends

theorem trivial (x : Except ε α) : Ends (fun _ => True) (fun _ : ε => True) x := by
  cases x <;> exact True.intro

end Ends

end Drivebound.Checked
