import Mathlib.Logic.Function.Basic
import Mathlib.Data.List.Basic

/-! Executable labelled execution. A step function answers `none` where the
label is not enabled, so a run is a list of labels and every prefix of a run is
a run. `Along` carries a condition on the steps of a run; the rules turn what
one step preserves into what every run preserves. -/
namespace Drivebound.Run

variable {S A : Type*} {step : S → A → Option S}

def run (step : S → A → Option S) : S → List A → Option S
  | s, [] => some s
  | s, a :: rest => (step s a).bind (run step · rest)

/-- Every step the run takes meets the condition in the state it is taken from. -/
def Along (step : S → A → Option S) (C : S → A → Prop) : S → List A → Prop
  | _, [] => True
  | s, a :: rest => C s a ∧ ∀ t, step s a = some t → Along step C t rest

@[simp] theorem run_nil (s : S) : run step s [] = some s := rfl

theorem run_cons (s : S) (a : A) (rest : List A) :
    run step s (a :: rest) = (step s a).bind (run step · rest) := rfl

theorem run_cons_iff : run step s (a :: rest) = some u ↔
    ∃ t, step s a = some t ∧ run step t rest = some u := by
  simp only [run_cons, Option.bind_eq_some_iff]

theorem run_append (s : S) (first second : List A) :
    run step s (first ++ second) = (run step s first).bind (run step · second) := by
  induction first generalizing s with
  | nil => rfl
  | cons a rest ih =>
    simp only [List.cons_append, run_cons]
    cases step s a with
    | none => rfl
    | some t => exact ih t

theorem run_append_iff : run step s (first ++ second) = some u ↔
    ∃ t, run step s first = some t ∧ run step t second = some u := by
  simp only [run_append, Option.bind_eq_some_iff]

/-- A condition along a run is a condition on its first part and on what follows. -/
theorem along_append {C : S → A → Prop} (whole : Along step C s (first ++ second))
    (reached : run step s first = some t) : Along step C s first ∧ Along step C t second := by
  induction first generalizing s with
  | nil =>
    cases Option.some.inj reached
    exact ⟨trivial, whole⟩
  | cons a rest ih =>
    obtain ⟨here, later⟩ := whole
    obtain ⟨middle, stepped, following⟩ := run_cons_iff.mp reached
    obtain ⟨left, right⟩ := ih (later middle stepped) following
    refine ⟨⟨here, ?_⟩, right⟩
    intro other otherStep
    cases Option.some.inj (stepped.symm.trans otherStep)
    exact left

theorem Along.mono {C D : S → A → Prop} (weaker : ∀ s a, C s a → D s a)
    (along : Along step C s labels) : Along step D s labels := by
  induction labels generalizing s with
  | nil => trivial
  | cons a rest ih => exact ⟨weaker s a along.1, fun t stepped => ih (along.2 t stepped)⟩

theorem along_true (s : S) (labels : List A) : Along step (fun _ _ => True) s labels := by
  induction labels generalizing s with
  | nil => trivial
  | cons a rest ih => exact ⟨trivial, fun t _ => ih t⟩

theorem Along.and {C D : S → A → Prop} (left : Along step C s labels) (right : Along step D s labels) :
    Along step (fun s a => C s a ∧ D s a) s labels := by
  induction labels generalizing s with
  | nil => trivial
  | cons a rest ih => exact ⟨⟨left.1, right.1⟩, fun t stepped => ih (left.2 t stepped) (right.2 t stepped)⟩

/-- A condition on the labels alone. -/
theorem along_of_forall {C : A → Prop} (s : S) (all : ∀ a ∈ labels, C a) :
    Along step (fun _ a => C a) s labels := by
  induction labels generalizing s with
  | nil => trivial
  | cons a rest ih =>
    exact ⟨all a List.mem_cons_self, fun t _ => ih t fun b member => all b (List.mem_cons_of_mem a member)⟩

instance decidableAlong (step : S → A → Option S) (C : S → A → Prop)
    [∀ s a, Decidable (C s a)] : ∀ s labels, Decidable (Along step C s labels)
  | _, [] => isTrue trivial
  | s, a :: rest =>
    match h : step s a with
    | none => decidable_of_iff (C s a) (by simp [Along, h])
    | some t =>
      have := decidableAlong step C t rest
      decidable_of_iff (C s a ∧ Along step C t rest) (by simp [Along, h])

section Invariants

variable {C : S → A → Prop} {I : S → Prop}

/-- What holds first and is preserved by every admitted step holds of the last state. -/
theorem invariant (preserves : ∀ s a t, I s → C s a → step s a = some t → I t)
    (initial : I s) (along : Along step C s labels) (reached : run step s labels = some t) :
    I t := by
  induction labels generalizing s with
  | nil => exact Option.some.inj reached ▸ initial
  | cons a rest ih =>
    obtain ⟨middle, stepped, following⟩ := run_cons_iff.mp reached
    exact ih (preserves s a middle initial along.1 stepped) (along.2 middle stepped) following

/-- Under an invariant, a condition met by every step yields another one. -/
theorem along_of_invariant {D : S → A → Prop}
    (preserves : ∀ s a t, I s → C s a → step s a = some t → I t)
    (implies : ∀ s a, I s → C s a → D s a)
    (initial : I s) (along : Along step C s labels) : Along step D s labels := by
  induction labels generalizing s with
  | nil => trivial
  | cons a rest ih =>
    refine ⟨implies s a initial along.1, fun t stepped => ?_⟩
    exact ih (preserves s a t initial along.1 stepped) (along.2 t stepped)

/-- As long as its steps meet `E` a run has the invariant, under which they meet `D` as
well, and only then: the runs are the same. -/
theorem along_iff_condition {D E : S → A → Prop}
    (preserves : ∀ s a t, I s → E s a → step s a = some t → I t)
    (agree : ∀ s a, I s → (D s a ↔ E s a)) (initial : I s) :
    Along step D s labels ↔ Along step E s labels := by
  induction labels generalizing s with
  | nil => exact Iff.rfl
  | cons a rest ih =>
    constructor
    · rintro ⟨here, later⟩
      have met := (agree s a initial).mp here
      exact ⟨met, fun t stepped => (ih (preserves s a t initial met stepped)).mp (later t stepped)⟩
    · rintro ⟨met, later⟩
      refine ⟨(agree s a initial).mpr met, fun t stepped => ?_⟩
      exact (ih (preserves s a t initial met stepped)).mpr (later t stepped)

/-- A reflexive and transitive comparison kept by every admitted step relates
the first and the last state of a run. -/
theorem relation {R : S → S → Prop} (refl : ∀ s, R s s)
    (trans : ∀ {s t u}, R s t → R t u → R s u)
    (preserves : ∀ s a t, I s → C s a → step s a = some t → I t)
    (related : ∀ s a t, I s → C s a → step s a = some t → R s t)
    (initial : I s) (along : Along step C s labels) (reached : run step s labels = some t) :
    R s t := by
  induction labels generalizing s with
  | nil => exact Option.some.inj reached ▸ refl s
  | cons a rest ih =>
    obtain ⟨middle, stepped, following⟩ := run_cons_iff.mp reached
    exact trans (related s a middle initial along.1 stepped)
      (ih (preserves s a middle initial along.1 stepped) (along.2 middle stepped) following)

end Invariants

end Drivebound.Run
