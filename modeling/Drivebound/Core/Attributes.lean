import Mathlib.Logic.Basic

/-! Attributes of a loaded row. A unit of work remembers the value it has loaded and
writes an attribute back only where the value assigned to it differs, so what is
stored afterwards depends on what was loaded. -/
namespace Drivebound.Attributes

variable {α : Type*} [DecidableEq α]

/-- What an `UPDATE` leaves in a column: an attribute whose assigned value is the
loaded one is not part of it. -/
def flush (loaded assigned stored : α) : α := if assigned = loaded then stored else assigned

/-- Nothing was assigned. -/
@[simp] theorem flush_untouched (loaded stored : α) : flush loaded loaded stored = stored :=
  if_pos rfl

/-- What was loaded is still stored. -/
@[simp] theorem flush_fresh (stored assigned : α) : flush stored assigned stored = assigned := by
  unfold flush
  split
  · exact (Eq.symm ‹_›)
  · rfl

/-- The assigned value is stored exactly if it is written or was there already. -/
theorem flush_eq_iff {loaded assigned stored : α} :
    flush loaded assigned stored = assigned ↔ assigned ≠ loaded ∨ stored = assigned := by
  unfold flush
  constructor
  · intro same
    by_cases unchanged : assigned = loaded
    · rw [if_pos unchanged] at same
      exact .inr same
    · exact .inl unchanged
  · rintro (written | there)
    · rw [if_neg written]
    · split
      · exact there
      · rfl

theorem flush_of_ne {loaded assigned stored : α} (written : assigned ≠ loaded) :
    flush loaded assigned stored = assigned := flush_eq_iff.mpr (.inl written)

/-- What is stored is the value before or the assigned one. -/
theorem flush_cases (loaded assigned stored : α) :
    flush loaded assigned stored = stored ∨ flush loaded assigned stored = assigned := by
  unfold flush
  split
  · exact .inl rfl
  · exact .inr rfl

end Drivebound.Attributes
