import Mathlib.Logic.Function.Basic

/-! A disk says what each path holds. A file that is made beside another one and then takes its
place leaves no trace of its own. -/
namespace Drivebound.Disks

variable {κ α : Type*} [DecidableEq κ] {disk : κ → Option α} {source target path : κ}

/-- `os.replace` -/
def move (disk : κ → Option α) (source target : κ) : κ → Option α :=
  Function.update (Function.update disk target (disk source)) source none

theorem move_target (apart : target ≠ source) : move disk source target target = disk source := by
  rw [move, Function.update_of_ne apart, Function.update_self]

theorem move_other (notSource : path ≠ source) (notTarget : path ≠ target) :
    move disk source target path = disk path := by
  rw [move, Function.update_of_ne notSource, Function.update_of_ne notTarget]

theorem move_made (apart : target ≠ source) (free : disk source = none) (file : Option α) :
    move (Function.update disk source file) source target = Function.update disk target file := by
  have gone : Function.update disk target file source = none := by
    rw [Function.update_of_ne apart.symm, free]
  rw [move, Function.update_self, Function.update_comm apart, Function.update_idem,
    Function.update_comm apart.symm, ← gone, Function.update_eq_self]

end Drivebound.Disks
