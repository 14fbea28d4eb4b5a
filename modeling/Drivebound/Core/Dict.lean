import Mathlib.Data.List.Nodup

/-! Insertion-ordered dictionaries with the operations the Python sources use:
assignment replaces in place or appends, `pop` drops the key. -/
namespace Drivebound

abbrev Dict (κ ν : Type*) := List (κ × ν)

namespace Dict

variable {κ ν : Type*} [DecidableEq κ]

def get? (d : Dict κ ν) (key : κ) : Option ν :=
  match d with
  | [] => none
  | (k, v) :: rest => if k = key then some v else get? rest key

def set (d : Dict κ ν) (key : κ) (value : ν) : Dict κ ν :=
  match d with
  | [] => [(key, value)]
  | (k, v) :: rest => if k = key then (key, value) :: rest else (k, v) :: set rest key value

def pop (d : Dict κ ν) (key : κ) : Dict κ ν :=
  match d with
  | [] => []
  | (k, v) :: rest => if k = key then pop rest key else (k, v) :: pop rest key

@[simp] theorem get?_set_self (d : Dict κ ν) (key : κ) (value : ν) :
    (d.set key value).get? key = some value := by
  induction d with
  | nil => simp [set, get?]
  | cons entry rest ih =>
    simp only [set]
    split
    · simp [get?]
    · rename_i different
      simp only [get?, if_neg different, ih]

theorem get?_set_other (d : Dict κ ν) {key other : κ} (value : ν) (different : other ≠ key) :
    (d.set key value).get? other = d.get? other := by
  induction d with
  | nil => simp [set, get?, different.symm]
  | cons entry rest ih =>
    simp only [set]
    split
    · rename_i same
      subst same
      simp only [get?, if_neg different.symm]
    · simp only [get?, ih]

@[simp] theorem get?_pop_self (d : Dict κ ν) (key : κ) : (d.pop key).get? key = none := by
  induction d with
  | nil => rfl
  | cons entry rest ih =>
    simp only [pop]
    split
    · exact ih
    · rename_i different
      simp only [get?, if_neg different, ih]

theorem get?_pop_other (d : Dict κ ν) {key other : κ} (different : other ≠ key) :
    (d.pop key).get? other = d.get? other := by
  induction d with
  | nil => rfl
  | cons entry rest ih =>
    simp only [pop]
    split
    · rename_i same
      simp only [get?, same, if_neg different.symm, ih]
    · simp only [get?, ih]

theorem get?_mem {d : Dict κ ν} {key : κ} {value : ν} (found : d.get? key = some value) :
    (key, value) ∈ d := by
  induction d with
  | nil => contradiction
  | cons entry rest ih =>
    simp only [get?] at found
    split at found
    · rename_i same
      cases found
      exact same ▸ List.mem_cons_self
    · exact List.mem_cons_of_mem entry (ih found)

/-- Under distinct keys, an entry is found under its own. -/
theorem get?_of_mem {d : Dict κ ν} {entry : κ × ν} (distinct : (d.map Prod.fst).Nodup)
    (member : entry ∈ d) : d.get? entry.1 = some entry.2 := by
  induction d with
  | nil => contradiction
  | cons first rest ih =>
    rw [List.map_cons, List.nodup_cons] at distinct
    rcases List.mem_cons.mp member with rfl | later
    · simp only [get?, if_true]
    · have different : first.1 ≠ entry.1 := fun same =>
        distinct.1 (same ▸ List.mem_map_of_mem later)
      simp only [get?, if_neg different]
      exact ih distinct.2 later

theorem mem_pop {d : Dict κ ν} {key : κ} {entry : κ × ν} (member : entry ∈ d.pop key) : entry ∈ d := by
  induction d with
  | nil => exact member
  | cons first rest ih =>
    simp only [pop] at member
    split at member
    · exact List.mem_cons_of_mem first (ih member)
    · rcases List.mem_cons.mp member with rfl | later
      · exact List.mem_cons_self
      · exact List.mem_cons_of_mem first (ih later)

theorem ne_of_mem_pop {d : Dict κ ν} {key : κ} {entry : κ × ν} (member : entry ∈ d.pop key) :
    entry.1 ≠ key := by
  induction d with
  | nil => contradiction
  | cons first rest ih =>
    simp only [pop] at member
    split at member
    · exact ih member
    · rename_i different
      rcases List.mem_cons.mp member with rfl | later
      · exact different
      · exact ih later

theorem mem_pop_of_ne {d : Dict κ ν} {key : κ} {entry : κ × ν} (member : entry ∈ d)
    (different : entry.1 ≠ key) : entry ∈ d.pop key := by
  induction d with
  | nil => contradiction
  | cons first rest ih =>
    simp only [pop]
    split
    · rename_i same
      rcases List.mem_cons.mp member with rfl | later
      · exact absurd same different
      · exact ih later
    · rcases List.mem_cons.mp member with rfl | later
      · exact List.mem_cons_self
      · exact List.mem_cons_of_mem first (ih later)

theorem pop_of_absent {d : Dict κ ν} {key : κ} (absent : ∀ entry ∈ d, entry.1 ≠ key) : d.pop key = d := by
  induction d with
  | nil => rfl
  | cons first rest ih =>
    rw [List.forall_mem_cons] at absent
    rw [pop, if_neg absent.1, ih absent.2]

theorem nodup_pop {d : Dict κ ν} (distinct : (d.map Prod.fst).Nodup) (key : κ) :
    ((d.pop key).map Prod.fst).Nodup := by
  induction d with
  | nil => exact List.nodup_nil
  | cons first rest ih =>
    obtain ⟨absent, later⟩ := List.nodup_cons.mp distinct
    simp only [pop]
    split
    · exact ih later
    · refine List.nodup_cons.mpr ⟨fun here => absent ?_, ih later⟩
      obtain ⟨entry, member, same⟩ := List.mem_map.mp here
      exact List.mem_map.mpr ⟨entry, mem_pop member, same⟩

theorem mem_set {d : Dict κ ν} {key : κ} {value : ν} {entry : κ × ν}
    (member : entry ∈ d.set key value) : entry = (key, value) ∨ entry ∈ d := by
  induction d with
  | nil => exact .inl (List.mem_singleton.mp member)
  | cons first rest ih =>
    simp only [set] at member
    split at member
    · rcases List.mem_cons.mp member with new | later
      · exact .inl new
      · exact .inr (List.mem_cons_of_mem first later)
    · rcases List.mem_cons.mp member with rfl | later
      · exact .inr List.mem_cons_self
      · exact (ih later).imp_right (List.mem_cons_of_mem first)

/-- Keys stay distinct. -/
theorem nodup_set {d : Dict κ ν} (distinct : (d.map Prod.fst).Nodup) (key : κ) (value : ν) :
    ((d.set key value).map Prod.fst).Nodup := by
  induction d with
  | nil => exact List.nodup_singleton key
  | cons first rest ih =>
    obtain ⟨absent, later⟩ := List.nodup_cons.mp distinct
    simp only [set]
    split
    · rename_i same
      exact List.nodup_cons.mpr ⟨same ▸ absent, later⟩
    · rename_i different
      refine List.nodup_cons.mpr ⟨fun here => ?_, ih later⟩
      obtain ⟨entry, member, same⟩ := List.mem_map.mp here
      rcases mem_set member with rfl | before
      · exact different same.symm
      · exact absent (List.mem_map.mpr ⟨entry, before, same⟩)

end Dict

end Drivebound
