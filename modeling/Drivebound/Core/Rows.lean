import Mathlib.Data.List.Nodup

/-! Rows under a key: looking one up, also after the rows were rewritten in place. -/
namespace Drivebound.Rows

variable {α : Type*} {p : α → Bool} {change : α → α} {rows : List α}

/-- A rewrite that the search does not notice is seen in what it finds. -/
theorem find?_map_stable (stable : ∀ a ∈ rows, p (change a) = p a) :
    (rows.map change).find? p = (rows.find? p).map change := by
  induction rows with
  | nil => rfl
  | cons a rest ih =>
    have here := stable a List.mem_cons_self
    have later := ih fun b member => stable b (List.mem_cons_of_mem a member)
    cases same : p a with
    | true =>
      rw [same] at here
      rw [List.map_cons, List.find?_cons_of_pos here, List.find?_cons_of_pos same, Option.map_some]
    | false =>
      rw [same] at here
      have skipped : ¬ p (change a) = true := by simp [here]
      have skippedBefore : ¬ p a = true := by simp [same]
      rw [List.map_cons, List.find?_cons_of_neg skipped, List.find?_cons_of_neg skippedBefore, later]

/-- Where a rewritten row is the only one that can be found, it is found. -/
theorem find?_map_only (member : a ∈ rows) (found : p (change a) = true)
    (only : ∀ b ∈ rows, p (change b) = true → change b = change a) :
    (rows.map change).find? p = some (change a) := by
  have some : ((rows.map change).find? p).isSome := by
    rw [List.find?_isSome]
    exact ⟨change a, List.mem_map_of_mem member, found⟩
  obtain ⟨row, same⟩ := Option.isSome_iff_exists.mp some
  obtain ⟨b, here, rfl⟩ := List.mem_map.mp (List.mem_of_find?_eq_some same)
  rw [same, only b here (List.find?_some same)]

/-- A rewrite that the filter does not notice and that spares what passes it. -/
theorem filter_map_spared (stable : ∀ a ∈ rows, p (change a) = p a)
    (spared : ∀ a ∈ rows, p a = true → change a = a) : (rows.map change).filter p = rows.filter p := by
  induction rows with
  | nil => rfl
  | cons a rest ih =>
    have later := ih (fun b member => stable b (List.mem_cons_of_mem a member))
      fun b member => spared b (List.mem_cons_of_mem a member)
    rw [List.map_cons]
    cases passes : p a with
    | true =>
      have same := spared a List.mem_cons_self passes
      rw [same, List.filter_cons_of_pos passes, List.filter_cons_of_pos passes, later]
    | false =>
      have skipped : ¬ p (change a) = true := by rw [stable a List.mem_cons_self, passes]; simp
      have before : ¬ p a = true := by rw [passes]; simp
      rw [List.filter_cons_of_neg skipped, List.filter_cons_of_neg before, later]

/-- A row with a value that no other has. -/
theorem nodup_map_append {β : Type*} {value : α → β} {new : α} (values : (rows.map value).Nodup)
    (fresh : ∀ a ∈ rows, value a ≠ value new) : ((rows ++ [new]).map value).Nodup := by
  rw [List.map_append, List.map_singleton, List.nodup_append]
  refine ⟨values, List.nodup_singleton _, fun one member two added => ?_⟩
  obtain ⟨a, there, rfl⟩ := List.mem_map.mp member
  rw [List.mem_singleton.mp added]
  exact fresh a there

variable {κ : Type*} [DecidableEq κ] {key : α → κ} {k : κ} {a : α}

/-- A row that is found is a row with the key. -/
theorem find?_key (found : rows.find? (key · = k) = some a) : a ∈ rows ∧ key a = k :=
  ⟨List.mem_of_find?_eq_some found, by simpa using List.find?_some found⟩

/-- Under a unique key, the row that is found is the one with the key. -/
theorem find?_key_iff (unique : (rows.map key).Nodup) :
    rows.find? (key · = k) = some a ↔ a ∈ rows ∧ key a = k := by
  constructor
  · exact find?_key
  · rintro ⟨member, rfl⟩
    cases found : rows.find? (key · = key a) with
    | none => exact absurd (decide_eq_true rfl) (List.find?_eq_none.mp found a member)
    | some other =>
      obtain ⟨there, same⟩ := find?_key found
      exact congrArg some (List.inj_on_of_nodup_map unique there member same)

/-- Under a unique key, a search among some of the rows finds the row if it is one of them. -/
theorem find?_key_filter (unique : (rows.map key).Nodup) (p : α → Bool) :
    (rows.filter p).find? (key · = k) = (rows.find? (key · = k)).filter p := by
  have sub : ((rows.filter p).map key).Nodup := unique.sublist (List.filter_sublist.map key)
  cases found : rows.find? (key · = k) with
  | none =>
    rw [Option.filter_none, List.find?_eq_none]
    exact fun a member => List.find?_eq_none.mp found a (List.mem_of_mem_filter member)
  | some a =>
    obtain ⟨member, same⟩ := find?_key found
    cases passes : p a with
    | true =>
      rw [Option.filter_some_pos passes]
      exact (find?_key_iff sub).mpr ⟨List.mem_filter.mpr ⟨member, passes⟩, same⟩
    | false =>
      rw [Option.filter_some_neg (by simp [passes]), List.find?_eq_none]
      intro b left here
      obtain ⟨there, kept⟩ := List.mem_filter.mp left
      obtain rfl := List.inj_on_of_nodup_map unique there member ((of_decide_eq_true here).trans same.symm)
      rw [passes] at kept
      contradiction

/-- A row that is changed under its key is found changed. -/
theorem find?_key_map {change : α → α} (keeps : ∀ a, key (change a) = key a) :
    (rows.map change).find? (key · = k) = (rows.find? (key · = k)).map change := by
  apply find?_map_stable
  intro a _
  rw [keeps a]

/-- The rows under a key are rewritten, and keep it. -/
def updateKey (key : α → κ) (k : κ) (change : α → α) (rows : List α) : List α :=
  rows.map fun a => if key a = k then change a else a

theorem updateKey_keys {change : α → α} (keeps : ∀ a, key a = k → key (change a) = k) :
    (updateKey key k change rows).map key = rows.map key := by
  rw [updateKey, List.map_map]
  apply List.map_congr_left
  intro a _
  by_cases same : key a = k
  · simp only [Function.comp_apply, if_pos same, keeps a same]
    exact same.symm
  · simp only [Function.comp_apply, if_neg same]

theorem find?_updateKey {change : α → α} {other : κ} (keeps : ∀ a, key a = k → key (change a) = k) :
    (updateKey key k change rows).find? (key · = other) =
      (rows.find? (key · = other)).map fun a => if key a = k then change a else a := by
  apply find?_map_stable
  intro a _
  by_cases same : key a = k
  · rw [if_pos same, keeps a same, same]
  · rw [if_neg same]

theorem find?_updateKey_self {change : α → α} (keeps : ∀ a, key a = k → key (change a) = k)
    (found : rows.find? (key · = k) = some a) :
    (updateKey key k change rows).find? (key · = k) = some (change a) := by
  rw [find?_updateKey keeps, found, Option.map_some, if_pos (find?_key found).2]

theorem find?_updateKey_other {change : α → α} {other : κ}
    (keeps : ∀ a, key a = k → key (change a) = k) (different : other ≠ k) :
    (updateKey key k change rows).find? (key · = other) = rows.find? (key · = other) := by
  rw [find?_updateKey keeps]
  cases found : rows.find? (key · = other) with
  | none => rfl
  | some a =>
    have kept : key a ≠ k := fun same => different ((find?_key found).2.symm.trans same)
    rw [Option.map_some, if_neg kept]

theorem updateKey_values {β : Type*} {value : α → β} {change : α → α}
    (keeps : ∀ a, value (change a) = value a) : (updateKey key k change rows).map value = rows.map value := by
  rw [updateKey, List.map_map]
  apply List.map_congr_left
  intro a _
  by_cases same : key a = k
  · simp only [Function.comp_apply, if_pos same, keeps a]
  · simp only [Function.comp_apply, if_neg same]

/-- A value that no other row has is given to the row under a key. -/
theorem nodup_updateKey {β : Type*} {value : α → β} {v : β} {change : α → α}
    (keys : (rows.map key).Nodup) (values : (rows.map value).Nodup) (changed : ∀ a, value (change a) = v)
    (fresh : ∀ a ∈ rows, key a ≠ k → value a ≠ v) : ((updateKey key k change rows).map value).Nodup := by
  induction rows with
  | nil => exact List.nodup_nil
  | cons a rest ih =>
    obtain ⟨keyApart, keys⟩ := List.nodup_cons.mp keys
    obtain ⟨valueApart, values⟩ := List.nodup_cons.mp values
    have later := ih keys values fun b member => fresh b (List.mem_cons_of_mem a member)
    refine List.nodup_cons.mpr ⟨fun among => ?_, later⟩
    obtain ⟨b, member, same⟩ := List.mem_map.mp among
    obtain ⟨c, there, rfl⟩ := List.mem_map.mp member
    dsimp only at same
    by_cases here : key a = k
    · rw [if_pos here, changed] at same
      by_cases too : key c = k
      · exact keyApart (List.mem_map.mpr ⟨c, there, too.trans here.symm⟩)
      · rw [if_neg too] at same
        exact fresh c (List.mem_cons_of_mem a there) too same
    · rw [if_neg here] at same
      by_cases other : key c = k
      · rw [if_pos other, changed] at same
        exact fresh a List.mem_cons_self here same.symm
      · rw [if_neg other] at same
        exact valueApart (List.mem_map.mpr ⟨c, there, same⟩)

end Drivebound.Rows
