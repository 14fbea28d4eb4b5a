import Mathlib.Data.List.MinMax

/-! The entry of a key with the greatest version, in a log to which entries are added at any
place. A log that shows each key as its last entry says is followed entry by entry. -/
namespace Drivebound.Latest

variable {α κ : Type*} {key : α → κ} {version : α → ℕ} {log before after : List α} {k : κ} {a b : α}

structure Last (key : α → κ) (version : α → ℕ) (log : List α) (k : κ) (a : α) : Prop where
  member : a ∈ log
  named : key a = k
  greatest : ∀ b ∈ log, key b = k → version b ≤ version a

instance [DecidableEq α] [DecidableEq κ] (key : α → κ) (version : α → ℕ) (log : List α) (k : κ) :
    DecidablePred (Last key version log k) := fun a =>
  decidable_of_iff (a ∈ log ∧ key a = k ∧ ∀ b ∈ log, key b = k → version b ≤ version a)
    ⟨fun ⟨member, named, greatest⟩ => ⟨member, named, greatest⟩,
      fun last => ⟨last.member, last.named, last.greatest⟩⟩

/-- Where no two entries share a version, a key has one last entry. -/
theorem Last.unique (distinct : ∀ a ∈ log, ∀ b ∈ log, version a = version b → a = b)
    (one : Last key version log k a) (two : Last key version log k b) : a = b :=
  distinct a one.member b two.member
    (Nat.le_antisymm (two.greatest a one.member one.named) (one.greatest b two.member two.named))

/-- A key that has an entry has a last one. -/
theorem exists_last [DecidableEq κ] (member : a ∈ log) (named : key a = k) :
    ∃ b, Last key version log k b := by
  have here : a ∈ log.filter (key · = k) := List.mem_filter.mpr ⟨member, decide_eq_true named⟩
  cases greatest : (log.filter (key · = k)).argmax version with
  | none =>
    rw [List.argmax_eq_none.mp greatest] at here
    exact absurd here List.not_mem_nil
  | some b =>
    obtain ⟨there, same⟩ := List.mem_filter.mp (List.argmax_mem greatest)
    refine ⟨b, there, of_decide_eq_true same, fun c other key => ?_⟩
    exact List.le_of_mem_argmax (List.mem_filter.mpr ⟨other, decide_eq_true key⟩) greatest

theorem Last.of_subset (kept : ∀ b ∈ before, b ∈ after) (last : Last key version after k a)
    (member : a ∈ before) : Last key version before k a :=
  ⟨member, last.named, fun b here => last.greatest b (kept b here)⟩

/-- The entry is added, or was there. -/
def Adds (before after : List α) (a : α) : Prop := ∀ b, b ∈ after ↔ b ∈ before ∨ b = a

theorem Adds.kept (adds : Adds before after a) (b : α) (member : b ∈ before) : b ∈ after :=
  (adds b).mpr (.inl member)

theorem Adds.append (log : List α) (a : α) : Adds log (log ++ [a]) a := fun b => by
  rw [List.mem_append, List.mem_singleton]

/-- An entry beyond the others of its key is the last one. -/
theorem Adds.last (adds : Adds before after a)
    (beyond : ∀ b ∈ before, key b = key a → version b ≤ version a) :
    Last key version after (key a) a := by
  refine ⟨(adds a).mpr (.inr rfl), rfl, fun b member named => ?_⟩
  rcases (adds b).mp member with old | rfl
  · exact beyond b old named
  · exact Nat.le_refl _

theorem Adds.last_other (adds : Adds before after a) (different : key a ≠ k) :
    Last key version after k b ↔ Last key version before k b := by
  constructor
  · intro last
    rcases (adds b).mp last.member with old | rfl
    · exact last.of_subset adds.kept old
    · exact absurd last.named different
  · intro last
    refine ⟨adds.kept b last.member, last.named, fun c member named => ?_⟩
    rcases (adds c).mp member with old | rfl
    · exact last.greatest c old named
    · exact absurd named different

end Drivebound.Latest
