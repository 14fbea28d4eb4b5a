import Mathlib.Data.List.Sort
import Drivebound.Core.Latest

/-! A log replayed in the order of its versions, wherever its entries stand in it. An entry that
is added beyond the others takes its effect after theirs. -/
namespace Drivebound.Latest

variable {α σ : Type*} {version : α → ℕ} {before after : List α} {a : α} {p : α → Bool}

def inOrder (version : α → ℕ) (log : List α) : List α :=
  log.insertionSort fun a b => version a ≤ version b

def replay (effect : α → σ → σ) (version : α → ℕ) (initial : σ) (log : List α) : σ :=
  (inOrder version log).foldl (fun s a => effect a s) initial

theorem inOrder_perm (version : α → ℕ) (log : List α) : (inOrder version log).Perm log :=
  List.perm_insertionSort _ log

theorem inOrder_sorted (version : α → ℕ) (log : List α) :
    (inOrder version log).Pairwise fun a b => version a ≤ version b := by
  have total : Std.Total fun a b : α => version a ≤ version b := ⟨fun a b => Nat.le_total _ _⟩
  have trans : IsTrans α fun a b => version a ≤ version b := ⟨fun _ _ _ => Nat.le_trans⟩
  exact List.pairwise_insertionSort _ log

/-- The order of a log whose entries have versions of their own does not depend on where they stand. -/
theorem inOrder_unique {sorted : List α} (distinct : ∀ a ∈ after, ∀ b ∈ after, version a = version b → a = b)
    (perm : sorted.Perm after) (order : sorted.Pairwise fun a b => version a ≤ version b) :
    inOrder version after = sorted := by
  refine ((inOrder_perm version after).trans perm.symm).eq_of_pairwise ?_
    (inOrder_sorted version after) order
  intro a b here there le ge
  exact distinct a ((inOrder_perm version after).mem_iff.mp here) b (perm.mem_iff.mp there)
    (Nat.le_antisymm le ge)

theorem Adds.perm (adds : Adds before after a) (absent : a ∉ before) (old : before.Nodup)
    (new : after.Nodup) : (before ++ [a]).Perm after := by
  refine (List.perm_ext_iff_of_nodup ?_ new).mpr fun b => ?_
  · refine List.nodup_append.mpr ⟨old, List.nodup_singleton a, fun b here c there same => ?_⟩
    rw [List.mem_singleton.mp there] at same
    exact absent (same ▸ here)
  · rw [adds b, List.mem_append, List.mem_singleton]

/-- The entry that is added comes last. -/
theorem Adds.ordered (adds : Adds before after a) (beyond : ∀ b ∈ before, version b < version a)
    (old : before.Nodup) (new : after.Nodup)
    (distinct : ∀ a ∈ after, ∀ b ∈ after, version a = version b → a = b) :
    inOrder version after = inOrder version before ++ [a] := by
  have absent : a ∉ before := fun here => absurd (beyond a here) (Nat.lt_irrefl _)
  have perm := adds.perm absent old new
  refine inOrder_unique distinct (((inOrder_perm version before).append_right [a]).trans perm) ?_
  refine List.pairwise_append.mpr ⟨inOrder_sorted version before, List.pairwise_singleton _ _, ?_⟩
  intro b here c there
  rw [List.mem_singleton.mp there]
  exact Nat.le_of_lt (beyond b ((inOrder_perm version before).mem_iff.mp here))

/-- It takes its effect on what the others lead to. -/
theorem Adds.replayed {effect : α → σ → σ} {initial : σ} (adds : Adds before after a)
    (beyond : ∀ b ∈ before, version b < version a) (old : before.Nodup) (new : after.Nodup)
    (distinct : ∀ a ∈ after, ∀ b ∈ after, version a = version b → a = b) :
    replay effect version initial after = effect a (replay effect version initial before) := by
  unfold replay
  rw [adds.ordered beyond old new distinct, List.foldl_append, List.foldl_cons, List.foldl_nil]

theorem Adds.filter (adds : Adds before after a) (passes : p a = true) :
    Adds (before.filter p) (after.filter p) a := by
  intro b
  rw [List.mem_filter, List.mem_filter, adds b]
  constructor
  · rintro ⟨old | rfl, here⟩
    · exact .inl ⟨old, here⟩
    · exact .inr rfl
  · rintro (⟨old, here⟩ | rfl)
    · exact ⟨.inl old, here⟩
    · exact ⟨.inr rfl, passes⟩

/-- What the filter leaves out may be added anywhere. -/
theorem Adds.replayed_other {effect : α → σ → σ} {initial : σ} (adds : Adds before after a)
    (skips : p a = false) (old : before.Nodup) (new : after.Nodup)
    (distinct : ∀ a ∈ after, ∀ b ∈ after, version a = version b → a = b) :
    replay effect version initial (after.filter p) = replay effect version initial (before.filter p) := by
  have perm : (before.filter p).Perm (after.filter p) := by
    refine (List.perm_ext_iff_of_nodup (old.filter p) (new.filter p)).mpr fun b => ?_
    rw [List.mem_filter, List.mem_filter, adds b]
    refine ⟨fun ⟨here, passes⟩ => ⟨.inl here, passes⟩, ?_⟩
    rintro ⟨here | rfl, passes⟩
    · exact ⟨here, passes⟩
    · exact absurd (passes.symm.trans skips) nofun
  have apart : ∀ a ∈ after.filter p, ∀ b ∈ after.filter p, version a = version b → a = b :=
    fun a here b there => distinct a (List.mem_filter.mp here).1 b (List.mem_filter.mp there).1
  unfold replay
  rw [inOrder_unique apart ((inOrder_perm version _).trans perm) (inOrder_sorted version _)]

end Drivebound.Latest
