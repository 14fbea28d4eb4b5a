import Drivebound.Core.Effects
import Mathlib.Data.List.Basic

/-! Candidates that are tried in their order until one delivers. An exception of the kind that
declines a candidate is noted and the next one is tried; every other exception ends the search. -/
namespace Drivebound.Fallback
open Effects

variable {σ ε ι κ β : Type}

def firstOf (attempt : ι → Act σ ε β) (declined : ε → Option κ) (exhausted : List (ι × κ) → ε) :
    List (ι × κ) → List ι → Act σ ε (ι × List (ι × κ))
  | failures, [] => throw (exhausted failures)
  | failures, candidate :: rest =>
    tryCatchThe ε (attempt candidate >>= fun _ => pure (candidate, failures)) fun e =>
      match declined e with
      | some reason => firstOf attempt declined exhausted (failures ++ [(candidate, reason)]) rest
      | none => throw e

variable {attempt : ι → Act σ ε β} {declined : ε → Option κ} {exhausted : List (ι × κ) → ε}
  {failures : List (ι × κ)} {c : ι} {rest : List ι} {s t : σ}

theorem firstOf_cons_run : (firstOf attempt declined exhausted failures (c :: rest)).run.run s =
    match (attempt c).run.run s with
    | (.ok _, t) => (.ok (c, failures), t)
    | (.error e, t) =>
      match declined e with
      | some reason => (firstOf attempt declined exhausted (failures ++ [(c, reason)]) rest).run.run t
      | none => (.error e, t) := by
  rw [firstOf, Does.tryCatch_run, Does.bind_run]
  generalize (attempt c).run.run s = result
  obtain ⟨value, t⟩ := result
  cases value with
  | ok value => rfl
  | error e =>
    dsimp only
    cases declined e with
    | some reason => rfl
    | none => rfl

/-- An attempt that declines its candidate leaves no trace. -/
def Declines (attempt : ι → Act σ ε β) (declined : ε → Option κ) (s : σ) (failure : ι × κ) : Prop :=
  ∃ e, (attempt failure.1).run.run s = (.error e, s) ∧ declined e = some failure.2

/-- The search goes on behind the candidates that were declined. -/
theorem firstOf_declined {log : List (ι × κ)} (all : ∀ failure ∈ log, Declines attempt declined s failure)
    (exhausted : List (ι × κ) → ε) (failures : List (ι × κ)) (rest : List ι) :
    (firstOf attempt declined exhausted failures (log.map Prod.fst ++ rest)).run.run s =
      (firstOf attempt declined exhausted (failures ++ log) rest).run.run s := by
  induction log generalizing failures with
  | nil => rw [List.map_nil, List.nil_append, List.append_nil]
  | cons failure later ih =>
    obtain ⟨e, tried, noted⟩ := all failure List.mem_cons_self
    rw [List.map_cons, List.cons_append, firstOf_cons_run, tried]
    dsimp only
    rw [noted]
    dsimp only
    rw [ih fun failure among => all failure (List.mem_cons_of_mem _ among), List.append_assoc]
    rfl

/-- The candidates up to the first that does not have the property. -/
theorem first_without {α : Type} (p : α → Prop) (l : List α) : (∀ a ∈ l, p a) ∨
    ∃ before c after, l = before ++ c :: after ∧ (∀ b ∈ before, p b) ∧ ¬p c := by
  induction l with
  | nil => exact .inl fun a member => absurd member List.not_mem_nil
  | cons a rest ih =>
    by_cases here : p a
    · rcases ih with all | ⟨before, c, after, rfl, all, stop⟩
      · exact .inl (List.forall_mem_cons.mpr ⟨here, all⟩)
      · exact .inr ⟨a :: before, c, after, rfl, List.forall_mem_cons.mpr ⟨here, all⟩, stop⟩
    · exact .inr ⟨[], a, rest, rfl, fun b member => absurd member List.not_mem_nil, here⟩

/-- What comes after nothing but such candidates is the first other one, or comes before it. -/
theorem upto_first {α : Type} {p : α → Prop} {before after before' after' : List α} {c c' : α} (stop : ¬p c)
    (split : before ++ c :: after = before' ++ c' :: after') (all : ∀ b ∈ before', p b) : c' ∈ before ∨ c' = c := by
  induction before generalizing before' with
  | nil =>
    cases before' with
    | nil => exact .inr (List.cons.inj split).1.symm
    | cons b later => exact absurd ((List.cons.inj split).1 ▸ all b List.mem_cons_self) stop
  | cons a rest ih =>
    cases before' with
    | nil => exact .inl ((List.cons.inj split).1 ▸ List.mem_cons_self)
    | cons b later =>
      rcases ih (List.cons.inj split).2 fun b among => all b (List.mem_cons_of_mem _ among) with early | here
      · exact .inl (List.mem_cons_of_mem a early)
      · exact .inr here

end Drivebound.Fallback
