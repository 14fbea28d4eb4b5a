import Mathlib.Data.List.Basic
import Mathlib.Data.List.Pairwise

/-! A loop that makes one attempt after another, each with the next of the answers it gets.
What an attempt did is a list of events; a number that every attempt which goes on makes
smaller bounds the loop, whatever the answers are. -/
namespace Drivebound.Attempts

variable {S A E O : Type*}

inductive Next (S O : Type*) where
  | again (state : S)
  | ended (outcome : O)

/-- At most so many turns of the loop; without an outcome it is still running. -/
def attempts (turn : S → A → List E × Next S O) : Nat → S → (Nat → A) → List E × Option O
  | 0, _, _ => ([], none)
  | turns + 1, s, answers =>
    match turn s (answers 0) with
    | (log, .ended outcome) => (log, some outcome)
    | (log, .again t) =>
      let later := attempts turn turns t fun n => answers (n + 1)
      (log ++ later.1, later.2)

variable {turn : S → A → List E × Next S O} {s t : S} {answers : Nat → A} {log : List E} {outcome : O}

theorem attempts_ended (turned : turn s (answers 0) = (log, .ended outcome)) (turns : Nat) :
    attempts turn (turns + 1) s answers = (log, some outcome) := by
  rw [attempts, turned]

theorem attempts_again (turned : turn s (answers 0) = (log, .again t)) (turns : Nat) :
    attempts turn (turns + 1) s answers =
      (log ++ (attempts turn turns t fun n => answers (n + 1)).1,
        (attempts turn turns t fun n => answers (n + 1)).2) := by
  rw [attempts, turned]

/-- A loop that has ended is not changed by more turns. -/
theorem attempts_stable (few : Nat) (ended : attempts turn few s answers = (log, some outcome)) (more : few ≤ many) :
    attempts turn many s answers = (log, some outcome) := by
  induction few generalizing s answers log many with
  | zero => cases ended
  | succ few ih =>
    obtain ⟨many, rfl⟩ := Nat.exists_eq_add_of_le' (Nat.lt_of_lt_of_le few.succ_pos more)
    cases turned : turn s (answers 0) with
    | mk here next =>
      cases next with
      | ended result =>
        rw [attempts_ended turned] at ended ⊢
        exact ended
      | again t =>
        rw [attempts_again turned] at ended ⊢
        obtain ⟨first, last⟩ := Prod.mk.inj ended
        rw [ih (Prod.ext rfl last) (Nat.le_of_succ_le_succ more)]
        exact Prod.ext first rfl

section Measure

variable {Inv : S → Prop} {size : S → Nat}
  (shrinks : ∀ s a log t, Inv s → turn s a = (log, .again t) → Inv t ∧ size t < size s)
include shrinks

/-- A loop whose attempts make something smaller ends. -/
theorem attempts_end (s : S) (holds : Inv s) (answers : Nat → A) (enough : size s < turns) :
    ∃ log outcome, attempts turn turns s answers = (log, some outcome) := by
  induction turns generalizing s answers with
  | zero => exact absurd enough (Nat.not_lt_zero _)
  | succ turns ih =>
    cases turned : turn s (answers 0) with
    | mk here next =>
      cases next with
      | ended outcome => exact ⟨here, outcome, attempts_ended turned turns⟩
      | again t =>
        obtain ⟨kept, smaller⟩ := shrinks s _ _ t holds turned
        obtain ⟨log, outcome, rest⟩ := ih t kept (fun n => answers (n + 1)) (by omega)
        exact ⟨here ++ log, outcome, by rw [attempts_again turned, rest]⟩

end Measure

/-- What is counted at most so often in a turn. -/
theorem attempts_count (counts : E → Bool) (bound : Nat) (few : ∀ s a, (turn s a).1.countP counts ≤ bound)
    (turns : Nat) (s : S) (answers : Nat → A) :
    (attempts turn turns s answers).1.countP counts ≤ bound * turns := by
  induction turns generalizing s answers with
  | zero => exact Nat.zero_le _
  | succ turns ih =>
    have here := few s (answers 0)
    cases turned : turn s (answers 0) with
    | mk log next =>
      replace here : log.countP counts ≤ bound := by simpa only [turned] using here
      rw [Nat.mul_succ]
      cases next with
      | ended outcome =>
        rw [attempts_ended turned]
        exact Nat.le_add_left_of_le here
      | again t =>
        have later := ih t fun n => answers (n + 1)
        rw [attempts_again turned, List.countP_append]
        omega

/-- What every last turn gives. -/
theorem attempts_outcome {Q : O → Prop} (gives : ∀ s a log outcome, turn s a = (log, .ended outcome) → Q outcome)
    (ended : attempts turn turns s answers = (log, some outcome)) : Q outcome := by
  induction turns generalizing s answers log with
  | zero => cases ended
  | succ turns ih =>
    cases turned : turn s (answers 0) with
    | mk here next =>
      cases next with
      | ended result =>
        rw [attempts_ended turned] at ended
        obtain ⟨rfl, same⟩ := Prod.mk.inj ended
        cases same
        exact gives s _ _ _ turned
      | again t =>
        rw [attempts_again turned] at ended
        exact ih (Prod.ext rfl (Prod.mk.inj ended).2)

/-- Events in order: those of a turn are, and what comes after it only has events that every
one of them goes before. -/
theorem attempts_pairwise {R : E → E → Prop} {From : S → E → Prop}
    (ordered : ∀ s a, (turn s a).1.Pairwise R ∧ ∀ e ∈ (turn s a).1, From s e)
    (later : ∀ s a log t, turn s a = (log, .again t) →
      ∀ f, From t f → From s f ∧ ∀ e ∈ log, R e f)
    (turns : Nat) (s : S) (answers : Nat → A) :
    (attempts turn turns s answers).1.Pairwise R ∧ ∀ e ∈ (attempts turn turns s answers).1, From s e := by
  induction turns generalizing s answers with
  | zero => exact ⟨List.Pairwise.nil, fun e member => absurd member List.not_mem_nil⟩
  | succ turns ih =>
    have here := ordered s (answers 0)
    cases turned : turn s (answers 0) with
    | mk log next =>
      rw [turned] at here
      cases next with
      | ended outcome =>
        rw [attempts_ended turned]
        exact here
      | again t =>
        have rest := ih t fun n => answers (n + 1)
        rw [attempts_again turned]
        constructor
        · rw [List.pairwise_append]
          exact ⟨here.1, rest.1, fun e early f late => (later s _ log t turned f (rest.2 f late)).2 e early⟩
        · intro e member
          rcases List.mem_append.mp member with early | late
          · exact here.2 e early
          · exact (later s _ log t turned e (rest.2 e late)).1

end Drivebound.Attempts
