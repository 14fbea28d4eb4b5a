import Drivebound.Core.Run
import Mathlib

/-! Counters that end a fixed time after their first hit. However the hits fall, at most twice the limit of
them are within it in any span of that time; and a counter never stands for more hits than the last span had. -/
namespace Drivebound.Windows
open Run

structure Counter where
  count : Nat
  ends : Option Nat
  deriving DecidableEq, Repr

/-- One hit more, on a counter that may have ended or that has no end yet. -/
def hit (span now : Nat) (counter : Option Counter) : Counter :=
  let held := (counter.filter (·.ends.all (now < ·))).getD ⟨0, none⟩
  ⟨held.count + 1, some (held.ends.getD (now + span))⟩

variable {span now count ends : Nat}

theorem hit_none : hit span now none = ⟨1, some (now + span)⟩ := rfl

theorem hit_live (live : now < ends) : hit span now (some ⟨count, some ends⟩) = ⟨count + 1, some ends⟩ := by
  simp [hit, Option.filter, live]

theorem hit_ended (ended : ends ≤ now) : hit span now (some ⟨count, some ends⟩) = ⟨1, some (now + span)⟩ := by
  simp [hit, Option.filter, Nat.not_lt_of_le ended]

theorem hit_endless : hit span now (some ⟨count, none⟩) = ⟨count + 1, some (now + span)⟩ := by
  simp [hit, Option.filter]

/-- A hit either gives the counter a new end or goes on with one that has not ended. -/
theorem hit_cases (span now : Nat) (counter : Option Counter) :
    (∃ before, hit span now counter = ⟨before + 1, some (now + span)⟩ ∧
      (before = 0 ∨ counter = some ⟨before, none⟩)) ∨
    ∃ count ends, counter = some ⟨count, some ends⟩ ∧ now < ends ∧ hit span now counter = ⟨count + 1, some ends⟩ := by
  cases counter with
  | none => exact .inl ⟨0, hit_none, .inl rfl⟩
  | some held =>
    obtain ⟨count, ends⟩ := held
    cases ends with
    | none => exact .inl ⟨count, hit_endless, .inr rfl⟩
    | some ends =>
      by_cases live : now < ends
      · exact .inr ⟨count, ends, rfl, live, hit_live live⟩
      · exact .inl ⟨0, hit_ended (Nat.le_of_not_lt live), .inl rfl⟩

variable {S A : Type*} {step : S → A → Option S}

/-- How many steps of a run are taken from where the condition holds. -/
def tally (step : S → A → Option S) (P : S → A → Prop) [∀ s a, Decidable (P s a)] : S → List A → Nat
  | _, [] => 0
  | s, a :: rest => (step s a).elim 0 fun t => (if P s a then 1 else 0) + tally step P t rest

theorem tally_cons {P : S → A → Prop} [∀ s a, Decidable (P s a)] {s t : S} {a : A} (stepped : step s a = some t)
    (rest : List A) : tally step P s (a :: rest) = (if P s a then 1 else 0) + tally step P t rest := by
  rw [tally, stepped, Option.elim_some]

theorem tally_append {P : S → A → Prop} [∀ s a, Decidable (P s a)] {s t : S} {first second : List A}
    (reached : run step s first = some t) :
    tally step P s (first ++ second) = tally step P s first + tally step P t second := by
  induction first generalizing s with
  | nil =>
    cases reached
    simp [tally]
  | cons a rest ih =>
    obtain ⟨middle, stepped, following⟩ := run_cons_iff.mp reached
    rw [List.cons_append, tally_cons stepped, tally_cons stepped, ih following]
    omega

theorem tally_mono {P Q : S → A → Prop} [∀ s a, Decidable (P s a)] [∀ s a, Decidable (Q s a)]
    (weaker : ∀ s a, P s a → Q s a) (s : S) (labels : List A) : tally step P s labels ≤ tally step Q s labels := by
  induction labels generalizing s with
  | nil => exact Nat.le_refl _
  | cons a rest ih =>
    cases stepped : step s a with
    | none => simp [tally, stepped]
    | some t =>
      rw [tally_cons stepped, tally_cons stepped]
      refine Nat.add_le_add ?_ (ih t)
      by_cases holds : P s a
      · rw [if_pos holds, if_pos (weaker s a holds)]
      · rw [if_neg holds]
        exact Nat.zero_le _

/-- Every step leaves a counter alone or hits it, and the clock goes on. -/
structure Counts (step : S → A → Option S) (clock : S → Nat) (counter : S → Option Counter) (span : Nat)
    (C : S → A → Prop) : Prop where
  forward : ∀ s a t, C s a → step s a = some t → clock s ≤ clock t
  moves : ∀ s a t, C s a → step s a = some t →
    counter t = counter s ∨ counter t = some (hit span (clock s) (counter s))

/-- A step that is let through hits the counter and finds it within the limit. -/
def Limits (step : S → A → Option S) (clock : S → Nat) (counter : S → Option Counter) (span limit : Nat)
    (P : S → A → Prop) : Prop :=
  ∀ s a t, P s a → step s a = some t →
    counter t = some (hit span (clock s) (counter s)) ∧ (hit span (clock s) (counter s)).count ≤ limit

section Bound
variable {clock : S → Nat} {counter : S → Option Counter} {C : S → A → Prop} {limit : Nat} {P : S → A → Prop}
  [∀ s a, Decidable (P s a)] {s t : S} {a : A} {start : Nat} {labels : List A}

/-- A step of the span. -/
abbrev During (clock : S → Nat) (start span : Nat) (P : S → A → Prop) (s : S) (a : A) : Prop :=
  P s a ∧ start ≤ clock s ∧ clock s < start + span

theorem tally_late (counts : Counts step clock counter span C) (along : Along step C s labels)
    (late : start + span ≤ clock s) : tally step (During clock start span P) s labels = 0 := by
  induction labels generalizing s with
  | nil => rfl
  | cons a rest ih =>
    cases stepped : step s a with
    | none => simp [tally, stepped]
    | some t =>
      rw [tally_cons stepped, if_neg fun during => Nat.not_lt_of_le late during.2.2, Nat.zero_add]
      exact ih (along.2 t stepped) (Nat.le_trans late (counts.forward s a t along.1 stepped))

/-- A counter that lasts to the end of the span lets through what is left of its limit. -/
theorem tally_covered (counts : Counts step clock counter span C) (limits : Limits step clock counter span limit P)
    (along : Along step C s labels) (held : counter s = some ⟨count, some ends⟩) (covers : start + span ≤ ends) :
    tally step (During clock start span P) s labels ≤ limit - count := by
  induction labels generalizing s count with
  | nil => exact Nat.zero_le _
  | cons a rest ih =>
    by_cases late : start + span ≤ clock s
    · rw [tally_late counts along late]
      exact Nat.zero_le _
    · cases stepped : step s a with
      | none => simp [tally, stepped]
      | some t =>
        have hits := @hit_live span (clock s) count ends (by omega)
        have later := along.2 t stepped
        rw [tally_cons stepped]
        by_cases during : During clock start span P s a
        · obtain ⟨after, enough⟩ := limits s a t during.1 stepped
          rw [held, hits] at after enough
          have left := ih later after
          rw [if_pos during]
          have enough : count + 1 ≤ limit := enough
          omega
        · rw [if_neg during, Nat.zero_add]
          rcases counts.moves s a t along.1 stepped with same | moved
          · exact ih later (same.trans held)
          · rw [held, hits] at moved
            exact Nat.le_trans (ih later moved) (by omega)

/-- A hit after which the counter lasts to the end of the span. -/
theorem tally_covering (counts : Counts step clock counter span C) (limits : Limits step clock counter span limit P)
    (along : Along step C s (a :: labels)) (stepped : step s a = some t)
    (moved : counter t = some (hit span (clock s) (counter s)))
    (hits : hit span (clock s) (counter s) = ⟨count + 1, some ends⟩) (covers : start + span ≤ ends) :
    tally step (During clock start span P) s (a :: labels) ≤ limit - count := by
  have rest := tally_covered counts limits (along.2 t stepped) (moved.trans (congrArg some hits)) covers
  rw [tally_cons stepped]
  by_cases during : During clock start span P s a
  · have enough := (limits s a t during.1 stepped).2
    rw [hits] at enough
    have enough : count + 1 ≤ limit := enough
    rw [if_pos during]
    omega
  · rw [if_neg during]
    omega

/-- What the counter has counted so far. -/
def taken (counter : Option Counter) : Nat := (counter.map (·.count)).getD 0

/-- Within the span, the counter that was there lets through what is left of its limit, and one more its limit. -/
theorem tally_begun (counts : Counts step clock counter span C) (limits : Limits step clock counter span limit P)
    (along : Along step C s labels) (begun : start ≤ clock s) :
    tally step (During clock start span P) s labels ≤ (limit - taken (counter s)) + limit := by
  induction labels generalizing s with
  | nil => exact Nat.zero_le _
  | cons a rest ih =>
    cases stepped : step s a with
    | none => simp [tally, stepped]
    | some t =>
      have later := ih (along.2 t stepped) (Nat.le_trans begun (counts.forward s a t along.1 stepped))
      by_cases moved : counter t = some (hit span (clock s) (counter s))
      · obtain ⟨before, hits, -⟩ | ⟨count, ends, held, live, hits⟩ := hit_cases span (clock s) (counter s)
        · have covers : start + span ≤ clock s + span := by omega
          have all := tally_covering counts limits along stepped moved hits covers
          omega
        · rw [moved, hits] at later
          rw [tally_cons stepped, held]
          simp only [taken, Option.map_some, Option.getD_some] at later ⊢
          by_cases during : During clock start span P s a
          · have enough := (limits s a t during.1 stepped).2
            rw [hits] at enough
            have enough : count + 1 ≤ limit := enough
            rw [if_pos during]
            omega
          · rw [if_neg during]
            omega
      · have same := (counts.moves s a t along.1 stepped).resolve_right moved
        have out : ¬During clock start span P s a := fun during => moved (limits s a t during.1 stepped).1
        rw [tally_cons stepped, if_neg out, Nat.zero_add, ← same]
        exact later

/-- In any span of the counter's time, at most twice its limit is let through. -/
theorem tally_during (counts : Counts step clock counter span C) (limits : Limits step clock counter span limit P)
    (along : Along step C s labels) (start : Nat) :
    tally step (During clock start span P) s labels ≤ 2 * limit := by
  induction labels generalizing s with
  | nil => exact Nat.zero_le _
  | cons a rest ih =>
    by_cases begun : start ≤ clock s
    · have all := tally_begun counts limits along begun
      omega
    · cases stepped : step s a with
      | none => simp [tally, stepped]
      | some t =>
        rw [tally_cons stepped, if_neg fun during => begun during.2.1, Nat.zero_add]
        exact ih (along.2 t stepped)

end Bound

section Recent
variable {clock : S → Nat} {counter : S → Option Counter} {H : S → A → Prop} [∀ s a, Decidable (H s a)]
  {s t : S} {a : A} {labels : List A}

/-- The counter only counts steps that may hit it, and it may be dropped. -/
structure Earned (step : S → A → Option S) (clock : S → Nat) (counter : S → Option Counter) (span : Nat)
    (H : S → A → Prop) : Prop where
  forward : ∀ s a t, step s a = some t → clock s ≤ clock t
  moves : ∀ s a t, step s a = some t → counter t = counter s ∨ counter t = none ∨
    H s a ∧ counter t = some (hit span (clock s) (counter s))

/-- The counter has an end, and counts hits of the span before that. -/
def Counted (step : S → A → Option S) (clock : S → Nat) (counter : S → Option Counter) (span : Nat) (H : S → A → Prop)
    [∀ s a, Decidable (H s a)] (s t : S) (labels : List A) : Prop :=
  ∀ held ∈ counter t, ∃ ends, held.ends = some ends ∧ ends ≤ clock t + span ∧
    held.count ≤ tally step (fun s a => H s a ∧ ends ≤ clock s + span) s labels

theorem counted_step (earned : Earned step clock counter span H) {middle : S}
    (counted : Counted step clock counter span H s middle labels) (reached : run step s labels = some middle)
    (stepped : step middle a = some t) : Counted step clock counter span H s t (labels ++ [a]) := by
  have longer : ∀ ends, tally step (fun s a => H s a ∧ ends ≤ clock s + span) s (labels ++ [a]) =
      tally step (fun s a => H s a ∧ ends ≤ clock s + span) s labels +
        if H middle a ∧ ends ≤ clock middle + span then 1 else 0 := by
    intro ends
    rw [tally_append reached, tally_cons stepped]
    rfl
  have forward := earned.forward middle a t stepped
  intro held here
  rcases earned.moves middle a t stepped with same | dropped | ⟨hits, moved⟩
  · rw [same] at here
    obtain ⟨ends, ended, soon, counts⟩ := counted held here
    exact ⟨ends, ended, by omega, by rw [longer]; omega⟩
  · rw [dropped] at here
    cases here
  · rw [moved] at here
    cases here
    obtain ⟨before, fresh, rfl | endless⟩ | ⟨count, ends, old, live, goes⟩ := hit_cases span (clock middle) (counter middle)
    · rw [fresh]
      refine ⟨clock middle + span, rfl, by omega, ?_⟩
      rw [longer, if_pos ⟨hits, Nat.le_refl _⟩]
      exact Nat.le_add_left _ _
    · obtain ⟨ends, ended, -⟩ := counted _ endless
      cases ended
    · rw [goes]
      obtain ⟨ends', ended, soon, counts⟩ := counted _ old
      cases ended
      refine ⟨ends, rfl, by omega, ?_⟩
      rw [longer, if_pos ⟨hits, soon⟩]
      exact Nat.succ_le_succ counts

theorem counted_run (earned : Earned step clock counter span H) (empty : counter s = none)
    (reached : run step s labels = some t) : Counted step clock counter span H s t labels := by
  induction labels using List.reverseRecOn generalizing t with
  | nil =>
    cases reached
    intro held here
    rw [empty] at here
    cases here
  | append_singleton labels a ih =>
    obtain ⟨middle, before, last⟩ := run_append_iff.mp reached
    obtain ⟨t', stepped, rest⟩ := run_cons_iff.mp last
    cases rest
    exact counted_step earned (ih before) before stepped

/-- The next hit finds a count that the hits of the last span account for. -/
theorem count_earned (earned : Earned step clock counter span H) (empty : counter s = none)
    (reached : run step s labels = some t) :
    (hit span (clock t) (counter t)).count ≤
      tally step (fun s a => H s a ∧ clock t < clock s + span) s labels + 1 := by
  have counted := counted_run earned empty reached
  obtain ⟨before, fresh, rfl | endless⟩ | ⟨count, ends, old, live, goes⟩ := hit_cases span (clock t) (counter t)
  · rw [fresh]
    exact Nat.le_add_left _ _
  · obtain ⟨ends, ended, -⟩ := counted _ endless
    cases ended
  · rw [goes]
    obtain ⟨ends', ended, -, counts⟩ := counted _ old
    cases ended
    refine Nat.succ_le_succ (Nat.le_trans counts (tally_mono ?_ s labels))
    exact fun s a within => ⟨within.1, by omega⟩

end Recent

end Drivebound.Windows
