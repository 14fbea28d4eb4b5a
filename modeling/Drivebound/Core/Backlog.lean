import Mathlib

/-! Items that wait in a table, and passes that work on the first so many of them: when an item
leaves sooner or later, and when it is starved by items that never leave. -/
namespace Drivebound

/-- An item stays where the work on it fails, and a failure may end the pass. -/
structure Backlog (σ ι κ α : Type*) where
  waiting : σ → List ι
  priority : ι → κ
  /-- What a pass may select. -/
  due : α → ι → Prop
  /-- What it selects, in its order. -/
  order : α → σ → List ι
  /-- The state after the work on one item, and whether the pass goes on. -/
  work : α → σ → ι → σ × Bool
  limit : Nat

namespace Backlog

variable {σ ι κ α : Type*} (B : Backlog σ ι κ α)

def process (a : α) : σ → List ι → σ
  | s, [] => s
  | s, i :: rest => if (B.work a s i).2 then process a (B.work a s i).1 rest else (B.work a s i).1

def pass (a : α) (s : σ) : σ := B.process a s ((B.order a s).take B.limit)

/-- The state after so many passes. -/
def after (inputs : Nat → α) (s : σ) : Nat → σ
  | 0 => s
  | n + 1 => B.pass (inputs n) (after inputs s n)

theorem after_add (inputs : Nat → α) (s : σ) (n m : Nat) :
    B.after inputs s (n + m) = B.after (fun k => inputs (n + k)) (B.after inputs s n) m := by
  induction m with
  | zero => rfl
  | succ m ih =>
    rw [← Nat.add_assoc, after, after, ih]

theorem after_congr {inputs others : Nat → α} (s : σ) {n : Nat} (same : ∀ k < n, inputs k = others k) :
    B.after inputs s n = B.after others s n := by
  induction n with
  | zero => rfl
  | succ n ih => rw [after, after, ih fun k less => same k (Nat.lt_succ_of_lt less), same n (Nat.lt_succ_self n)]

section Ordered
variable [LinearOrder κ]

/-- What an item needs to get its turn: it can be worked on itself, nothing before it ends the
pass, and too few items before it are stuck to fill one. -/
def Open (stuck stops : σ → ι → Bool) (s : σ) (p : ι) : Prop :=
  stuck s p = false ∧ (∀ i ∈ B.waiting s, B.priority i ≤ B.priority p → stops s i = false) ∧
    ((B.waiting s).filter fun i => stuck s i && decide (B.priority i ≤ B.priority p)).length < B.limit

/-- Work that does not shrink the state leaves it like it was, and the item was stuck. -/
structure Shrinks (size : σ → Nat) (Alike : σ → σ → Prop) (stuck stops : σ → ι → Bool) : Prop where
  order_nodup : ∀ a s, (B.order a s).Nodup
  order_waiting : ∀ a s, ∀ i ∈ B.order a s, i ∈ B.waiting s ∧ B.due a i
  order_sorted : ∀ a s, (B.order a s).Pairwise fun i j => B.priority i ≤ B.priority j
  refl : ∀ s, Alike s s
  trans : ∀ {s t u}, Alike s t → Alike t u → Alike s u
  waiting_alike : ∀ {s t}, Alike s t → ∀ i, i ∈ B.waiting t ↔ i ∈ B.waiting s
  stuck_alike : ∀ {s t}, Alike s t → ∀ i, stuck t i = stuck s i
  stops_alike : ∀ {s t}, Alike s t → ∀ i, stops t i = stops s i
  size_le : ∀ a s i, size (B.work a s i).1 ≤ size s
  inert : ∀ a s, ∀ i ∈ B.waiting s, B.due a i → size (B.work a s i).1 = size s →
    Alike s (B.work a s i).1 ∧ stuck s i = true ∧ ((B.work a s i).2 = false → stops s i = true)

section Draining
variable {B} {size : σ → Nat} {Alike : σ → σ → Prop} {stuck stops : σ → ι → Bool}

theorem process_le (laws : B.Shrinks size Alike stuck stops) (a : α) (s : σ) (batch : List ι) :
    size (B.process a s batch) ≤ size s := by
  induction batch generalizing s with
  | nil => exact Nat.le_refl _
  | cons i rest ih =>
    rw [process]
    split
    · exact Nat.le_trans (ih _) (laws.size_le a s i)
    · exact laws.size_le a s i

/-- A batch that shrinks nothing is stuck as far as the pass has come. -/
theorem process_inert (laws : B.Shrinks size Alike stuck stops) (a : α) (s : σ) (batch : List ι)
    (waits : ∀ i ∈ batch, i ∈ B.waiting s ∧ B.due a i) (same : size (B.process a s batch) = size s) :
    (∀ i ∈ batch, stuck s i = true) ∨
      ∃ front i rest, batch = front ++ i :: rest ∧ stops s i = true ∧ ∀ j ∈ front, stuck s j = true := by
  induction batch generalizing s with
  | nil => exact .inl fun i absent => absurd absent List.not_mem_nil
  | cons i rest ih =>
    rw [process] at same
    obtain ⟨waiting, due⟩ := waits i List.mem_cons_self
    split at same
    · have later := process_le laws a (B.work a s i).1 rest
      have first := laws.size_le a s i
      obtain ⟨alike, held, -⟩ := laws.inert a s i waiting due (by omega)
      have others : ∀ j ∈ rest, j ∈ B.waiting (B.work a s i).1 ∧ B.due a j := by
        intro j member
        obtain ⟨there, ready⟩ := waits j (List.mem_cons_of_mem _ member)
        exact ⟨(laws.waiting_alike alike j).mpr there, ready⟩
      have known := ih (B.work a s i).1 others (by omega)
      rcases known with all | ⟨front, j, back, rfl, ends, before⟩
      · refine .inl fun j member => ?_
        rcases List.mem_cons.mp member with rfl | among
        · exact held
        · rw [← laws.stuck_alike alike j]
          exact all j among
      · refine .inr ⟨i :: front, j, back, rfl, ?_, fun k member => ?_⟩
        · rw [← laws.stops_alike alike j]
          exact ends
        · rcases List.mem_cons.mp member with rfl | among
          · exact held
          · rw [← laws.stuck_alike alike k]
            exact before k among
    · next ended =>
      rw [Bool.not_eq_true] at ended
      obtain ⟨-, -, ends⟩ := laws.inert a s i waiting due same
      exact .inr ⟨[], i, rest, rfl, ends ended, fun j absent => absurd absent List.not_mem_nil⟩

/-- A pass that selects an open item shrinks the state. -/
theorem pass_shrinks (laws : B.Shrinks size Alike stuck stops) {a : α} {s : σ} {p : ι} (selected : p ∈ B.order a s)
    (open_ : B.Open stuck stops s p) : size (B.pass a s) < size s := by
  obtain ⟨free, clear, few⟩ := open_
  by_contra kept
  have same : size (B.process a s ((B.order a s).take B.limit)) = size s :=
    Nat.le_antisymm (process_le laws a s _) (Nat.le_of_not_lt kept)
  have sorted := laws.order_sorted a s
  have split := List.take_append_drop B.limit (B.order a s)
  have waits : ∀ i ∈ (B.order a s).take B.limit, i ∈ B.waiting s ∧ B.due a i :=
    fun i member => laws.order_waiting a s i (List.mem_of_mem_take member)
  rcases process_inert laws a s _ waits same with all | ⟨front, i, rest, cut, ends, before⟩
  · -- the whole batch is stuck, so it is full, and it stands before the item
    rw [← split, List.mem_append] at selected
    rcases selected with within | behind
    · rw [all p within] at free
      cases free
    · have full : ((B.order a s).take B.limit).length = B.limit := by
        have some_ : 0 < ((B.order a s).drop B.limit).length := List.length_pos_of_mem behind
        rw [List.length_drop] at some_
        rw [List.length_take]
        omega
      rw [← split, List.pairwise_append] at sorted
      have among : (B.order a s).take B.limit ⊆
          (B.waiting s).filter fun i => stuck s i && decide (B.priority i ≤ B.priority p) := by
        intro i member
        refine List.mem_filter.mpr ⟨(waits i member).1, ?_⟩
        rw [all i member, Bool.true_and]
        exact decide_eq_true (sorted.2.2 i member p behind)
      have fewer := (((laws.order_nodup a s).sublist (List.take_sublist _ _)).subperm among).length_le
      omega
  · have whole : B.order a s = front ++ i :: (rest ++ (B.order a s).drop B.limit) := by
      rw [← List.cons_append, ← List.append_assoc, ← cut, split]
    have waiting : i ∈ B.waiting s := by
      refine (waits i ?_).1
      rw [cut]
      exact List.mem_append_right _ List.mem_cons_self
    have after_ : ¬B.priority i ≤ B.priority p := by
      intro earlier
      rw [clear i waiting earlier] at ends
      cases ends
    rw [whole, List.pairwise_append, List.pairwise_cons] at sorted
    rw [whole, List.mem_append, List.mem_cons] at selected
    rcases selected with first | rfl | later
    · rw [before p first] at free
      cases free
    · exact after_ (le_refl _)
    · exact after_ (sorted.2.1.1 p later)

/-- An item that is open whenever it waits leaves after as many passes as the state is large. -/
theorem drains (laws : B.Shrinks size Alike stuck stops) {inputs : Nat → α} {s : σ} {p : ι}
    (selected : ∀ n, p ∈ B.waiting (B.after inputs s n) → p ∈ B.order (inputs n) (B.after inputs s n))
    (open_ : ∀ n, p ∈ B.waiting (B.after inputs s n) → B.Open stuck stops (B.after inputs s n) p) :
    ∃ n ≤ size s + 1, p ∉ B.waiting (B.after inputs s n) := by
  by_contra stays
  push Not at stays
  have shrunk : ∀ n ≤ size s + 1, size (B.after inputs s n) + n ≤ size s := by
    intro n
    induction n with
    | zero => exact fun _ => Nat.le_refl _
    | succ n ih =>
      intro within
      have here := stays n (by omega)
      have less := pass_shrinks laws (selected n here) (open_ n here)
      have sum := ih (by omega)
      rw [after]
      omega
  have all := shrunk (size s + 1) (Nat.le_refl _)
  omega

end Draining

end Ordered

/-- What is stuck stays so and stays, and no work moves another item. -/
structure Persists (stuck stops : σ → ι → Bool) : Prop where
  order_nodup : ∀ a s, (B.order a s).Nodup
  order_waiting : ∀ a s, ∀ i ∈ B.order a s, i ∈ B.waiting s ∧ B.due a i
  frame : ∀ a s i j, i ∈ B.waiting s → j ∈ B.waiting s → j ≠ i → i ∈ B.waiting (B.work a s j).1
  gone : ∀ a s i j, i ∈ B.waiting (B.work a s j).1 → i ∈ B.waiting s
  stuck_waits : ∀ a s i, i ∈ B.waiting s → stuck s i = true → i ∈ B.waiting (B.work a s i).1
  stuck_stays : ∀ a s i j, i ∈ B.waiting s → j ∈ B.waiting s → stuck s i = true → stuck (B.work a s j).1 i = true
  stops_stays : ∀ a s i j, i ∈ B.waiting s → j ∈ B.waiting s → stops s i = true → stops (B.work a s j).1 i = true
  stops_ends : ∀ a s i, i ∈ B.waiting s → B.due a i → stops s i = true → (B.work a s i).2 = false
  stops_stuck : ∀ s i, stops s i = true → stuck s i = true

section Starving
variable {B} {stuck stops : σ → ι → Bool}

/-- What a batch leaves of the items that were stuck before it. -/
theorem process_keeps (laws : B.Persists stuck stops) (a : α) (s : σ) (batch : List ι) (apart : batch.Nodup)
    (waits : ∀ i ∈ batch, i ∈ B.waiting s) {i : ι} (waiting : i ∈ B.waiting s) :
    (i ∉ batch ∨ stuck s i = true → i ∈ B.waiting (B.process a s batch)) ∧
      (stuck s i = true → stuck (B.process a s batch) i = true) ∧
      (stops s i = true → stops (B.process a s batch) i = true) := by
  induction batch generalizing s with
  | nil => exact ⟨fun _ => waiting, id, id⟩
  | cons j rest ih =>
    rw [List.nodup_cons] at apart
    have own := waits j List.mem_cons_self
    have there : i ∉ j :: rest ∨ stuck s i = true → i ∈ B.waiting (B.work a s j).1 := by
      rintro (absent | held)
      · exact laws.frame a s i j waiting own fun same => absent (same ▸ List.mem_cons_self)
      · by_cases same : j = i
        · rw [same]
          exact laws.stuck_waits a s i waiting held
        · exact laws.frame a s i j waiting own same
    have held := laws.stuck_stays a s i j waiting own
    have ends := laws.stops_stays a s i j waiting own
    rw [process]
    split
    · have others : ∀ k ∈ rest, k ∈ B.waiting (B.work a s j).1 := fun k member =>
        laws.frame a s k j (waits k (List.mem_cons_of_mem _ member)) own fun same => apart.1 (same ▸ member)
      have later := fun here => ih (B.work a s j).1 apart.2 others here
      refine ⟨fun kept => ?_, fun stuck_ => ?_, fun stops_ => ?_⟩
      · refine (later (there kept)).1 ?_
        rcases kept with absent | stuck_
        · exact .inl fun member => absent (List.mem_cons_of_mem _ member)
        · exact .inr (held stuck_)
      · exact (later (there (.inr stuck_))).2.1 (held stuck_)
      · exact (later (there (.inr (laws.stops_stuck s i stops_)))).2.2 (ends stops_)
    · exact ⟨there, held, ends⟩

/-- Nothing behind an item that ends the pass is worked on. -/
theorem process_stops (laws : B.Persists stuck stops) (a : α) (s : σ) (front rest : List ι) {i : ι}
    (apart : (front ++ i :: rest).Nodup) (waits : ∀ j ∈ front ++ i :: rest, j ∈ B.waiting s)
    (due : B.due a i) (ends : stops s i = true) : B.process a s (front ++ i :: rest) = B.process a s (front ++ [i]) := by
  induction front generalizing s with
  | nil =>
    have ended := laws.stops_ends a s i (waits i List.mem_cons_self) due ends
    rw [List.nil_append, List.nil_append, process, process, ended, if_neg Bool.false_ne_true, if_neg Bool.false_ne_true]
  | cons j front ih =>
    rw [List.cons_append, List.nodup_cons] at apart
    have own := waits j List.mem_cons_self
    have behind : i ∈ front ++ i :: rest := List.mem_append_right _ List.mem_cons_self
    have still := laws.stops_stays a s i j (waits i (List.mem_cons_of_mem _ behind)) own ends
    rw [List.cons_append, List.cons_append, process, process]
    split
    · refine ih (B.work a s j).1 apart.2 (fun k member => ?_) still
      exact laws.frame a s k j (waits k (List.mem_cons_of_mem _ member)) own fun same => apart.1 (same ▸ member)
    · rfl

theorem process_gone (laws : B.Persists stuck stops) (a : α) (s : σ) (batch : List ι) {i : ι}
    (waiting : i ∈ B.waiting (B.process a s batch)) : i ∈ B.waiting s := by
  induction batch generalizing s with
  | nil => exact waiting
  | cons j rest ih =>
    rw [process] at waiting
    split at waiting
    · exact laws.gone a s i j (ih _ waiting)
    · exact laws.gone a s i j waiting

theorem after_gone (laws : B.Persists stuck stops) {inputs : Nat → α} {s : σ} {p : ι} {n m : Nat} (le : n ≤ m)
    (waiting : p ∈ B.waiting (B.after inputs s m)) : p ∈ B.waiting (B.after inputs s n) := by
  induction m with
  | zero =>
    obtain rfl := Nat.le_zero.mp le
    exact waiting
  | succ m ih =>
    rcases Nat.lt_or_eq_of_le le with less | rfl
    · exact ih (Nat.le_of_lt_succ less) (process_gone laws _ _ _ waiting)
    · exact waiting

variable {p : ι}

/-- Items that stand before another one in every pass. -/
def Ahead (B : Backlog σ ι κ α) (a : α) (blockers : List ι) (p : ι) : Prop :=
  ∀ s, (∀ i ∈ blockers, i ∈ B.waiting s) → p ∈ B.order a s →
    ∃ front back, B.order a s = front ++ p :: back ∧ ∀ i ∈ blockers, i ∈ front

/-- One pass in which an item does not get its turn. -/
theorem pass_starves (laws : B.Persists stuck stops) {a : α} {s : σ} {blockers : List ι} (apart : blockers.Nodup)
    (waits : ∀ i ∈ blockers, i ∈ B.waiting s ∧ stuck s i = true) (ahead : B.Ahead a blockers p)
    (enough : B.limit ≤ blockers.length ∨ ∃ i ∈ blockers, stops s i = true) (waiting : p ∈ B.waiting s) :
    p ∈ B.waiting (B.pass a s) := by
  have nodup := laws.order_nodup a s
  have all : ∀ i ∈ (B.order a s).take B.limit, i ∈ B.waiting s :=
    fun i member => (laws.order_waiting a s i (List.mem_of_mem_take member)).1
  have taken := nodup.sublist (List.take_sublist B.limit _)
  by_cases batch : p ∈ (B.order a s).take B.limit
  · obtain ⟨front, back, whole, before⟩ := ahead s (fun i member => (waits i member).1) (List.mem_of_mem_take batch)
    have lot : blockers.length ≤ front.length := (apart.subperm before).length_le
    have within : front.length < B.limit := by
      by_contra out
      rw [whole] at batch nodup
      rw [List.take_append_of_le_length (Nat.le_of_not_lt out)] at batch
      rw [List.nodup_append] at nodup
      exact nodup.2.2 p (List.mem_of_mem_take batch) p List.mem_cons_self rfl
    rcases enough with full | ⟨i, member, ends⟩
    · omega
    · obtain ⟨first, second, rfl⟩ := List.append_of_mem (before i member)
      have cut : (B.order a s).take B.limit =
          first ++ i :: (second ++ p :: back).take (B.limit - first.length - 1) := by
        rw [whole, List.append_assoc, List.take_append, List.take_of_length_le (by
          rw [List.length_append, List.length_cons] at within
          omega)]
        obtain ⟨left, same⟩ : ∃ left, B.limit - first.length = left + 1 := by
          rw [List.length_append, List.length_cons] at within
          exact ⟨B.limit - first.length - 1, by omega⟩
        rw [same, List.cons_append, List.take_succ_cons, Nat.add_sub_cancel]
      have due := (laws.order_waiting a s i (by rw [whole]; simp)).2
      rw [cut] at taken all
      rw [pass, cut, process_stops laws a s first _ taken all due ends]
      have absent : p ∉ first ++ [i] := by
        rw [whole, List.append_assoc, List.cons_append, List.nodup_append] at nodup
        intro among
        rcases List.mem_append.mp among with early | here
        · exact nodup.2.2 p early p (List.mem_cons_of_mem _ (List.mem_append_right _ List.mem_cons_self)) rfl
        · rw [List.mem_singleton.mp here, List.nodup_cons] at nodup
          exact nodup.2.1.1 (List.mem_append_right _ List.mem_cons_self)
      refine (process_keeps laws a s (first ++ [i]) ?_ (fun j member => all j ?_) waiting).1 (.inl absent)
      · rw [List.append_cons] at taken
        exact taken.of_append_left
      · rcases List.mem_append.mp member with early | here
        · exact List.mem_append_left _ early
        · rw [List.mem_singleton.mp here]
          exact List.mem_append_right _ List.mem_cons_self
  · exact (process_keeps laws a s _ taken all waiting).1 (.inl batch)

theorem starves (laws : B.Persists stuck stops) {a : α} {s : σ} {blockers : List ι} (apart : blockers.Nodup)
    (waits : ∀ i ∈ blockers, i ∈ B.waiting s ∧ stuck s i = true) (ahead : B.Ahead a blockers p)
    (enough : B.limit ≤ blockers.length ∨ ∃ i ∈ blockers, stops s i = true) (waiting : p ∈ B.waiting s) (n : Nat) :
    p ∈ B.waiting (B.after (fun _ => a) s n) := by
  have all : p ∈ B.waiting (B.after (fun _ => a) s n) ∧ ∀ i ∈ blockers, i ∈ B.waiting (B.after (fun _ => a) s n) ∧
      stuck (B.after (fun _ => a) s n) i = true ∧ (stops s i = true → stops (B.after (fun _ => a) s n) i = true) := by
    induction n with
    | zero => exact ⟨waiting, fun i member => ⟨(waits i member).1, (waits i member).2, id⟩⟩
    | succ n ih =>
      obtain ⟨here, others⟩ := ih
      have nodup := laws.order_nodup a (B.after (fun _ => a) s n)
      have selected : ∀ i ∈ (B.order a (B.after (fun _ => a) s n)).take B.limit,
          i ∈ B.waiting (B.after (fun _ => a) s n) :=
        fun i member => (laws.order_waiting _ _ i (List.mem_of_mem_take member)).1
      refine ⟨pass_starves laws apart (fun i member => ⟨(others i member).1, (others i member).2.1⟩) ahead ?_ here, ?_⟩
      · rcases enough with full | ⟨i, member, ends⟩
        · exact .inl full
        · exact .inr ⟨i, member, (others i member).2.2 ends⟩
      · intro i member
        obtain ⟨there, held, ends⟩ := others i member
        have kept := process_keeps laws a _ _ (nodup.sublist (List.take_sublist B.limit _)) selected there
        exact ⟨kept.1 (.inr held), kept.2.1 held, fun stops_ => kept.2.2 (ends stops_)⟩
  exact all.1

/-- What is stuck waits for ever, whatever the passes do. -/
theorem stuck_after (laws : B.Persists stuck stops) (inputs : Nat → α) {s : σ} (waiting : p ∈ B.waiting s)
    (held : stuck s p = true) (n : Nat) :
    p ∈ B.waiting (B.after inputs s n) ∧ stuck (B.after inputs s n) p = true := by
  induction n with
  | zero => exact ⟨waiting, held⟩
  | succ n ih =>
    have apart := (laws.order_nodup (inputs n) (B.after inputs s n)).sublist (List.take_sublist B.limit _)
    have kept := process_keeps laws (inputs n) (B.after inputs s n) _ apart
      (fun i member => (laws.order_waiting _ _ i (List.mem_of_mem_take member)).1) ih.1
    exact ⟨kept.1 (.inr ih.2), kept.2.1 ih.2⟩

end Starving

/-- Items leave in every sequence of passes exactly when in every state that such passes reach
each of them that still waits is open. -/
theorem always_drains_iff [LinearOrder κ] {size : σ → Nat} {Alike : σ → σ → Prop} {stuck stops : σ → ι → Bool}
    (shrinks : B.Shrinks size Alike stuck stops) (persists : B.Persists stuck stops) {valid : α → Prop}
    {target : ι → Prop} (nodup : ∀ s, (B.waiting s).Nodup)
    (selected : ∀ a s, valid a → ∀ p, target p → p ∈ B.waiting s → p ∈ B.order a s)
    (adversary : ∀ (blockers : List ι) (p : ι), target p →
      (∀ i ∈ blockers, i ≠ p ∧ B.priority i ≤ B.priority p) → ∃ a, valid a ∧ B.Ahead a blockers p) (s : σ) :
    (∀ inputs : Nat → α, (∀ n, valid (inputs n)) → ∀ p, target p → ∃ n, p ∉ B.waiting (B.after inputs s n)) ↔
      ∀ inputs : Nat → α, (∀ n, valid (inputs n)) → ∀ n p, target p → p ∈ B.waiting (B.after inputs s n) →
        B.Open stuck stops (B.after inputs s n) p := by
  constructor
  · intro always inputs legal n p wanted waiting
    -- otherwise the passes go on so that the item is starved from here on
    have starved : ∀ blockers : List ι, blockers.Nodup →
        (∀ i ∈ blockers, i ∈ B.waiting (B.after inputs s n) ∧ stuck (B.after inputs s n) i = true) →
        (∀ i ∈ blockers, i ≠ p ∧ B.priority i ≤ B.priority p) →
        ¬(B.limit ≤ blockers.length ∨ ∃ i ∈ blockers, stops (B.after inputs s n) i = true) := by
      intro blockers apart waits earlier enough
      obtain ⟨a, legal_, ahead⟩ := adversary blockers p wanted earlier
      obtain ⟨k, left⟩ := always (fun m => if m < n then inputs m else a)
        (fun m => by
          split
          · exact legal m
          · exact legal_) p wanted
      have far : p ∈ B.waiting (B.after (fun m => if m < n then inputs m else a) s (n + k)) := by
        have prefix_ : B.after (fun m => if m < n then inputs m else a) s n = B.after inputs s n :=
          B.after_congr s fun m less => if_pos less
        have rest : (fun m => if n + m < n then inputs (n + m) else a) = fun _ => a := by
          funext m
          exact if_neg (Nat.not_lt.mpr (Nat.le_add_right n m))
        rw [after_add, prefix_, rest]
        exact starves persists apart waits ahead enough waiting k
      exact left (after_gone persists (Nat.le_add_left k n) far)
    have free : stuck (B.after inputs s n) p = false := by
      by_contra held
      rw [Bool.not_eq_false] at held
      obtain ⟨k, left⟩ := always inputs legal p wanted
      have far := (stuck_after persists (fun m => inputs (n + m)) waiting held k).1
      rw [← after_add] at far
      exact left (after_gone persists (Nat.le_add_left k n) far)
    refine ⟨free, fun i member earlier => ?_, ?_⟩
    · by_contra ends
      rw [Bool.not_eq_false] at ends
      have held := persists.stops_stuck _ i ends
      have other : i ≠ p := by
        rintro rfl
        rw [held] at free
        cases free
      refine starved [i] (List.nodup_singleton i) (fun j among => ?_) (fun j among => ?_)
        (.inr ⟨i, List.mem_singleton.mpr rfl, ends⟩)
      · rw [List.mem_singleton.mp among]
        exact ⟨member, held⟩
      · rw [List.mem_singleton.mp among]
        exact ⟨other, earlier⟩
    · by_contra full
      refine starved _ ((nodup _).filter _) (fun i member => ?_) (fun i member => ?_) (.inl (Nat.le_of_not_lt full))
      · obtain ⟨there, held⟩ := List.mem_filter.mp member
        exact ⟨there, (Bool.and_eq_true _ _ ▸ held).1⟩
      · obtain ⟨-, held⟩ := List.mem_filter.mp member
        rw [Bool.and_eq_true, decide_eq_true_eq] at held
        refine ⟨?_, held.2⟩
        rintro rfl
        rw [held.1] at free
        cases free
  · intro open_ inputs legal p wanted
    obtain ⟨n, -, left⟩ := @drains _ _ _ _ B _ _ _ _ _ shrinks inputs s p
      (fun n waiting => selected _ _ (legal n) p wanted waiting) (fun n waiting => open_ inputs legal n p wanted waiting)
    exact ⟨n, left⟩

end Backlog

end Drivebound
