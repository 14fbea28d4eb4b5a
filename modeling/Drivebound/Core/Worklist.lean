import Mathlib

/-! A loop over a list of pending nodes: it takes one, checks it, adds its weight to a total and
puts its children among the others. Whichever node it takes next, it accepts exactly when every
node is good and all their weights together stay within the bound. -/
namespace Drivebound.Worklist

variable {N ε : Type*}

/-- `arrange` says in which order the pending nodes are taken; without a verdict the loop is
still running. -/
def loop (visit : Nat → N → Except ε (Nat × List N)) (arrange : List N → List N) :
    Nat → Nat → List N → Option (Except ε Nat)
  | 0, _, _ => none
  | fuel + 1, total, pending =>
    match arrange pending with
    | [] => some (.ok total)
    | current :: rest =>
      match visit total current with
      | .error e => some (.error e)
      | .ok (sum, more) => loop visit arrange fuel sum (more ++ rest)

/-- A visit accepts good nodes for as long as the total stays within the bound, and leaves the
node's own descendants to be visited. -/
structure Explores (visit : Nat → N → Except ε (Nat × List N)) (nodes : N → List N) (good : N → Prop)
    (weight : N → Nat) (bound : Nat) : Prop where
  root : ∀ n, n ∈ nodes n
  accepts : ∀ total n, (∃ found, visit total n = .ok found) ↔ good n ∧ total + weight n ≤ bound
  follows : ∀ total n sum more, visit total n = .ok (sum, more) →
    sum = total + weight n ∧ (n :: more.flatMap nodes).Perm (nodes n)

variable {visit : Nat → N → Except ε (Nat × List N)} {nodes : N → List N} {good : N → Prop} {weight : N → Nat}
  {arrange : List N → List N} {bound fuel more total : Nat} {pending : List N} {verdict : Except ε Nat}

/-- A verdict does not change with more fuel. -/
theorem loop_stable (judged : loop visit arrange fuel total pending = some verdict) (enough : fuel ≤ more) :
    loop visit arrange more total pending = some verdict := by
  induction fuel generalizing total pending more with
  | zero => cases judged
  | succ fuel ih =>
    obtain ⟨more, rfl⟩ := Nat.exists_eq_add_of_le' (Nat.lt_of_lt_of_le fuel.succ_pos enough)
    rw [loop] at judged ⊢
    split at judged
    · exact judged
    · split at judged
      · exact judged
      · exact ih judged (Nat.le_of_succ_le_succ enough)

/-- What the loop is to find out about the nodes that are pending. -/
def Within (good : N → Prop) (weight : N → Nat) (bound total : Nat) (found : List N) : Prop :=
  (∀ n ∈ found, good n) ∧ total + (found.map weight).sum ≤ bound

theorem Within.perm {found others : List N} (perm : found.Perm others) :
    Within good weight bound total found ↔ Within good weight bound total others := by
  unfold Within
  rw [(perm.map weight).sum_eq]
  exact and_congr_left fun _ => forall_congr' fun n => by rw [perm.mem_iff]

theorem within_cons {n : N} {found : List N} : Within good weight bound total (n :: found) ↔
    good n ∧ Within good weight bound (total + weight n) found := by
  unfold Within
  rw [List.forall_mem_cons, List.map_cons, List.sum_cons, and_assoc, Nat.add_assoc]

/-- A node that is refused is one that nothing pending makes up for. -/
theorem Explores.not_within (explores : Explores visit nodes good weight bound) {n : N} {rest : List N}
    (refused : ¬∃ found, visit total n = .ok found) : ¬Within good weight bound total (nodes n ++ rest) := by
  rintro ⟨all, small⟩
  apply refused
  rw [explores.accepts]
  refine ⟨all n (List.mem_append_left rest (explores.root n)), ?_⟩
  have part : weight n ≤ ((nodes n ++ rest).map weight).sum :=
    List.le_sum_of_mem (List.mem_map_of_mem (List.mem_append_left rest (explores.root n)))
  omega

/-- The loop ends, and accepts exactly what is within the bound. -/
theorem loop_iff (explores : Explores visit nodes good weight bound) (reorders : ∀ l, (arrange l).Perm l)
    (enough : (pending.flatMap nodes).length < fuel) (started : total ≤ bound) :
    ∃ verdict, loop visit arrange fuel total pending = some verdict ∧
      ((∃ sum, verdict = .ok sum) ↔ Within good weight bound total (pending.flatMap nodes)) := by
  induction fuel generalizing total pending with
  | zero => exact absurd enough (Nat.not_lt_zero _)
  | succ fuel ih =>
    rw [loop]
    cases arranged : arrange pending with
    | nil =>
      have empty : pending = [] := (arranged ▸ reorders pending).nil_eq.symm
      subst empty
      exact ⟨.ok total, rfl, fun _ => ⟨fun n member => absurd member List.not_mem_nil, started⟩,
        fun _ => ⟨total, rfl⟩⟩
    | cons current rest =>
      have perm : (current :: rest).Perm pending := arranged ▸ reorders pending
      have all : (nodes current ++ rest.flatMap nodes).Perm (pending.flatMap nodes) := by
        rw [← List.flatMap_cons]
        exact perm.flatMap_right nodes
      dsimp only
      cases visited : visit total current with
      | error e =>
        have refused : ¬∃ found, visit total current = .ok found := by
          rintro ⟨found, same⟩
          rw [visited] at same
          cases same
        refine ⟨.error e, rfl, ⟨?_, fun within => ?_⟩⟩
        · rintro ⟨sum, same⟩
          cases same
        · exact absurd ((Within.perm all).mpr within) (explores.not_within refused)
      | ok found =>
        obtain ⟨sum, more⟩ := found
        obtain ⟨rfl, subtree⟩ := explores.follows total current sum more visited
        have left : (current :: (more ++ rest).flatMap nodes).Perm (pending.flatMap nodes) := by
          rw [List.flatMap_append, ← List.cons_append]
          exact (subtree.append_right _).trans all
        have accepted := (explores.accepts total current).mp ⟨_, visited⟩
        have shorter : ((more ++ rest).flatMap nodes).length < fuel := by
          have length := left.length_eq
          rw [List.length_cons] at length
          omega
        obtain ⟨verdict, judged, iff⟩ := ih shorter accepted.2
        refine ⟨verdict, judged, ?_⟩
        rw [iff, ← Within.perm left, within_cons]
        exact ⟨fun within => ⟨accepted.1, within⟩, And.right⟩

end Drivebound.Worklist
