import Mathlib.Data.Set.Lattice

/-! Steps that only ever add facts, and do nothing where their facts are there already: in every
order they come to the same facts, and once they are done they add nothing more. -/
namespace Drivebound

variable {σ β φ ε : Type*}

/-- What the steps that are allowed do in the states that are. -/
structure Gathers (step : σ → β → Except ε σ) (Inv : σ → Prop) (facts : σ → Set φ) (adds : β → Set φ)
    (Allowed : β → Prop) : Prop where
  gather : ∀ s b, Inv s → Allowed b → ∃ t, step s b = .ok t ∧ Inv t ∧ facts t = facts s ∪ adds b
  settled : ∀ s b, Inv s → Allowed b → adds b ⊆ facts s → step s b = .ok s

namespace Gathers

variable {step : σ → β → Except ε σ} {Inv : σ → Prop} {facts : σ → Set φ} {adds : β → Set φ} {Allowed : β → Prop}

theorem run (gathers : Gathers step Inv facts adds Allowed) (bs : List β) (allowed : ∀ b ∈ bs, Allowed b) {s : σ}
    (inv : Inv s) : ∃ t, bs.foldlM step s = .ok t ∧ Inv t ∧ facts t = facts s ∪ ⋃ b ∈ bs, adds b := by
  induction bs generalizing s with
  | nil => exact ⟨s, rfl, inv, by simp⟩
  | cons b rest ih =>
    obtain ⟨mid, stepped, kept, added⟩ := gathers.gather s b inv (allowed b List.mem_cons_self)
    obtain ⟨t, ran, last, whole⟩ := ih (fun c member => allowed c (List.mem_cons_of_mem _ member)) kept
    refine ⟨t, ?_, last, ?_⟩
    · rw [List.foldlM_cons, stepped]
      exact ran
    · rw [whole, added, Set.union_assoc]
      simp only [List.mem_cons, Set.iUnion_iUnion_eq_or_left]

theorem run_settled (gathers : Gathers step Inv facts adds Allowed) (bs : List β) (allowed : ∀ b ∈ bs, Allowed b)
    {s : σ} (inv : Inv s) (known : ∀ b ∈ bs, adds b ⊆ facts s) : bs.foldlM step s = .ok s := by
  induction bs with
  | nil => rfl
  | cons b rest ih =>
    have first := gathers.settled s b inv (allowed b List.mem_cons_self) (known b List.mem_cons_self)
    rw [List.foldlM_cons, first]
    exact ih (fun c member => allowed c (List.mem_cons_of_mem _ member))
      fun c member => known c (List.mem_cons_of_mem _ member)

/-- Steps made of a list of such steps are such steps. -/
theorem lists (gathers : Gathers step Inv facts adds Allowed) :
    Gathers (fun s bs => List.foldlM step s bs) Inv facts (fun bs => ⋃ b ∈ bs, adds b) (fun bs => ∀ b ∈ bs, Allowed b) where
  gather _ bs inv allowed := gathers.run bs allowed inv
  settled _ bs inv allowed known := gathers.run_settled bs allowed inv fun b member =>
    (Set.subset_iUnion₂ (s := fun b _ => adds b) b member).trans known

theorem comap {γ : Type*} (gathers : Gathers step Inv facts adds Allowed) (f : γ → β) :
    Gathers (fun s c => step s (f c)) Inv facts (fun c => adds (f c)) (fun c => Allowed (f c)) where
  gather s c := gathers.gather s (f c)
  settled s c := gathers.settled s (f c)

/-- The facts of all steps are the same in every order, and whatever is repeated changes nothing. -/
theorem deterministic (gathers : Gathers step Inv facts adds Allowed) {bs : List β} (allowed : ∀ b ∈ bs, Allowed b)
    {s : σ} (inv : Inv s) :
    ∀ order : List β, order.Perm bs → ∃ t, order.foldlM step s = .ok t ∧ facts t = facts s ∪ ⋃ b ∈ bs, adds b ∧
      ∀ later : List β, (∀ b ∈ later, b ∈ bs) → later.foldlM step t = .ok t := by
  intro order perm
  obtain ⟨t, ran, kept, whole⟩ := gathers.run order (fun b member => allowed b (perm.mem_iff.mp member)) inv
  have same : (⋃ b ∈ order, adds b) = ⋃ b ∈ bs, adds b := by
    simp only [perm.mem_iff]
  rw [same] at whole
  refine ⟨t, ran, whole, fun later among => ?_⟩
  apply gathers.run_settled later (fun b member => allowed b (among b member)) kept
  intro b member
  rw [whole]
  exact (Set.subset_iUnion₂ (s := fun b _ => adds b) b (among b member)).trans Set.subset_union_right

end Gathers

end Drivebound
