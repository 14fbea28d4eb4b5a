import Drivebound.Core.History
import Mathlib

/-! Histories whose notes justify each other. A note is justified by the notes before it. It may give an identifier,
which no other note gives, and it may use one that was given before. -/
namespace Drivebound.Chronicle
open Sessions

variable {ε ι : Type*} {events later : List ε} {event : ε}

theorem grows_append (events : List ε) (event : ε) : ∀ e ∈ events, e ∈ events ++ [event] :=
  fun _ member => List.mem_append_left _ member

/-- No note uses the identifier. -/
def Unused (uses : ε → Option ι) (events : List ε) (id : ι) : Prop := ∀ e ∈ events, uses e ≠ some id

theorem Unused.append {uses : ε → Option ι} {id : ι} (unused : Unused uses events id) (other : uses event ≠ some id) :
    Unused uses (events ++ [event]) id := by
  intro e member
  rcases List.mem_append.mp member with old | new
  · exact unused e old
  · rwa [List.mem_singleton.mp new]

section Notes

variable (rule : List ε → ε → Prop) (gives : ε → Option Nat)

/-- What holds of the notes, with the identifier that is given next. -/
structure Notes (events : List ε) (next : Nat) : Prop where
  justified : ∀ before event, before ++ [event] <+: events → rule before event
  given : ∀ e ∈ events, ∀ id ∈ gives e, id < next
  sole : ∀ e ∈ events, ∀ e' ∈ events, ∀ id ∈ gives e, id ∈ gives e' → e = e'

variable {rule gives} {uses : ε → Option Nat} {next next' id : Nat}

theorem Notes.nil (next : Nat) : Notes rule gives [] next := by
  refine ⟨fun before event first => ?_, fun e member => ?_, fun e member => ?_⟩
  · simp at first
  · cases member
  · cases member

theorem Notes.append (notes : Notes rule gives events next) (le : next ≤ next') (justified : rule events event)
    (numbered : ∀ id ∈ gives event, next ≤ id ∧ id < next') : Notes rule gives (events ++ [event]) next' := by
  refine ⟨fun before other first => ?_, fun e member id gave => ?_, fun e member e' member' id gave gave' => ?_⟩
  · rcases List.prefix_concat_iff.mp first with last | older
    · obtain ⟨rfl, same⟩ := List.append_inj' last rfl
      cases same
      exact justified
    · exact notes.justified before other older
  · rcases List.mem_append.mp member with old | new
    · exact Nat.lt_of_lt_of_le (notes.given e old id gave) le
    · cases List.mem_singleton.mp new
      exact (numbered id gave).2
  · -- What the new note gives, no older one has given.
    rcases List.mem_append.mp member with old | new <;> rcases List.mem_append.mp member' with old' | new'
    · exact notes.sole e old e' old' id gave gave'
    · cases List.mem_singleton.mp new'
      exact absurd (numbered id gave').1 (Nat.not_le_of_lt (notes.given e old id gave))
    · cases List.mem_singleton.mp new
      exact absurd (numbered id gave).1 (Nat.not_le_of_lt (notes.given e' old' id gave'))
    · exact (List.mem_singleton.mp new).trans (List.mem_singleton.mp new').symm

theorem Notes.le (notes : Notes rule gives events next) (le : next ≤ next') : Notes rule gives events next' :=
  { notes with given := fun e member id gave => Nat.lt_of_lt_of_le (notes.given e member id gave) le }

theorem Notes.of_mem (notes : Notes rule gives events next) (noted : event ∈ events) :
    ∃ before, (∀ e ∈ before, e ∈ events) ∧ rule before event := by
  obtain ⟨before, after, rfl⟩ := List.append_of_mem noted
  exact ⟨before, fun _ member => List.mem_append_left _ member,
    notes.justified before event ⟨after, List.append_assoc ..⟩⟩

/-- Where only what was given is used, nothing is used that is still to be given. -/
theorem Notes.unused (notes : Notes rule gives events next)
    (backed : ∀ before e, rule before e → ∀ id ∈ uses e, ∃ giver ∈ before, id ∈ gives giver) (le : next ≤ id) :
    Unused uses events id := by
  intro e member used
  obtain ⟨before, earlier, justified⟩ := notes.of_mem member
  obtain ⟨giver, among, gave⟩ := backed before e justified id used
  exact Nat.not_le_of_lt (notes.given giver (earlier giver among) id gave) le

end Notes

section Runs

variable {ρ ς κ τ α : Type*} [DecidableEq τ] [DecidableEq κ] {program : ρ → ς → α → Option (Outcome ρ ς κ)}
  {note : ρ → ς → α → List ε → List ε} {holding : ς → κ → Prop} {G : ρ × List ε → Prop} {I : ρ × List ε → ς → Prop}
  {s t : Store (ρ × List ε) ς κ τ} {labels : List (τ × α)}

/-- An invariant that speaks of the notes, where every action of a session pays for it. -/
theorem run_sound (pays : ∀ r l a outcome, G r → I r l → program r.1 l a = some outcome →
      Owes holding G I r l (outcome.recorded (note r.1 l a r.2)))
    (initial : Sound holding G I s) (reached : Run.run (Store.step (recorded program note)) s labels = some t) :
    Sound holding G I t := by
  refine Run.invariant (fun s label s' sound _ stepped => ?_) initial (Run.along_true _ _) reached
  refine sound.step stepped fun outcome chosen => ?_
  obtain ⟨plain, decided, rfl⟩ := Option.map_eq_some_iff.mp chosen
  exact pays _ _ _ plain sound.global (sound.session label.1) decided

end Runs

end Drivebound.Chronicle
