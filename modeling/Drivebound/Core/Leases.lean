import Mathlib.Data.Option.Basic

/-! Leases that expire by a clock. `Turns` is what a step of one actor may do to a lease: grant
it where it is free or has expired, renew or surrender what the actor has, and end what has
expired. So nobody loses a lease that has not expired unless it surrenders it. -/
namespace Drivebound.Leases

variable {ω : Type*}

structure Lease (ω : Type*) where
  owner : ω
  expiresAt : Nat
  deriving DecidableEq, Repr

/-- Nobody has the lease any more. -/
def Free (clock : Nat) (lease : Option (Lease ω)) : Prop := ∀ held ∈ lease, held.expiresAt ≤ clock

inductive Turns (actor : Option ω) (clock : Nat) : Option (Lease ω) → Option (Lease ω) → Prop where
  | kept (lease : Option (Lease ω)) : Turns actor clock lease lease
  | granted (lease : Option (Lease ω)) (owner : ω) (expiresAt : Nat) (free : Free clock lease)
      (own : actor = some owner) : Turns actor clock lease (some ⟨owner, expiresAt⟩)
  | renewed (owner : ω) (before expiresAt : Nat) (own : actor = some owner) :
      Turns actor clock (some ⟨owner, before⟩) (some ⟨owner, expiresAt⟩)
  | surrendered (owner : ω) (before : Nat) (own : actor = some owner) :
      Turns actor clock (some ⟨owner, before⟩) none
  | lapsed (lease : Option (Lease ω)) (free : Free clock lease) : Turns actor clock lease none

variable {actor : Option ω} {clock : Nat} {before after : Option (Lease ω)} {held : Lease ω}

theorem free_none : Free clock (none : Option (Lease ω)) := nofun

/-- A lease that has not expired stays with its owner or is surrendered by it. -/
theorem Turns.exclusive (turns : Turns actor clock before after) (has : before = some held)
    (unexpired : clock < held.expiresAt) :
    (∃ expiresAt, after = some ⟨held.owner, expiresAt⟩) ∨ actor = some held.owner := by
  cases turns with
  | kept => exact .inl ⟨held.expiresAt, has⟩
  | granted _ owner expiresAt free => exact absurd (free held has) (Nat.not_le_of_lt unexpired)
  | renewed owner earlier expiresAt =>
    cases has
    exact .inl ⟨expiresAt, rfl⟩
  | surrendered owner earlier own =>
    cases has
    exact .inr own
  | lapsed _ free => exact absurd (free held has) (Nat.not_le_of_lt unexpired)

/-- What somebody else does leaves an unexpired lease to its owner. -/
theorem Turns.others (turns : Turns actor clock before after) (has : before = some held)
    (unexpired : clock < held.expiresAt) (other : actor ≠ some held.owner) :
    ∃ expiresAt, after = some ⟨held.owner, expiresAt⟩ :=
  (turns.exclusive has unexpired).resolve_right other

/-- An expiry and what follows it are one turn. -/
theorem Turns.after_lapse {middle : Option (Lease ω)} (lapse : middle = before ∨ middle = none ∧ Free clock before)
    (turns : Turns actor clock middle after) : Turns actor clock before after := by
  rcases lapse with rfl | ⟨rfl, free⟩
  · exact turns
  · cases turns with
    | kept => exact .lapsed before free
    | granted _ owner expiresAt _ own => exact .granted before owner expiresAt free own
    | lapsed => exact .lapsed before free

end Drivebound.Leases
