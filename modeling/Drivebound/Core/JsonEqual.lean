import Drivebound.Core.JsonText
import Mathlib.Data.List.Perm.Basic

/-! Equality of JSON values as Python's `==` has it: the order of the members of an object
does not matter. Values have one canonical spelling exactly when they are equal. -/
namespace Drivebound.Json

mutual
inductive Same : Value → Value → Prop
  | null : Same .null .null
  | bool (b : Bool) : Same (.bool b) (.bool b)
  | number (n : Number) : Same (.number n) (.number n)
  | string (text : String) : Same (.string text) (.string text)
  | array {items others : List Value} : SameItems items others → Same (.array items) (.array others)
  | object {members between others : List (String × Value)} :
      members.Perm between → SameMembers between others → Same (.object members) (.object others)

inductive SameItems : List Value → List Value → Prop
  | nil : SameItems [] []
  | cons {a b : Value} {rest others : List Value} :
      Same a b → SameItems rest others → SameItems (a :: rest) (b :: others)

inductive SameMembers : List (String × Value) → List (String × Value) → Prop
  | nil : SameMembers [] []
  | cons {key : String} {a b : Value} {rest others : List (String × Value)} :
      Same a b → SameMembers rest others → SameMembers ((key, a) :: rest) ((key, b) :: others)
end

theorem sortMembers_eq_map (members : List (String × Value)) :
    sortMembers members = members.map fun member => (member.1, sortKeys member.2) := by
  induction members with
  | nil => rfl
  | cons member rest ih => rw [sortMembers, ih, List.map_cons]

theorem sameMembers_of_map {members others : List (String × Value)}
    (equal : ∀ member ∈ members, ∀ b, sortKeys member.2 = sortKeys b → Same member.2 b)
    (same : members.map (fun member => (member.1, sortKeys member.2)) =
      others.map fun member => (member.1, sortKeys member.2)) : SameMembers members others := by
  induction members generalizing others with
  | nil =>
    cases others with
    | nil => exact .nil
    | cons _ _ => cases same
  | cons member rest ih =>
    cases others with
    | nil => cases same
    | cons other later =>
      obtain ⟨key, a⟩ := member
      obtain ⟨key', b⟩ := other
      obtain ⟨first, following⟩ := List.cons.inj same
      obtain ⟨rfl, values⟩ := Prod.mk.inj first
      exact .cons (equal _ List.mem_cons_self b values)
        (ih (fun member among => equal member (List.mem_cons_of_mem _ among)) following)

/-- Lists that are one another's permutation after a map are so before it. -/
theorem perm_of_perm_map {α β : Type*} (f : α → β) {xs ys : List α} (perm : (xs.map f).Perm (ys.map f)) :
    ∃ between, xs.Perm between ∧ between.map f = ys.map f := by
  have composed := congrFun (congrFun (List.eq_map_comp_perm f) (ys.map f)) xs
  obtain ⟨between, mapped, reordered⟩ := composed.mpr perm.symm
  exact ⟨between, reordered.symm, mapped.symm⟩

mutual
theorem same_of_sortKeys (a b : Value) (same : sortKeys a = sortKeys b) : Same a b := by
  cases a with
  | null =>
    cases b with
    | null => exact .null
    | _ => cases same
  | bool x =>
    cases b with
    | bool y =>
      obtain rfl := Value.bool.inj same
      exact .bool x
    | _ => cases same
  | number m =>
    cases b with
    | number n =>
      obtain rfl := Value.number.inj same
      exact .number m
    | _ => cases same
  | string s =>
    cases b with
    | string t =>
      obtain rfl := Value.string.inj same
      exact .string s
    | _ => cases same
  | array items =>
    cases b with
    | array others =>
      rw [sortKeys, sortKeys] at same
      exact .array (sameItems_of_sortItems items others (Value.array.inj same))
    | _ => cases same
  | object members =>
    cases b with
    | object others =>
      rw [sortKeys, sortKeys, sortMembers_eq_map, sortMembers_eq_map] at same
      have perm := (List.perm_insertionSort (fun one two : String × Value => one.1 ≤ two.1) _).symm.trans
        ((List.Perm.of_eq (Value.object.inj same)).trans (List.perm_insertionSort _ _))
      obtain ⟨between, reordered, mapped⟩ := perm_of_perm_map _ perm
      refine .object reordered (sameMembers_of_map (fun member among => ?_) mapped)
      exact same_of_members members member (reordered.mem_iff.mpr among)
    | _ => cases same
termination_by structural a

theorem sameItems_of_sortItems (items others : List Value) (same : sortItems items = sortItems others) :
    SameItems items others := by
  cases items with
  | nil =>
    cases others with
    | nil => exact .nil
    | cons _ _ => cases same
  | cons a rest =>
    cases others with
    | nil => cases same
    | cons b later =>
      rw [sortItems, sortItems] at same
      exact .cons (same_of_sortKeys a b (List.cons.inj same).1)
        (sameItems_of_sortItems rest later (List.cons.inj same).2)
termination_by structural items

theorem same_of_members (members : List (String × Value)) (member : String × Value) (among : member ∈ members)
    (b : Value) (same : sortKeys member.2 = sortKeys b) : Same member.2 b := by
  cases members with
  | nil => cases among
  | cons first rest =>
    obtain ⟨key, a⟩ := first
    rcases List.mem_cons.mp among with rfl | later
    · exact same_of_sortKeys a b same
    · exact same_of_members rest member later b same
termination_by structural members
end

/-- A spelling tells its value. -/
theorem same_of_dumps_eq {a b : Value} (same : dumps a = dumps b) : Same a b :=
  same_of_sortKeys a b (dumps_eq_iff.mp same)

/-- Objects with the same members in another order are sorted to the same. -/
theorem sorted_eq_of_perm {members others : List (String × Value)} (keyed : (members.map Prod.fst).Nodup)
    (perm : members.Perm others) :
    members.insertionSort (fun one two => one.1 ≤ two.1) = others.insertionSort fun one two => one.1 ≤ two.1 := by
  have reordered := (List.perm_insertionSort (fun one two : String × Value => one.1 ≤ two.1) members).trans
    (perm.trans (List.perm_insertionSort (fun one two : String × Value => one.1 ≤ two.1) others).symm)
  refine List.Perm.eq_of_pairwise ?_ (List.pairwise_insertionSort _ _) (List.pairwise_insertionSort _ _) reordered
  intro one two first second below above
  have one_in := (List.mem_insertionSort _).mp first
  have two_in := perm.mem_iff.mpr ((List.mem_insertionSort _).mp second)
  exact List.inj_on_of_nodup_map keyed one_in two_in (String.le_antisymm below above)

theorem sortMembers_of_same {members others : List (String × Value)} (same : SameMembers members others)
    (equal : ∀ member ∈ members, ∀ b, Same member.2 b → sortKeys member.2 = sortKeys b) :
    sortMembers members = sortMembers others := by
  induction members generalizing others with
  | nil =>
    cases same
    rfl
  | cons member rest ih =>
    cases same with
    | cons first later =>
      rw [sortMembers, sortMembers, equal _ List.mem_cons_self _ first,
        ih later fun member among => equal member (List.mem_cons_of_mem _ among)]

mutual
theorem sortKeys_of_same (a : Value) (valid : a.Valid) (b : Value) (same : Same a b) : sortKeys a = sortKeys b := by
  cases a with
  | null =>
    cases same
    rfl
  | bool _ =>
    cases same
    rfl
  | number _ =>
    cases same
    rfl
  | string _ =>
    cases same
    rfl
  | array items =>
    cases same with
    | array equal =>
      rw [Value.Valid] at valid
      rw [sortKeys, sortKeys, sortItems_of_same items valid _ equal]
  | object members =>
    cases same with
    | object perm equal =>
      rw [Value.Valid] at valid
      have sorted := sortMembers_of_same equal fun member among b same =>
        sortMember_of_same members valid.2 member (perm.mem_iff.mpr among) b same
      rw [sortKeys, sortKeys, ← sorted]
      refine congrArg Value.object (sorted_eq_of_perm ?_ ?_)
      · rw [sortMembers_eq_map, List.map_map]
        exact valid.1
      · rw [sortMembers_eq_map, sortMembers_eq_map]
        exact perm.map _
termination_by structural a

theorem sortItems_of_same (items : List Value) (valid : ValidItems items) (others : List Value)
    (same : SameItems items others) : sortItems items = sortItems others := by
  cases items with
  | nil =>
    cases same
    rfl
  | cons a rest =>
    cases same with
    | cons first later =>
      rw [ValidItems] at valid
      rw [sortItems, sortItems, sortKeys_of_same a valid.1 _ first, sortItems_of_same rest valid.2 _ later]
termination_by structural items

theorem sortMember_of_same (members : List (String × Value)) (valid : ValidMembers members)
    (member : String × Value) (among : member ∈ members) (b : Value) (same : Same member.2 b) :
    sortKeys member.2 = sortKeys b := by
  cases members with
  | nil => cases among
  | cons first rest =>
    obtain ⟨key, a⟩ := first
    rw [ValidMembers] at valid
    rcases List.mem_cons.mp among with rfl | later
    · exact sortKeys_of_same a valid.1 b same
    · exact sortMember_of_same rest valid.2 member later b same
termination_by structural members
end

/-- The canonical spelling is that of all the equal values, and of no other. -/
theorem dumps_eq_iff_same {a b : Value} (valid : a.Valid) : dumps a = dumps b ↔ Same a b :=
  ⟨same_of_dumps_eq, fun same => dumps_eq_iff.mpr (sortKeys_of_same a valid b same)⟩

end Drivebound.Json
