import Mathlib.Data.List.Sort

/-! Pages over rows that may change from one page to the next: each page holds the rows of the
highest keys below the last key of the page before, and tells whether there are more. -/
namespace Drivebound.Keyset

variable {α κ : Type*} [LinearOrder κ] (key : α → κ)

def isBelow (cursor : Option κ) (a : α) : Bool := cursor.all fun k => decide (key a < k)

/-- The rows behind a cursor, the highest key first. -/
def ahead (rows : List α) (cursor : Option κ) : List α :=
  (rows.filter (isBelow key cursor)).insertionSort fun a b => key b ≤ key a

/-- The pages of one request after the other, each with whether there are more behind it. -/
def walk (limit : Nat) : List (List α) → Option κ → List (List α × Bool)
  | [], _ => []
  | rows :: later, cursor =>
    let left := ahead key rows cursor
    if limit < left.length then
      (left.take limit, true) :: walk limit later ((left.take limit).getLast?.map key)
    else [(left.take limit, false)]

def items (pages : List (List α × Bool)) : List α := pages.flatMap Prod.fst

/-- The last page says that there are no more. -/
def Finished (pages : List (List α × Bool)) : Prop := ∃ page, pages.getLast? = some (page, false)

variable {key}

theorem isBelow_iff {cursor : Option κ} {a : α} : isBelow key cursor a = true ↔ ∀ k ∈ cursor, key a < k := by
  cases cursor with
  | none => simp [isBelow]
  | some k => simp [isBelow]

theorem mem_ahead {rows : List α} {cursor : Option κ} {a : α} :
    a ∈ ahead key rows cursor ↔ a ∈ rows ∧ ∀ k ∈ cursor, key a < k := by
  rw [ahead, List.mem_insertionSort, List.mem_filter, isBelow_iff]

theorem ahead_perm (rows : List α) (cursor : Option κ) :
    (ahead key rows cursor).Perm (rows.filter (isBelow key cursor)) := List.perm_insertionSort _ _

/-- Rows of different keys are in strict order. -/
theorem ahead_descending {rows : List α} (keyed : (rows.map key).Nodup) (cursor : Option κ) :
    (ahead key rows cursor).Pairwise fun a b => key b < key a := by
  have total : Std.Total fun a b => key b ≤ key a := ⟨fun a b => le_total (key b) (key a)⟩
  have trans : IsTrans α fun a b => key b ≤ key a := ⟨fun a b c ab bc => le_trans bc ab⟩
  have ordered : (ahead key rows cursor).Pairwise fun a b => key b ≤ key a := List.pairwise_insertionSort _ _
  have apart : ((ahead key rows cursor).map key).Nodup :=
    ((ahead_perm rows cursor).map key).nodup_iff.mpr (keyed.sublist (List.filter_sublist.map key))
  rw [List.Nodup, List.pairwise_map] at apart
  exact ordered.imp₂ (fun a b le ne => lt_of_le_of_ne le (Ne.symm ne)) apart

theorem ahead_nodup {rows : List α} (keyed : (rows.map key).Nodup) (cursor : Option κ) :
    (ahead key rows cursor).Nodup :=
  (ahead_descending keyed cursor).imp fun less same => absurd (congrArg key same) (ne_of_gt less)

theorem getLast?_take {left : List α} {limit : Nat} (positive : 0 < limit) (more : limit < left.length) :
    ∃ last, (left.take limit).getLast? = some last ∧ last ∈ left.take limit := by
  have filled : left.take limit ≠ [] := by
    intro empty
    have none_ := List.take_eq_nil_iff.mp empty
    rcases none_ with zero | nil
    · omega
    · rw [nil] at more
      exact absurd more (Nat.not_lt_zero _)
  exact ⟨_, List.getLast?_eq_some_getLast filled, List.getLast_mem filled⟩

/-- The last row of the page is the lowest of it. -/
theorem le_of_mem_take {rows : List α} (keyed : (rows.map key).Nodup) {cursor : Option κ} {limit : Nat} {last a : α}
    (ends : ((ahead key rows cursor).take limit).getLast? = some last)
    (member : a ∈ (ahead key rows cursor).take limit) : key last ≤ key a := by
  have ordered := (ahead_descending keyed cursor).sublist (List.take_sublist limit _)
  obtain ⟨front, shown⟩ := List.getLast?_eq_some_iff.mp ends
  rw [shown] at ordered member
  rcases List.mem_append.mp member with before | here
  · exact le_of_lt ((List.pairwise_append.mp ordered).2.2 a before last List.mem_cons_self)
  · rw [List.mem_singleton.mp here]

/-- Behind the last row of a page are the rows that the page has left out. -/
theorem ahead_drop {rows : List α} (keyed : (rows.map key).Nodup) {cursor : Option κ} {limit : Nat} {last : α}
    (ends : ((ahead key rows cursor).take limit).getLast? = some last) :
    ahead key rows (some (key last)) = (ahead key rows cursor).drop limit := by
  have ordered := ahead_descending keyed cursor
  have split := List.take_append_drop limit (ahead key rows cursor)
  have parts := ordered
  rw [← split, List.pairwise_append] at parts
  obtain ⟨-, -, apart⟩ := parts
  have member := List.mem_of_getLast? ends
  have same : ∀ a, a ∈ ahead key rows (some (key last)) ↔ a ∈ (ahead key rows cursor).drop limit := by
    intro a
    constructor
    · intro behind
      obtain ⟨row, less⟩ := mem_ahead.mp behind
      have lower := less (key last) rfl
      have before := (mem_ahead.mp (List.mem_of_mem_take member)).2
      have among : a ∈ ahead key rows cursor := mem_ahead.mpr ⟨row, fun k at_ => lower.trans (before k at_)⟩
      rw [← split, List.mem_append] at among
      rcases among with here | later
      · exact absurd lower (not_lt.mpr (le_of_mem_take keyed ends here))
      · exact later
    · intro later
      obtain ⟨row, -⟩ := mem_ahead.mp (List.mem_of_mem_drop later)
      refine mem_ahead.mpr ⟨row, fun k at_ => ?_⟩
      obtain rfl := Option.mem_some_iff.mp at_
      exact apart last member a later
  have perm : (ahead key rows (some (key last))).Perm ((ahead key rows cursor).drop limit) :=
    (List.perm_ext_iff_of_nodup (ahead_nodup keyed _) ((ahead_nodup keyed cursor).sublist (List.drop_sublist _ _))).mpr
      same
  exact perm.eq_of_pairwise (fun a b _ _ less more => absurd less (lt_asymm more)) (ahead_descending keyed _)
    (ordered.sublist (List.drop_sublist _ _))

/-! ### The pages of rows that stay -/

/-- As many requests as there are rows finish, and list the rows in their order. -/
theorem walk_complete {rows : List α} (keyed : (rows.map key).Nodup) {limit : Nat} (positive : 0 < limit)
    (cursor : Option κ) :
    ∃ pages, (∀ requests, (ahead key rows cursor).length < requests →
      walk key limit (List.replicate requests rows) cursor = pages) ∧
      items pages = ahead key rows cursor ∧ Finished pages := by
  induction size : (ahead key rows cursor).length using Nat.strongRecOn generalizing cursor with
  | ind n ih =>
    by_cases more : limit < (ahead key rows cursor).length
    · obtain ⟨last, ends, -⟩ := getLast?_take positive more
      have rest := ahead_drop keyed ends
      have shorter : (ahead key rows (some (key last))).length < n := by
        rw [rest, List.length_drop]
        omega
      obtain ⟨pages, reached, listed, final, finished⟩ := ih _ shorter (some (key last)) rfl
      refine ⟨((ahead key rows cursor).take limit, true) :: pages, ?_, ?_, final, ?_⟩
      · intro requests enough
        obtain ⟨later, rfl⟩ := Nat.exists_eq_add_of_lt enough
        have first : n + later + 1 = (n + later).succ := rfl
        rw [first, List.replicate_succ, walk]
        rw [if_pos more, ends, Option.map_some, reached (n + later) (by omega)]
      · rw [items, List.flatMap_cons]
        rw [items] at listed
        rw [listed, rest, List.take_append_drop]
      · rw [List.getLast?_cons, finished]
        rfl
    · refine ⟨[((ahead key rows cursor).take limit, false)], ?_, ?_, _, rfl⟩
      · intro requests enough
        obtain ⟨later, rfl⟩ := Nat.exists_eq_add_of_lt enough
        have first : n + later + 1 = (n + later).succ := rfl
        rw [first, List.replicate_succ, walk]
        rw [if_neg more]
      · rw [items, List.flatMap_cons, List.flatMap_nil, List.append_nil]
        exact List.take_of_length_le (Nat.le_of_not_lt more)

/-! ### The pages of rows that change -/

section Changing
variable {limit : Nat}

/-- Whatever becomes of the rows, the pages go down from the cursor. -/
theorem walk_descending (positive : 0 < limit) (changes : List (List α))
    (keyed : ∀ rows ∈ changes, (rows.map key).Nodup) (cursor : Option κ) :
    (items (walk key limit changes cursor)).Pairwise (fun a b => key b < key a) ∧
      ∀ a ∈ items (walk key limit changes cursor), ∀ k ∈ cursor, key a < k := by
  induction changes generalizing cursor with
  | nil => exact ⟨List.Pairwise.nil, fun a absent => absurd absent List.not_mem_nil⟩
  | cons rows later ih =>
    have here := keyed rows List.mem_cons_self
    have page := (ahead_descending here cursor).sublist (List.take_sublist limit _)
    have low : ∀ a ∈ (ahead key rows cursor).take limit, ∀ k ∈ cursor, key a < k :=
      fun a member => (mem_ahead.mp (List.mem_of_mem_take member)).2
    rw [walk]
    split
    · next more =>
      obtain ⟨last, ends, member⟩ := getLast?_take positive more
      obtain ⟨ordered, below⟩ := ih (fun rows among => keyed rows (List.mem_cons_of_mem _ among)) (some (key last))
      rw [ends, Option.map_some, items, List.flatMap_cons]
      refine ⟨List.pairwise_append.mpr ⟨page, ordered, fun a first b after => ?_⟩, fun a among k at_ => ?_⟩
      · exact lt_of_lt_of_le (below b after (key last) rfl) (le_of_mem_take here ends first)
      · rcases List.mem_append.mp among with first | after
        · exact low a first k at_
        · exact (below a after (key last) rfl).trans (low last member k at_)
    · rw [items, List.flatMap_cons, List.flatMap_nil, List.append_nil]
      exact ⟨page, low⟩

/-- A key that stays ahead of the cursor is listed by the time the pages are finished. -/
theorem walk_lists (positive : 0 < limit) (changes : List (List α)) (keyed : ∀ rows ∈ changes, (rows.map key).Nodup)
    (cursor : Option κ) {k : κ} (stays : ∀ rows ∈ changes, k ∈ rows.map key) (waits : ∀ c ∈ cursor, k < c)
    (finished : Finished (walk key limit changes cursor)) :
    k ∈ (items (walk key limit changes cursor)).map key := by
  induction changes generalizing cursor with
  | nil =>
    obtain ⟨page, ends⟩ := finished
    cases ends
  | cons rows later ih =>
    have here := keyed rows List.mem_cons_self
    obtain ⟨a, row, same⟩ := List.mem_map.mp (stays rows List.mem_cons_self)
    have among : a ∈ ahead key rows cursor := by
      refine mem_ahead.mpr ⟨row, fun c at_ => ?_⟩
      rw [same]
      exact waits c at_
    rw [walk] at finished ⊢
    by_cases more : limit < (ahead key rows cursor).length
    · rw [if_pos more] at finished ⊢
      obtain ⟨last, ends, -⟩ := getLast?_take positive more
      rw [ends, Option.map_some] at finished ⊢
      rw [items, List.flatMap_cons, List.map_append, List.mem_append]
      rw [← List.take_append_drop limit (ahead key rows cursor), List.mem_append] at among
      rcases among with first | after
      · exact .inl (List.mem_map.mpr ⟨a, first, same⟩)
      · right
        have below : k < key last := by
          rw [← ahead_drop here ends] at after
          exact same ▸ (mem_ahead.mp after).2 (key last) rfl
        refine ih (fun rows member => keyed rows (List.mem_cons_of_mem _ member)) (some (key last))
          (fun rows member => stays rows (List.mem_cons_of_mem _ member)) ?_ ?_
        · intro c at_
          rwa [← Option.mem_some_iff.mp at_]
        · obtain ⟨page, final⟩ := finished
          refine ⟨page, ?_⟩
          rw [List.getLast?_cons] at final
          cases rest : (walk key limit later (some (key last))).getLast? with
          | none =>
            rw [rest] at final
            cases final
          | some final' =>
            rw [rest] at final
            exact final
    · rw [if_neg more] at finished ⊢
      rw [items, List.flatMap_cons, List.flatMap_nil, List.append_nil,
        List.take_of_length_le (Nat.le_of_not_lt more)]
      exact List.mem_map.mpr ⟨a, among, same⟩

/-- The later pages are those of the later rows, behind the last row of the pages before. -/
theorem walk_drop (positive : 0 < limit) (changes : List (List α)) (cursor : Option κ) {passed : Nat}
    (requested : passed < (walk key limit changes cursor).length) :
    ∃ reached : Option κ, (walk key limit changes cursor).drop passed = walk key limit (changes.drop passed) reached ∧
      ∀ c ∈ reached, c ∈ cursor ∨ ∃ a ∈ items ((walk key limit changes cursor).take passed), key a = c := by
  induction passed generalizing changes cursor with
  | zero => exact ⟨cursor, rfl, fun c at_ => .inl at_⟩
  | succ passed ih =>
    cases changes with
    | nil => exact absurd requested (Nat.not_lt_zero _)
    | cons rows later =>
      rw [walk] at requested ⊢
      by_cases more : limit < (ahead key rows cursor).length
      · rw [if_pos more] at requested ⊢
        obtain ⟨last, ends, member⟩ := getLast?_take positive more
        rw [ends, Option.map_some] at requested ⊢
        obtain ⟨reached, rest, from_⟩ := ih later (some (key last)) (Nat.lt_of_succ_lt_succ requested)
        refine ⟨reached, rest, fun c at_ => .inr ?_⟩
        rw [List.take_succ_cons, items, List.flatMap_cons]
        rcases from_ c at_ with first | ⟨a, among, same⟩
        · exact ⟨last, List.mem_append_left _ member, Option.mem_some_iff.mp first⟩
        · exact ⟨a, List.mem_append_right _ among, same⟩
      · rw [if_neg more] at requested
        exact absurd requested (by simp)

/-- A key that stays from some page on and has not been passed there is listed exactly once. -/
theorem walk_once [BEq κ] [LawfulBEq κ] (positive : 0 < limit) (changes : List (List α))
    (keyed : ∀ rows ∈ changes, (rows.map key).Nodup) (finished : Finished (walk key limit changes none)) {passed : Nat}
    (requested : passed < (walk key limit changes none).length) {k : κ}
    (stays : ∀ rows ∈ changes.drop passed, k ∈ rows.map key)
    (waits : ∀ a ∈ items ((walk key limit changes none).take passed), k < key a) :
    ((items (walk key limit changes none)).map key).count k = 1 := by
  obtain ⟨reached, rest, from_⟩ := walk_drop positive changes none requested
  have later : Finished (walk key limit (changes.drop passed) reached) := by
    obtain ⟨page, ends⟩ := finished
    refine ⟨page, ?_⟩
    rw [← rest, List.getLast?_drop, if_neg (Nat.not_le_of_lt requested), ends]
  have listed := walk_lists positive (changes.drop passed) (fun rows member => keyed rows (List.mem_of_mem_drop member))
    reached stays (fun c at_ => by
      rcases from_ c at_ with none_ | ⟨a, among, rfl⟩
      · cases none_
      · exact waits a among) later
  have whole : k ∈ (items (walk key limit changes none)).map key := by
    rw [← List.take_append_drop passed (walk key limit changes none), items, List.flatMap_append, List.map_append, rest]
    exact List.mem_append_right _ listed
  have ordered := (walk_descending positive changes keyed none).1
  have apart : ((items (walk key limit changes none)).map key).Nodup :=
    List.pairwise_map.mpr (ordered.imp fun less => ne_of_gt less)
  exact List.count_eq_one_of_mem apart whole

end Changing

end Drivebound.Keyset
