import Drivebound.Core.JsonText
import Mathlib

/-! How long the spellings of `json.dumps` are. With `ensure_ascii=True` every one of their
characters is one byte. -/
namespace Drivebound.Json

/-- What can be computed of each character of a text. -/
theorem forall_of_all {holds : Char → Prop} [DecidablePred holds] {text : List Char}
    (all : text.all (fun c => holds c) = true) : ∀ c ∈ text, holds c := fun c member =>
  of_decide_eq_true (List.all_eq_true.mp all c member)

theorem ascii_of_all {text : List Char} (all : text.all (·.toNat < 128) = true) : ∀ c ∈ text, c.toNat < 128 :=
  forall_of_all all

theorem hexDigit_ascii (n : Nat) : (hexDigit n).toNat < 128 := by
  have all : ∀ c ∈ '0' :: "0123456789abcdef".toList, c.toNat < 128 := ascii_of_all (by decide +kernel)
  apply all
  unfold hexDigit
  rw [List.getD_eq_getElem?_getD]
  cases found : "0123456789abcdef".toList[n]? with
  | none => exact List.mem_cons_self
  | some c => exact List.mem_cons_of_mem _ (List.mem_of_getElem? found)

theorem numeric_ascii {c : Char} (numeric : isNumeric c = true) : c.toNat < 128 := by
  simp only [isNumeric, Bool.or_eq_true, decide_eq_true_eq] at numeric
  rcases numeric with (((digit | rfl) | rfl) | rfl) | rfl
  · rw [Char.isDigit, Bool.and_eq_true, decide_eq_true_eq, decide_eq_true_eq] at digit
    have : c.val.toNat ≤ 57 := UInt32.le_iff_toNat_le.mp digit.2
    exact Nat.lt_of_le_of_lt this (by decide)
  all_goals decide

/-- Control characters have the longest escapes of the first 127. -/
theorem escape_ascii {c d : Char} (small : c.toNat < 128) (member : d ∈ escape c) : d.toNat < 128 := by
  unfold escape at member
  split_ifs at member
  all_goals simp only [List.mem_cons, List.not_mem_nil, or_false] at member
  all_goals rcases member with rfl | rfl | rfl | rfl | rfl | rfl
  all_goals first | decide | exact hexDigit_ascii _ | exact small

/-- The length of `escapeAscii`. -/
def escapedLength (c : Char) : Nat :=
  if c ∈ ['\x22', '\x5c', '\n', '\r', '\t', '\x08', '\x0c'] then 2
  else if c.toNat < 32 then 6
  else if c.toNat < 127 then 1
  else if c.toNat < 0x10000 then 6
  else 12

theorem hex4_ascii {n : Nat} {d : Char} (member : d ∈ hex4 n) : d.toNat < 128 := by
  simp only [hex4, List.mem_cons, List.not_mem_nil, or_false] at member
  rcases member with rfl | rfl | rfl | rfl <;> exact hexDigit_ascii _

theorem escapeAscii_ascii {c d : Char} (member : d ∈ escapeAscii c) : d.toNat < 128 := by
  unfold escapeAscii at member
  split_ifs at member with plain small
  · exact escape_ascii (Nat.lt_succ_of_lt plain) member
  · rcases List.mem_cons.mp member with rfl | member
    · decide
    · rcases List.mem_cons.mp member with rfl | member
      · decide
      · exact hex4_ascii member
  · rcases List.mem_append.mp member with member | member
    all_goals
      rcases List.mem_cons.mp member with rfl | member
      · decide
      · rcases List.mem_cons.mp member with rfl | member
        · decide
        · exact hex4_ascii member

theorem length_escapeAscii (c : Char) : (escapeAscii c).length = escapedLength c := by
  by_cases short : c ∈ ['\x22', '\x5c', '\n', '\r', '\t', '\x08', '\x0c']
  · rw [escapedLength, if_pos short]
    have all : ∀ c ∈ ['\x22', '\x5c', '\n', '\r', '\t', '\x08', '\x0c'], (escapeAscii c).length = 2 :=
      forall_of_all (by decide)
    exact all c short
  · rw [escapedLength, if_neg short, escapeAscii]
    simp only [List.mem_cons, List.not_mem_nil, or_false, not_or] at short
    obtain ⟨quote, backslash, newline, carriage, tab, bell, feed⟩ := short
    by_cases control : c.toNat < 32
    · rw [if_pos (by omega), if_pos control, escape, if_neg quote, if_neg backslash, if_neg newline, if_neg carriage,
        if_neg tab, if_neg bell, if_neg feed, if_pos control]
      rfl
    · rw [if_neg control]
      by_cases plain : c.toNat < 127
      · rw [if_pos plain, if_pos plain, escape, if_neg quote, if_neg backslash, if_neg newline, if_neg carriage,
          if_neg tab, if_neg bell, if_neg feed, if_neg control]
        rfl
      · rw [if_neg plain, if_neg plain]
        by_cases small : c.toNat < 0x10000
        · rw [if_pos small, if_pos small]
          rfl
        · rw [if_neg small, if_neg small]
          rfl

/-- The length of a string with its quotes. -/
def quotedLength (s : String) : Nat := 2 + (s.toList.map escapedLength).sum

namespace Style
variable {style : Style}

section Texts
variable (ascii : style.ascii = true)
include ascii

theorem escape_eq : style.escape = escapeAscii := by
  funext c
  rw [Style.escape, if_pos ascii]

theorem length_text (s : String) : (style.text s).length = quotedLength s := by
  rw [Style.text, escape_eq ascii, quotedLength, List.length_cons, List.length_append, List.length_flatMap,
    List.length_singleton, funext length_escapeAscii]
  omega

theorem text_ascii {s : String} {d : Char} (member : d ∈ style.text s) : d.toNat < 128 := by
  rw [Style.text, escape_eq ascii] at member
  rcases List.mem_cons.mp member with rfl | member
  · decide
  · rcases List.mem_append.mp member with member | member
    · obtain ⟨c, -, escaped⟩ := List.mem_flatMap.mp member
      exact escapeAscii_ascii escaped
    · rw [List.mem_singleton.mp member]
      decide

omit ascii in
theorem gap_ascii {d : Char} (member : d ∈ style.gap) : d.toNat < 128 := by
  unfold Style.gap at member
  split at member
  · rw [List.mem_singleton.mp member]
    decide
  · cases member

theorem member_ascii {key : String} {value later : List Char} (first : ∀ d ∈ value, d.toNat < 128)
    (rest : ∀ d ∈ later, d.toNat < 128) :
    ∀ d ∈ style.text key ++ ':' :: (style.gap ++ (value ++ later)), d.toNat < 128 := by
  intro d member
  rcases List.mem_append.mp member with named | member
  · exact text_ascii ascii named
  · rcases List.mem_cons.mp member with rfl | member
    · decide
    · rcases List.mem_append.mp member with blank | member
      · exact gap_ascii blank
      · rcases List.mem_append.mp member with here | after
        · exact first d here
        · exact rest d after

end Texts

mutual
theorem spell_ascii (ascii : style.ascii = true) (a : Value) : ∀ d ∈ style.spell a, d.toNat < 128 := by
  intro d member
  cases a with
  | null =>
    rw [Style.spell] at member
    exact ascii_of_all (by decide) d member
  | bool b =>
    cases b
    all_goals
      rw [Style.spell] at member
      exact ascii_of_all (by decide) d member
  | number n => exact numeric_ascii (n.numeric d (by rwa [Style.spell] at member))
  | string s => exact text_ascii ascii (by rwa [Style.spell] at member)
  | array items =>
    cases items with
    | nil =>
      rw [Style.spell] at member
      exact ascii_of_all (by decide) d member
    | cons a rest =>
      rw [Style.spell] at member
      rcases List.mem_cons.mp member with rfl | member
      · decide
      · rcases List.mem_append.mp member with first | later
        · exact spell_ascii ascii a d first
        · exact spellItems_ascii ascii rest d later
  | object members =>
    cases members with
    | nil =>
      rw [Style.spell] at member
      exact ascii_of_all (by decide) d member
    | cons entry rest =>
      obtain ⟨key, a⟩ := entry
      rw [Style.spell] at member
      rcases List.mem_cons.mp member with rfl | member
      · decide
      · exact member_ascii ascii (spell_ascii ascii a) (spellMembers_ascii ascii rest) d member
termination_by structural a

theorem spellItems_ascii (ascii : style.ascii = true) (items : List Value) :
    ∀ d ∈ style.spellItems items, d.toNat < 128 := by
  intro d member
  cases items with
  | nil =>
    rw [Style.spellItems] at member
    exact ascii_of_all (by decide) d member
  | cons a rest =>
    rw [Style.spellItems] at member
    rcases List.mem_cons.mp member with rfl | member
    · decide
    · rcases List.mem_append.mp member with blank | member
      · exact gap_ascii blank
      · rcases List.mem_append.mp member with first | later
        · exact spell_ascii ascii a d first
        · exact spellItems_ascii ascii rest d later
termination_by structural items

theorem spellMembers_ascii (ascii : style.ascii = true) (members : List (String × Value)) :
    ∀ d ∈ style.spellMembers members, d.toNat < 128 := by
  intro d member
  cases members with
  | nil =>
    rw [Style.spellMembers] at member
    exact ascii_of_all (by decide) d member
  | cons entry rest =>
    obtain ⟨key, a⟩ := entry
    rw [Style.spellMembers] at member
    rcases List.mem_cons.mp member with rfl | member
    · decide
    · rcases List.mem_append.mp member with blank | member
      · exact gap_ascii blank
      · exact member_ascii ascii (spell_ascii ascii a) (spellMembers_ascii ascii rest) d member
termination_by structural members
end

theorem length_spellItems (items : List Value) : (style.spellItems items).length =
    1 + (items.map fun a => 1 + style.gap.length + (style.spell a).length).sum := by
  induction items with
  | nil => rfl
  | cons a rest ih =>
    rw [Style.spellItems, List.length_cons, List.length_append, List.length_append, ih, List.map_cons, List.sum_cons]
    omega

theorem length_array (a : Value) (rest : List Value) : (style.spell (.array (a :: rest))).length =
    2 + (style.spell a).length + (rest.map fun a => 1 + style.gap.length + (style.spell a).length).sum := by
  rw [Style.spell, List.length_cons, List.length_append, length_spellItems]
  omega

section Objects
variable (ascii : style.ascii = true)
include ascii

theorem length_member (key : String) (a : Value) (later : List Char) :
    (style.text key ++ ':' :: (style.gap ++ (style.spell a ++ later))).length =
      quotedLength key + 1 + style.gap.length + (style.spell a).length + later.length := by
  rw [List.length_append, List.length_cons, List.length_append, List.length_append, length_text ascii]
  omega

theorem length_spellMembers (members : List (String × Value)) : (style.spellMembers members).length =
    1 + (members.map fun member =>
      2 + 2 * style.gap.length + quotedLength member.1 + (style.spell member.2).length).sum := by
  induction members with
  | nil => rfl
  | cons member rest ih =>
    obtain ⟨key, a⟩ := member
    rw [Style.spellMembers, List.length_cons, List.length_append, length_member ascii, ih, List.map_cons,
      List.sum_cons]
    dsimp only
    omega

theorem length_object (key : String) (a : Value) (rest : List (String × Value)) :
    (style.spell (.object ((key, a) :: rest))).length =
      3 + style.gap.length + quotedLength key + (style.spell a).length +
        (rest.map fun member =>
          2 + 2 * style.gap.length + quotedLength member.1 + (style.spell member.2).length).sum := by
  rw [Style.spell, List.length_cons, length_member ascii, length_spellMembers ascii]
  omega

end Objects

end Style

end Drivebound.Json
