import Drivebound.Core.JsonText
import Mathlib

/-! UUIDs: the spelling of `str`, and the two readers of the sources, `uuid.UUID` and the
validation of a request. Whatever the second takes, the first reads to the same UUID. -/
namespace Drivebound

/-- `text.replace(pattern, replacement)` for a pattern that is not empty. -/
def replaceAll (pattern replacement : List Char) : List Char → List Char
  | [] => []
  | c :: rest =>
    if pattern.isPrefixOf (c :: rest) then
      replacement ++ replaceAll pattern replacement (rest.drop (pattern.length - 1))
    else c :: replaceAll pattern replacement rest
termination_by text => text.length
decreasing_by
  · rw [List.length_drop, List.length_cons]
    omega
  · exact Nat.lt_succ_self _

theorem replaceAll_append {c : Char} {pattern replacement text : List Char} (absent : c ∉ text) (rest : List Char) :
    replaceAll (c :: pattern) replacement (text ++ rest) = text ++ replaceAll (c :: pattern) replacement rest := by
  induction text with
  | nil => rfl
  | cons d later ih =>
    rw [List.mem_cons, not_or] at absent
    have other : (c :: pattern).isPrefixOf (d :: later ++ rest) = false := by
      rw [List.cons_append, List.isPrefixOf, beq_eq_false_iff_ne.mpr absent.1, Bool.false_and]
    rw [List.cons_append, replaceAll, if_neg (by rw [← List.cons_append, other]; exact Bool.false_ne_true),
      ih absent.2, List.cons_append]

theorem replaceAll_of_not_mem {c : Char} {pattern replacement text : List Char} (absent : c ∉ text) :
    replaceAll (c :: pattern) replacement text = text := by
  have whole : replaceAll (c :: pattern) replacement (text ++ []) = text ++ replaceAll (c :: pattern) replacement [] :=
    replaceAll_append absent []
  rw [List.append_nil, replaceAll, List.append_nil] at whole
  exact whole

theorem replaceAll_self (c : Char) (pattern replacement rest : List Char) :
    replaceAll (c :: pattern) replacement (c :: pattern ++ rest) =
      replacement ++ replaceAll (c :: pattern) replacement rest := by
  have found : (c :: pattern).isPrefixOf (c :: (pattern ++ rest)) = true :=
    List.isPrefixOf_iff_prefix.mpr (List.prefix_append (c :: pattern) rest)
  rw [List.cons_append, replaceAll, if_pos found, List.length_cons, Nat.add_sub_cancel, List.drop_left]

/-- `text.strip("\x7b\x7d")` -/
def stripBraces (text : List Char) : List Char :=
  let brace := fun c => c = '\x7b' ∨ c = '\x7d'
  ((text.dropWhile brace).reverse.dropWhile brace).reverse

/-- A UUID by its hexadecimal digits, which are also how UUIDs are ordered. -/
structure Uuid where
  nibbles : List (Fin 16)
  length_eq : nibbles.length = 32
deriving DecidableEq

namespace Uuid

theorem nibbles_injective : Function.Injective nibbles := by
  rintro ⟨nibbles, _⟩ ⟨others, _⟩ rfl
  rfl

instance : LinearOrder Uuid := LinearOrder.lift' nibbles nibbles_injective

instance : NeZero 16 := ⟨by decide⟩

def hexNibble (c : Char) : Option (Fin 16) := (Json.hexDigitValue c).map (Fin.ofNat 16)

def ofHex (text : List Char) : Option Uuid :=
  match text.mapM hexNibble with
  | none => none
  | some nibbles => if size : nibbles.length = 32 then some ⟨nibbles, size⟩ else none

def hex (u : Uuid) : List Char := u.nibbles.map fun nibble => Json.hexDigit nibble.val

/-- The groups of a spelling with hyphens. -/
def groups (text : List Char) : List Char :=
  text.take 8 ++ '-' :: ((text.drop 8).take 4 ++ '-' :: ((text.drop 12).take 4 ++ '-' ::
    ((text.drop 16).take 4 ++ '-' :: text.drop 20)))

/-- `str(u)` -/
def str (u : Uuid) : String := String.ofList (groups u.hex)

/-- `uuid.UUID(text)` -/
def ofText (text : String) : Option Uuid :=
  ofHex ((stripBraces (replaceAll "uuid:".toList [] (replaceAll "urn:".toList [] text.toList))).filter (· ≠ '-'))

/-- What a request may spell: the digits alone or with their hyphens, in braces, or as a URN. -/
def ofHyphenated (text : List Char) : Option Uuid :=
  if groups (text.filter (· ≠ '-')) = text then ofHex (text.filter (· ≠ '-')) else none

def validate (text : String) : Option Uuid :=
  match text.toList with
  | 'u' :: 'r' :: 'n' :: ':' :: 'u' :: 'u' :: 'i' :: 'd' :: ':' :: rest => ofHyphenated rest
  | '\x7b' :: rest => if rest.getLast? = some '\x7d' then ofHyphenated rest.dropLast else none
  | whole => if whole.length = 32 then ofHex whole else ofHyphenated whole

theorem hexNibble_hexDigit (nibble : Fin 16) : hexNibble (Json.hexDigit nibble) = some nibble := by
  revert nibble
  decide +kernel

theorem ofHex_hex (u : Uuid) : ofHex u.hex = some u := by
  obtain ⟨nibbles, size⟩ := u
  have read : (nibbles.map fun nibble => Json.hexDigit nibble.val).mapM hexNibble = some nibbles := by
    clear size
    induction nibbles with
    | nil => rfl
    | cons nibble rest ih =>
      rw [List.map_cons, List.mapM_cons, hexNibble_hexDigit, ih]
      rfl
  unfold ofHex hex
  simp only [read]
  rw [dif_pos size]

/-- Digits are none of the other characters of a spelling. -/
theorem hexNibble_plain {c : Char} (digit : (hexNibble c).isSome) :
    c ≠ '-' ∧ c ≠ 'u' ∧ c ≠ '\x7b' ∧ c ≠ '\x7d' := by
  refine ⟨?_, ?_, ?_, ?_⟩
  · rintro rfl
    exact absurd digit (by decide)
  · rintro rfl
    exact absurd digit (by decide)
  · rintro rfl
    exact absurd digit (by decide)
  · rintro rfl
    exact absurd digit (by decide)

theorem digits_of_ofHex {text : List Char} {u : Uuid} (read : ofHex text = some u) :
    ∀ c ∈ text, (hexNibble c).isSome := by
  unfold ofHex at read
  cases digits : text.mapM hexNibble with
  | none =>
    rw [digits] at read
    cases read
  | some nibbles =>
    clear read
    induction text generalizing nibbles with
    | nil => exact fun c among => absurd among List.not_mem_nil
    | cons d rest ih =>
      rw [List.mapM_cons] at digits
      cases first : hexNibble d with
      | none =>
        rw [first] at digits
        cases digits
      | some nibble =>
        rw [first] at digits
        cases later : rest.mapM hexNibble with
        | none =>
          rw [later] at digits
          cases digits
        | some others =>
          intro c among
          rcases List.mem_cons.mp among with rfl | after
          · rw [first]
            rfl
          · exact ih others later c after

theorem dropWhile_brace_of_plain {text : List Char} (plain : ∀ c ∈ text, c ≠ '\x7b' ∧ c ≠ '\x7d') :
    text.dropWhile (fun c => c = '\x7b' ∨ c = '\x7d') = text := by
  cases text with
  | nil => rfl
  | cons c rest =>
    have first := plain c List.mem_cons_self
    rw [List.dropWhile_cons_of_neg]
    simp [first.1, first.2]

theorem stripBraces_of_plain {text : List Char} (plain : ∀ c ∈ text, c ≠ '\x7b' ∧ c ≠ '\x7d') :
    stripBraces text = text := by
  unfold stripBraces
  dsimp only
  rw [dropWhile_brace_of_plain plain, dropWhile_brace_of_plain fun c among => plain c (List.mem_reverse.mp among),
    List.reverse_reverse]

theorem stripBraces_braced {text : List Char} (plain : ∀ c ∈ text, c ≠ '\x7b' ∧ c ≠ '\x7d') :
    stripBraces ('\x7b' :: (text ++ ['\x7d'])) = text := by
  cases text with
  | nil => rfl
  | cons c rest =>
    have first := plain c List.mem_cons_self
    have opened : ('\x7b' :: (c :: rest ++ ['\x7d'])).dropWhile (fun c => c = '\x7b' ∨ c = '\x7d') =
        c :: rest ++ ['\x7d'] := by
      rw [List.dropWhile_cons_of_pos (by decide), List.cons_append, List.dropWhile_cons_of_neg]
      simp [first.1, first.2]
    unfold stripBraces
    dsimp only
    rw [opened, List.reverse_append, List.reverse_singleton, List.singleton_append,
      List.dropWhile_cons_of_pos (by decide),
      dropWhile_brace_of_plain fun c among => plain c (List.mem_reverse.mp among), List.reverse_reverse]

/-- A text of digits is what is left when the hyphens of its spelling are taken out. -/
theorem filter_groups {text : List Char} (digits : ∀ c ∈ text, c ≠ '-') :
    (groups text).filter (· ≠ '-') = text := by
  have kept : ∀ {part : List Char}, (∀ c ∈ part, c ∈ text) → part.filter (· ≠ '-') = part := by
    intro part among
    apply List.filter_eq_self.mpr
    intro c member
    exact decide_eq_true (digits c (among c member))
  have hyphen : ∀ rest : List Char, ('-' :: rest).filter (· ≠ '-') = rest.filter (· ≠ '-') :=
    fun rest => List.filter_cons_of_neg (by decide)
  have within : ∀ start size, ∀ c ∈ (text.drop start).take size, c ∈ text :=
    fun start size c member => List.mem_of_mem_drop (List.mem_of_mem_take member)
  rw [groups, List.filter_append, hyphen, List.filter_append, hyphen, List.filter_append, hyphen, List.filter_append,
    hyphen, kept fun c member => List.mem_of_mem_take member, kept (within 8 4), kept (within 12 4),
    kept (within 16 4), kept fun c member => List.mem_of_mem_drop member]
  have join : ∀ start size, (text.drop start).take size ++ text.drop (start + size) = text.drop start := by
    intro start size
    rw [← List.drop_drop]
    exact List.take_append_drop _ _
  rw [join 16 4, join 12 4, join 8 4, List.take_append_drop]

theorem mem_groups {text : List Char} {c : Char} (member : c ∈ groups text) : c = '-' ∨ c ∈ text := by
  simp only [groups, List.mem_append, List.mem_cons] at member
  rcases member with a | rfl | b | rfl | b | rfl | b | rfl | b
  · exact .inr (List.mem_of_mem_take a)
  · exact .inl rfl
  · exact .inr (List.mem_of_mem_drop (List.mem_of_mem_take b))
  · exact .inl rfl
  · exact .inr (List.mem_of_mem_drop (List.mem_of_mem_take b))
  · exact .inl rfl
  · exact .inr (List.mem_of_mem_drop (List.mem_of_mem_take b))
  · exact .inl rfl
  · exact .inr (List.mem_of_mem_drop b)

/-- A spelling with none of the letters and signs that `uuid.UUID` drops. -/
theorem ofText_plain {text : List Char} (plain : ∀ c ∈ text, c = '-' ∨ (hexNibble c).isSome) :
    ofText (String.ofList text) = ofHex (text.filter (· ≠ '-')) := by
  have apart : ∀ c ∈ text, c ≠ 'u' ∧ c ≠ '\x7b' ∧ c ≠ '\x7d' := by
    intro c member
    rcases plain c member with rfl | digit
    · decide
    · exact (hexNibble_plain digit).2
  have absent : 'u' ∉ text := fun member => (apart 'u' member).1 rfl
  have urn : replaceAll "urn:".toList [] text = text := replaceAll_of_not_mem absent
  have uuid : replaceAll "uuid:".toList [] text = text := replaceAll_of_not_mem absent
  have chars : (String.ofList text).toList = text := String.toList_ofList
  rw [ofText, chars, urn, uuid, stripBraces_of_plain fun c member => (apart c member).2]

/-- `uuid.UUID(str(u)) == u` -/
theorem ofText_str (u : Uuid) : ofText u.str = some u := by
  have digits := digits_of_ofHex (ofHex_hex u)
  rw [str, ofText_plain, filter_groups, ofHex_hex]
  · exact fun c member => (hexNibble_plain (digits c member)).1
  · intro c member
    rcases mem_groups member with rfl | among
    · exact .inl rfl
    · exact .inr (digits c among)

theorem str_injective : Function.Injective str := by
  intro u v same
  have read := ofText_str u
  rw [same, ofText_str] at read
  exact (Option.some.inj read).symm

/-- The hyphenated part of a spelling is digits and hyphens. -/
theorem ofHyphenated_plain {text : List Char} {u : Uuid} (read : ofHyphenated text = some u) :
    (∀ c ∈ text, c = '-' ∨ (hexNibble c).isSome) ∧ ofHex (text.filter (· ≠ '-')) = some u := by
  unfold ofHyphenated at read
  split at read
  · refine ⟨fun c member => ?_, read⟩
    by_cases hyphen : c = '-'
    · exact .inl hyphen
    · exact .inr (digits_of_ofHex read c (List.mem_filter.mpr ⟨member, decide_eq_true hyphen⟩))
  · cases read

/-- `uuid.UUID` reads whatever a request may spell, and to the same UUID. -/
theorem ofText_of_validate {text : String} {u : Uuid} (read : validate text = some u) : ofText text = some u := by
  have listed : text = String.ofList text.toList := String.ofList_toList.symm
  rw [listed]
  unfold validate at read
  generalize text.toList = chars at read
  have plain : ∀ {chars : List Char}, ofHyphenated chars = some u → 'u' ∉ chars := by
    intro chars read member
    rcases (ofHyphenated_plain read).1 'u' member with hyphen | digit
    · exact absurd hyphen (by decide)
    · exact (hexNibble_plain digit).2.1 rfl
  have apart : ∀ {chars : List Char}, ofHyphenated chars = some u → ∀ c ∈ chars, c ≠ '\x7b' ∧ c ≠ '\x7d' := by
    intro chars read c member
    rcases (ofHyphenated_plain read).1 c member with rfl | digit
    · decide
    · exact (hexNibble_plain digit).2.2
  split at read
  · next rest =>
    have kept : replaceAll ['u', 'r', 'n', ':'] [] rest = rest := replaceAll_of_not_mem (plain read)
    have urn : replaceAll ['u', 'r', 'n', ':'] [] ('u' :: 'u' :: 'i' :: 'd' :: ':' :: rest) =
        'u' :: 'u' :: 'i' :: 'd' :: ':' :: rest := by
      simp [replaceAll, kept]
    have uuid : replaceAll ['u', 'u', 'i', 'd', ':'] [] ('u' :: 'u' :: 'i' :: 'd' :: ':' :: rest) = rest :=
      (replaceAll_self 'u' ['u', 'i', 'd', ':'] [] rest).trans (replaceAll_of_not_mem (plain read))
    have dropped := replaceAll_self 'u' ['r', 'n', ':'] [] ('u' :: 'u' :: 'i' :: 'd' :: ':' :: rest)
    rw [urn, List.nil_append] at dropped
    have chars : (String.ofList ('u' :: 'r' :: 'n' :: ':' :: 'u' :: 'u' :: 'i' :: 'd' :: ':' :: rest)).toList =
        ['u', 'r', 'n', ':'] ++ 'u' :: 'u' :: 'i' :: 'd' :: ':' :: rest := String.toList_ofList
    have names : "urn:".toList = ['u', 'r', 'n', ':'] ∧ "uuid:".toList = ['u', 'u', 'i', 'd', ':'] := by decide
    rw [ofText, chars, names.1, names.2, dropped, uuid, stripBraces_of_plain (apart read),
      (ofHyphenated_plain read).2]
  · next rest =>
    split at read
    · next closed =>
      obtain ⟨inner, rfl⟩ : ∃ inner, rest = inner ++ ['\x7d'] := by
        rw [List.getLast?_eq_some_iff] at closed
        exact closed
      rw [List.dropLast_concat] at read
      have absent : 'u' ∉ '\x7b' :: (inner ++ ['\x7d']) := by
        intro member
        rcases List.mem_cons.mp member with brace | later
        · exact absurd brace (by decide)
        · rcases List.mem_append.mp later with inside | brace
          · exact plain read inside
          · exact absurd (List.mem_singleton.mp brace) (by decide)
      have urn : replaceAll "urn:".toList [] ('\x7b' :: (inner ++ ['\x7d'])) = '\x7b' :: (inner ++ ['\x7d']) :=
        replaceAll_of_not_mem absent
      have uuid : replaceAll "uuid:".toList [] ('\x7b' :: (inner ++ ['\x7d'])) = '\x7b' :: (inner ++ ['\x7d']) :=
        replaceAll_of_not_mem absent
      have chars : (String.ofList ('\x7b' :: (inner ++ ['\x7d']))).toList = '\x7b' :: (inner ++ ['\x7d']) :=
        String.toList_ofList
      rw [ofText, chars, urn, uuid, stripBraces_braced (apart read), (ofHyphenated_plain read).2]
    · cases read
  · split at read
    · have digits := digits_of_ofHex read
      rw [ofText_plain fun c member => .inr (digits c member), List.filter_eq_self.mpr, read]
      exact fun c member => decide_eq_true (hexNibble_plain (digits c member)).1
    · obtain ⟨shown, hex⟩ := ofHyphenated_plain read
      rw [ofText_plain shown, hex]

end Uuid

end Drivebound
