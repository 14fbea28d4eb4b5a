import Drivebound.Core.Dict
import Drivebound.Core.Json
import Mathlib.Data.List.TakeWhile

/-! The spellings of `json.dumps` in its styles, and `json.loads`, which reads every one of
them back. A number is kept as it is spelled, so it has to be spelled as Python spells it. -/
namespace Drivebound.Json

/-! ### Spelling -/

/-- `ensure_ascii=True`, and the blanks of the default separators. -/
structure Style where
  ascii : Bool
  spaced : Bool

def hex4 (n : Nat) : List Char :=
  [hexDigit (n / 4096 % 16), hexDigit (n / 256 % 16), hexDigit (n / 16 % 16), hexDigit (n % 16)]

/-- The escapes of `ensure_ascii=True`; what lies beyond 16 bits is a pair of surrogates. -/
def escapeAscii (c : Char) : List Char :=
  if c.toNat < 127 then escape c
  else if c.toNat < 0x10000 then '\x5c' :: 'u' :: hex4 c.toNat
  else '\x5c' :: 'u' :: hex4 (0xd800 + (c.toNat - 0x10000) / 1024) ++
    '\x5c' :: 'u' :: hex4 (0xdc00 + (c.toNat - 0x10000) % 1024)

namespace Style

def escape (style : Style) (c : Char) : List Char := if style.ascii then escapeAscii c else Json.escape c

def text (style : Style) (s : String) : List Char :=
  '\x22' :: (s.toList.flatMap style.escape ++ ['\x22'])

def gap (style : Style) : List Char := if style.spaced then [' '] else []

mutual
def spell (style : Style) : Value → List Char
  | .null => ['n', 'u', 'l', 'l']
  | .bool true => ['t', 'r', 'u', 'e']
  | .bool false => ['f', 'a', 'l', 's', 'e']
  | .number n => n.text
  | .string s => style.text s
  | .array [] => ['[', ']']
  | .array (a :: rest) => '[' :: (style.spell a ++ style.spellItems rest)
  | .object [] => ['\x7b', '\x7d']
  | .object ((key, a) :: rest) =>
    '\x7b' :: (style.text key ++ ':' :: (style.gap ++ (style.spell a ++ style.spellMembers rest)))

/-- The later items of an array and its end. -/
def spellItems (style : Style) : List Value → List Char
  | [] => [']']
  | a :: rest => ',' :: (style.gap ++ (style.spell a ++ style.spellItems rest))

def spellMembers (style : Style) : List (String × Value) → List Char
  | [] => ['\x7d']
  | (key, a) :: rest =>
    ',' :: (style.gap ++ (style.text key ++ ':' :: (style.gap ++ (style.spell a ++ style.spellMembers rest))))
end

end Style

/-! ### Reading -/

def isSpace (c : Char) : Bool := c = ' ' || c = '\t' || c = '\n' || c = '\r'

def skip (text : List Char) : List Char := text.dropWhile isSpace

def hexDigitValue (c : Char) : Option Nat :=
  if c.isDigit then some (c.toNat - '0'.toNat)
  else if 'a' ≤ c ∧ c ≤ 'f' then some (c.toNat - 'a'.toNat + 10)
  else if 'A' ≤ c ∧ c ≤ 'F' then some (c.toNat - 'A'.toNat + 10)
  else none

def readHex4 : List Char → Option (Nat × List Char)
  | a :: b :: c :: d :: u => do
    let a ← hexDigitValue a
    let b ← hexDigitValue b
    let c ← hexDigitValue c
    let d ← hexDigitValue d
    some (a * 4096 + b * 256 + c * 16 + d, u)
  | _ => none

/-- The rest of an escape that begins with the unit `n`; a surrogate alone is no character. -/
def readUnit (n : Nat) (u : List Char) : Option (Char × List Char) :=
  if 0xd800 ≤ n ∧ n < 0xdc00 then
    match u with
    | '\x5c' :: 'u' :: v => do
      let (m, later) ← readHex4 v
      if 0xdc00 ≤ m ∧ m < 0xe000 then
        some (Char.ofNat (0x10000 + (n - 0xd800) * 1024 + (m - 0xdc00)), later)
      else none
    | _ => none
  else if 0xdc00 ≤ n ∧ n < 0xe000 then none
  else some (Char.ofNat n, u)

def readEscape : List Char → Option (Char × List Char)
  | '\x22' :: u => some ('\x22', u)
  | '\x5c' :: u => some ('\x5c', u)
  | '/' :: u => some ('/', u)
  | 'n' :: u => some ('\n', u)
  | 'r' :: u => some ('\r', u)
  | 't' :: u => some ('\t', u)
  | 'b' :: u => some ('\x08', u)
  | 'f' :: u => some ('\x0c', u)
  | 'u' :: u => do
    let (n, later) ← readHex4 u
    readUnit n later
  | _ => none

def readChar : List Char → Option (Char × List Char)
  | [] => none
  | c :: u => if c = '\x5c' then readEscape u else if c.toNat < 32 then none else some (c, u)

/-- The characters of a string up to its quote; every character takes one of the fuel. -/
def readText : Nat → List Char → Option (List Char × List Char)
  | 0, _ => none
  | fuel + 1, text =>
    match text with
    | '\x22' :: u => some ([], u)
    | _ => do
      let (c, u) ← readChar text
      let (rest, v) ← readText fuel u
      some (c :: rest, v)

def readString (text : List Char) : Option (String × List Char) := do
  let (chars, u) ← readText text.length text
  some (String.ofList chars, u)

/-- At least one digit, and what follows the digits. -/
def digits (text : List Char) : Option (List Char) :=
  if (text.takeWhile Char.isDigit).isEmpty then none else some (text.dropWhile Char.isDigit)

def isExponent : List Char → Bool
  | [] => true
  | 'e' :: '+' :: u => digits u = some []
  | 'e' :: '-' :: u => digits u = some []
  | 'e' :: u => digits u = some []
  | _ => false

def isFraction : List Char → Bool
  | '.' :: u => (digits u).any isExponent
  | u => isExponent u

def isUnsigned : List Char → Bool
  | '0' :: u => isFraction u
  | u => (digits u).any isFraction

/-- The numbers of JSON, with a small `e` as Python spells it. -/
def isNumber : List Char → Bool
  | '-' :: u => isUnsigned u
  | u => isUnsigned u

def readNumber (text : List Char) : Option (Value × List Char) :=
  if number : text.takeWhile isNumeric ≠ [] ∧ isNumber (text.takeWhile isNumeric) then
    some (.number ⟨text.takeWhile isNumeric, number.1, fun _ member => List.mem_takeWhile_imp member⟩,
      text.dropWhile isNumeric)
  else none

/-- A key that comes again takes the later value. -/
def dictOf (members : List (String × Value)) : List (String × Value) :=
  members.foldl (fun d member => Dict.set d member.1 member.2) []

mutual
def readValue : Nat → List Char → Option (Value × List Char)
  | 0, _ => none
  | fuel + 1, text =>
    match text with
    | 'n' :: 'u' :: 'l' :: 'l' :: u => some (.null, u)
    | 't' :: 'r' :: 'u' :: 'e' :: u => some (.bool true, u)
    | 'f' :: 'a' :: 'l' :: 's' :: 'e' :: u => some (.bool false, u)
    | '\x22' :: u => (readString u).map fun (s, v) => (.string s, v)
    | '[' :: u =>
      match skip u with
      | ']' :: v => some (.array [], v)
      | first => (readItems fuel first).map fun (items, v) => (.array items, v)
    | '\x7b' :: u =>
      match skip u with
      | '\x7d' :: v => some (.object [], v)
      | first => (readMembers fuel first).map fun (members, v) => (.object (dictOf members), v)
    | _ => readNumber text

def readItems : Nat → List Char → Option (List Value × List Char)
  | 0, _ => none
  | fuel + 1, text => do
    let (a, u) ← readValue fuel text
    match skip u with
    | ']' :: v => some ([a], v)
    | ',' :: v => do
      let (rest, w) ← readItems fuel (skip v)
      some (a :: rest, w)
    | _ => none

def readMembers : Nat → List Char → Option (List (String × Value) × List Char)
  | 0, _ => none
  | fuel + 1, text =>
    match text with
    | '\x22' :: t => do
      let (key, u) ← readString t
      match skip u with
      | ':' :: v => do
        let (a, w) ← readValue fuel (skip v)
        match skip w with
        | '\x7d' :: x => some ([(key, a)], x)
        | ',' :: x => do
          let (rest, y) ← readMembers fuel (skip x)
          some ((key, a) :: rest, y)
        | _ => none
      | _ => none
    | _ => none
end

def loads (text : List Char) : Option Value :=
  match readValue text.length (skip text) with
  | some (a, u) => if (skip u).isEmpty then some a else none
  | none => none

/-! ### Every spelling is read back -/

mutual
/-- A value as Python holds it: each key once, and each number spelled as a number. -/
def Value.Valid : Value → Prop
  | .null | .bool _ | .string _ => True
  | .number n => isNumber n.text = true
  | .array items => ValidItems items
  | .object members => (members.map Prod.fst).Nodup ∧ ValidMembers members

def ValidItems : List Value → Prop
  | [] => True
  | a :: rest => a.Valid ∧ ValidItems rest

def ValidMembers : List (String × Value) → Prop
  | [] => True
  | (_, a) :: rest => a.Valid ∧ ValidMembers rest
end

theorem hexDigitValue_hexDigit (n : Nat) : hexDigitValue (hexDigit (n % 16)) = some (n % 16) := by
  have all : ∀ d : Fin 16, hexDigitValue (hexDigit d) = some d.val := by decide +kernel
  exact all ⟨n % 16, Nat.mod_lt _ (by decide)⟩

theorem readHex4_hex4 {n : Nat} (small : n < 0x10000) (u : List Char) : readHex4 (hex4 n ++ u) = some (n, u) := by
  simp only [hex4, List.cons_append, List.nil_append, readHex4, hexDigitValue_hexDigit, Option.bind_eq_bind,
    Option.bind_some]
  congr 2
  omega

theorem readUnit_plain {c : Char} (small : c.toNat < 0x10000) (u : List Char) :
    readUnit c.toNat u = some (c, u) := by
  have valid := c.valid
  have apart : c.toNat < 0xd800 ∨ 0xe000 ≤ c.toNat := by
    rcases valid with low | ⟨high, -⟩
    · exact .inl low
    · exact .inr (by
        have : c.toNat = c.val.toNat := rfl
        omega)
  unfold readUnit
  rw [if_neg (by omega), if_neg (by omega), Char.ofNat_toNat]

theorem readChar_escape (c : Char) (u : List Char) : readChar (escape c ++ u) = some (c, u) := by
  unfold escape
  split_ifs with quote backslash newline carriage tab bell feed control
  · rw [quote]
    rfl
  · rw [backslash]
    rfl
  · rw [newline]
    rfl
  · rw [carriage]
    rfl
  · rw [tab]
    rfl
  · rw [bell]
    rfl
  · rw [feed]
    rfl
  · have spelled : ['\x5c', 'u', '0', '0', hexDigit (c.toNat / 16), hexDigit (c.toNat % 16)] =
        '\x5c' :: 'u' :: hex4 c.toNat := by
      have first : c.toNat / 4096 % 16 = 0 := by omega
      have second : c.toNat / 256 % 16 = 0 := by omega
      have third : c.toNat / 16 % 16 = c.toNat / 16 := by omega
      rw [hex4, first, second, third]
      rfl
    rw [spelled]
    show (readHex4 (hex4 c.toNat ++ u)).bind (fun unit => readUnit unit.1 unit.2) = _
    rw [readHex4_hex4 (by omega), Option.bind_some, readUnit_plain (by omega)]
  · rw [List.singleton_append, readChar, if_neg backslash, if_neg control]

theorem readChar_escapeAscii (c : Char) (u : List Char) : readChar (escapeAscii c ++ u) = some (c, u) := by
  unfold escapeAscii
  split_ifs with plain small
  · exact readChar_escape c u
  · show (readHex4 (hex4 c.toNat ++ u)).bind (fun unit => readUnit unit.1 unit.2) = _
    rw [readHex4_hex4 small, Option.bind_some, readUnit_plain small]
  · have bounded : c.toNat < 0x110000 := by
      rcases c.valid with low | ⟨-, high⟩
      · have : c.toNat = c.val.toNat := rfl
        omega
      · exact high
    show (readHex4 (hex4 _ ++ ('\x5c' :: 'u' :: hex4 _ ++ u))).bind (fun unit => readUnit unit.1 unit.2) = _
    rw [readHex4_hex4 (by omega), Option.bind_some]
    dsimp only
    unfold readUnit
    rw [if_pos (by omega)]
    show (readHex4 (hex4 _ ++ u)).bind _ = _
    rw [readHex4_hex4 (by omega), Option.bind_some]
    dsimp only
    rw [if_pos (by omega)]
    have whole : 0x10000 + (0xd800 + (c.toNat - 0x10000) / 1024 - 0xd800) * 1024 +
        (0xdc00 + (c.toNat - 0x10000) % 1024 - 0xdc00) = c.toNat := by omega
    rw [whole, Char.ofNat_toNat]

theorem readChar_style (style : Style) (c : Char) (u : List Char) :
    readChar (style.escape c ++ u) = some (c, u) := by
  unfold Style.escape
  split
  · exact readChar_escapeAscii c u
  · exact readChar_escape c u

/-- No escape begins with the quote that ends a string. -/
theorem style_lead (style : Style) (c : Char) : ∃ d rest, style.escape c = d :: rest ∧ d ≠ '\x22' := by
  unfold Style.escape escapeAscii
  split_ifs
  · exact escape_lead c
  · exact ⟨_, _, rfl, by decide⟩
  · exact ⟨_, _, rfl, by decide⟩
  · exact escape_lead c

theorem readText_style (style : Style) (s u : List Char) (fuel : Nat) (enough : s.length < fuel) :
    readText fuel (s.flatMap style.escape ++ '\x22' :: u) = some (s, u) := by
  induction s generalizing fuel with
  | nil =>
    cases fuel with
    | zero => exact absurd enough (Nat.not_lt_zero _)
    | succ fuel => rfl
  | cons c rest ih =>
    cases fuel with
    | zero => exact absurd enough (Nat.not_lt_zero _)
    | succ fuel =>
      obtain ⟨d, later, spelled, unquoted⟩ := style_lead style c
      have char := readChar_style style c (rest.flatMap style.escape ++ '\x22' :: u)
      rw [List.flatMap_cons, List.append_assoc]
      rw [spelled] at char ⊢
      rw [List.cons_append] at char ⊢
      rw [readText]
      · simp only [char, Option.bind_eq_bind, Option.bind_some, ih fuel (Nat.lt_of_succ_lt_succ enough)]
      · rintro v same
        exact unquoted (List.cons.inj same).1

theorem length_flatMap_escape (style : Style) (s : List Char) : s.length ≤ (s.flatMap style.escape).length := by
  induction s with
  | nil => exact Nat.zero_le _
  | cons c rest ih =>
    obtain ⟨d, later, spelled, -⟩ := style_lead style c
    rw [List.flatMap_cons, spelled, List.length_append, List.length_cons, List.length_cons]
    omega

theorem readString_style (style : Style) (s : String) (u : List Char) :
    readString (s.toList.flatMap style.escape ++ '\x22' :: u) = some (s, u) := by
  have short := length_flatMap_escape style s.toList
  have enough : s.toList.length < (s.toList.flatMap style.escape ++ '\x22' :: u).length := by
    rw [List.length_append, List.length_cons]
    omega
  rw [readString, readText_style style s.toList u _ enough, Option.bind_eq_bind, Option.bind_some]
  exact congrArg (fun text => some (text, u)) String.ofList_toList

theorem readNumber_text (n : Number) (valid : isNumber n.text = true) (u : List Char) (ends : Ends u) :
    readNumber (n.text ++ u) = some (.number n, u) := by
  have taken : (n.text ++ u).takeWhile isNumeric = n.text := by
    rw [List.takeWhile_append_of_pos n.numeric]
    cases u with
    | nil => exact List.append_nil _
    | cons c rest =>
      rw [List.takeWhile_cons_of_neg (Bool.eq_false_iff.mp ends)]
      exact List.append_nil _
  have dropped : (n.text ++ u).dropWhile isNumeric = u := by
    have whole := List.takeWhile_append_dropWhile (p := isNumeric) (l := n.text ++ u)
    rw [taken] at whole
    exact List.append_cancel_left whole
  unfold readNumber
  rw [dif_pos (by rw [taken]; exact ⟨n.nonempty, valid⟩), dropped]
  simp only [taken]

theorem skip_cons {c : Char} (u : List Char) (solid : isSpace c = false) : skip (c :: u) = c :: u := by
  rw [skip, List.dropWhile_cons_of_neg (Bool.eq_false_iff.mp solid)]

theorem skip_gap (style : Style) (u : List Char) : skip (style.gap ++ u) = skip u := by
  unfold Style.gap
  split
  · rfl
  · rfl

theorem spell_leads (style : Style) (a : Value) :
    ∃ c rest, style.spell a = c :: rest ∧ leads c = a.kind := by
  cases a with
  | null => exact ⟨_, _, rfl, by decide⟩
  | bool b => cases b <;> exact ⟨_, _, rfl, by decide⟩
  | number n =>
    obtain ⟨text, nonempty, numeric⟩ := n
    cases text with
    | nil => exact absurd rfl nonempty
    | cons c rest => exact ⟨c, rest, by rw [Style.spell], leads_numeric (numeric c List.mem_cons_self)⟩
  | string text => exact ⟨_, _, by rw [Style.spell, Style.text], (by decide : leads '\x22' = 4)⟩
  | array items => cases items <;> exact ⟨_, _, by rw [Style.spell], (by decide : leads '[' = 5)⟩
  | object members => cases members <;> exact ⟨_, _, by rw [Style.spell], (by decide : leads '\x7b' = 6)⟩

/-- A spelling begins with no blank and no bracket that closes. -/
theorem spell_solid (style : Style) (a : Value) :
    ∃ c rest, style.spell a = c :: rest ∧ isSpace c = false ∧ c ≠ ']' := by
  obtain ⟨c, rest, spelled, kind⟩ := spell_leads style a
  have known : leads c ≠ 7 := by
    rw [kind]
    cases a with
    | bool b => cases b <;> exact (by decide)
    | _ => exact Nat.ne_of_beq_eq_false rfl
  refine ⟨c, rest, spelled, ?_, ?_⟩
  · by_contra blank
    have either : ((c = ' ' ∨ c = '\t') ∨ c = '\n') ∨ c = '\r' := by
      simpa only [isSpace, Bool.not_eq_false, Bool.or_eq_true, decide_eq_true_eq] using blank
    rcases either with ((rfl | rfl) | rfl) | rfl <;> exact known (by decide)
  · rintro rfl
    exact known (by decide)

theorem skip_spell (style : Style) (a : Value) (u : List Char) :
    skip (style.spell a ++ u) = style.spell a ++ u := by
  obtain ⟨c, rest, spelled, solid, -⟩ := spell_solid style a
  rw [spelled, List.cons_append, skip_cons _ solid]

theorem set_new {d : List (String × Value)} {key : String} (a : Value) (fresh : key ∉ d.map Prod.fst) :
    Dict.set d key a = d ++ [(key, a)] := by
  induction d with
  | nil => rfl
  | cons member rest ih =>
    obtain ⟨other, b⟩ := member
    rw [List.map_cons, List.mem_cons, not_or] at fresh
    rw [Dict.set, if_neg (Ne.symm fresh.1), ih fresh.2, List.cons_append]

theorem dictOf_keyed {members : List (String × Value)} (keyed : (members.map Prod.fst).Nodup) :
    dictOf members = members := by
  have extends_ : ∀ (d later : List (String × Value)), ((d ++ later).map Prod.fst).Nodup →
      later.foldl (fun d member => Dict.set d member.1 member.2) d = d ++ later := by
    intro d later
    induction later generalizing d with
    | nil => exact fun _ => (List.append_nil d).symm
    | cons member rest ih =>
      intro distinct
      have fresh : member.1 ∉ d.map Prod.fst := by
        rw [List.map_append, List.nodup_append] at distinct
        intro taken
        exact distinct.2.2 _ taken _ List.mem_cons_self rfl
      have same : d ++ [member] ++ rest = d ++ member :: rest := by
        rw [List.append_assoc, List.singleton_append]
      rw [List.foldl_cons, set_new member.2 fresh, ih _ (by rw [same]; exact distinct), same]
  exact extends_ [] members keyed

theorem ends_spellItems (style : Style) (items : List Value) (u : List Char) :
    Ends (style.spellItems items ++ u) := by
  cases items with
  | nil =>
    rw [Style.spellItems]
    exact (by decide : isNumeric ']' = false)
  | cons a rest =>
    rw [Style.spellItems]
    exact (by decide : isNumeric ',' = false)

theorem ends_spellMembers (style : Style) (members : List (String × Value)) (u : List Char) :
    Ends (style.spellMembers members ++ u) := by
  cases members with
  | nil =>
    rw [Style.spellMembers]
    exact (by decide : isNumeric '\x7d' = false)
  | cons member rest =>
    rw [Style.spellMembers]
    exact (by decide : isNumeric ',' = false)

theorem readValue_number (n : Number) (u : List Char) (fuel : Nat) :
    readValue (fuel + 1) (n.text ++ u) = readNumber (n.text ++ u) := by
  obtain ⟨text, nonempty, numeric⟩ := n
  cases text with
  | nil => exact absurd rfl nonempty
  | cons c rest =>
    have solid := numeric c List.mem_cons_self
    have other : ∀ d, isNumeric d = false → c ≠ d := by
      rintro d plain rfl
      rw [solid] at plain
      cases plain
    rw [List.cons_append, readValue]
    · rintro v same
      exact other 'n' (by decide) (List.cons.inj same).1
    · rintro v same
      exact other 't' (by decide) (List.cons.inj same).1
    · rintro v same
      exact other 'f' (by decide) (List.cons.inj same).1
    · rintro v same
      exact other '\x22' (by decide) (List.cons.inj same).1
    · rintro v same
      exact other '[' (by decide) (List.cons.inj same).1
    · rintro v same
      exact other '\x7b' (by decide) (List.cons.inj same).1

theorem readValue_bracket {u first : List Char} (fuel : Nat) (skipped : skip u = first)
    (more : ∀ v, first ≠ ']' :: v) :
    readValue (fuel + 1) ('[' :: u) = (readItems fuel first).map fun (items, v) => (.array items, v) := by
  rw [readValue, skipped]
  split
  · next v => exact absurd rfl (more v)
  · rfl

theorem readValue_brace {u first : List Char} (fuel : Nat) (skipped : skip u = first)
    (more : ∀ v, first ≠ '\x7d' :: v) :
    readValue (fuel + 1) ('\x7b' :: u) =
      (readMembers fuel first).map fun (members, v) => (.object (dictOf members), v) := by
  rw [readValue, skipped]
  split
  · next v => exact absurd rfl (more v)
  · rfl

mutual
theorem readValue_spell (style : Style) (a : Value) (valid : a.Valid) (u : List Char) (ends : Ends u) (fuel : Nat)
    (enough : (style.spell a).length ≤ fuel) : readValue fuel (style.spell a ++ u) = some (a, u) := by
  cases fuel with
  | zero =>
    obtain ⟨c, rest, spelled, -⟩ := spell_solid style a
    rw [spelled] at enough
    exact absurd enough (Nat.not_succ_le_zero _)
  | succ fuel =>
    cases a with
    | null => rfl
    | bool b => cases b <;> rfl
    | number n =>
      rw [Value.Valid] at valid
      rw [Style.spell, readValue_number, readNumber_text n valid u ends]
    | string s =>
      rw [Style.spell, Style.text, List.cons_append, List.append_assoc, List.singleton_append, readValue,
        readString_style, Option.map_some]
    | array items =>
      cases items with
      | nil => rfl
      | cons a rest =>
        rw [Value.Valid] at valid
        obtain ⟨c, later, spelled, solid, more⟩ := spell_solid style a
        rw [Style.spell, List.length_cons] at enough
        have read := readItems_spell style (a :: rest) (List.cons_ne_nil _ _) valid u fuel
        rw [Style.spell, List.tail_cons] at read
        rw [Style.spell, List.cons_append, List.append_assoc, readValue_bracket fuel (skip_spell style a _),
          ← List.append_assoc, read (Nat.le_of_succ_le_succ enough), Option.map_some]
        intro v same
        rw [spelled] at same
        exact more (List.cons.inj same).1
    | object members =>
      cases members with
      | nil => rfl
      | cons member rest =>
        obtain ⟨key, a⟩ := member
        rw [Value.Valid] at valid
        rw [Style.spell, List.length_cons] at enough
        have read := readMembers_spell style ((key, a) :: rest) (List.cons_ne_nil _ _) valid.2 u fuel
        rw [Style.spell, List.tail_cons] at read
        have quoted : ∀ v, skip (style.text key ++ v) = style.text key ++ v := fun v => skip_cons _ (by decide)
        rw [Style.spell, List.cons_append, List.append_assoc, readValue_brace fuel (quoted _), ← List.append_assoc,
          read (Nat.le_of_succ_le_succ enough), Option.map_some]
        · exact congrArg (fun members => some (Value.object members, u)) (dictOf_keyed valid.1)
        · intro v same
          exact absurd (List.cons.inj same).1 (by decide)
termination_by structural a

/-- What follows the bracket of an array that is not empty. -/
theorem readItems_spell (style : Style) (items : List Value) (filled : items ≠ []) (valid : ValidItems items)
    (u : List Char) (fuel : Nat) (enough : (style.spell (.array items)).tail.length ≤ fuel) :
    readItems fuel ((style.spell (.array items)).tail ++ u) = some (items, u) := by
  cases items with
  | nil => exact absurd rfl filled
  | cons a rest =>
    rw [ValidItems] at valid
    obtain ⟨c, more, spelled, -⟩ := spell_solid style a
    have some_ : 0 < (style.spell a).length := by
      rw [spelled]
      exact Nat.succ_pos _
    rw [Style.spell, List.tail_cons, List.length_append] at enough
    cases fuel with
    | zero => omega
    | succ fuel =>
      have here := readValue_spell style a valid.1 (style.spellItems rest ++ u) (ends_spellItems style rest u) fuel
      rw [Style.spell, List.tail_cons, List.append_assoc, readItems]
      cases rest with
      | nil =>
        rw [Style.spellItems, List.length_singleton] at enough
        rw [here (by omega)]
        rfl
      | cons b later =>
        rw [Style.spellItems, List.length_cons, List.length_append] at enough
        have read := readItems_spell style (b :: later) (List.cons_ne_nil _ _) valid.2 u fuel
        rw [Style.spell, List.tail_cons] at read
        have comma : ∀ v, skip (',' :: v) = ',' :: v := fun v => skip_cons v (by decide)
        have next : skip (style.gap ++ (style.spell b ++ style.spellItems later) ++ u) =
            style.spell b ++ style.spellItems later ++ u := by
          rw [List.append_assoc, skip_gap, List.append_assoc]
          exact skip_spell style b _
        rw [here (by omega)]
        simp only [Option.bind_eq_bind, Style.spellItems, List.cons_append, comma, next, Option.bind_some]
        rw [read (by omega)]
        rfl
termination_by structural items

theorem readMembers_spell (style : Style) (members : List (String × Value)) (filled : members ≠ [])
    (valid : ValidMembers members) (u : List Char) (fuel : Nat)
    (enough : (style.spell (.object members)).tail.length ≤ fuel) :
    readMembers fuel ((style.spell (.object members)).tail ++ u) = some (members, u) := by
  cases members with
  | nil => exact absurd rfl filled
  | cons member rest =>
    obtain ⟨key, a⟩ := member
    rw [ValidMembers] at valid
    rw [Style.spell, List.tail_cons, Style.text, List.length_append, List.length_cons, List.length_cons,
      List.length_append, List.length_append, List.length_append] at enough
    cases fuel with
    | zero => omega
    | succ fuel =>
      have here := readValue_spell style a valid.1 (style.spellMembers rest ++ u) (ends_spellMembers style rest u) fuel
        (by omega)
      have colon : ∀ v, skip (':' :: v) = ':' :: v := fun v => skip_cons v (by decide)
      have value : skip (style.gap ++ (style.spell a ++ (style.spellMembers rest ++ u))) =
          style.spell a ++ (style.spellMembers rest ++ u) := by
        rw [skip_gap]
        exact skip_spell style a _
      rw [Style.spell, List.tail_cons, Style.text]
      simp only [List.cons_append, List.append_assoc, List.nil_append, readMembers, readString_style,
        Option.bind_eq_bind, Option.bind_some, colon, value, here]
      cases rest with
      | nil => rfl
      | cons member later =>
        obtain ⟨other, b⟩ := member
        have size : (style.spellMembers ((other, b) :: later)).length = style.gap.length +
            (style.text other ++ ':' :: (style.gap ++ (style.spell b ++ style.spellMembers later))).length + 1 := by
          rw [Style.spellMembers, List.length_cons, List.length_append]
        have read := readMembers_spell style ((other, b) :: later) (List.cons_ne_nil _ _) valid.2 u fuel
        rw [Style.spell, List.tail_cons] at read
        have comma : ∀ v, skip (',' :: v) = ',' :: v := fun v => skip_cons v (by decide)
        have joined : style.spellMembers ((other, b) :: later) ++ u = ',' :: (style.gap ++
            (style.text other ++ ':' :: (style.gap ++ (style.spell b ++ style.spellMembers later)) ++ u)) := by
          rw [Style.spellMembers, List.cons_append, List.append_assoc]
        have next : ∀ v, skip (style.gap ++ (style.text other ++ v)) = style.text other ++ v := by
          intro v
          rw [skip_gap]
          exact skip_cons _ (by decide)
        rw [joined, comma]
        show (readMembers fuel (skip (style.gap ++ (style.text other ++ _ ++ u)))).bind _ = _
        rw [List.append_assoc, next, ← List.append_assoc, read (by omega)]
        rfl
termination_by structural members
end

/-- `json.loads(json.dumps(a)) == a` -/
theorem loads_spell (style : Style) (a : Value) (valid : a.Valid) : loads (style.spell a) = some a := by
  have read := readValue_spell style a valid [] trivial (style.spell a).length (Nat.le_refl _)
  have first := skip_spell style a []
  rw [List.append_nil] at read first
  rw [loads, first, read]
  rfl

/-- No zero leads the digits of a number but the number zero. -/
theorem toDigits_lead {n : Nat} (positive : 0 < n) :
    ∃ c rest, Nat.toDigits 10 n = c :: rest ∧ c ≠ '0' ∧ c.isDigit = true := by
  induction n using Nat.strongRecOn with
  | ind n ih =>
    rw [Nat.toDigits_eq_if (by decide)]
    split
    · next small =>
      have digit : ∀ n : Fin 10, n.val ≠ 0 → n.val.digitChar ≠ '0' ∧ n.val.digitChar.isDigit = true := by decide
      obtain ⟨lead, shown⟩ := digit ⟨n, small⟩ (Nat.pos_iff_ne_zero.mp positive)
      exact ⟨_, [], rfl, lead, shown⟩
    · obtain ⟨c, rest, spelled, lead, shown⟩ := ih (n / 10) (by omega) (by omega)
      rw [spelled]
      exact ⟨c, rest ++ [(n % 10).digitChar], rfl, lead, shown⟩

theorem digits_of_all {text : List Char} (filled : text ≠ []) (all : ∀ c ∈ text, c.isDigit = true) :
    digits text = some [] := by
  have taken : text.takeWhile Char.isDigit = text := List.takeWhile_eq_self_iff.mpr all
  have dropped : text.dropWhile Char.isDigit = [] := List.dropWhile_eq_nil_iff.mpr all
  rw [digits, taken, dropped, if_neg]
  rwa [List.isEmpty_iff]

theorem isUnsigned_toDigits (n : Nat) : isUnsigned (Nat.toDigits 10 n) = true := by
  rcases Nat.eq_zero_or_pos n with rfl | positive
  · decide
  · obtain ⟨c, rest, spelled, lead, shown⟩ := toDigits_lead positive
    have all : ∀ d ∈ c :: rest, d.isDigit = true := by
      intro d member
      rw [← spelled] at member
      exact Nat.isDigit_of_mem_toDigits (by decide) (by decide) member
    rw [spelled, isUnsigned, digits_of_all (List.cons_ne_nil c rest) all]
    · rfl
    · rintro u same
      exact lead (List.cons.inj same).1

theorem isNumber_ofNat (n : Nat) : isNumber (Number.ofNat n).text = true := by
  rw [Number.ofNat, isNumber, isUnsigned_toDigits]
  rintro u same
  have shown := Nat.isDigit_of_mem_toDigits (b := 10) (by decide) (by decide) (same ▸ List.mem_cons_self)
  exact absurd shown (by decide)

end Drivebound.Json
