import Mathlib.Data.List.Sort

/-! JSON documents as `json.dumps` spells them with sorted keys, compact separators and no
escapes but the necessary ones. A number is kept as it is spelled. The spelling of a value
shows where it ends, so documents with one spelling are one document. -/
namespace Drivebound.Json

/-- The characters of a number. -/
def isNumeric (c : Char) : Bool := c.isDigit || c = '-' || c = '+' || c = '.' || c = 'e'

structure Number where
  text : List Char
  nonempty : text ≠ []
  numeric : ∀ c ∈ text, isNumeric c = true

/-- The decimal spelling of a natural number. -/
def Number.ofNat (n : Nat) : Number where
  text := Nat.toDigits 10 n
  nonempty := Nat.toDigits_ne_nil
  numeric c member := by
    rw [isNumeric, Nat.isDigit_of_mem_toDigits (by decide) (by decide) member]
    rfl

theorem Number.ofNat_injective {m n : Nat} (same : Number.ofNat m = Number.ofNat n) : m = n := by
  have digits : Nat.toDigits 10 m = Nat.toDigits 10 n := congrArg Number.text same
  rw [← @Nat.ofDigitChars_ten_toDigits m, digits, Nat.ofDigitChars_ten_toDigits]

inductive Value where
  | null
  | bool (b : Bool)
  | number (n : Number)
  | string (text : String)
  | array (items : List Value)
  | object (members : List (String × Value))

def hexDigit (n : Nat) : Char := "0123456789abcdef".toList.getD n '0'

/-- The escapes of `ensure_ascii=False`. -/
def escape (c : Char) : List Char :=
  if c = '\x22' then ['\x5c', '\x22']
  else if c = '\x5c' then ['\x5c', '\x5c']
  else if c = '\n' then ['\x5c', 'n']
  else if c = '\r' then ['\x5c', 'r']
  else if c = '\t' then ['\x5c', 't']
  else if c = '\x08' then ['\x5c', 'b']
  else if c = '\x0c' then ['\x5c', 'f']
  else if c.toNat < 32 then ['\x5c', 'u', '0', '0', hexDigit (c.toNat / 16), hexDigit (c.toNat % 16)]
  else [c]

def writeString (text : String) : List Char := '\x22' :: (text.toList.flatMap escape ++ ['\x22'])

mutual
def write : Value → List Char
  | .null => ['n', 'u', 'l', 'l']
  | .bool true => ['t', 'r', 'u', 'e']
  | .bool false => ['f', 'a', 'l', 's', 'e']
  | .number n => n.text
  | .string text => writeString text
  | .array items => '[' :: (writeItems items ++ [']'])
  | .object members => '\x7b' :: (writeMembers members ++ ['\x7d'])

def writeItems : List Value → List Char
  | [] => []
  | a :: rest => write a ++ laterItems rest

def laterItems : List Value → List Char
  | [] => []
  | a :: rest => ',' :: (write a ++ laterItems rest)

def writeMembers : List (String × Value) → List Char
  | [] => []
  | (key, a) :: rest => writeString key ++ ':' :: (write a ++ laterMembers rest)

def laterMembers : List (String × Value) → List Char
  | [] => []
  | (key, a) :: rest => ',' :: (writeString key ++ ':' :: (write a ++ laterMembers rest))
end

mutual
/-- `sort_keys=True`. -/
def sortKeys : Value → Value
  | .array items => .array (sortItems items)
  | .object members => .object ((sortMembers members).insertionSort fun one two => one.1 ≤ two.1)
  | a => a

def sortItems : List Value → List Value
  | [] => []
  | a :: rest => sortKeys a :: sortItems rest

def sortMembers : List (String × Value) → List (String × Value)
  | [] => []
  | (key, a) :: rest => (key, sortKeys a) :: sortMembers rest
end

def dumps (a : Value) : List Char := write (sortKeys a)

example : String.ofList (dumps (.object [("b", .array [.null, .bool true]), ("a", .string "x\ny")])) =
    "\x7b\"a\":\"x\\ny\",\"b\":[null,true]\x7d" := by decide +kernel

def hexValue (c : Char) : Nat := "0123456789abcdef".toList.idxOf c

/-- The character that an escape stands for, and what follows it. -/
def unescapeTag : List Char → Option (Char × List Char)
  | '\x22' :: u => some ('\x22', u)
  | '\x5c' :: u => some ('\x5c', u)
  | 'n' :: u => some ('\n', u)
  | 'r' :: u => some ('\r', u)
  | 't' :: u => some ('\t', u)
  | 'b' :: u => some ('\x08', u)
  | 'f' :: u => some ('\x0c', u)
  | 'u' :: '0' :: '0' :: high :: low :: u => some (Char.ofNat (hexValue high * 16 + hexValue low), u)
  | _ => none

def unescape : List Char → Option (Char × List Char)
  | [] => none
  | c :: u => if c = '\x5c' then unescapeTag u else some (c, u)

theorem hexValue_hexDigit (n : Fin 16) : hexValue (hexDigit n) = n := by
  revert n
  decide +kernel

theorem unescape_escape (c : Char) (u : List Char) : unescape (escape c ++ u) = some (c, u) := by
  unfold escape
  split_ifs with quote backslash newline carriage tab bell feed control
  · rw [quote]
    rfl
  · rw [backslash]
    rfl
  · rw [newline]
    rfl
  · rw [carriage]
    rfl
  · rw [tab]
    rfl
  · rw [bell]
    rfl
  · rw [feed]
    rfl
  · have high : hexValue (hexDigit (c.toNat / 16)) = c.toNat / 16 := hexValue_hexDigit ⟨c.toNat / 16, by omega⟩
    have low : hexValue (hexDigit (c.toNat % 16)) = c.toNat % 16 := hexValue_hexDigit ⟨c.toNat % 16, by omega⟩
    have digits : unescape (['\x5c', 'u', '0', '0', hexDigit (c.toNat / 16), hexDigit (c.toNat % 16)] ++ u) =
        some (Char.ofNat (hexValue (hexDigit (c.toNat / 16)) * 16 + hexValue (hexDigit (c.toNat % 16))), u) := rfl
    rw [digits, high, low, Nat.div_add_mod', Char.ofNat_toNat]
  · exact if_neg backslash

/-- No escape begins with the quote that ends a string. -/
theorem escape_lead (c : Char) : ∃ d rest, escape c = d :: rest ∧ d ≠ '\x22' := by
  unfold escape
  split_ifs with quote
  · exact ⟨_, _, rfl, by decide⟩
  · exact ⟨_, _, rfl, by decide⟩
  · exact ⟨_, _, rfl, by decide⟩
  · exact ⟨_, _, rfl, by decide⟩
  · exact ⟨_, _, rfl, by decide⟩
  · exact ⟨_, _, rfl, by decide⟩
  · exact ⟨_, _, rfl, by decide⟩
  · exact ⟨_, _, rfl, by decide⟩
  · exact ⟨c, [], rfl, quote⟩

theorem escapes_append {s t x y : List Char}
    (same : s.flatMap escape ++ '\x22' :: x = t.flatMap escape ++ '\x22' :: y) : s = t ∧ x = y := by
  induction s generalizing t with
  | nil =>
    cases t with
    | nil => exact ⟨rfl, (List.cons.inj same).2⟩
    | cons d rest =>
      obtain ⟨lead, later, spelled, unquoted⟩ := escape_lead d
      rw [List.flatMap_cons, spelled] at same
      exact absurd (List.cons.inj same).1.symm unquoted
  | cons c rest ih =>
    cases t with
    | nil =>
      obtain ⟨lead, later, spelled, unquoted⟩ := escape_lead c
      rw [List.flatMap_cons, spelled] at same
      exact absurd (List.cons.inj same).1 unquoted
    | cons d others =>
      rw [List.flatMap_cons, List.flatMap_cons, List.append_assoc, List.append_assoc] at same
      have read := congrArg unescape same
      rw [unescape_escape, unescape_escape] at read
      obtain ⟨here, following⟩ := Prod.mk.inj (Option.some.inj read)
      obtain ⟨later, ends⟩ := ih following
      exact ⟨List.cons_eq_cons.mpr ⟨here, later⟩, ends⟩

theorem writeString_append {s t : String} {x y : List Char}
    (same : writeString s ++ x = writeString t ++ y) : s = t ∧ x = y := by
  simp only [writeString, List.cons_append, List.append_assoc] at same
  obtain ⟨texts, ends⟩ := escapes_append (List.cons.inj same).2
  exact ⟨String.toList_injective texts, ends⟩

/-- What can follow a value: nothing, a separator, or the end of what it stands in. -/
def Ends : List Char → Prop
  | [] => True
  | c :: _ => isNumeric c = false

theorem number_append {m n : Number} {x y : List Char} (same : m.text ++ x = n.text ++ y) (left : Ends x)
    (right : Ends y) : m = n ∧ x = y := by
  have taken : ∀ (n : Number) (x : List Char), Ends x → (n.text ++ x).takeWhile isNumeric = n.text := by
    intro n x ends
    rw [List.takeWhile_append_of_pos n.numeric]
    cases x with
    | nil => exact List.append_nil _
    | cons c rest =>
      rw [List.takeWhile_cons_of_neg (Bool.eq_false_iff.mp ends)]
      exact List.append_nil _
  have texts : m.text = n.text := by
    rw [← taken m x left, ← taken n y right, same]
  obtain ⟨text, _, _⟩ := m
  obtain ⟨other, _, _⟩ := n
  obtain rfl : text = other := texts
  exact ⟨rfl, List.append_cancel_left same⟩

/-- The first character of a value tells its kind. -/
def leads (c : Char) : Nat :=
  if c = 'n' then 0 else if c = 't' then 1 else if c = 'f' then 2 else if c = '\x22' then 4
  else if c = '[' then 5 else if c = '\x7b' then 6 else if isNumeric c = true then 3 else 7

def Value.kind : Value → Nat
  | .null => 0
  | .bool true => 1
  | .bool false => 2
  | .number _ => 3
  | .string _ => 4
  | .array _ => 5
  | .object _ => 6

theorem leads_numeric {c : Char} (numeric : isNumeric c = true) : leads c = 3 := by
  have other : ∀ d : Char, isNumeric d = false → c ≠ d := by
    rintro d plain rfl
    exact absurd (plain.symm.trans numeric) nofun
  rw [leads, if_neg (other 'n' (by decide)), if_neg (other 't' (by decide)), if_neg (other 'f' (by decide)),
    if_neg (other '\x22' (by decide)), if_neg (other '[' (by decide)), if_neg (other '\x7b' (by decide)),
    if_pos numeric]

theorem write_leads (a : Value) : ∃ c rest, write a = c :: rest ∧ leads c = a.kind := by
  cases a with
  | null => exact ⟨_, _, rfl, by decide⟩
  | bool b => cases b <;> exact ⟨_, _, rfl, by decide⟩
  | number n =>
    obtain ⟨text, nonempty, numeric⟩ := n
    cases text with
    | nil => exact absurd rfl nonempty
    | cons c rest => exact ⟨c, rest, by rw [write], leads_numeric (numeric c List.mem_cons_self)⟩
  | string text => exact ⟨_, _, by rw [write, writeString], (by decide : leads '\x22' = 4)⟩
  | array items => exact ⟨_, _, by rw [write], (by decide : leads '[' = 5)⟩
  | object members => exact ⟨_, _, by rw [write], (by decide : leads '\x7b' = 6)⟩

/-- Values that begin alike are of one kind. -/
theorem kind_eq {a b : Value} {x y : List Char} (same : write a ++ x = write b ++ y) : a.kind = b.kind := by
  obtain ⟨c, rest, spelled, kind⟩ := write_leads a
  obtain ⟨d, others, spelled', kind'⟩ := write_leads b
  rw [spelled, spelled'] at same
  rw [← kind, ← kind', (List.cons.inj same).1]

theorem ends_laterItems (items : List Value) (x : List Char) : Ends (laterItems items ++ ']' :: x) := by
  cases items with
  | nil =>
    rw [laterItems]
    exact (by decide : isNumeric ']' = false)
  | cons a rest =>
    rw [laterItems]
    exact (by decide : isNumeric ',' = false)

theorem ends_laterMembers (members : List (String × Value)) (x : List Char) :
    Ends (laterMembers members ++ '\x7d' :: x) := by
  cases members with
  | nil =>
    rw [laterMembers]
    exact (by decide : isNumeric '\x7d' = false)
  | cons a rest =>
    rw [laterMembers]
    exact (by decide : isNumeric ',' = false)

mutual
/-- A value and what follows it can be read off its spelling. -/
theorem write_append (a b : Value) (x y : List Char) (same : write a ++ x = write b ++ y) (left : Ends x)
    (right : Ends y) : a = b ∧ x = y := by
  have kinds := kind_eq same
  cases a with
  | null =>
    cases b with
    | null => exact ⟨rfl, List.append_cancel_left same⟩
    | bool b => cases b <;> cases kinds
    | _ => cases kinds
  | bool a =>
    cases b with
    | bool b =>
      cases a <;> cases b <;> first | exact ⟨rfl, List.append_cancel_left same⟩ | cases kinds
    | _ => cases a <;> cases kinds
  | number m =>
    cases b with
    | number n =>
      rw [write, write] at same
      obtain ⟨numbers, ends⟩ := number_append same left right
      exact ⟨congrArg Value.number numbers, ends⟩
    | bool b => cases b <;> cases kinds
    | _ => cases kinds
  | string s =>
    cases b with
    | string t =>
      rw [write, write] at same
      obtain ⟨texts, ends⟩ := writeString_append same
      exact ⟨congrArg Value.string texts, ends⟩
    | bool b => cases b <;> cases kinds
    | _ => cases kinds
  | array items =>
    cases b with
    | array others =>
      rw [write, write, List.cons_append, List.cons_append, List.append_assoc, List.append_assoc] at same
      obtain ⟨values, ends⟩ := writeItems_append items others x y (List.cons.inj same).2
      exact ⟨congrArg Value.array values, ends⟩
    | bool b => cases b <;> cases kinds
    | _ => cases kinds
  | object members =>
    cases b with
    | object others =>
      rw [write, write, List.cons_append, List.cons_append, List.append_assoc, List.append_assoc] at same
      obtain ⟨values, ends⟩ := writeMembers_append members others x y (List.cons.inj same).2
      exact ⟨congrArg Value.object values, ends⟩
    | bool b => cases b <;> cases kinds
    | _ => cases kinds
termination_by structural a

theorem writeItems_append (items others : List Value) (x y : List Char)
    (same : writeItems items ++ ']' :: x = writeItems others ++ ']' :: y) : items = others ∧ x = y := by
  cases items with
  | nil =>
    cases others with
    | nil => exact ⟨rfl, (List.cons.inj same).2⟩
    | cons b later =>
      obtain ⟨c, rest, spelled, kind⟩ := write_leads b
      rw [writeItems, writeItems, spelled] at same
      have first : ']' = c := (List.cons.inj same).1
      rw [← first] at kind
      have closing : b.kind = 7 := kind.symm.trans (by decide)
      cases b with
      | bool b => cases b <;> cases closing
      | _ => cases closing
  | cons a rest =>
    cases others with
    | nil =>
      obtain ⟨c, later, spelled, kind⟩ := write_leads a
      rw [writeItems, writeItems, spelled] at same
      have first : c = ']' := (List.cons.inj same).1
      rw [first] at kind
      have closing : a.kind = 7 := kind.symm.trans (by decide)
      cases a with
      | bool b => cases b <;> cases closing
      | _ => cases closing
    | cons b later =>
      rw [writeItems, writeItems, List.append_assoc, List.append_assoc] at same
      obtain ⟨values, following⟩ := write_append a b _ _ same (ends_laterItems rest x) (ends_laterItems later y)
      obtain ⟨items, ends⟩ := laterItems_append rest later x y following
      exact ⟨List.cons_eq_cons.mpr ⟨values, items⟩, ends⟩
termination_by structural items

theorem laterItems_append (items others : List Value) (x y : List Char)
    (same : laterItems items ++ ']' :: x = laterItems others ++ ']' :: y) : items = others ∧ x = y := by
  cases items with
  | nil =>
    cases others with
    | nil => exact ⟨rfl, (List.cons.inj same).2⟩
    | cons b later =>
      rw [laterItems, laterItems] at same
      exact absurd (List.cons.inj same).1 (by decide)
  | cons a rest =>
    cases others with
    | nil =>
      rw [laterItems, laterItems] at same
      exact absurd (List.cons.inj same).1 (by decide)
    | cons b later =>
      rw [laterItems, laterItems, List.cons_append, List.cons_append, List.append_assoc,
        List.append_assoc] at same
      obtain ⟨values, following⟩ := write_append a b _ _ (List.cons.inj same).2 (ends_laterItems rest x)
        (ends_laterItems later y)
      obtain ⟨items, ends⟩ := laterItems_append rest later x y following
      exact ⟨List.cons_eq_cons.mpr ⟨values, items⟩, ends⟩
termination_by structural items

theorem writeMembers_append (members others : List (String × Value)) (x y : List Char)
    (same : writeMembers members ++ '\x7d' :: x = writeMembers others ++ '\x7d' :: y) :
    members = others ∧ x = y := by
  cases members with
  | nil =>
    cases others with
    | nil => exact ⟨rfl, (List.cons.inj same).2⟩
    | cons b later =>
      obtain ⟨key, b⟩ := b
      rw [writeMembers, writeMembers, writeString] at same
      exact absurd (List.cons.inj same).1 (by decide)
  | cons a rest =>
    obtain ⟨key, a⟩ := a
    cases others with
    | nil =>
      rw [writeMembers, writeMembers, writeString] at same
      exact absurd (List.cons.inj same).1 (by decide)
    | cons b later =>
      obtain ⟨key', b⟩ := b
      rw [writeMembers, writeMembers, List.append_assoc, List.append_assoc] at same
      obtain ⟨rfl, following⟩ := writeString_append same
      rw [List.cons_append, List.cons_append, List.append_assoc, List.append_assoc] at following
      obtain ⟨values, members⟩ := write_append a b _ _ (List.cons.inj following).2
        (ends_laterMembers rest x) (ends_laterMembers later y)
      obtain ⟨others, ends⟩ := laterMembers_append rest later x y members
      exact ⟨by rw [values, others], ends⟩
termination_by structural members

theorem laterMembers_append (members others : List (String × Value)) (x y : List Char)
    (same : laterMembers members ++ '\x7d' :: x = laterMembers others ++ '\x7d' :: y) :
    members = others ∧ x = y := by
  cases members with
  | nil =>
    cases others with
    | nil => exact ⟨rfl, (List.cons.inj same).2⟩
    | cons b later =>
      obtain ⟨key, b⟩ := b
      rw [laterMembers, laterMembers] at same
      exact absurd (List.cons.inj same).1 (by decide)
  | cons a rest =>
    obtain ⟨key, a⟩ := a
    cases others with
    | nil =>
      rw [laterMembers, laterMembers] at same
      exact absurd (List.cons.inj same).1 (by decide)
    | cons b later =>
      obtain ⟨key', b⟩ := b
      rw [laterMembers, laterMembers, List.cons_append, List.cons_append, List.append_assoc,
        List.append_assoc] at same
      obtain ⟨rfl, following⟩ := writeString_append (List.cons.inj same).2
      rw [List.cons_append, List.cons_append, List.append_assoc, List.append_assoc] at following
      obtain ⟨values, members⟩ := write_append a b _ _ (List.cons.inj following).2
        (ends_laterMembers rest x) (ends_laterMembers later y)
      obtain ⟨others, ends⟩ := laterMembers_append rest later x y members
      exact ⟨by rw [values, others], ends⟩
termination_by structural members
end

theorem write_injective {a b : Value} (same : write a = write b) : a = b := by
  have closed : write a ++ [] = write b ++ [] := by rw [same]
  exact (write_append a b [] [] closed trivial trivial).1

/-- Documents with one spelling agree up to the order of their keys. -/
theorem dumps_eq_iff {a b : Value} : dumps a = dumps b ↔ sortKeys a = sortKeys b :=
  ⟨write_injective, congrArg write⟩

theorem mem_sortMembers {key : String} {a : Value} {members : List (String × Value)} :
    (key, a) ∈ sortMembers members ↔ ∃ b, (key, b) ∈ members ∧ sortKeys b = a := by
  induction members with
  | nil => simp [sortMembers]
  | cons member rest ih =>
    obtain ⟨other, b⟩ := member
    rw [sortMembers, List.mem_cons, ih]
    constructor
    · rintro (here | ⟨c, there, same⟩)
      · obtain ⟨rfl, rfl⟩ := Prod.mk.inj here
        exact ⟨b, List.mem_cons_self, rfl⟩
      · exact ⟨c, List.mem_cons_of_mem _ there, same⟩
    · rintro ⟨c, member, same⟩
      rcases List.mem_cons.mp member with here | there
      · obtain ⟨rfl, rfl⟩ := Prod.mk.inj here
        exact .inl (congrArg (key, ·) same.symm)
      · exact .inr ⟨c, there, same⟩

/-- Objects with one spelling have the same members. -/
theorem member_of_dumps_eq {members others : List (String × Value)} {key : String} {a : Value}
    (same : dumps (.object members) = dumps (.object others)) (member : (key, a) ∈ members) :
    ∃ b, (key, b) ∈ others ∧ sortKeys b = sortKeys a := by
  have sorted := dumps_eq_iff.mp same
  rw [sortKeys, sortKeys] at sorted
  have among : (key, sortKeys a) ∈ sortMembers members := mem_sortMembers.mpr ⟨a, member, rfl⟩
  have ordered := (List.mem_insertionSort (fun one two : String × Value => one.1 ≤ two.1)).mpr among
  rw [Value.object.inj sorted] at ordered
  exact mem_sortMembers.mp ((List.mem_insertionSort _).mp ordered)

/-- The texts and the numbers of an object are those of every object with its spelling. -/
theorem string_of_dumps_eq {members others : List (String × Value)} {key text : String}
    (same : dumps (.object members) = dumps (.object others)) (member : (key, .string text) ∈ members) :
    (key, .string text) ∈ others := by
  obtain ⟨b, there, value⟩ := member_of_dumps_eq same member
  cases b with
  | string other =>
    obtain rfl : other = text := by simpa only [sortKeys, Value.string.injEq] using value
    exact there
  | _ => simp only [sortKeys, reduceCtorEq] at value

theorem number_of_dumps_eq {members others : List (String × Value)} {key : String} {n : Number}
    (same : dumps (.object members) = dumps (.object others)) (member : (key, .number n) ∈ members) :
    (key, .number n) ∈ others := by
  obtain ⟨b, there, value⟩ := member_of_dumps_eq same member
  cases b with
  | number m =>
    obtain rfl : m = n := by simpa only [sortKeys, Value.number.injEq] using value
    exact there
  | _ => simp only [sortKeys, reduceCtorEq] at value

end Drivebound.Json
