import Mathlib.Data.List.Basic

/-! Percent-encoding of bytes: a letter, a digit and a few marks stand for themselves, every
other byte is a percent sign and two hexadecimal digits. -/
namespace Drivebound.Percent

/-- What `urllib.parse.quote` never quotes. -/
def isSafe (c : Char) : Bool := c.isAlphanum || c = '_' || c = '.' || c = '-' || c = '~'

def hexDigit (n : Nat) : Char := "0123456789ABCDEF".toList.getD n '0'

def hexValue (c : Char) : Option Nat :=
  if '0' ≤ c ∧ c ≤ '9' then some (c.toNat - 48)
  else if 'A' ≤ c ∧ c ≤ 'F' then some (c.toNat - 55)
  else if 'a' ≤ c ∧ c ≤ 'f' then some (c.toNat - 87)
  else none

def quoteByte (b : UInt8) : List Char :=
  let c := Char.ofNat b.toNat
  if isSafe c then [c] else ['%', hexDigit (b.toNat / 16), hexDigit (b.toNat % 16)]

/-- `urllib.parse.quote_from_bytes` with no other safe characters. -/
def quote (raw : List UInt8) : List Char := raw.flatMap quoteByte

/-- `urllib.parse.unquote_to_bytes` of a text of bytes: an escape that is none stays. -/
def unquote : List Char → List UInt8
  | '%' :: high :: low :: rest =>
    match hexValue high, hexValue low with
    | some h, some l => UInt8.ofNat (16 * h + l) :: unquote rest
    | _, _ => UInt8.ofNat ('%').toNat :: unquote (high :: low :: rest)
  | c :: rest => UInt8.ofNat c.toNat :: unquote rest
  | [] => []

/-- A printable ASCII character that is no quote, no backslash and no separator. -/
def isPlain (c : Char) : Bool :=
  33 ≤ c.toNat ∧ c.toNat < 127 ∧ c ≠ '\x22' ∧ c ≠ '\x27' ∧ c ≠ '\x5c' ∧ c ≠ ';'

/-- What the spelling of a byte is: one plain character for it, or an escape of it. -/
def Spells (b : UInt8) : List Char → Prop
  | [c] => c ≠ '%' ∧ isPlain c = true ∧ UInt8.ofNat c.toNat = b
  | [sign, high, low] => sign = '%' ∧ (isPlain high = true ∧ isPlain low = true) ∧
    hexValue high = some (b.toNat / 16) ∧ hexValue low = some (b.toNat % 16)
  | _ => False

instance (b : UInt8) : DecidablePred (Spells b) := fun text => by
  unfold Spells
  split <;> infer_instance

theorem quoteByte_spells (b : UInt8) : Spells b (quoteByte b) := by
  have all : ∀ n : Fin 256, Spells (UInt8.ofNat n.val) (quoteByte (UInt8.ofNat n.val)) := by decide +kernel
  have here := all ⟨b.toNat, b.toNat_lt⟩
  rwa [UInt8.ofNat_toNat] at here

theorem unquote_plain {c : Char} (literal : c ≠ '%') (rest : List Char) :
    unquote (c :: rest) = UInt8.ofNat c.toNat :: unquote rest := by
  rw [unquote]
  intro high low tail same
  exact absurd same literal

theorem unquote_quoteByte (b : UInt8) (rest : List Char) : unquote (quoteByte b ++ rest) = b :: unquote rest := by
  match quoteByte b, quoteByte_spells b with
  | [c], ⟨literal, _, same⟩ => rw [List.singleton_append, unquote_plain literal, same]
  | [_, high, low], ⟨rfl, _, upper, lower⟩ =>
    have whole : UInt8.ofNat (16 * (b.toNat / 16) + b.toNat % 16) = b := by
      rw [Nat.div_add_mod, UInt8.ofNat_toNat]
    rw [List.cons_append, List.cons_append, List.singleton_append, unquote, upper, lower]
    dsimp only
    rw [whole]

theorem isPlain_quoteByte (b : UInt8) : ∀ c ∈ quoteByte b, isPlain c = true := by
  match quoteByte b, quoteByte_spells b with
  | [c], ⟨_, plain, _⟩ => simpa using plain
  | [_, high, low], ⟨rfl, ⟨upper, lower⟩, _⟩ =>
    have sign : isPlain '%' = true := by decide
    simp [sign, upper, lower]

/-- What is quoted is read again. -/
theorem unquote_quote (raw : List UInt8) : unquote (quote raw) = raw := by
  induction raw with
  | nil => rfl
  | cons b rest ih =>
    rw [quote, List.flatMap_cons, unquote_quoteByte]
    exact congrArg (b :: ·) ih

theorem isPlain_quote (raw : List UInt8) : ∀ c ∈ quote raw, isPlain c = true := by
  intro c member
  obtain ⟨b, -, part⟩ := List.mem_flatMap.mp member
  exact isPlain_quoteByte b c part

end Drivebound.Percent
