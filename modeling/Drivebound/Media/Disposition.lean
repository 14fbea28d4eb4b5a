import Drivebound.Core.Percent
import Drivebound.Nodes.Transport

/-! The `Content-Disposition` header of `services/media_delivery.py`: a name of unreserved
characters in quotes, any other one as percent-encoded UTF-8. -/
namespace Drivebound.Media
open Percent Nodes

def isControl (c : Char) : Bool := c.toNat < 32 || c.toNat = 127

/-- The name that is delivered: without control characters, and never empty. -/
def cleaned (filename : String) : List Char :=
  let kept := filename.toList.filter (!isControl ·)
  if kept = [] then "download".toList else kept

def quotedStart : List Char := "; filename=\x22".toList

def extendedStart : List Char := "; filename*=utf-8\x27\x27".toList

/-- `_content_disposition` and its `ValueError`. -/
def contentDisposition (filename disposition : String) : Except String (List Char) :=
  if disposition ≠ "attachment" ∧ disposition ≠ "inline" then .error "Unsupported content disposition"
  else
    let name := cleaned filename
    let encoded := quote (encodeUtf8 name)
    if encoded ≠ name then .ok (disposition.toList ++ extendedStart ++ encoded)
    else .ok (disposition.toList ++ quotedStart ++ name ++ ['\x22'])

/-! ### The reading side -/

/-- A quoted string behind its opening quote, and what follows it. -/
def readQuoted : List Char → Option (List Char × List Char)
  | '\x22' :: rest => some ([], rest)
  | '\x5c' :: c :: rest => (readQuoted rest).map fun (text, tail) => (c :: text, tail)
  | c :: rest => (readQuoted rest).map fun (text, tail) => (c :: text, tail)
  | [] => none

/-- The type and the file name of a header value. -/
def readDisposition (value : List Char) : Option (List Char × List Char) :=
  let kind := value.takeWhile (· ≠ ';')
  let parameter := value.drop kind.length
  if quotedStart <+: parameter then
    match readQuoted (parameter.drop quotedStart.length) with
    | some (name, []) => some (kind, name)
    | _ => none
  else if extendedStart <+: parameter then
    (decodeUtf8 (unquote (parameter.drop extendedStart.length))).map (kind, ·)
  else none

/-! ### What is built is read -/

variable {filename disposition : String} {text : List Char}

theorem isPlain_bounds {c : Char} (plain : isPlain c = true) :
    (32 ≤ c.toNat ∧ c.toNat < 127) ∧ c ≠ '\x22' ∧ c ≠ '\x27' ∧ c ≠ '\x5c' := by
  simp only [isPlain, decide_eq_true_eq, Bool.decide_and, Bool.and_eq_true] at plain
  obtain ⟨low, high, quote, apostrophe, backslash, -⟩ := plain
  exact ⟨⟨by omega, high⟩, quote, apostrophe, backslash⟩

theorem readQuoted_plain (plain : ∀ c ∈ text, isPlain c = true) : readQuoted (text ++ ['\x22']) = some (text, []) := by
  induction text with
  | nil => rfl
  | cons c rest ih =>
    obtain ⟨-, quote, -, backslash⟩ := isPlain_bounds (plain c List.mem_cons_self)
    have later := ih fun d member => plain d (List.mem_cons_of_mem c member)
    rw [List.cons_append, readQuoted, later]
    · rfl
    · exact quote
    · intro d tail same
      exact absurd same backslash

/-- The header value with its parameter in one of the two forms. -/
inductive Built (disposition : String) (name : List Char) : List Char → Prop where
  | quoted (plain : ∀ c ∈ name, isPlain c = true) :
      Built disposition name (disposition.toList ++ quotedStart ++ name ++ ['\x22'])
  | extended {encoded : List Char} (plain : ∀ c ∈ encoded, isPlain c = true)
      (means : decodeUtf8 (unquote encoded) = some name) :
      Built disposition name (disposition.toList ++ extendedStart ++ encoded)

theorem contentDisposition_built (allowed : disposition = "attachment" ∨ disposition = "inline") (filename : String) :
    ∃ value, contentDisposition filename disposition = .ok value ∧ Built disposition (cleaned filename) value := by
  have supported : ¬(disposition ≠ "attachment" ∧ disposition ≠ "inline") := by
    rcases allowed with rfl | rfl <;> decide
  have plain := isPlain_quote (encodeUtf8 (cleaned filename))
  unfold contentDisposition
  rw [if_neg supported]
  dsimp only
  split
  · refine ⟨_, rfl, .extended plain ?_⟩
    rw [unquote_quote, decodeUtf8_encodeUtf8]
  · next same =>
    rw [not_not] at same
    rw [same] at plain
    exact ⟨_, rfl, .quoted plain⟩

/-- The value is split at the first semicolon, behind the type. -/
theorem readDisposition_split (allowed : disposition = "attachment" ∨ disposition = "inline") (rest : List Char) :
    ((disposition.toList ++ ';' :: rest).takeWhile (· ≠ ';')) = disposition.toList ∧
      (disposition.toList ++ ';' :: rest).drop disposition.toList.length = ';' :: rest := by
  refine ⟨?_, List.drop_left⟩
  rcases allowed with rfl | rfl <;> simp

theorem Built.reads {name value : List Char} (allowed : disposition = "attachment" ∨ disposition = "inline")
    (built : Built disposition name value) : readDisposition value = some (disposition.toList, name) := by
  cases built with
  | quoted plain =>
    obtain ⟨kind, parameter⟩ := readDisposition_split allowed (quotedStart.tail ++ (name ++ ['\x22']))
    have value : disposition.toList ++ quotedStart ++ name ++ ['\x22'] =
        disposition.toList ++ ';' :: (quotedStart.tail ++ (name ++ ['\x22'])) := by
      rw [List.append_assoc, List.append_assoc]
      rfl
    have start : ';' :: (quotedStart.tail ++ (name ++ ['\x22'])) = quotedStart ++ (name ++ ['\x22']) := rfl
    unfold readDisposition
    dsimp only
    rw [value, kind, parameter, start, if_pos (List.prefix_append _ _), List.drop_left, readQuoted_plain plain]
  | @extended encoded plain means =>
    obtain ⟨kind, parameter⟩ := readDisposition_split allowed (extendedStart.tail ++ encoded)
    have value : disposition.toList ++ extendedStart ++ encoded =
        disposition.toList ++ ';' :: (extendedStart.tail ++ encoded) := List.append_assoc ..
    have start : ';' :: (extendedStart.tail ++ encoded) = extendedStart ++ encoded := rfl
    have other : ¬quotedStart <+: extendedStart ++ encoded := by
      rintro ⟨tail, same⟩
      have tenth : (quotedStart ++ tail)[10]? = (extendedStart ++ encoded)[10]? := by rw [same]
      rw [List.getElem?_append_left (by decide), List.getElem?_append_left (by decide)] at tenth
      exact absurd tenth (by decide)
    unfold readDisposition
    dsimp only
    rw [value, kind, parameter, start, if_neg other, if_pos (List.prefix_append _ _), List.drop_left, means]
    rfl

/-- No character of the value is a control character or beyond ASCII, and none but those around
the name or before it is a quote of either kind. -/
def Contained (disposition : String) (value : List Char) : Prop :=
  (∀ c ∈ value, 32 ≤ c.toNat ∧ c.toNat < 127) ∧
    ∃ body, '\x22' ∉ body ∧ '\x27' ∉ body ∧
      (value = disposition.toList ++ quotedStart ++ body ++ ['\x22'] ∨
        value = disposition.toList ++ extendedStart ++ body)

theorem Built.contained {name value : List Char} (allowed : disposition = "attachment" ∨ disposition = "inline")
    (built : Built disposition name value) : Contained disposition value := by
  have fixed : (disposition.toList ++ quotedStart ++ extendedStart ++ ['\x22']).all
      (fun c => 32 ≤ c.toNat ∧ c.toNat < 127) = true := by
    rcases allowed with rfl | rfl <;> decide
  simp only [List.all_eq_true, decide_eq_true_eq, List.mem_append] at fixed
  have unquoted : ∀ {body : List Char}, (∀ c ∈ body, isPlain c = true) → '\x22' ∉ body ∧ '\x27' ∉ body := by
    intro body plain
    exact ⟨fun member => (isPlain_bounds (plain _ member)).2.1 rfl,
      fun member => (isPlain_bounds (plain _ member)).2.2.1 rfl⟩
  cases built with
  | quoted plain =>
    refine ⟨fun c member => ?_, name, (unquoted plain).1, (unquoted plain).2, .inl rfl⟩
    simp only [List.mem_append] at member
    rcases member with ((front | start) | body) | close
    · exact fixed c (.inl (.inl (.inl front)))
    · exact fixed c (.inl (.inl (.inr start)))
    · exact (isPlain_bounds (plain c body)).1
    · exact fixed c (.inr close)
  | @extended encoded plain means =>
    refine ⟨fun c member => ?_, encoded, (unquoted plain).1, (unquoted plain).2, .inr rfl⟩
    simp only [List.mem_append] at member
    rcases member with (front | start) | body
    · exact fixed c (.inl (.inl (.inl front)))
    · exact fixed c (.inl (.inr start))
    · exact (isPlain_bounds (plain c body)).1

/-- For every name and both dispositions the value is contained, and reading it gives the name
without its control characters, or `download`. -/
theorem contentDisposition_reads (filename disposition : String)
    (allowed : disposition = "attachment" ∨ disposition = "inline") :
    ∃ value, contentDisposition filename disposition = .ok value ∧ Contained disposition value ∧
      readDisposition value = some (disposition.toList, cleaned filename) := by
  obtain ⟨value, sent, built⟩ := contentDisposition_built allowed filename
  exact ⟨value, sent, built.contained allowed, built.reads allowed⟩

theorem contentDisposition_reads_injection : ∃ value,
    contentDisposition "é\x22\x0d\x0a;x.jpg" "attachment" = .ok value ∧ Contained "attachment" value ∧
      readDisposition value = some ("attachment".toList, "é\x22;x.jpg".toList) := by
  have kept : cleaned "é\x22\x0d\x0a;x.jpg" = "é\x22;x.jpg".toList := by decide +kernel
  have reads := contentDisposition_reads "é\x22\x0d\x0a;x.jpg" "attachment" (.inl rfl)
  rwa [kept] at reads

end Drivebound.Media
