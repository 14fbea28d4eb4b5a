import Drivebound.Timeline.Cursor

/-! What `decode_cursor` lets through. Its `except` clause names the exceptions of wrong texts,
wrong types and missing keys; a value without the method that is asked of it, an instant beyond
the years of `datetime` and a document that is nested too deeply raise others. -/
namespace Drivebound.Timeline
open Json Nodes Passkeys

/-- The exceptions that the body may raise: `JSONDecodeError` and `binascii.Error` are
`ValueError`s. -/
inductive Raised where
  | valueError
  | typeError
  | keyError
  | attributeError
  | overflowError
  | recursionError
deriving DecidableEq

/-- The `except` clause. -/
def Raised.isCaught : Raised → Bool
  | .valueError | .typeError | .keyError => true
  | .attributeError | .overflowError | .recursionError => false

/-- Why `json.loads` has no document. -/
inductive Unread where
  | malformed
  | tooDeep
deriving DecidableEq

def Unread.raised : Unread → Raised
  | .malformed => .valueError
  | .tooDeep => .recursionError

/-- What the body asks of the standard library. Where a result is missing, a `ValueError` is
raised. -/
structure Stdlib where
  b64decode : String → Option Bytes
  loads : Bytes → Except Unread Value
  /-- The value equals 1. -/
  isOne : Value → Bool
  fromisoformat : String → Option Datetime
  uuid : String → Option Uuid

def orRaise {α : Type} (raised : Raised) (a : Option α) : Except Raised α := a.elim (.error raised) .ok

namespace Stdlib

variable (library : Stdlib)

/-- `value.replace`, which only texts have. -/
def readText : Value → Except Raised String
  | .string text => .ok text
  | _ => .error .attributeError

/-- The offset and the instant of a timestamp that is not naive. -/
def toUtc (timestamp : Datetime) : Except Raised Timestamp :=
  match timestamp.offset with
  | none => .error .valueError
  | some offset => orRaise .overflowError (astimezone timestamp.clock offset)

/-- `uuid.UUID`: nothing at all is a `TypeError`. -/
def readUuid : Value → Except Raised Uuid
  | .null => .error .typeError
  | value => (readText value).bind fun text => orRaise .valueError (library.uuid text)

/-- The body of the `try` behind `json.loads`. -/
def readMembers (members : List (String × Value)) : Except Raised TimelineCursor := do
  if (Dict.get? members "v").any library.isOne then
    let text ← readText (← orRaise .keyError (Dict.get? members "t"))
    let timestamp ← orRaise .valueError
      (library.fromisoformat (String.ofList (replaceAll ['Z'] utcZone text.toList)))
    let t ← toUtc timestamp
    let id ← library.readUuid (← orRaise .keyError (Dict.get? members "id"))
    return ⟨⟨t, some Offset.utc⟩, id⟩
  else .error .valueError

def readDocument : Value → Except Raised TimelineCursor
  | .object members => library.readMembers members
  | _ => .error .attributeError

def readCursor (value : String) : Except Raised TimelineCursor := do
  let raw ← orRaise .valueError (library.b64decode value)
  library.readDocument (← (library.loads raw).mapError Unread.raised)

/-- `decode_cursor`: the 400, or what escapes the clause. -/
def decodeCursor (value : String) : Except Raised (Except Fault TimelineCursor) :=
  match library.readCursor value with
  | .ok cursor => .ok (.ok cursor)
  | .error raised => if raised.isCaught then .ok (.error invalidCursor) else .error raised

/-- A cursor is returned or the 400 is raised. -/
def Answered (value : String) : Prop := ∃ answer, library.decodeCursor value = .ok answer

/-! ### When nothing escapes -/

/-- A document that the body takes apart: an object whose timestamp, if the version is 1, is a
text of an instant that `datetime` can hold in UTC, before an identifier that is a text or null. -/
def Fits : Value → Prop
  | .object members => (Dict.get? members "v").any library.isOne = true →
    ∀ t ∈ Dict.get? members "t", ∃ text, t = .string text ∧
      ∀ timestamp ∈ library.fromisoformat (String.ofList (replaceAll ['Z'] utcZone text.toList)),
        ∀ offset ∈ timestamp.offset, (astimezone timestamp.clock offset).isSome = true ∧
          ∀ id ∈ Dict.get? members "id", id = .null ∨ ∃ text, id = .string text
  | _ => False

/-- The text is no base64 of a document, or of one that is not nested too deeply and fits. -/
def Decodes (value : String) : Prop :=
  ∀ raw ∈ library.b64decode value, match library.loads raw with
    | .ok document => library.Fits document
    | .error unread => unread = .malformed

end Stdlib

/-- Every exception of the computation is caught. -/
def Quiet {α : Type} (a : Except Raised α) : Prop := ∀ raised, a = .error raised → raised.isCaught = true

section Rules

variable {α β : Type}

@[simp] theorem quiet_ok (x : α) : Quiet (.ok x : Except Raised α) := nofun

@[simp] theorem quiet_error (raised : Raised) :
    Quiet (.error raised : Except Raised α) ↔ raised.isCaught = true :=
  ⟨fun quiet => quiet raised rfl, fun caught _ same => Except.error.inj same ▸ caught⟩

theorem quiet_bind (a : Except Raised α) (next : α → Except Raised β) :
    Quiet (a >>= next) ↔ Quiet a ∧ ∀ x, a = .ok x → Quiet (next x) := by
  cases a with
  | error raised =>
    change Quiet (.error raised) ↔ _
    rw [quiet_error, quiet_error]
    exact ⟨fun caught => ⟨caught, nofun⟩, And.left⟩
  | ok x =>
    change Quiet (next x) ↔ _
    exact ⟨fun quiet => ⟨quiet_ok x, fun _ same => Except.ok.inj same ▸ quiet⟩, fun both => both.2 x rfl⟩

/-- Something that is there, or whose absence is caught. -/
theorem quiet_orRaise_bind {raised : Raised} (caught : raised.isCaught = true) (a : Option α)
    (next : α → Except Raised β) : Quiet (orRaise raised a >>= next) ↔ ∀ x ∈ a, Quiet (next x) := by
  cases a with
  | none => exact ⟨fun _ x member => absurd member (Option.not_mem_none x), fun _ => (quiet_error raised).mpr caught⟩
  | some x =>
    rw [quiet_bind]
    constructor
    · rintro ⟨-, later⟩ _ ⟨⟩
      exact later x rfl
    · intro later
      exact ⟨quiet_ok x, fun _ same => Except.ok.inj same ▸ later x rfl⟩

end Rules

namespace Stdlib

variable (library : Stdlib)

theorem answered_iff (value : String) : library.Answered value ↔ Quiet (library.readCursor value) := by
  unfold Answered decodeCursor
  cases library.readCursor value with
  | ok cursor => exact ⟨fun _ => quiet_ok cursor, fun _ => ⟨.ok cursor, rfl⟩⟩
  | error raised =>
    rw [quiet_error]
    cases caught : raised.isCaught with
    | true => simp [caught]
    | false => simp [caught]

theorem quiet_readText (value : Value) : Quiet (readText value) ↔ ∃ text, value = .string text := by
  cases value with
  | string text => simp [readText]
  | _ => simp [readText, Raised.isCaught]

theorem quiet_readUuid (value : Value) :
    Quiet (library.readUuid value) ↔ value = .null ∨ ∃ text, value = .string text := by
  cases value with
  | null => simp [readUuid, Raised.isCaught]
  | string text =>
    cases named : library.uuid text with
    | none => simp [readUuid, readText, named, Except.bind, orRaise, Raised.isCaught]
    | some id => simp [readUuid, readText, named, Except.bind, orRaise]
  | _ => simp [readUuid, readText, Except.bind, Raised.isCaught]

/-- The instant and the identifier behind it. -/
theorem quiet_toUtc_bind {β : Type} (timestamp : Datetime) (next : Timestamp → Except Raised β) {later : Prop}
    (follows : ∀ t, Quiet (next t) ↔ later) :
    Quiet (toUtc timestamp >>= next) ↔
      ∀ offset ∈ timestamp.offset, (astimezone timestamp.clock offset).isSome = true ∧ later := by
  rw [quiet_bind, toUtc]
  cases timestamp.offset with
  | none => simp [Raised.isCaught]
  | some offset =>
    cases fits : astimezone timestamp.clock offset with
    | none => simp [fits, orRaise, Raised.isCaught]
    | some t => simp [fits, orRaise, follows t]

theorem quiet_readMembers (members : List (String × Value)) :
    Quiet (library.readMembers members) ↔ library.Fits (.object members) := by
  unfold readMembers Fits
  by_cases one : (Dict.get? members "v").any library.isOne = true
  · have named : ∀ t : Timestamp, Quiet (do
        let id ← library.readUuid (← orRaise .keyError (Dict.get? members "id"))
        return (⟨⟨t, some Offset.utc⟩, id⟩ : TimelineCursor)) ↔
          ∀ id ∈ Dict.get? members "id", id = .null ∨ ∃ text, id = .string text := by
      intro t
      rw [quiet_orRaise_bind rfl]
      refine forall_congr' fun id => forall_congr' fun _ => ?_
      rw [quiet_bind, quiet_readUuid]
      exact and_iff_left fun x _ => quiet_ok _
    rw [if_pos one, quiet_orRaise_bind rfl]
    simp only [one, true_imp_iff]
    refine forall_congr' fun t => forall_congr' fun _ => ?_
    rw [quiet_bind, quiet_readText]
    constructor
    · rintro ⟨⟨text, rfl⟩, later⟩
      refine ⟨text, rfl, ?_⟩
      have read := later text rfl
      rw [quiet_orRaise_bind rfl] at read
      exact fun timestamp member => (quiet_toUtc_bind timestamp _ named).mp (read timestamp member)
    · rintro ⟨text, rfl, later⟩
      refine ⟨⟨text, rfl⟩, ?_⟩
      rintro _ ⟨⟩
      rw [quiet_orRaise_bind rfl]
      exact fun timestamp member => (quiet_toUtc_bind timestamp _ named).mpr (later timestamp member)
  · rw [if_neg one, quiet_error]
    exact ⟨fun _ isOne => absurd isOne one, fun _ => rfl⟩

theorem quiet_readDocument (document : Value) : Quiet (library.readDocument document) ↔ library.Fits document := by
  cases document with
  | object members => exact library.quiet_readMembers members
  | _ => simp [readDocument, Fits, Raised.isCaught]

/-- Nothing but a cursor or the 400 comes out of a text exactly when it decodes, or does not
decode for a reason that is caught. -/
theorem answered_iff_decodes (value : String) : library.Answered value ↔ library.Decodes value := by
  rw [answered_iff, readCursor, quiet_orRaise_bind rfl]
  refine forall_congr' fun raw => forall_congr' fun _ => ?_
  rw [quiet_bind]
  cases library.loads raw with
  | ok document =>
    refine ⟨fun both => ?_, fun fits => ⟨quiet_ok document, ?_⟩⟩
    · exact (library.quiet_readDocument document).mp (both.2 document rfl)
    · rintro _ ⟨⟩
      exact (library.quiet_readDocument document).mpr fits
  | error unread =>
    cases unread with
    | malformed => exact ⟨fun _ => rfl, fun _ => ⟨(quiet_error _).mpr rfl, nofun⟩⟩
    | tooDeep => exact ⟨fun both => absurd ((quiet_error _).mp both.1) Bool.false_ne_true, nofun⟩

end Stdlib

/-- The library as it is modelled for the cursors that are encoded; it reads any depth. -/
def stdlib : Stdlib where
  b64decode value := b64decode value.toList
  loads raw := (((decodeUtf8 raw).bind loads).elim (.error .malformed) .ok)
  isOne value := isOne (some value)
  fromisoformat text := fromIsoformat text.toList
  uuid := Uuid.ofText

/-- What becomes of an exception. -/
def Raised.fault (raised : Raised) : Fault := if raised.isCaught then invalidCursor else .uncaught

theorem mapError_bind {α β : Type} (a : Except Raised α) (next : α → Except Raised β) :
    (a >>= next).mapError Raised.fault = a.mapError Raised.fault >>= fun x => (next x).mapError Raised.fault := by
  cases a <;> rfl

theorem mapError_orRaise {α : Type} {raised : Raised} (caught : raised.isCaught = true) (a : Option α) :
    (orRaise raised a).mapError Raised.fault = orInvalid a := by
  cases a with
  | none => exact congrArg Except.error (if_pos caught)
  | some x => rfl

theorem readTimestamp_refines (t : Option Value) :
    (do
      let text ← Stdlib.readText (← orRaise .keyError t)
      let timestamp ← orRaise .valueError
        (stdlib.fromisoformat (String.ofList (replaceAll ['Z'] utcZone text.toList)))
      Stdlib.toUtc timestamp).mapError Raised.fault = readTimestamp t := by
  cases t with
  | none => rfl
  | some value =>
    cases value with
    | string text =>
      change (orRaise .valueError (fromIsoformat (String.ofList (replaceAll ['Z'] utcZone text.toList)).toList) >>=
        Stdlib.toUtc).mapError Raised.fault = orInvalid (fromIsoformat (replaceAll ['Z'] utcZone text.toList)) >>= inUtc
      rw [mapError_bind, String.toList_ofList, mapError_orRaise (show Raised.isCaught .valueError = true from rfl)]
      refine congrArg (_ >>= ·) (funext fun timestamp => ?_)
      unfold Stdlib.toUtc inUtc
      cases timestamp.offset with
      | none => rfl
      | some offset => cases fits : astimezone timestamp.clock offset <;> simp [fits, orRaise] <;> rfl
    | _ => rfl

theorem readId_refines (id : Option Value) :
    (orRaise .keyError id >>= stdlib.readUuid).mapError Raised.fault = readId id := by
  cases id with
  | none => rfl
  | some value =>
    cases value with
    | string text => exact mapError_orRaise rfl (Uuid.ofText text)
    | _ => rfl

theorem readMembers_refines (members : List (String × Value)) :
    (stdlib.readMembers members).mapError Raised.fault = readPayload (.object members) := by
  have version : (Dict.get? members "v").any stdlib.isOne = isOne (Dict.get? members "v") := by
    cases Dict.get? members "v" <;> rfl
  rw [Stdlib.readMembers, readPayload, version]
  split
  · rw [← readTimestamp_refines, ← readId_refines]
    simp only [mapError_bind, bind_assoc]
    rfl
  · rfl

theorem readDocument_refines (document : Value) :
    (stdlib.readDocument document).mapError Raised.fault = readPayload document := by
  cases document with
  | object members => exact readMembers_refines members
  | _ => rfl

/-- The decoder with one fault for all that escapes is this one, its exceptions told apart. -/
theorem decodeCursor_refines (value : String) :
    (stdlib.readCursor value).mapError Raised.fault = decodeCursor value := by
  unfold Stdlib.readCursor decodeCursor
  change (orRaise .valueError (b64decode value.toList) >>= _).mapError Raised.fault = _
  cases b64decode value.toList with
  | none => rfl
  | some raw =>
    change ((stdlib.loads raw).mapError Unread.raised >>= stdlib.readDocument).mapError Raised.fault =
      orInvalid ((decodeUtf8 raw).bind loads) >>= readPayload
    rw [show stdlib.loads raw = ((decodeUtf8 raw).bind loads).elim (.error .malformed) .ok from rfl]
    cases (decodeUtf8 raw).bind loads with
    | none => rfl
    | some document => exact readDocument_refines document

/-- What is encoded is decoded without an exception. -/
theorem stdlib_decodes {cursor : TimelineCursor} {text : String} (encoded : encodeCursor cursor = some text) :
    ∃ decoded, stdlib.decodeCursor text = .ok (.ok decoded) := by
  obtain ⟨t, -, decoded⟩ := decodeCursor_encodeCursor encoded
  rw [← decodeCursor_refines] at decoded
  unfold Stdlib.decodeCursor
  cases read : stdlib.readCursor text with
  | ok cursor => exact ⟨cursor, rfl⟩
  | error raised =>
    rw [read] at decoded
    cases decoded

/-- Whatever the standard library reads in a text, nothing but a cursor or the 400 comes out of
it exactly when `Decodes`; and what `encode_cursor` gives is accepted. -/
theorem decode_cursor_answers_iff (library : Stdlib) (value : String) :
    (library.Answered value ↔ library.Decodes value) ∧
      ∀ (cursor : TimelineCursor) (text : String), encodeCursor cursor = some text →
        ∃ decoded, stdlib.decodeCursor text = .ok (.ok decoded) :=
  ⟨library.answered_iff_decodes value, fun _ _ encoded => stdlib_decodes encoded⟩

/-- An empty array in base64, which has no `get`. -/
theorem array_cursor_escapes : ¬∀ value : String, stdlib.Answered value := by
  intro always
  have fits := (stdlib.answered_iff_decodes "W10").mp (always "W10")
  exact fits [91, 93] (by decide +kernel)

end Drivebound.Timeline
