import Drivebound.Core.Calendar
import Drivebound.Nodes.Transport
import Mathlib

/-! The cursors of `services/timeline.py`: the JSON of an instant and of an asset, in base64. -/
namespace Drivebound.Timeline
open Calendar Json Nodes Passkeys

/-! ### Instants -/

def second : Nat := 1000000

def dayLength : Nat := 86400 * second

/-- What `datetime` holds, in microseconds since the first of January of the year 1. -/
abbrev Timestamp := { micros : Nat // micros < maxDays * dayLength }

/-- What `utcoffset` may be. -/
abbrev Offset := { micros : Int // -(dayLength : Int) < micros ∧ micros < dayLength }

def Offset.utc : Offset := ⟨0, by decide⟩

/-- A `datetime` without an offset is a naive one. -/
structure Datetime where
  clock : Timestamp
  offset : Option Offset
deriving DecidableEq

/-- `astimezone(timezone.utc)`, which overflows beyond the years of `datetime`. -/
def astimezone (clock : Timestamp) (offset : Offset) : Option Timestamp :=
  let micros := (clock.val : Int) - offset.val
  if micros < 0 then none
  else if inside : micros.toNat < maxDays * dayLength then some ⟨micros.toNat, inside⟩
  else none

/-- A naive timestamp is taken to be in UTC. -/
def Datetime.instant (timestamp : Datetime) : Option Timestamp :=
  astimezone timestamp.clock (timestamp.offset.getD Offset.utc)

def fraction (micros : Nat) : List Char := if micros = 0 then [] else '.' :: pad 6 micros

def isoDate (date : Date) : List Char := pad 4 date.year ++ '-' :: (pad 2 date.month ++ '-' :: pad 2 date.day)

def isoTime (micros : Nat) : List Char :=
  pad 2 (micros / second / 3600) ++ ':' :: (pad 2 (micros / second / 60 % 60) ++
    ':' :: (pad 2 (micros / second % 60) ++ fraction (micros % second)))

def utcZone : List Char := ['+', '0', '0', ':', '0', '0']

/-- `isoformat` of a time in UTC. -/
def isoformat (t : Timestamp) : List Char :=
  isoDate (dateOf (t.val / dayLength)) ++ 'T' :: (isoTime (t.val % dayLength) ++ utcZone)

/-! ### Reading a time -/

def readDigits (width : Nat) (text : List Char) : Option (Nat × List Char) :=
  if (text.take width).length = width then (number (text.take width)).map fun n => (n, text.drop width) else none

/-- A part behind its separator, where the form of the text has separators. -/
def readPart (extended : Bool) (separator : Char) (width : Nat) (text : List Char) : Option (Nat × List Char) :=
  if extended then (if text.head? = some separator then readDigits width text.tail else none)
  else readDigits width text

def readDate (text : List Char) : Option (Date × List Char) := do
  let (year, months) ← readDigits 4 text
  let extended := months.head? = some '-'
  let (month, days) ← readPart extended '-' 2 months
  let (day, rest) ← readPart extended '-' 2 days
  return (⟨year, month, day⟩, rest)

/-- The microseconds of a fraction, which is cut off behind the sixth digit. -/
def readFraction : List Char → Option Nat
  | [] => some 0
  | mark :: digits =>
    if (mark = '.' ∨ mark = ',') ∧ digits ≠ [] ∧ digits.all Char.isDigit then
      number ((digits ++ List.replicate 6 '0').take 6)
    else none

def below (bound n : Nat) : Option Nat := if n < bound then some n else none

/-- The microseconds of a time of the day. -/
def readTime (text : List Char) : Option Nat := do
  let (hour, minutes) ← readDigits 2 text
  let hours := (← below 24 hour) * 3600
  if minutes = [] then return hours * second
  let extended := minutes.head? = some ':'
  let (minute, seconds) ← readPart extended ':' 2 minutes
  let minutes := hours + (← below 60 minute) * 60
  if seconds = [] then return minutes * second
  let (sec, rest) ← readPart extended ':' 2 seconds
  return (minutes + (← below 60 sec)) * second + (← readFraction rest)

/-- `Z`, or the sign and the size of the offset. -/
def readOffset : List Char → Option Offset
  | ['Z'] => some Offset.utc
  | sign :: size => do
    let micros : Int ← readTime size
    let signed := if sign = '-' then -micros else micros
    if inside : -(dayLength : Int) < signed ∧ signed < dayLength then some ⟨signed, inside⟩ else none
  | [] => none

/-- Nothing behind a time is no offset. -/
def readZone : List Char → Option (Option Offset)
  | [] => some none
  | zone => (readOffset zone).map some

def isZone (c : Char) : Bool := c = '+' || c = '-' || c = 'Z'

def ofParts (date : Date) (micros : Nat) (offset : Option Offset) : Option Datetime :=
  let clock := date.days * dayLength + micros
  if inside : date.Valid ∧ clock < maxDays * dayLength then some ⟨⟨clock, inside.2⟩, offset⟩ else none

/-- `datetime.fromisoformat`, less the weeks of ISO 8601: any character stands between the date
and the time. -/
def fromIsoformat (text : List Char) : Option Datetime := do
  let (date, rest) ← readDate text
  match rest with
  | [] => ofParts date 0 none
  | _ :: time =>
    let micros ← readTime (time.takeWhile fun c => !isZone c)
    let offset ← readZone (time.dropWhile fun c => !isZone c)
    ofParts date micros offset

/-! ### Cursors -/

structure TimelineCursor where
  timelineAt : Datetime
  assetId : Uuid
deriving DecidableEq

/-- `b64decode` in its strict mode, of a text with as much padding added as its length wants. -/
def b64decode (value : List Char) : Option Bytes :=
  let body := value.takeWhile (· ≠ '=')
  let padding := value.dropWhile (· ≠ '=') ++ List.replicate ((4 - value.length % 4) % 4) '='
  if padding.all (· = '=') ∧ padding.length = (4 - body.length % 4) % 4 then (body.mapM sextet).bind ofSextets
  else none

def payload (t : Timestamp) (id : Uuid) : Value :=
  .object [("v", .number (.ofNat 1)),
    ("t", .string (String.ofList (replaceAll utcZone ['Z'] (isoformat t)))), ("id", .string id.str)]

def spellCursor (t : Timestamp) (id : Uuid) : String :=
  String.ofList (urlsafeB64 (encodeUtf8 (Style.spell ⟨true, false⟩ (payload t id))))

/-- Nothing is encoded of a timestamp that overflows in UTC. -/
def encodeCursor (cursor : TimelineCursor) : Option String :=
  cursor.timelineAt.instant.map fun t => spellCursor t cursor.assetId

inductive Fault where
  | httpException (statusCode : Nat) (detail : String)
  | uncaught
deriving DecidableEq

def invalidCursor : Fault := .httpException 400 "Invalid timeline cursor"

/-- `payload.get("v") == 1`, for the ones that Python writes. -/
def isOne : Option Value → Bool
  | some (.number n) => n.text = ['1'] || n.text = ['1', '.', '0']
  | some (.bool b) => b
  | _ => false

def orInvalid {α : Type} (a : Option α) : Except Fault α := a.elim (.error invalidCursor) .ok

def inUtc (timestamp : Datetime) : Except Fault Timestamp :=
  match timestamp.offset with
  | none => .error invalidCursor
  | some offset => (astimezone timestamp.clock offset).elim (.error .uncaught) .ok

/-- `payload["t"].replace("Z", "+00:00")` read as a datetime in UTC. -/
def readTimestamp : Option Value → Except Fault Timestamp
  | none => .error invalidCursor
  | some (.string text) =>
    (orInvalid (fromIsoformat (replaceAll ['Z'] utcZone text.toList))).bind inUtc
  | some _ => .error .uncaught

/-- `uuid.UUID(payload["id"])` -/
def readId : Option Value → Except Fault Uuid
  | none | some .null => .error invalidCursor
  | some (.string text) => orInvalid (Uuid.ofText text)
  | some _ => .error .uncaught

def readPayload : Value → Except Fault TimelineCursor
  | .object members =>
    if isOne (Dict.get? members "v") then do
      let t ← readTimestamp (Dict.get? members "t")
      let id ← readId (Dict.get? members "id")
      return ⟨⟨t, some Offset.utc⟩, id⟩
    else .error invalidCursor
  | _ => .error .uncaught

def decodeCursor (value : String) : Except Fault TimelineCursor := do
  readPayload (← orInvalid (((b64decode value.toList).bind decodeUtf8).bind loads))

/-! ### What is encoded is decoded -/

theorem sextet_digit {n : Nat} (small : n < 64) : sextet (urlsafeB64.digit n) = some n := by
  have all : ∀ n : Fin 64, sextet (urlsafeB64.digit n) = some n.val := by decide +kernel
  exact all ⟨n, small⟩

theorem byte_eq (a : UInt8) {n : Nat} (same : n = a.toNat) : UInt8.ofNat n = a := by
  rw [same, UInt8.ofNat_toNat]

theorem ofSextets_urlsafeB64 (raw : Bytes) : ((urlsafeB64 raw).mapM sextet).bind ofSextets = some raw := by
  fun_induction urlsafeB64 raw with
  | case1 a b c rest ih =>
    have bounds := And.intro a.toNat_lt (And.intro b.toNat_lt c.toNat_lt)
    obtain ⟨sextets, read, decoded⟩ := Option.bind_eq_some_iff.mp ih
    simp only [List.mapM_cons, sextet_digit (show a.toNat / 4 < 64 by omega),
      sextet_digit (show a.toNat % 4 * 16 + b.toNat / 16 < 64 by omega),
      sextet_digit (show b.toNat % 16 * 4 + c.toNat / 64 < 64 by omega),
      sextet_digit (show c.toNat % 64 < 64 by omega), read, Option.bind_eq_bind, Option.bind_some, Option.pure_def,
      ofSextets, decoded, Option.map_some]
    rw [byte_eq a (by omega), byte_eq b (by omega), byte_eq c (by omega)]
  | case2 a b =>
    have bounds := And.intro a.toNat_lt b.toNat_lt
    simp only [List.mapM_cons, List.mapM_nil, sextet_digit (show a.toNat / 4 < 64 by omega),
      sextet_digit (show a.toNat % 4 * 16 + b.toNat / 16 < 64 by omega),
      sextet_digit (show b.toNat % 16 * 4 < 64 by omega), Option.bind_eq_bind, Option.bind_some, Option.pure_def,
      ofSextets]
    rw [byte_eq a (by omega), byte_eq b (by omega)]
  | case3 a =>
    have bound := a.toNat_lt
    simp only [List.mapM_cons, List.mapM_nil, sextet_digit (show a.toNat / 4 < 64 by omega),
      sextet_digit (show a.toNat % 4 * 16 < 64 by omega), Option.bind_eq_bind, Option.bind_some, Option.pure_def,
      ofSextets]
    rw [byte_eq a (by omega)]
  | case4 => rfl

theorem digit_plain (n : Nat) : urlsafeB64.digit n ≠ '=' := by
  rcases Nat.lt_or_ge n 64 with small | large
  · have all : ∀ n : Fin 64, urlsafeB64.digit n ≠ '=' := by decide +kernel
    exact all ⟨n, small⟩
  · rw [urlsafeB64.digit, List.getD_eq_getElem?_getD, List.getElem?_eq_none large]
    decide

theorem urlsafeB64_plain (raw : Bytes) : ∀ c ∈ urlsafeB64 raw, c ≠ '=' := by
  fun_induction urlsafeB64 raw with
  | case1 a b c rest ih =>
    simp only [List.forall_mem_cons]
    exact ⟨digit_plain _, digit_plain _, digit_plain _, digit_plain _, ih⟩
  | case2 a b =>
    simp only [List.forall_mem_cons]
    exact ⟨digit_plain _, digit_plain _, digit_plain _, fun _ absent => absurd absent List.not_mem_nil⟩
  | case3 a =>
    simp only [List.forall_mem_cons]
    exact ⟨digit_plain _, digit_plain _, fun _ absent => absurd absent List.not_mem_nil⟩
  | case4 => exact fun _ absent => absurd absent List.not_mem_nil

theorem b64decode_urlsafeB64 (raw : Bytes) : b64decode (urlsafeB64 raw) = some raw := by
  have read := ofSextets_urlsafeB64 raw
  have plain : ∀ c ∈ urlsafeB64 raw, (decide (c ≠ '=')) = true := by
    intro c member
    apply decide_eq_true
    exact urlsafeB64_plain raw c member
  have body : (urlsafeB64 raw).takeWhile (· ≠ '=') = urlsafeB64 raw := List.takeWhile_eq_self_iff.mpr plain
  have rest : (urlsafeB64 raw).dropWhile (· ≠ '=') = [] := List.dropWhile_eq_nil_iff.mpr plain
  unfold b64decode
  dsimp only
  rw [body, rest, List.nil_append, if_pos, read]
  refine ⟨List.all_eq_true.mpr fun c member => ?_, List.length_replicate⟩
  exact decide_eq_true (List.eq_of_mem_replicate member)

theorem readDigits_pad {width n : Nat} (fits : n < 10 ^ width) (rest : List Char) :
    readDigits width (pad width n ++ rest) = some (n, rest) := by
  have size := pad_length width n
  have front : (pad width n ++ rest).take width = pad width n := List.take_left' size
  rw [readDigits, front, if_pos size, number_pad fits, List.drop_left' size]
  rfl

theorem readPart_pad {separator : Char} {width n : Nat} (fits : n < 10 ^ width) (rest : List Char) :
    readPart true separator width (separator :: (pad width n ++ rest)) = some (n, rest) := by
  rw [readPart, if_pos rfl, List.head?_cons, if_pos rfl, List.tail_cons, readDigits_pad fits]

theorem readDate_isoDate {date : Date} (valid : date.Valid) (rest : List Char) :
    readDate (isoDate date ++ rest) = some (date, rest) := by
  obtain ⟨-, year, -, month, -, day⟩ := valid
  have days : daysInMonth (isLeap date.year) date.month ≤ 31 := by
    unfold daysInMonth
    split_ifs <;> decide
  have shown : isoDate date ++ rest =
      pad 4 date.year ++ '-' :: (pad 2 date.month ++ '-' :: (pad 2 date.day ++ rest)) := by
    simp only [isoDate, List.append_assoc, List.cons_append]
  rw [shown, readDate, readDigits_pad (show date.year < 10 ^ 4 by omega)]
  simp only [Option.bind_eq_bind, Option.bind_some, List.head?_cons, decide_true,
    readPart_pad (show date.month < 10 ^ 2 by omega), readPart_pad (show date.day < 10 ^ 2 by omega), Option.pure_def]

theorem readFraction_fraction {micros : Nat} (small : micros < second) :
    readFraction (fraction micros) = some micros := by
  unfold fraction
  split
  · next zero => rw [zero, readFraction]
  · have size := pad_length 6 micros
    have front : (pad 6 micros ++ List.replicate 6 '0').take 6 = pad 6 micros := List.take_left' size
    have filled : pad 6 micros ≠ [] := by
      intro empty
      rw [empty] at size
      cases size
    rw [readFraction, if_pos ⟨.inl rfl, filled, List.all_eq_true.mpr fun c member => isDigit_pad member⟩, front]
    exact number_pad small

theorem readTime_isoTime {micros : Nat} (small : micros < dayLength) : readTime (isoTime micros) = some micros := by
  have seconds : micros / second < 86400 := Nat.div_lt_of_lt_mul (by rwa [Nat.mul_comm])
  have hour : micros / second / 3600 < 24 := by omega
  have minute : micros / second / 60 % 60 < 60 := Nat.mod_lt _ (by decide)
  have sec : micros / second % 60 < 60 := Nat.mod_lt _ (by decide)
  have rest : micros % second < second := Nat.mod_lt _ (by decide)
  have whole : (micros / second / 3600 * 3600 + micros / second / 60 % 60 * 60 + micros / second % 60) * second +
      micros % second = micros := by
    have sum : micros / second / 3600 * 3600 + micros / second / 60 % 60 * 60 + micros / second % 60 =
        micros / second := by omega
    rw [sum, Nat.mul_comm]
    exact Nat.div_add_mod micros second
  rw [readTime, isoTime, readDigits_pad (show micros / second / 3600 < 10 ^ 2 by omega)]
  simp only [Option.bind_eq_bind, Option.bind_some, below, if_pos hour, reduceCtorEq, if_false, List.head?_cons,
    decide_true, readPart_pad (show micros / second / 60 % 60 < 10 ^ 2 by omega), if_pos minute,
    readPart_pad (show micros / second % 60 < 10 ^ 2 by omega), if_pos sec, readFraction_fraction rest,
    Option.pure_def, whole]

/-- Nothing of a time begins an offset. -/
theorem isoTime_plain (micros : Nat) : ∀ c ∈ isoTime micros, isZone c = false ∧ c ≠ '+' ∧ c ≠ 'Z' := by
  have digit : ∀ {width n : Nat}, ∀ c ∈ pad width n, isZone c = false ∧ c ≠ '+' ∧ c ≠ 'Z' := by
    intro width n c member
    have shown := isDigit_pad member
    refine ⟨?_, ?_, ?_⟩
    · by_contra zone
      rw [Bool.not_eq_false, isZone, Bool.or_eq_true, Bool.or_eq_true, decide_eq_true_eq, decide_eq_true_eq,
        decide_eq_true_eq] at zone
      rcases zone with (rfl | rfl) | rfl
      · exact absurd shown (by decide)
      · exact absurd shown (by decide)
      · exact absurd shown (by decide)
    · rintro rfl
      exact absurd shown (by decide)
    · rintro rfl
      exact absurd shown (by decide)
  have colon : isZone ':' = false ∧ ':' ≠ '+' ∧ ':' ≠ 'Z' := by decide
  have point : isZone '.' = false ∧ '.' ≠ '+' ∧ '.' ≠ 'Z' := by decide
  intro c member
  simp only [isoTime, List.mem_append, List.mem_cons] at member
  rcases member with hour | rfl | minute | rfl | second_ | part
  · exact digit c hour
  · exact colon
  · exact digit c minute
  · exact colon
  · exact digit c second_
  · unfold fraction at part
    split at part
    · cases part
    · rcases List.mem_cons.mp part with rfl | micro
      · exact point
      · exact digit c micro

theorem isoDate_plain (date : Date) : ∀ c ∈ isoDate date, c ≠ '+' ∧ c ≠ 'Z' := by
  have digit : ∀ {width n : Nat}, ∀ c ∈ pad width n, c ≠ '+' ∧ c ≠ 'Z' := by
    intro width n c member
    have shown := isDigit_pad member
    constructor
    · rintro rfl
      exact absurd shown (by decide)
    · rintro rfl
      exact absurd shown (by decide)
  have hyphen : '-' ≠ '+' ∧ '-' ≠ 'Z' := by decide
  intro c member
  simp only [isoDate, List.mem_append, List.mem_cons] at member
  rcases member with year | rfl | month | rfl | day
  · exact digit c year
  · exact hyphen
  · exact digit c month
  · exact hyphen
  · exact digit c day

theorem fromIsoformat_isoformat (t : Timestamp) : fromIsoformat (isoformat t) = some ⟨t, some Offset.utc⟩ := by
  have inside : t.val / dayLength < maxDays := Nat.div_lt_of_lt_mul (Nat.lt_of_lt_of_eq t.2 (Nat.mul_comm _ _))
  have rest : t.val % dayLength < dayLength := Nat.mod_lt _ (by decide)
  have valid := dateOf_valid inside
  have clock : (dateOf (t.val / dayLength)).days * dayLength + t.val % dayLength = t.val := by
    rw [days_dateOf, Nat.mul_comm]
    exact Nat.div_add_mod t.val dayLength
  have plain : ∀ c ∈ isoTime (t.val % dayLength), (!isZone c) = true := by
    intro c member
    rw [(isoTime_plain _ c member).1, Bool.not_false]
  have time : (isoTime (t.val % dayLength) ++ utcZone).takeWhile (fun c => !isZone c) =
      isoTime (t.val % dayLength) := by
    rw [List.takeWhile_append_of_pos plain]
    exact List.append_nil _
  have zone : (isoTime (t.val % dayLength) ++ utcZone).dropWhile (fun c => !isZone c) = utcZone := by
    rw [List.dropWhile_append_of_pos plain]
    decide
  have offset : readZone utcZone = some (some Offset.utc) := by decide +kernel
  rw [fromIsoformat, isoformat, readDate_isoDate valid]
  simp only [Option.bind_eq_bind, Option.bind_some, time, zone, readTime_isoTime rest, offset, ofParts]
  rw [dif_pos ⟨valid, clock.symm ▸ t.2⟩]
  simp only [clock]

/-- The suffix of the spelling is exchanged, and then back. -/
theorem zone_exchanged (t : Timestamp) :
    replaceAll ['Z'] utcZone (replaceAll utcZone ['Z'] (isoformat t)) = isoformat t := by
  let front := isoDate (dateOf (t.val / dayLength)) ++ 'T' :: isoTime (t.val % dayLength)
  have plain : ∀ c ∈ front, c ≠ '+' ∧ c ≠ 'Z' := by
    intro c member
    rcases List.mem_append.mp member with date | time
    · exact isoDate_plain _ c date
    · rcases List.mem_cons.mp time with rfl | time
      · decide
      · exact (isoTime_plain _ c time).2
  have shown : isoformat t = front ++ utcZone := by
    simp only [front, isoformat, List.append_assoc, List.cons_append]
  have replaced : replaceAll utcZone ['Z'] (front ++ utcZone) = front ++ ['Z'] := by
    rw [utcZone, replaceAll_append (fun member => (plain '+' member).1 rfl)]
    have self := replaceAll_self '+' ['0', '0', ':', '0', '0'] ['Z'] []
    rw [List.append_nil] at self
    rw [self, replaceAll, List.append_nil]
  rw [shown, replaced, replaceAll_append (fun member => (plain 'Z' member).2 rfl)]
  have self := replaceAll_self 'Z' [] utcZone []
  rw [List.append_nil] at self
  rw [self, replaceAll, List.append_nil]

theorem payload_valid (t : Timestamp) (id : Uuid) : (payload t id).Valid := by
  have keyed : ["v", "t", "id"].Nodup := by decide
  exact ⟨keyed, isNumber_ofNat 1, trivial, trivial, trivial⟩

theorem astimezone_utc (t : Timestamp) : astimezone t Offset.utc = some t := by
  have same : ((t.val : Int) - (Offset.utc).val).toNat = t.val := by
    have zero : (t.val : Int) - (Offset.utc).val = t.val := Int.sub_zero _
    omega
  have positive : ¬(t.val : Int) - (Offset.utc).val < 0 := by
    have zero : (t.val : Int) - (Offset.utc).val = t.val := Int.sub_zero _
    omega
  have inside : ((t.val : Int) - (Offset.utc).val).toNat < maxDays * dayLength := same.trans_lt t.2
  unfold astimezone
  dsimp only
  rw [if_neg positive, dif_pos inside]
  exact congrArg some (Subtype.ext same)

theorem instant_utc (t : Timestamp) : Datetime.instant ⟨t, some Offset.utc⟩ = some t := by
  rw [Datetime.instant, Option.getD_some, astimezone_utc]

theorem readTimestamp_isoformat (t : Timestamp) :
    readTimestamp (some (.string (String.ofList (replaceAll utcZone ['Z'] (isoformat t))))) = .ok t := by
  have shown : inUtc ⟨t, some Offset.utc⟩ = .ok t := by
    unfold inUtc
    dsimp only
    rw [astimezone_utc, Option.elim_some]
  rw [readTimestamp, String.toList_ofList, zone_exchanged, fromIsoformat_isoformat, orInvalid, Option.elim_some,
    Except.bind, shown]

theorem readPayload_payload (t : Timestamp) (id : Uuid) :
    readPayload (payload t id) = .ok ⟨⟨t, some Offset.utc⟩, id⟩ := by
  let at_ := Value.string (String.ofList (replaceAll utcZone ['Z'] (isoformat t)))
  have members : payload t id = .object [("v", .number (.ofNat 1)), ("t", at_), ("id", .string id.str)] := rfl
  have v : Dict.get? [("v", Value.number (.ofNat 1)), ("t", at_), ("id", .string id.str)] "v" =
      some (.number (.ofNat 1)) := rfl
  have t_ : Dict.get? [("v", Value.number (.ofNat 1)), ("t", at_), ("id", .string id.str)] "t" = some at_ := rfl
  have id_ : Dict.get? [("v", Value.number (.ofNat 1)), ("t", at_), ("id", .string id.str)] "id" =
      some (.string id.str) := rfl
  have one : isOne (some (.number (.ofNat 1))) = true := by decide
  rw [members, readPayload, v, one, if_pos rfl, t_, id_, readTimestamp_isoformat, readId, Uuid.ofText_str]
  rfl

theorem decodeCursor_spellCursor (t : Timestamp) (id : Uuid) :
    decodeCursor (spellCursor t id) = .ok ⟨⟨t, some Offset.utc⟩, id⟩ := by
  rw [decodeCursor, spellCursor, String.toList_ofList, b64decode_urlsafeB64, Option.bind_some, decodeUtf8_encodeUtf8,
    Option.bind_some, loads_spell _ _ (payload_valid t id)]
  exact readPayload_payload t id

/-- A decoded cursor is the same instant, in UTC, and the same asset. -/
theorem decodeCursor_encodeCursor {cursor : TimelineCursor} {text : String} (encoded : encodeCursor cursor = some text) :
    ∃ t, cursor.timelineAt.instant = some t ∧ decodeCursor text = .ok ⟨⟨t, some Offset.utc⟩, cursor.assetId⟩ := by
  obtain ⟨t, at_, rfl⟩ := Option.map_eq_some_iff.mp encoded
  exact ⟨t, at_, decodeCursor_spellCursor t cursor.assetId⟩

end Drivebound.Timeline
