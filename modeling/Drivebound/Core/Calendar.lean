import Mathlib

/-! The proleptic Gregorian calendar of `datetime`, with days counted from the first of
January of the year 1, and numbers in decimal digits of a fixed width. -/
namespace Drivebound.Calendar

/-! ### Days -/

def isLeap (year : Nat) : Bool := year % 4 = 0 && (year % 100 ≠ 0 || year % 400 = 0)

def daysInMonth (leap : Bool) (month : Nat) : Nat :=
  if month = 2 then (if leap then 29 else 28) else if month ∈ [4, 6, 9, 11] then 30 else 31

/-- The days of the months before this one. -/
def daysBeforeMonth (leap : Bool) (month : Nat) : Nat :=
  ((List.range (month - 1)).map fun earlier => daysInMonth leap (earlier + 1)).sum

/-- The days before the first of January. -/
def daysBeforeYear (year : Nat) : Nat :=
  (year - 1) * 365 + (year - 1) / 4 - (year - 1) / 100 + (year - 1) / 400

structure Date where
  year : Nat
  month : Nat
  day : Nat
deriving DecidableEq

def Date.Valid (date : Date) : Prop :=
  1 ≤ date.year ∧ date.year ≤ 9999 ∧ 1 ≤ date.month ∧ date.month ≤ 12 ∧ 1 ≤ date.day ∧
    date.day ≤ daysInMonth (isLeap date.year) date.month

instance (date : Date) : Decidable date.Valid := inferInstanceAs (Decidable (_ ∧ _ ∧ _ ∧ _ ∧ _ ∧ _))

def Date.days (date : Date) : Nat :=
  daysBeforeYear date.year + daysBeforeMonth (isLeap date.year) date.month + (date.day - 1)

/-- The month of a day of the year. -/
def monthOf (leap : Bool) (day : Nat) : Nat :=
  1 + (List.range 11).countP fun earlier => daysBeforeMonth leap (earlier + 2) ≤ day

/-- The years are counted by cycles of 400, 100 and 4, of which the last day of the last is
the leap day. -/
def dateOf (days : Nat) : Date :=
  let cycle := days / 146097
  let inCycle := days % 146097
  let century := min 3 (inCycle / 36524)
  let inCentury := inCycle - century * 36524
  let olympiad := inCentury / 1461
  let inOlympiad := inCentury % 1461
  let last := min 3 (inOlympiad / 365)
  let day := inOlympiad - last * 365
  let year := cycle * 400 + century * 100 + olympiad * 4 + last + 1
  let month := monthOf (isLeap year) day
  ⟨year, month, day - daysBeforeMonth (isLeap year) month + 1⟩

/-- `date.max.toordinal()` -/
def maxDays : Nat := 3652059

/-- A day of a year falls into its month. -/
theorem monthOf_spec (leap : Bool) {day : Nat} (inYear : day < 365 + leap.toNat) :
    1 ≤ monthOf leap day ∧ monthOf leap day ≤ 12 ∧ daysBeforeMonth leap (monthOf leap day) ≤ day ∧
      day < daysBeforeMonth leap (monthOf leap day) + daysInMonth leap (monthOf leap day) := by
  have all : ∀ leap : Bool, ∀ day : Fin 366, day.val < 365 + leap.toNat →
      1 ≤ monthOf leap day ∧ monthOf leap day ≤ 12 ∧ daysBeforeMonth leap (monthOf leap day) ≤ day ∧
        day < daysBeforeMonth leap (monthOf leap day) + daysInMonth leap (monthOf leap day) := by
    decide +kernel
  have bound : day < 366 := by
    cases leap <;> exact Nat.lt_of_lt_of_le inYear (by decide)
  exact all leap ⟨day, bound⟩ inYear

/-- The days before a year from the cycles of the years before it. -/
theorem daysBeforeYear_cycles (cycle : Nat) {century olympiad last : Nat} (c : century ≤ 3) (o : olympiad ≤ 24) (l : last ≤ 3) :
    daysBeforeYear (cycle * 400 + century * 100 + olympiad * 4 + last + 1) =
      cycle * 146097 + century * 36524 + olympiad * 1461 + last * 365 := by
  have fours : (cycle * 400 + century * 100 + olympiad * 4 + last) / 4 = cycle * 100 + century * 25 + olympiad := by
    omega
  have hundreds : (cycle * 400 + century * 100 + olympiad * 4 + last) / 100 = cycle * 4 + century := by omega
  have cycles : (cycle * 400 + century * 100 + olympiad * 4 + last) / 400 = cycle := by omega
  rw [daysBeforeYear, Nat.add_sub_cancel, fours, hundreds, cycles]
  omega

theorem isLeap_cycles {cycle century olympiad last : Nat} (o : olympiad ≤ 24) (full : last = 3)
    (kept : olympiad = 24 → century = 3) :
    isLeap (cycle * 400 + century * 100 + olympiad * 4 + last + 1) = true := by
  have four : (cycle * 400 + century * 100 + olympiad * 4 + last + 1) % 4 = 0 := by omega
  have rest : (cycle * 400 + century * 100 + olympiad * 4 + last + 1) % 100 ≠ 0 ∨
      (cycle * 400 + century * 100 + olympiad * 4 + last + 1) % 400 = 0 := by
    by_cases end_ : olympiad = 24
    · exact .inr (by omega)
    · exact .inl (by omega)
  unfold isLeap
  rw [four]
  rcases rest with hundred | cycle
  · simp [hundred]
  · simp [cycle]

theorem dateOf_year (days : Nat) :
    daysBeforeYear (dateOf days).year ≤ days ∧
      days < daysBeforeYear (dateOf days).year + 365 + (isLeap (dateOf days).year).toNat ∧
      (days < maxDays → 1 ≤ (dateOf days).year ∧ (dateOf days).year ≤ 9999) := by
  unfold dateOf
  dsimp only
  generalize whole : days / 146097 = cycle
  generalize part : days % 146097 = inCycle
  generalize c : min 3 (inCycle / 36524) = century
  generalize second : inCycle - century * 36524 = inCentury
  generalize o : inCentury / 1461 = olympiad
  generalize third : inCentury % 1461 = inOlympiad
  generalize l : min 3 (inOlympiad / 365) = last
  have inCentury_le : inCentury ≤ 36524 := by omega
  have inCentury_lt : century < 3 → inCentury < 36524 := by omega
  have century_le : century ≤ 3 := by omega
  have olympiad_le : olympiad ≤ 24 := by omega
  have last_le : last ≤ 3 := by omega
  have before := daysBeforeYear_cycles cycle century_le olympiad_le last_le
  refine ⟨by omega, ?_, fun inside => ?_⟩
  · rw [before]
    by_cases leap : inOlympiad = 1460
    · have full : last = 3 := by omega
      have kept : olympiad = 24 → century = 3 := by
        intro end_
        rcases Nat.lt_or_ge century 3 with low | high
        · have short := inCentury_lt low
          omega
        · omega
      rw [isLeap_cycles olympiad_le full kept]
      have one : Bool.toNat true = 1 := rfl
      omega
    · omega
  · unfold maxDays at inside
    omega

/-- The month and the day are those of the day within its year. -/
theorem dateOf_month (days : Nat) :
    (dateOf days).month = monthOf (isLeap (dateOf days).year) (days - daysBeforeYear (dateOf days).year) ∧
      (dateOf days).day = days - daysBeforeYear (dateOf days).year -
        daysBeforeMonth (isLeap (dateOf days).year) (dateOf days).month + 1 := by
  have century_le : min 3 (days % 146097 / 36524) ≤ 3 := by omega
  have olympiad_le : (days % 146097 - min 3 (days % 146097 / 36524) * 36524) / 1461 ≤ 24 := by omega
  have last_le : min 3 ((days % 146097 - min 3 (days % 146097 / 36524) * 36524) % 1461 / 365) ≤ 3 := by omega
  have before : daysBeforeYear (dateOf days).year = _ :=
    daysBeforeYear_cycles (days / 146097) century_le olympiad_le last_le
  have day : (days % 146097 - min 3 (days % 146097 / 36524) * 36524) % 1461 -
      min 3 ((days % 146097 - min 3 (days % 146097 / 36524) * 36524) % 1461 / 365) * 365 =
      days - daysBeforeYear (dateOf days).year := by
    rw [before]
    omega
  have month : (dateOf days).month =
      monthOf (isLeap (dateOf days).year) (days - daysBeforeYear (dateOf days).year) := by
    rw [← day]
    rfl
  refine ⟨month, ?_⟩
  rw [← day]
  rfl

theorem dateOf_valid {days : Nat} (inside : days < maxDays) : (dateOf days).Valid := by
  obtain ⟨begun, ends, years⟩ := dateOf_year days
  obtain ⟨month, day⟩ := dateOf_month days
  have inYear : days - daysBeforeYear (dateOf days).year < 365 + (isLeap (dateOf days).year).toNat := by omega
  obtain ⟨first, last, from_, until_⟩ := monthOf_spec (isLeap (dateOf days).year) inYear
  rw [← month] at first last from_ until_
  exact ⟨(years inside).1, (years inside).2, first, last, by omega, by omega⟩

/-- The day of the date of a day is the day. -/
theorem days_dateOf (days : Nat) : (dateOf days).days = days := by
  obtain ⟨begun, ends, -⟩ := dateOf_year days
  obtain ⟨month, day⟩ := dateOf_month days
  have inYear : days - daysBeforeYear (dateOf days).year < 365 + (isLeap (dateOf days).year).toNat := by omega
  obtain ⟨-, -, from_, -⟩ := monthOf_spec (isLeap (dateOf days).year) inYear
  rw [← month] at from_
  unfold Date.days
  omega

/-! ### Digits -/

/-- A number in so many digits, the higher ones cut off. -/
def pad : Nat → Nat → List Char
  | 0, _ => []
  | width + 1, n => pad width (n / 10) ++ [Nat.digitChar (n % 10)]

/-- The number of a text of digits. -/
def number (text : List Char) : Option Nat :=
  if text.all Char.isDigit then some (Nat.ofDigitChars 10 text 0) else none

theorem pad_length (width n : Nat) : (pad width n).length = width := by
  induction width generalizing n with
  | zero => rfl
  | succ width ih => rw [pad, List.length_append, ih, List.length_singleton]

theorem isDigit_pad {width n : Nat} {c : Char} (member : c ∈ pad width n) : c.isDigit = true := by
  induction width generalizing n with
  | zero => cases member
  | succ width ih =>
    rcases List.mem_append.mp member with before | last
    · exact ih before
    · have digit : ∀ d : Fin 10, d.val.digitChar.isDigit = true := by decide
      rw [List.mem_singleton.mp last]
      exact digit ⟨n % 10, Nat.mod_lt _ (by decide)⟩

theorem ofDigitChars_pad (width n : Nat) : Nat.ofDigitChars 10 (pad width n) 0 = n % 10 ^ width := by
  induction width generalizing n with
  | zero => rw [pad, Nat.pow_zero, Nat.mod_one]; rfl
  | succ width ih =>
    have digit : ∀ d : Fin 10, d.val.digitChar.toNat - '0'.toNat = d.val := by decide
    have last := digit ⟨n % 10, Nat.mod_lt _ (by decide)⟩
    have earlier := ih (n / 10)
    rw [Nat.ofDigitChars_eq_foldl] at earlier ⊢
    rw [pad, List.foldl_append, earlier, List.foldl_cons, List.foldl_nil, last, Nat.pow_succ', Nat.mod_mul, Nat.add_comm]

theorem number_pad {width n : Nat} (fits : n < 10 ^ width) : number (pad width n) = some n := by
  rw [number, if_pos (List.all_eq_true.mpr fun c member => isDigit_pad member), ofDigitChars_pad,
    Nat.mod_eq_of_lt fits]

end Drivebound.Calendar
