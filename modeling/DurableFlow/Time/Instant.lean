import DurableFlow.Number.Power

/-!
# Instants

An instant is a second of the civil calendar, counted from the start of 1970, and a
fraction of it in nanoseconds. The fraction of a leap second runs beyond one second.
Instants range over the years that the calendar here covers.
-/

namespace DurableFlow

/-- A second since the start of 1970 with a fraction in nanoseconds. -/
structure Instant where
  second : Int
  nano : Nat
deriving DecidableEq, Repr

/-- A day of the proleptic Gregorian calendar. -/
structure CivilDate where
  year : Int
  month : Nat
  day : Nat
deriving DecidableEq, Repr

namespace CivilDate

def isLeapYear (year : Int) : Bool :=
  year % 4 = 0 && (year % 100 ≠ 0 || year % 400 = 0)

def daysInMonth (year : Int) (month : Nat) : Nat :=
  match month with
  | 2 => if isLeapYear year then 29 else 28
  | 4 | 6 | 9 | 11 => 30
  | _ => 31

/-- The years of the calendar. -/
def minYear : Int := -262143

def maxYear : Int := 262142

/-- Whether the date exists. -/
def Valid (d : CivilDate) : Prop :=
  minYear ≤ d.year ∧ d.year ≤ maxYear ∧ 1 ≤ d.month ∧ d.month ≤ 12 ∧
    1 ≤ d.day ∧ d.day ≤ daysInMonth d.year d.month

instance (d : CivilDate) : Decidable d.Valid := by
  unfold Valid; infer_instance

/-- Days since the start of 1970. Years are counted from March, so that a leap day is
the last of its year. -/
def toDays (d : CivilDate) : Int :=
  let y := if d.month ≤ 2 then d.year - 1 else d.year
  let era := y.fdiv 400
  let yearOfEra := y - era * 400
  let monthFromMarch : Int := ((d.month : Int) + 9) % 12
  let dayOfYear := (153 * monthFromMarch + 2) / 5 + d.day - 1
  let dayOfEra := yearOfEra * 365 + yearOfEra / 4 - yearOfEra / 100 + dayOfYear
  era * 146097 + dayOfEra - 719468

/-- The date of a count of days since the start of 1970. -/
def ofDays (days : Int) : CivilDate :=
  let z := days + 719468
  let era := z.fdiv 146097
  let dayOfEra := z - era * 146097
  let yearOfEra := (dayOfEra - dayOfEra / 1460 + dayOfEra / 36524 - dayOfEra / 146096) / 365
  let dayOfYear := dayOfEra - (365 * yearOfEra + yearOfEra / 4 - yearOfEra / 100)
  let monthFromMarch := (5 * dayOfYear + 2) / 153
  let day := dayOfYear - (153 * monthFromMarch + 2) / 5 + 1
  let month := if monthFromMarch < 10 then monthFromMarch + 3 else monthFromMarch - 9
  let year := yearOfEra + era * 400 + (if month ≤ 2 then 1 else 0)
  ⟨year, month.toNat, day.toNat⟩

end CivilDate

namespace Instant

instance : Inhabited Instant := ⟨⟨0, 0⟩⟩

def secondsPerDay : Int := 86400

/-- The first second of the calendar. -/
def minSecond : Int := CivilDate.toDays ⟨CivilDate.minYear, 1, 1⟩ * secondsPerDay

/-- The last second of the calendar. -/
def maxSecond : Int := CivilDate.toDays ⟨CivilDate.maxYear, 12, 31⟩ * secondsPerDay + 86399

/-- Whether the calendar has a second. -/
def inCalendar (second : Int) : Bool := minSecond ≤ second && second ≤ maxSecond

/-- Instants are ordered by second, then by fraction. -/
def before (a b : Instant) : Bool :=
  a.second < b.second || (a.second == b.second && a.nano < b.nano)

/-- `a` is not later than `b`. -/
def atMost (a b : Instant) : Bool := !b.before a

/-- The instant some nanoseconds later; none when the calendar ends before it. Within
a leap second the fraction keeps running while the sum stays in it. -/
def addNanos? (t : Instant) (nanos : Int) : Option Instant :=
  let total := (t.nano : Int) + nanos
  if 10 ^ (9 : Nat) ≤ t.nano ∧ 10 ^ (9 : Nat) ≤ total ∧ total < 2 * 10 ^ (9 : Nat) then
    some ⟨t.second, total.toNat⟩
  else
    let total := if 10 ^ (9 : Nat) ≤ t.nano ∧ 0 < nanos then total - 10 ^ (9 : Nat) else total
    let second := t.second + total.fdiv (10 ^ (9 : Nat))
    if inCalendar second then some ⟨second, (total.fmod (10 ^ (9 : Nat))).toNat⟩ else none

/-- The instant some milliseconds later. -/
def addMillis? (t : Instant) (millis : Int) : Option Instant :=
  t.addNanos? (millis * 10 ^ (6 : Nat))

/-- The second within its day. -/
def secondOfDay (t : Instant) : Int := t.second.fmod secondsPerDay

/-- Nanoseconds from one instant to another. A leap second that lies between the two
times of day is counted. -/
def nanosUntil (a b : Instant) : Int :=
  let leap : Int :=
    if a.secondOfDay < b.secondOfDay then (if 10 ^ (9 : Nat) ≤ a.nano then 1 else 0)
    else if b.secondOfDay < a.secondOfDay then (if 10 ^ (9 : Nat) ≤ b.nano then -1 else 0)
    else 0
  (b.second - a.second + leap) * 10 ^ (9 : Nat) + ((b.nano : Int) - (a.nano : Int))

/-- Whole milliseconds from one instant to another, the rest of a millisecond dropped. -/
def millisUntil (a b : Instant) : Int := (a.nanosUntil b).tdiv (10 ^ (6 : Nat))

/-- The instant of a count of milliseconds since the start of 1970. -/
def ofMillis? (millis : Int) : Option Instant :=
  let second := millis.fdiv 1000
  if inCalendar second then some ⟨second, (millis.fmod 1000).toNat * 10 ^ (6 : Nat)⟩ else none

end Instant

end DurableFlow
