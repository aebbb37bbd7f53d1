import DurableFlow.Time.Rfc3339

/-!
# Layouts of dates

A layout is a text with directives in it: a percent sign, perhaps a mark for the padding,
and the letter of a part of the date. The date is shown as it stands at an offset from
universal time, or without any offset.
-/

namespace DurableFlow

namespace Layout

/-- What a number is filled up with. -/
inductive Padding where
  | nothing
  | zeros
  | blanks
deriving DecidableEq, Repr

/-- What a directive stands for. -/
inductive Item where
  | text (text : String)
  | number (value : Int) (width : Nat) (padding : Padding)

/-- A date and time at an offset, or without one. -/
structure Shown where
  instant : Instant
  offset : Option Int

namespace Shown

/-- The second of the calendar on the wall. -/
def second (t : Shown) : Int := t.instant.second + t.offset.getD 0

def days (t : Shown) : Int := t.second.fdiv Instant.secondsPerDay

def date (t : Shown) : CivilDate := CivilDate.ofDays t.days

def secondOfDay (t : Shown) : Nat := (t.second.fmod Instant.secondsPerDay).toNat

def hour (t : Shown) : Nat := t.secondOfDay / 3600

/-- The hour of a clock that counts to twelve. -/
def hourOfHalf (t : Shown) : Nat := (t.hour + 11) % 12 + 1

def minute (t : Shown) : Nat := t.secondOfDay / 60 % 60

/-- The second of the minute, sixty in a leap second. -/
def secondOfMinute (t : Shown) : Nat := t.secondOfDay % 60 + t.instant.nano / 10 ^ (9 : Nat)

def nano (t : Shown) : Nat := t.instant.nano % 10 ^ (9 : Nat)

/-- Days since the last Sunday. -/
def sinceSunday (t : Shown) : Nat := ((t.days + 4).fmod 7).toNat

/-- Days since the last Monday. -/
def sinceMonday (t : Shown) : Nat := ((t.days + 3).fmod 7).toNat

/-- The days of the year before this one. -/
def dayOfYear (t : Shown) : Nat := (t.days - CivilDate.toDays ⟨t.date.year, 1, 1⟩).toNat

/-- The year and number of the week by its Thursday. -/
def isoWeek (t : Shown) : Int × Nat :=
  let thursday := t.days - t.sinceMonday + 3
  let year := (CivilDate.ofDays thursday).year
  (year, ((thursday - CivilDate.toDays ⟨year, 1, 1⟩).toNat) / 7 + 1)

end Shown

def weekdays : List String :=
  ["Sunday", "Monday", "Tuesday", "Wednesday", "Thursday", "Friday", "Saturday"]

def months : List String :=
  ["January", "February", "March", "April", "May", "June", "July", "August", "September",
    "October", "November", "December"]

/-- The first three letters of a name. -/
def short (name : String) : String := (name.take 3).toString

/-- A number with what it is filled up with. -/
def numberText (value : Int) (width : Nat) (padding : Padding) : String :=
  let sign := if value < 0 then "-" else ""
  let digits := toString value.natAbs
  let missing := width - (sign.length + digits.length)
  match padding with
  | .nothing => sign ++ digits
  | .zeros => sign ++ String.ofList (List.replicate missing '0') ++ digits
  | .blanks => String.ofList (List.replicate missing ' ') ++ sign ++ digits

def Item.write : Item → String
  | .text s => s
  | .number value width padding => numberText value width padding

/-- An offset with hours and minutes, `between` standing between them. -/
def offsetText (between : String) (offset : Int) : String :=
  let minutes := offset.natAbs / 60
  (if offset < 0 then "-" else "+") ++ Instant.padded 2 (minutes / 60) ++ between ++
    Instant.padded 2 (minutes % 60)

/-- A year, which has a sign outside four digits. -/
def yearItem (year : Int) : Item :=
  if 0 ≤ year ∧ year ≤ 9999 then .number year 4 .zeros else .text (Instant.yearText year)

def twoDigits (n : Nat) : Item := .number n 2 .zeros

/-- The directives of one letter that stand for one part of a date or time. -/
def part? (t : Shown) (letter : Char) : Option Item :=
  match letter with
  | 'Y' => some (yearItem t.date.year)
  | 'C' => some (.number (t.date.year.fdiv 100) 2 .zeros)
  | 'y' => some (.number (t.date.year.fmod 100) 2 .zeros)
  | 'm' => some (twoDigits t.date.month)
  | 'd' => some (twoDigits t.date.day)
  | 'e' => some (.number t.date.day 2 .blanks)
  | 'B' => some (.text (months.getD (t.date.month - 1) ""))
  | 'b' | 'h' => some (.text (short (months.getD (t.date.month - 1) "")))
  | 'A' => some (.text (weekdays.getD t.sinceSunday ""))
  | 'a' => some (.text (short (weekdays.getD t.sinceSunday "")))
  | 'w' => some (.number t.sinceSunday 1 .zeros)
  | 'u' => some (.number (t.sinceMonday + 1) 1 .zeros)
  | 'U' => some (twoDigits ((t.dayOfYear + 7 - t.sinceSunday) / 7))
  | 'W' => some (twoDigits ((t.dayOfYear + 7 - t.sinceMonday) / 7))
  | 'G' => some (yearItem t.isoWeek.1)
  | 'g' => some (.number (t.isoWeek.1.fmod 100) 2 .zeros)
  | 'V' => some (twoDigits t.isoWeek.2)
  | 'j' => some (.number (t.dayOfYear + 1) 3 .zeros)
  | 'H' => some (twoDigits t.hour)
  | 'k' => some (.number t.hour 2 .blanks)
  | 'I' => some (twoDigits t.hourOfHalf)
  | 'l' => some (.number t.hourOfHalf 2 .blanks)
  | 'P' => some (.text (if t.hour < 12 then "am" else "pm"))
  | 'p' => some (.text (if t.hour < 12 then "AM" else "PM"))
  | 'M' => some (twoDigits t.minute)
  | 'S' => some (twoDigits t.secondOfMinute)
  | 'f' => some (.number t.nano 9 .zeros)
  | 's' => some (.number t.instant.second 1 .nothing)
  | 'Z' => t.offset.map fun offset => .text (offsetText ":" offset)
  | 'z' => t.offset.map fun offset => .text (offsetText "" offset)
  | 't' => some (.text "\t")
  | 'n' => some (.text "\n")
  | '%' => some (.text "%")
  | _ => none

/-- The layouts that one letter stands for. -/
def abbreviation? (letter : Char) : Option String :=
  match letter with
  | 'D' | 'x' => some "%m/%d/%y"
  | 'F' => some "%Y-%m-%d"
  | 'v' => some "%e-%b-%Y"
  | 'R' => some "%H:%M"
  | 'T' | 'X' => some "%H:%M:%S"
  | 'r' => some "%I:%M:%S %p"
  | 'c' => some "%a %b %e %H:%M:%S %Y"
  | '+' => some "%Y-%m-%dT%H:%M:%S%.f%:z"
  | _ => none

/-- The digits of a fraction, cut off after a number of them. -/
def fractionDigits (t : Shown) (count : Nat) : String :=
  Instant.padded count (t.nano / 10 ^ (9 - count))

/-- The directives of several letters and marks: what they stand for, and what follows. -/
def marked? (t : Shown) (cs : List Char) : Option (String × List Char) :=
  match cs with
  | '.' :: 'f' :: rest => some (Instant.fractionText t.nano, rest)
  | '.' :: '3' :: 'f' :: rest => some ("." ++ fractionDigits t 3, rest)
  | '.' :: '6' :: 'f' :: rest => some ("." ++ fractionDigits t 6, rest)
  | '.' :: '9' :: 'f' :: rest => some ("." ++ fractionDigits t 9, rest)
  | '3' :: 'f' :: rest => some (fractionDigits t 3, rest)
  | '6' :: 'f' :: rest => some (fractionDigits t 6, rest)
  | '9' :: 'f' :: rest => some (fractionDigits t 9, rest)
  | ':' :: 'z' :: rest => t.offset.map fun offset => (offsetText ":" offset, rest)
  | _ => none

/-- The padding that a mark asks for. -/
def padding? (mark : Char) : Option Padding :=
  match mark with
  | '-' => some .nothing
  | '_' => some .blanks
  | '0' => some .zeros
  | _ => none

/-- Write a date by a layout, none if the layout has a directive that there is not. -/
def write? (fuel : Nat) (t : Shown) (cs : List Char) : Option String :=
  match fuel, cs with
  | 0, _ => none
  | _, [] => some ""
  | fuel + 1, '%' :: cs =>
    match marked? t cs with
    | some (text, rest) => (write? fuel t rest).map (text ++ ·)
    | none =>
      match cs with
      | [] => none
      | mark :: rest =>
        match padding? mark, rest with
        | some padding, letter :: rest =>
          match part? t letter with
          | some (.number value width _) =>
            (write? fuel t rest).map (numberText value width padding ++ ·)
          | _ => none
        | some _, [] => none
        | none, rest =>
          match part? t mark, abbreviation? mark with
          | some item, _ => (write? fuel t rest).map (item.write ++ ·)
          | none, some layout => write? fuel t (layout.toList ++ rest)
          | none, none => none
  | fuel + 1, c :: cs => (write? fuel t cs).map (c.toString ++ ·)

end Layout

/-- A date by a layout. A directive stands for a layout of no more than eight others. -/
def Layout.Shown.text? (t : Layout.Shown) (layout : String) : Option String :=
  Layout.write? (32 * layout.length + 1) t layout.toList

end DurableFlow
