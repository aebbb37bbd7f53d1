import DurableFlow.Text.Letters
import DurableFlow.Time.Instant

/-!
# RFC 3339 text of instants

Instants are written with as many fraction digits as they need, in groups of three.
Two readers are given: the strict one takes the standard's form alone, the lenient
one also takes single digits, signed years and blanks between the parts.
-/

namespace DurableFlow

/-- Why a text is no instant. -/
inductive TimeFault where
  | outOfRange
  | invalid
  | tooShort
  | trailing
deriving DecidableEq, Repr

namespace TimeFault

def message : TimeFault → String
  | outOfRange => "input is out of range"
  | invalid => "input contains invalid characters"
  | tooShort => "premature end of input"
  | trailing => "trailing input"

end TimeFault

namespace Instant

/-- A number with zeros before it up to a width. -/
def padded (width n : Nat) : String :=
  let digits := toString n
  String.ofList (List.replicate (width - digits.length) '0') ++ digits

/-- Years outside four digits carry a sign. -/
def yearText (year : Int) : String :=
  if 0 ≤ year ∧ year ≤ 9999 then padded 4 year.toNat
  else (if year < 0 then "-" else "+") ++ padded 4 year.natAbs

/-- A fraction of a second in groups of three digits, no more than needed. -/
def fractionText (nano : Nat) : String :=
  if nano = 0 then ""
  else if nano % 10 ^ (6 : Nat) = 0 then "." ++ padded 3 (nano / 10 ^ (6 : Nat))
  else if nano % 10 ^ (3 : Nat) = 0 then "." ++ padded 6 (nano / 10 ^ (3 : Nat))
  else "." ++ padded 9 nano

/-- The date and time without an offset. -/
def localText (t : Instant) : String :=
  let days := t.second.fdiv secondsPerDay
  let rest := (t.second - days * secondsPerDay).toNat
  let date := CivilDate.ofDays days
  let leap := t.nano / 10 ^ (9 : Nat)
  yearText date.year ++ "-" ++ padded 2 date.month ++ "-" ++ padded 2 date.day ++ "T" ++
    padded 2 (rest / 3600) ++ ":" ++ padded 2 (rest / 60 % 60) ++ ":" ++
    padded 2 (rest % 60 + leap) ++ fractionText (t.nano % 10 ^ (9 : Nat))

/-- The text with the letter for universal time. -/
def zuluText (t : Instant) : String := t.localText ++ "Z"

/-- The text with the offset of universal time. -/
def offsetText (t : Instant) : String := t.localText ++ "+00:00"

namespace Reader

/-- What a reader of one part gives: its value and the text after it. -/
abbrev Part (α : Type) := Except TimeFault (α × List Char)

/-- The largest number that a reader holds. -/
def maxNumber : Nat := 2 ^ (63 : Nat) - 1

/-- A number of at least `least` digits, at most `most` of which are taken. -/
def number (least most : Nat) (cs : List Char) : Except TimeFault (Nat × List Char) :=
  if (String.ofList cs).utf8ByteSize < least then .error .tooShort
  else
    let digits := (cs.take most).takeWhile Char.isDigit
    if digits.length < least then .error .invalid
    else
      let n := digits.foldl (fun n d => n * 10 + (d.toNat - '0'.toNat)) 0
      if n > maxNumber then .error .outOfRange else .ok (n, cs.drop digits.length)

/-- A given character. -/
def char (c : Char) (cs : List Char) : Except TimeFault (List Char) :=
  match cs with
  | [] => .error .tooShort
  | d :: rest => if d = c then .ok rest else .error .invalid

/-- A fraction after its point, scaled to nanoseconds; digits beyond them are skipped. -/
def fraction (cs : List Char) : Except TimeFault (Nat × List Char) := do
  let (n, rest) ← number 1 9 cs
  let taken := cs.length - rest.length
  .ok (n * 10 ^ (9 - taken), rest.dropWhile Char.isDigit)

/-- A fraction if a point announces one. -/
def fraction? (cs : List Char) : Except TimeFault (Nat × List Char) :=
  match cs with
  | '.' :: rest => fraction rest
  | _ => .ok (0, cs)

/-- The two digits of a part of an offset. -/
def twoDigits : List Char → Except TimeFault (Char × Char × List Char)
  | a :: b :: rest => .ok (a, b, rest)
  | _ => .error .tooShort

/-- The seconds that an offset stands for, `separate` reading what stands between
hours and minutes. -/
def offset (separate : List Char → Except TimeFault (List Char)) (cs : List Char) :
    Except TimeFault (Int × List Char) :=
  match cs with
  | [] => .error .tooShort
  | c :: rest =>
    if c = 'Z' ∨ c = 'z' then .ok (0, rest)
    else if c = '+' ∨ c = '-' ∨ c = Char.ofNat 0x2212 then do
      let (a, b, rest) ← twoDigits rest
      if !(a.isDigit && b.isDigit) then .error .invalid
      else
        let hours := (a.toNat - 48) * 10 + (b.toNat - 48)
        let rest ← separate rest
        let (a, b, rest) ← twoDigits rest
        if !(a.isDigit && b.isDigit) then .error .invalid
        else if '6' ≤ a then .error .outOfRange
        else
          let minutes := (a.toNat - 48) * 10 + (b.toNat - 48)
          let seconds : Int := hours * 3600 + minutes * 60
          .ok (if c = '+' then seconds else -seconds, rest)
    else .error .invalid

/-- The parts of a date and time as they are written. -/
structure Parts where
  year : Int
  month : Nat
  day : Nat
  hour : Nat
  minute : Nat
  second : Nat
  nano : Nat
  offset : Int

/-- A part within its bounds. -/
def bounded (low high : Nat) (n : Nat) : Except TimeFault Unit :=
  if low ≤ n ∧ n ≤ high then .ok () else .error .outOfRange

/-- The instant that the parts name, if they name one. A sixtieth second is a leap second. -/
def Parts.resolve (p : Parts) : Except TimeFault Instant :=
  let date : CivilDate := ⟨p.year, p.month, p.day⟩
  if ¬date.Valid then .error .outOfRange
  else if p.offset.natAbs ≥ 86400 then .error .outOfRange
  else
    let (second, nano) :=
      if p.second = 60 then (59, p.nano + 10 ^ (9 : Nat)) else (p.second, p.nano)
    let civil := date.toDays * secondsPerDay + (p.hour * 3600 + p.minute * 60 + second : Nat)
    let second := civil - p.offset
    if inCalendar second then .ok ⟨second, nano⟩ else .error .outOfRange

/-- The mark between date and time. -/
def betweenDateAndTime : List Char → Except TimeFault (List Char)
  | [] => .error .tooShort
  | c :: rest => if c = 't' ∨ c = 'T' ∨ c = ' ' then .ok rest else .error .invalid

def skipBlanks (cs : List Char) : List Char := cs.dropWhile Text.isBlank

/-- The year of the lenient form: four digits, or any number after a sign. -/
def lenientYear (cs : List Char) : Except TimeFault (Int × List Char) := do
  match skipBlanks cs with
  | '-' :: rest => do
    let (n, rest) ← number 1 (rest.length + 1) rest
    year (-(n : Int)) rest
  | '+' :: rest => do
    let (n, rest) ← number 1 (rest.length + 1) rest
    year n rest
  | cs => do
    let (n, rest) ← number 1 4 cs
    year n rest
where
  /-- Years fit 32 bits. -/
  year (y : Int) (rest : List Char) : Except TimeFault (Int × List Char) :=
    if -(2 ^ (31 : Nat)) ≤ y ∧ y < 2 ^ (31 : Nat) then .ok (y, rest) else .error .outOfRange

/-- A part of the lenient form: at most two digits after blanks, within bounds. -/
def lenientPart (low high : Nat) (cs : List Char) : Except TimeFault (Nat × List Char) := do
  let (n, rest) ← number 1 2 (skipBlanks cs)
  bounded low high n
  .ok (n, rest)

/-- The offset of the lenient form, which may be spelled as the letters of universal time. -/
def lenientOffset (cs : List Char) : Except TimeFault (Int × List Char) :=
  match cs with
  | a :: b :: c :: rest =>
    if a.toUpper = 'U' ∧ b.toUpper = 'T' ∧ c.toUpper = 'C' then .ok (0, rest)
    else offset separate cs
  | _ => offset separate cs
where
  /-- Colons and blanks may stand between hours and minutes. -/
  separate (cs : List Char) : Except TimeFault (List Char) :=
    .ok (cs.dropWhile fun c => c = ':' || Text.isBlank c)

end Reader

open Reader in
/-- Read a date of the lenient form. -/
def readDate (cs : List Char) : Except TimeFault (CivilDate × List Char) := do
  let (year, cs) ← lenientYear cs
  let cs ← char '-' (skipBlanks cs)
  let (month, cs) ← lenientPart 1 12 cs
  let cs ← char '-' (skipBlanks cs)
  let (day, cs) ← lenientPart 1 31 cs
  .ok (⟨year, month, day⟩, cs)

open Reader in
/-- Read a date and time of the lenient form, as far as they are written without an offset. -/
def readLocal (cs : List Char) : Except TimeFault (Parts × List Char) := do
  let (date, cs) ← readDate cs
  let cs ← betweenDateAndTime cs
  let (hour, cs) ← lenientPart 0 23 cs
  let cs ← char ':' (skipBlanks cs)
  let (minute, cs) ← lenientPart 0 59 cs
  let cs ← char ':' (skipBlanks cs)
  let (second, cs) ← lenientPart 0 60 cs
  let (nano, cs) ← fraction? cs
  .ok (⟨date.year, date.month, date.day, hour, minute, second, nano, 0⟩, cs)

open Reader in
/-- Read the lenient form: the instant, and the offset that it is written with. -/
def parseWithOffset (text : String) : Except TimeFault (Instant × Int) := do
  let (parts, cs) ← readLocal text.toList
  let (offset, cs) ← lenientOffset (skipBlanks cs)
  if (skipBlanks cs).isEmpty then
    let instant ← Parts.resolve { parts with offset }
    .ok (instant, offset)
  else .error .trailing

/-- Read the lenient form. -/
def parse (text : String) : Except TimeFault Instant :=
  match parseWithOffset text with
  | .ok (instant, _) => .ok instant
  | .error e => .error e

open Reader in
/-- Read a date and time without an offset as one of universal time. -/
def parseLocal (text : String) : Except TimeFault Instant := do
  let (parts, cs) ← readLocal text.toList
  if (skipBlanks cs).isEmpty then parts.resolve else .error .trailing

open Reader in
/-- Read a date as its first second. -/
def parseDate (text : String) : Except TimeFault Instant := do
  let (date, cs) ← readDate text.toList
  if cs.isEmpty then Parts.resolve ⟨date.year, date.month, date.day, 0, 0, 0, 0, 0⟩
  else .error .trailing

open Reader in
/-- Read the standard's form alone. -/
def parseStrict (text : String) : Except TimeFault Instant := do
  let (year, cs) ← number 4 4 text.toList
  let cs ← char '-' cs
  let (month, cs) ← number 2 2 cs
  bounded 1 12 month
  let cs ← char '-' cs
  let (day, cs) ← number 2 2 cs
  bounded 1 31 day
  let cs ← betweenDateAndTime cs
  let (hour, cs) ← number 2 2 cs
  bounded 0 23 hour
  let cs ← char ':' cs
  let (minute, cs) ← number 2 2 cs
  bounded 0 59 minute
  let cs ← char ':' cs
  let (second, cs) ← number 2 2 cs
  bounded 0 60 second
  let (nano, cs) ← fraction? cs
  let (offset, cs) ← offset (char ':') cs
  if cs.isEmpty then
    Parts.resolve ⟨year, month, day, hour, minute, second, nano, offset⟩
  else .error .trailing

end Instant

end DurableFlow
