import DurableFlow.Source.Basic

/-!
# Reading compact notation

The reader of objects, arrays, strings, numbers and the three words, with blanks
between them. It never fails: what cannot be read is part of the result, in the
place where reading stopped.

A float is read in two roundings: the leading digits, up to the largest integer of
64 bits, are rounded to a float, which is then multiplied or divided by powers of
ten that each round once more.
-/

namespace DurableFlow

namespace Source

namespace Reader

def isBlank (c : Char) : Bool := c == ' ' || c == '\n' || c == '\t' || c == '\r'

/-- The text after leading blanks. -/
def skipBlanks (cs : List Char) : List Char := cs.dropWhile isBlank

/-- A part that was read with the text after it, or the fault that prevented it. -/
abbrev Part (α : Type) := Except TextFault (α × List Char)

/-- The value of a hexadecimal digit. -/
def hexValue? (c : Char) : Option Nat :=
  if c.isDigit then some (c.toNat - '0'.toNat)
  else if 'a' ≤ c ∧ c ≤ 'f' then some (c.toNat - 'a'.toNat + 10)
  else if 'A' ≤ c ∧ c ≤ 'F' then some (c.toNat - 'A'.toNat + 10)
  else none

/-- The code unit written as four hexadecimal digits. -/
def codeUnit : List Char → Except TextFault (Nat × List Char)
  | a :: b :: c :: d :: rest =>
    match hexValue? a, hexValue? b, hexValue? c, hexValue? d with
    | some a, some b, some c, some d => .ok (((a * 16 + b) * 16 + c) * 16 + d, rest)
    | _, _, _, _ => .error .malformed
  | _ => .error .truncated

/-- The second half of a character that is written as two code units. -/
def lowSurrogate : List Char → Except TextFault (Nat × List Char)
  | [] => .error .truncated
  | '\\' :: [] => .error .truncated
  | '\\' :: 'u' :: rest => do
    let (unit, rest) ← codeUnit rest
    if 0xDC00 ≤ unit ∧ unit ≤ 0xDFFF then .ok (unit, rest) else .error .malformed
  | _ => .error .malformed

/-- The character that follows a backslash. -/
def escaped : List Char → Except TextFault (Char × List Char)
  | [] => .error .truncated
  | '"' :: rest => .ok ('"', rest)
  | '\\' :: rest => .ok ('\\', rest)
  | '/' :: rest => .ok ('/', rest)
  | 'b' :: rest => .ok (Char.ofNat 8, rest)
  | 'f' :: rest => .ok (Char.ofNat 12, rest)
  | 'n' :: rest => .ok ('\n', rest)
  | 'r' :: rest => .ok ('\r', rest)
  | 't' :: rest => .ok ('\t', rest)
  | 'u' :: rest => do
    let (unit, rest) ← codeUnit rest
    if 0xDC00 ≤ unit ∧ unit ≤ 0xDFFF then .error .malformed
    else if 0xD800 ≤ unit ∧ unit ≤ 0xDBFF then
      let (low, rest) ← lowSurrogate rest
      .ok (Char.ofNat (0x10000 + (unit - 0xD800) * 0x400 + (low - 0xDC00)), rest)
    else .ok (Char.ofNat unit, rest)
  | _ => .error .malformed

/-- The rest of a string after its opening quote; `done` holds what was read, reversed. -/
def string (fuel : Nat) (done : List Char) (cs : List Char) :
    Except TextFault (String × List Char) :=
  match fuel with
  | 0 => .error .truncated
  | fuel + 1 =>
    match cs with
    | [] => .error .truncated
    | '"' :: rest => .ok (String.ofList done.reverse, rest)
    | '\\' :: rest => do
      let (c, rest) ← escaped rest
      string fuel (c :: done) rest
    | c :: rest => if c.toNat < 32 then .error .malformed else string fuel (c :: done) rest

/-- Multiply or divide by a power of ten in steps that the format can hold; none when
the value leaves it. -/
def scaleByTen (fuel : Nat) (x : Binary64) (scale : Int) : Option Binary64 :=
  match fuel with
  | 0 => none
  | fuel + 1 =>
    if scale.natAbs ≤ 308 then do
      let power ← Binary64.ofDecimal false 1 scale.natAbs
      if 0 ≤ scale then x.mul power else x.div power
    else if x.isZero then some x
    else if 0 ≤ scale then none
    else do
      let power ← Binary64.ofDecimal false 1 308
      let y ← x.div power
      if y.isZero then some y else scaleByTen fuel y (scale + 308)

/-- The float that a significand of 64 bits and a power of ten stand for. -/
def float (negative : Bool) (significand : Nat) (scale : Int) : Source :=
  match scaleByTen 8 (.ofInt significand) scale with
  | some x => .num (.float (if negative then x.neg else x))
  | none => .huge

def digitValue (c : Char) : Nat := c.toNat - '0'.toNat

/-- Append digits to a significand while it stays within 64 bits. Gives the
significand, the count of digits taken in, and what is left. -/
def significandDigits (significand taken : Nat) : List Char → Nat × Nat × List Char
  | [] => (significand, taken, [])
  | c :: rest =>
    if c.isDigit ∧ significand * 10 + digitValue c < 2 ^ (64 : Nat) then
      significandDigits (significand * 10 + digitValue c) (taken + 1) rest
    else (significand, taken, c :: rest)

/-- The exponent after its letter. -/
def exponent (negative : Bool) (significand : Nat) (scale : Int) (cs : List Char) :
    Part Source :=
  let (down, cs) :=
    match cs with
    | '+' :: rest => (false, rest)
    | '-' :: rest => (true, rest)
    | _ => (false, cs)
  match cs with
  | [] => .error .truncated
  | c :: _ =>
    if c.isDigit then
      let digits := cs.takeWhile Char.isDigit
      let size := digits.foldl (fun n d => n * 10 + digitValue d) 0
      let rest := cs.dropWhile Char.isDigit
      if size < 2 ^ (31 : Nat) then
        .ok (float negative significand (if down then scale - size else scale + size), rest)
      else if significand ≠ 0 ∧ !down then .ok (.huge, rest)
      else .ok (.num (.float (.zero negative)), rest)
    else .error .malformed

/-- What may follow the digits of a number that is a float. -/
def afterDigits (negative : Bool) (significand : Nat) (scale : Int) (cs : List Char) :
    Part Source :=
  match cs with
  | 'e' :: rest => exponent negative significand scale rest
  | 'E' :: rest => exponent negative significand scale rest
  | _ => .ok (float negative significand scale, cs)

/-- The fraction after its point; digits beyond the significand are dropped. -/
def fraction (negative : Bool) (significand : Nat) (scale : Int) (cs : List Char) :
    Part Source :=
  match cs with
  | [] => .error .truncated
  | c :: _ =>
    if c.isDigit then
      let (significand, taken, rest) := significandDigits significand 0 cs
      afterDigits negative significand (scale - taken) (rest.dropWhile Char.isDigit)
    else .error .malformed

/-- A number after its sign. -/
def number (negative : Bool) (cs : List Char) : Part Source :=
  let finish (significand : Nat) (rest : List Char) : Part Source :=
    match rest with
    | '.' :: rest => fraction negative significand 0 rest
    | 'e' :: rest => exponent negative significand 0 rest
    | 'E' :: rest => exponent negative significand 0 rest
    | _ =>
      if !negative then .ok (.num (.int significand), rest)
      else if significand = 0 ∨ significand > 2 ^ (63 : Nat) then
        .ok (.num (.float (Binary64.ofInt significand).neg), rest)
      else .ok (.num (.int (-(significand : Int))), rest)
  match cs with
  | [] => .error .truncated
  | '0' :: rest =>
    match rest with
    | c :: _ => if c.isDigit then .error .malformed else finish 0 rest
    | [] => finish 0 rest
  | c :: _ =>
    if c.isDigit then
      let (significand, _, rest) := significandDigits 0 0 cs
      let more := (rest.takeWhile Char.isDigit).length
      if more = 0 then finish significand rest
      else
        match rest.dropWhile Char.isDigit with
        | '.' :: rest => fraction negative significand more rest
        | rest => afterDigits negative significand more rest
    else .error .malformed

/-- The letters of a word, one after another. -/
def word (letters : List Char) (cs : List Char) : Except TextFault (List Char) :=
  match letters, cs with
  | [], cs => .ok cs
  | _ :: _, [] => .error .truncated
  | l :: letters, c :: cs => if l = c then word letters cs else .error .malformed

/-- A value with the text after it. A value in which reading stopped has no text after it. -/
abbrev Read := Source × Option (List Char)

def ofPart : Part Source → Read
  | .ok (v, rest) => (v, some rest)
  | .error why => (.broken why, none)

def ofWord (v : Source) : Except TextFault (List Char) → Read
  | .ok rest => (v, some rest)
  | .error why => (.broken why, none)

mutual

/-- A value that may hold at most `depth` further levels. -/
def value (fuel : Nat) (depth : Nat) (cs : List Char) : Read :=
  match fuel with
  | 0 => (.broken .truncated, none)
  | fuel + 1 =>
    match skipBlanks cs with
    | [] => (.broken .truncated, none)
    | 'n' :: rest => ofWord .null (word ['u', 'l', 'l'] rest)
    | 't' :: rest => ofWord (.bool true) (word ['r', 'u', 'e'] rest)
    | 'f' :: rest => ofWord (.bool false) (word ['a', 'l', 's', 'e'] rest)
    | '-' :: rest => ofPart (number true rest)
    | '"' :: rest => ofPart ((string (rest.length + 1) [] rest).map fun (s, rest) => (.str s, rest))
    | '[' :: rest =>
      if depth ≤ 1 then (.broken .malformed, none) else items fuel (depth - 1) [] rest
    | '\x7b' :: rest =>
      if depth ≤ 1 then (.broken .malformed, none) else fields fuel (depth - 1) [] rest
    | c :: rest =>
      if c.isDigit then ofPart (number false (c :: rest)) else (.broken .malformed, none)

/-- The items of an array after those in `done`, which holds them reversed. -/
def items (fuel : Nat) (depth : Nat) (done : List Source) (cs : List Char) : Read :=
  match fuel with
  | 0 => (.arr done.reverse (some .truncated), none)
  | fuel + 1 =>
    let stop (why : TextFault) : Read := (.arr done.reverse (some why), none)
    let item (cs : List Char) : Read :=
      match value fuel depth cs with
      | (v, some rest) => items fuel depth (v :: done) rest
      | (v, none) => (.arr (v :: done).reverse none, none)
    match skipBlanks cs, done with
    | [], _ => stop .truncated
    | ']' :: rest, _ => (.arr done.reverse none, some rest)
    | cs, [] => item cs
    | ',' :: rest, _ :: _ =>
      match skipBlanks rest with
      | [] => stop .truncated
      | ']' :: _ => stop .malformed
      | rest => item rest
    | _, _ :: _ => stop .malformed

/-- The fields of an object after those in `done`, which holds them reversed. -/
def fields (fuel : Nat) (depth : Nat) (done : List (String × Source)) (cs : List Char) : Read :=
  match fuel with
  | 0 => (.obj done.reverse (some .truncated), none)
  | fuel + 1 =>
    let stop (why : TextFault) : Read := (.obj done.reverse (some why), none)
    let field (cs : List Char) : Read :=
      match cs with
      | [] => stop .truncated
      | '"' :: rest =>
        match string (rest.length + 1) [] rest with
        | .error why => stop why
        | .ok (name, rest) =>
          match skipBlanks rest with
          | [] => (.obj ((name, .broken .truncated) :: done).reverse none, none)
          | ':' :: rest =>
            match value fuel depth rest with
            | (v, some rest) => fields fuel depth ((name, v) :: done) rest
            | (v, none) => (.obj ((name, v) :: done).reverse none, none)
          | _ => (.obj ((name, .broken .malformed) :: done).reverse none, none)
      | _ => stop .malformed
    match skipBlanks cs, done with
    | [], _ => stop .truncated
    | '\x7d' :: rest, _ => (.obj done.reverse none, some rest)
    | cs, [] => field cs
    | ',' :: rest, _ :: _ => field (skipBlanks rest)
    | _, _ :: _ => stop .malformed

end

/-- How many levels a text may nest. -/
def maxDepth : Nat := 128

end Reader

/-- Read a whole text: one value, with only blanks after it. The second part is the
fault that a decoder meets once it is through with the value. -/
def read (text : String) : Source × Option TextFault :=
  let cs := text.toList
  match Reader.value (2 * cs.length + 2) Reader.maxDepth cs with
  | (v, some rest) =>
    (v, match Reader.skipBlanks rest with
      | [] => none
      | _ :: _ => some .malformed)
  | (v, none) => (v, none)

end Source

end DurableFlow
