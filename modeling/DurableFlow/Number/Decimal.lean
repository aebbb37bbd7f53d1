import DurableFlow.Number.Binary64

/-!
# Decimal text of binary64 numbers

The decimal of a number has the fewest digits that still read back as the number,
and of those the nearest. A `Layout` says how its digits are set: where positional
notation ends and what a whole number looks like.
-/

namespace DurableFlow

/-- The number `digits * 10 ^ scale`. -/
structure Decimal where
  digits : Nat
  scale : Int
deriving DecidableEq, Repr

namespace Decimal

/-- Move trailing zeros of the digits into the scale. -/
def trim (fuel : Nat) (d : Decimal) : Decimal :=
  match fuel with
  | 0 => d
  | fuel + 1 =>
    if d.digits % 10 = 0 ∧ d.digits ≠ 0 then trim fuel ⟨d.digits / 10, d.scale + 1⟩ else d

end Decimal

namespace Binary64

/-- `a * 10 ^ s ≤ b * 2 ^ t`, decided on integers. -/
def scaledLe (a : Nat) (s : Int) (b : Nat) (t : Int) : Bool :=
  a * 10 ^ s.toNat * 2 ^ (-t).toNat ≤ b * 2 ^ t.toNat * 10 ^ (-s).toNat

/-- `a * 10 ^ s < b * 2 ^ t`, decided on integers. -/
def scaledLt (a : Nat) (s : Int) (b : Nat) (t : Int) : Bool :=
  a * 10 ^ s.toNat * 2 ^ (-t).toNat < b * 2 ^ t.toNat * 10 ^ (-s).toNat

/-- The greatest `k` with `10 ^ k` not above a positive number. -/
def floorLog10 (x : Binary64) : Int :=
  let guess := (((x.mantissa.log2 : Int) + x.exponent) * 30103).fdiv 100000
  let low := if scaledLe 1 guess x.mantissa x.exponent then guess else guess - 1
  if scaledLe 1 (low + 1) x.mantissa x.exponent then low + 1 else low

/-- Whether `d * 10 ^ s` rounds to the positive number `x`: it lies between the two
midpoints to the neighbours of `x`, which belong to `x` when its mantissa is even. -/
def covers (x : Binary64) (d : Nat) (s : Int) : Bool :=
  let quarter := x.exponent - 2
  let high := 4 * x.mantissa + 2
  let low :=
    if x.mantissa = 2 ^ (52 : Nat) ∧ x.exponent > minExponent then 4 * x.mantissa - 1
    else 4 * x.mantissa - 2
  if x.mantissa % 2 = 0 then
    !scaledLt d s low quarter && scaledLe d s high quarter
  else
    !scaledLe d s low quarter && scaledLt d s high quarter

/-- The nearest of the two neighbours of a positive number on the grid of `10 ^ s`
that round to it. -/
def onGrid (x : Binary64) (s : Int) : Option Nat :=
  let num := x.mantissa * 2 ^ x.exponent.toNat * 10 ^ (-s).toNat
  let den := 2 ^ (-x.exponent).toNat * 10 ^ s.toNat
  let below := num / den
  match x.covers below s, x.covers (below + 1) s with
  | true, true => if 2 * (num % den) ≤ den then some below else some (below + 1)
  | true, false => some below
  | false, true => some (below + 1)
  | false, false => none

/-- Try grids of ever more digits, `left` of them at most. -/
def firstGrid (x : Binary64) (s : Int) : (left : Nat) → Decimal
  | 0 => ⟨x.mantissa, x.exponent⟩
  | left + 1 =>
    match x.onGrid s with
    | some d => ⟨d, s⟩
    | none => x.firstGrid (s - 1) left

/-- The decimal with the fewest digits that rounds to the magnitude of the number. -/
def shortest (x : Binary64) : Decimal :=
  if x.mantissa = 0 then ⟨0, 0⟩
  else (x.firstGrid x.floorLog10 18).trim 400

/-- How the digits of a number are set. -/
structure Layout where
  /-- The powers of ten of the leading digit that are written positionally; all when none. -/
  positional : Option (Int × Int)
  /-- What follows a whole number in positional notation. -/
  whole : String
  /-- What stands before a positive exponent. -/
  plus : String

/-- The text of the magnitude in positional notation. -/
def positionalText (digits : String) (scale : Int) (whole : String) : String :=
  let cs := digits.toList
  if 0 ≤ scale then
    digits ++ String.ofList (List.replicate scale.toNat '0') ++ whole
  else
    let point : Int := (cs.length : Int) + scale
    if point ≤ 0 then
      "0." ++ String.ofList (List.replicate (-point).toNat '0') ++ digits
    else
      String.ofList (cs.take point.toNat) ++ "." ++ String.ofList (cs.drop point.toNat)

/-- The text of the magnitude with an exponent. -/
def exponentText (digits : String) (exponent : Int) (plus : String) : String :=
  let cs := digits.toList
  let mantissa :=
    match cs with
    | c :: rest@(_ :: _) => String.ofList (c :: '.' :: rest)
    | _ => digits
  mantissa ++ "e" ++ (if exponent < 0 then "" else plus) ++ toString exponent

/-- The text of a number under a layout. -/
def text (layout : Layout) (x : Binary64) : String :=
  let d := x.shortest
  let digits := toString d.digits
  let exponent := d.scale + (digits.length : Int) - 1
  let body :=
    match layout.positional with
    | some (low, high) =>
      if low ≤ exponent ∧ exponent < high then positionalText digits d.scale layout.whole
      else exponentText digits exponent layout.plus
    | none => positionalText digits d.scale layout.whole
  if x.negative then "-" ++ body else body

end Binary64

end DurableFlow
