import DurableFlow.Time.Instant

/-!
# Fresh ids and moments

Ids that nobody has given are numbered: the serial number stands in the last digits of an
id of the random form, so ids with different serial numbers differ.
-/

namespace DurableFlow

/-- What a step that needs the time or a new id is handed. -/
structure Moment where
  now : Instant
  serial : Nat
deriving DecidableEq, Repr

namespace Id

/-- The hexadecimal digits of a number, at least `width` of them. -/
def hex (width n : Nat) : String :=
  let digits := Nat.toDigits 16 n
  String.ofList (List.replicate (width - digits.length) '0' ++ digits)

/-- The id with a serial number. -/
def fresh (serial : Nat) : String := "00000000-0000-4000-8000-" ++ hex 12 serial

end Id

/-- An id that no other moment gives. -/
def Moment.freshId (moment : Moment) : String := Id.fresh moment.serial

end DurableFlow
