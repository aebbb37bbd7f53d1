import DurableFlow.Number.Power

/-!
# Reading bounded integers

Integers of settings are written in decimal, perhaps after a plus sign. Reading stops at
the first character that is no digit or that takes the number over its bound.
-/

namespace DurableFlow

/-- Why a text is no integer within a bound. -/
inductive IntegerFault where
  | empty
  | invalidDigit
  | tooLarge
deriving DecidableEq, Repr

def IntegerFault.message : IntegerFault → String
  | empty => "cannot parse integer from empty string"
  | invalidDigit => "invalid digit found in string"
  | tooLarge => "number too large to fit in target type"

namespace Bounded

/-- Read digits behind a number that is read already. -/
def digits (bound n : Nat) : List Char → Except IntegerFault Nat
  | [] => .ok n
  | c :: rest =>
    if !c.isDigit then .error .invalidDigit
    else
      let n := n * 10 + (c.toNat - '0'.toNat)
      if n < bound then digits bound n rest else .error .tooLarge

/-- Read a natural number below a bound. -/
def nat (bound : Nat) (text : String) : Except IntegerFault Nat :=
  match text.toList with
  | [] => .error .empty
  | ['+'] => .error .invalidDigit
  | '+' :: rest => digits bound 0 rest
  | cs => digits bound 0 cs

/-- Read an integer of 64 bits with a sign. -/
def int64? (text : String) : Option Int :=
  match text.toList with
  | ['-'] => none
  | '-' :: rest => (digits (2 ^ (63 : Nat) + 1) 0 rest).toOption.map fun n => -(n : Int)
  | _ => (nat (2 ^ (63 : Nat)) text).toOption.map fun n => (n : Int)

theorem digits_lt {bound n k : Nat} {cs : List Char} (hn : n < bound)
    (h : digits bound n cs = .ok k) : k < bound := by
  induction cs generalizing n with
  | nil => cases h; exact hn
  | cons c rest ih =>
    unfold digits at h
    split at h
    · simp at h
    · dsimp only at h
      split at h
      · rename_i hlt; exact ih hlt h
      · simp at h

end Bounded

end DurableFlow
