import DurableFlow.Data.Compact
import DurableFlow.Expr.Token

/-!
# Expressions

The trees of condition, switch and filter expressions, and what can go wrong with one.
-/

namespace DurableFlow

/-- A step of a path into data. -/
inductive Segment where
  | key (name : String)
  | index (position : Nat)
deriving DecidableEq, Repr

/-- Operators between two operands. -/
inductive BinaryOp where
  | and
  | or
  | eq
  | notEq
  | lt
  | ltEq
  | gt
  | gtEq
  | isIn
deriving DecidableEq, Repr

/-- An expression. -/
inductive Expr where
  | literal (value : Data)
  | path (head : String) (rest : List Segment)
  | not (operand : Expr)
  | negate (operand : Expr)
  | binary (left : Expr) (op : BinaryOp) (right : Expr)
deriving DecidableEq, Repr

/-- What a parser looks for where it finds something else. -/
inductive Wanted where
  | finish
  | closeParen
  | value
  | propertyName
  | indexOrKey
  | closeBracket
deriving DecidableEq, Repr

def Wanted.message : Wanted → String
  | finish => "end of expression"
  | closeParen => "')'"
  | value => "a value"
  | propertyName => "a property name"
  | indexOrKey => "an index or quoted key"
  | closeBracket => "']'"

/-- What can go wrong with an expression. -/
inductive ExprError where
  /-- No token starts at the character at this position. -/
  | lexical (position : Nat) (fault : Expr.LexFault)
  /-- After this many tokens another one was looked for. -/
  | unexpected (position : Nat) (wanted : Wanted) (found : Expr.Token)
  /-- Only a number can be negated. -/
  | notANumber (value : Data)
deriving DecidableEq, Repr

namespace ExprError

/-- Where a text stops being an expression. -/
def position? : ExprError → Option Nat
  | lexical position _ => some position
  | unexpected position _ _ => some position
  | notANumber _ => none

def message : ExprError → String
  | lexical position fault =>
    "syntax error at " ++ toString position ++ ": " ++ fault.message
  | unexpected position wanted found =>
    "syntax error at " ++ toString position ++ ": expected " ++ wanted.message ++
      ", found " ++ found.shown
  | notANumber value => "cannot negate " ++ value.compact

end ExprError

end DurableFlow
