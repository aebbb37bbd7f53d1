import DurableFlow.Expr.Parser

/-!
# Evaluating expressions

An expression reads from a scope and changes nothing. A path that leads nowhere is
null. Numbers are compared as floats, whatever form they have, where they are compared
themselves; inside arrays and objects they are compared as data.
-/

namespace DurableFlow

namespace Data

/-- Null, false, zero and whatever is empty count as false. -/
def truthy : Data → Bool
  | .null => false
  | .bool b => b
  | .num n => !n.toBinary64.isZero
  | .str s => !s.isEmpty
  | .arr items => !items.isEmpty
  | .obj fields => !fields.isEmpty

/-- The name of the switch case that a value selects. -/
def caseKey : Data → String
  | .str s => s
  | v => v.compact

/-- Equality in expressions. -/
def looselyEqual : Data → Data → Bool
  | .num a, .num b => a.toBinary64.same b.toBinary64
  | a, b => a.same b

/-- The order of two numbers or two texts. -/
def order? : Data → Data → Option Ordering
  | .num a, .num b => some (a.toBinary64.compare b.toBinary64)
  | .str a, .str b => some (compare a b)
  | _, _ => none

/-- Whether an array has an item, a text a part or an object a field. -/
def holds (whole part : Data) : Bool :=
  match whole with
  | .arr items => items.any fun item => item.looselyEqual part
  | .str s =>
    match part with
    | .str p => Text.occursIn p s
    | _ => false
  | .obj fields =>
    match part with
    | .str name => Fields.contains fields name
    | _ => false
  | _ => false

/-- Take one step into data. -/
def step? (v : Data) : Segment → Option Data
  | .key name => v.field? name
  | .index position => v.item? position

/-- Follow steps into data. -/
def follow? (v : Data) : List Segment → Option Data
  | [] => some v
  | segment :: rest =>
    match v.step? segment with
    | some inner => inner.follow? rest
    | none => none

/-- The sign of a number turned, as a float. -/
def negate (v : Data) : Except ExprError Data :=
  match v with
  | .num n => .ok (.num (.float n.toBinary64.neg))
  | v => .error (.notANumber v)

end Data

namespace BinaryOp

/-- The outcome of an operator on two values. -/
def apply (op : BinaryOp) (left right : Data) : Bool :=
  match op with
  | and => left.truthy && right.truthy
  | or => left.truthy || right.truthy
  | eq => left.looselyEqual right
  | notEq => !left.looselyEqual right
  | lt => left.order? right == some .lt
  | ltEq => left.order? right == some .lt || left.order? right == some .eq
  | gt => left.order? right == some .gt
  | gtEq => left.order? right == some .gt || left.order? right == some .eq
  | isIn => right.holds left

end BinaryOp

namespace Expr

/-- The value of an expression over a scope. The right operand of `&&` and `||` is only
evaluated if the left one does not decide. -/
def eval (scope : Data) : Expr → Except ExprError Data
  | literal value => .ok value
  | path head rest => .ok ((scope.follow? (.key head :: rest)).getD .null)
  | not operand => do
    let value ← eval scope operand
    .ok (.bool !value.truthy)
  | negate operand => do
    let value ← eval scope operand
    value.negate
  | binary left op right => do
    let a ← eval scope left
    match op with
    | .and =>
      if a.truthy then do
        let b ← eval scope right
        .ok (.bool b.truthy)
      else .ok (.bool false)
    | .or =>
      if a.truthy then .ok (.bool true)
      else do
        let b ← eval scope right
        .ok (.bool b.truthy)
    | op => do
      let b ← eval scope right
      .ok (.bool (op.apply a b))

/-- Read an expression and evaluate it. -/
def evaluate (source : String) (scope : Data) : Except ExprError Data := do
  let e ← parse source
  e.eval scope

/-- Whether an expression holds over a scope. -/
def evaluateBool (source : String) (scope : Data) : Except ExprError Bool := do
  let value ← evaluate source scope
  .ok value.truthy

end Expr

end DurableFlow
