import DurableFlow.Data.Basic

/-!
# Templates

A template is text with tags in it: outputs of expressions, conditions, loops and
assignments. Its expressions have a language of their own, with filters that change a
value and tests that ask about one.
-/

namespace DurableFlow

namespace Template

/-- Why a text could not be filled in. -/
inductive Fault where
  /-- The text is no template. -/
  | unreadable
  /-- The template cannot be filled in from what it was given. -/
  | unfillable
deriving DecidableEq, Repr

def Fault.message : Fault → String
  | unreadable => "Failed to parse template: Failed to parse 'template'"
  | unfillable => "Failed to render template: Failed to render 'template'"

inductive MathOp where
  | add
  | sub
  | mul
  | div
  | rem
deriving DecidableEq, Repr

inductive LogicOp where
  | or
  | and
  | lt
  | ltEq
  | gt
  | gtEq
  | eq
  | notEq
deriving DecidableEq, Repr

/-- A step of a path: a name, a position, or what another path leads to. -/
inductive PathPart where
  | key (name : String)
  | sub (root : String) (rest : List PathPart)
deriving Repr

/-- A path into what a template is filled in from. -/
structure Path where
  root : String
  rest : List PathPart
deriving Repr

mutual

inductive Value where
  | int (value : Int)
  | float (value : Binary64)
  | text (value : String)
  | bool (value : Bool)
  | path (path : Path)
  | array (items : List Term)
  | call (name : String) (args : List (String × Term))
  | concat (parts : List Value)
  | math (left : Term) (op : MathOp) (right : Term)
  | logic (left : Term) (op : LogicOp) (right : Term)
  | isIn (left : Term) (negated : Bool) (right : Term)
  | test (path : Path) (negated : Bool) (name : String) (args : List Term)

/-- A value with the filters that it goes through, negated at the end or not. -/
inductive Term where
  | mk (value : Value) (filters : List (String × List (String × Term))) (negated : Bool)

end

def Term.value : Term → Value
  | mk value _ _ => value

def Term.filters : Term → List (String × List (String × Term))
  | mk _ filters _ => filters

def Term.negated : Term → Bool
  | mk _ _ negated => negated

/-- A value as it is. -/
def Value.term (value : Value) : Term := .mk value [] false

/-- A part of a template. -/
inductive Part where
  | text (text : String)
  | output (term : Term)
  | assign (name : String) (everywhere : Bool) (term : Term)
  | choice (branches : List (Term × List Part)) (otherwise : List Part)
  | loop (key : Option String) (item : String) (container : Term) (body otherwise : List Part)
  | filtered (name : String) (args : List (String × Term)) (body : List Part)
  | stop
  | skip
  /-- Another template, of which there is none. -/
  | included (optional : Bool)

end Template

end DurableFlow
