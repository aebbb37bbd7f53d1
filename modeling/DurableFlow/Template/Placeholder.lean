import DurableFlow.Expr.Eval
import DurableFlow.Template.Fill

/-!
# Templated data

Every text within a value may be a template. A text that is nothing but one output of a
plain path stands for the value at the end of the path, whatever its type; only when
there is none is it filled in as a template.
-/

namespace DurableFlow

namespace Template

/-- Why templated data could not be filled in. -/
inductive RenderFault where
  /-- A lone path is no expression. -/
  | path (error : ExprError)
  | template (fault : Fault)
deriving DecidableEq, Repr

/-- Whether a text is to be filled in: it has the mark of an output or of a tag. -/
def isTemplate (text : String) : Bool :=
  Text.occursIn "\x7b\x7b" text || Text.occursIn "\x7b%" text

namespace Placeholder

def isStart (c : Char) : Bool := c.isAlpha || c == '_' || c == '$'

def isPart (c : Char) : Bool := Text.isWord c || c == '$'

/-- The name at the start of a text and the text after it. -/
def name? (cs : List Char) : Option (List Char × List Char) :=
  match cs with
  | c :: rest =>
    if isStart c then some (c :: rest.takeWhile isPart, rest.dropWhile isPart) else none
  | [] => none

/-- The longest run of steps at the start of a text and the text after it. -/
def steps (fuel : Nat) (cs : List Char) : List Char × List Char :=
  match fuel with
  | 0 => ([], cs)
  | fuel + 1 =>
    match cs with
    | '.' :: rest =>
      match name? rest with
      | some (name, rest) =>
        let (more, rest) := steps fuel rest
        ('.' :: name ++ more, rest)
      | none => ([], cs)
    | '[' :: rest =>
      let digits := rest.takeWhile Text.isDecimalDigit
      match digits, rest.dropWhile Text.isDecimalDigit with
      | _ :: _, ']' :: rest =>
        let (more, rest) := steps fuel rest
        ('[' :: digits ++ ']' :: more, rest)
      | _, _ => ([], cs)
    | _ => ([], cs)

end Placeholder

/-- The path of a text that is nothing but one output of a plain path. -/
def lonePath? (text : String) : Option String :=
  match text.toList with
  | '\x7b' :: '\x7b' :: cs =>
    match Placeholder.name? (cs.dropWhile Text.isBlank) with
    | none => none
    | some (root, rest) =>
      let (more, rest) := Placeholder.steps rest.length rest
      match rest.dropWhile Text.isBlank with
      | ['\x7d', '\x7d'] => some (String.ofList (root ++ more))
      | _ => none
  | _ => none

/-- A text filled in from a scope, as a value. -/
def renderText (scope : Data) (text : String) : Except RenderFault Data :=
  let filled : Except RenderFault Data :=
    match render text scope with
    | .ok s => .ok (.str s)
    | .error fault => .error (.template fault)
  match lonePath? text with
  | none => filled
  | some path =>
    match Expr.evaluate path scope with
    | .error e => .error (.path e)
    | .ok .null => filled
    | .ok v => .ok v

mutual

/-- Data with every templated text in it filled in from a scope. -/
def renderData (scope : Data) : Data → Except RenderFault Data
  | .str text => if isTemplate text then renderText scope text else .ok (.str text)
  | .arr items =>
    match renderItems scope items with
    | .ok items => .ok (.arr items)
    | .error e => .error e
  | .obj fields =>
    match renderFields scope fields with
    | .ok fields => .ok (.obj fields)
    | .error e => .error e
  | .null => .ok .null
  | .bool b => .ok (.bool b)
  | .num n => .ok (.num n)

def renderItems (scope : Data) : List Data → Except RenderFault (List Data)
  | [] => .ok []
  | v :: rest =>
    match renderData scope v with
    | .error e => .error e
    | .ok v =>
      match renderItems scope rest with
      | .error e => .error e
      | .ok rest => .ok (v :: rest)

def renderFields (scope : Data) :
    List (String × Data) → Except RenderFault (List (String × Data))
  | [] => .ok []
  | (name, v) :: rest =>
    match renderData scope v with
    | .error e => .error e
    | .ok v =>
      match renderFields scope rest with
      | .error e => .error e
      | .ok rest => .ok ((name, v) :: rest)

end

end Template

end DurableFlow
