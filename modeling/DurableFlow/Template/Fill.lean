import DurableFlow.Template.Filters
import DurableFlow.Template.Parser

/-!
# Filling in templates

A template is filled in from named values. Names that a template sets itself and the
items of its loops come before them; what a loop sets lasts for one turn of it.
-/

namespace DurableFlow

namespace Template

/-- The turn of a loop. -/
structure Turn where
  keyName : Option String
  itemName : String
  key : String
  item : Data
  index : Nat
  size : Nat

/-- Names bound by the template itself. -/
structure Frame where
  bound : Fields Data
  turn : Option Turn

/-- What names stand for: the frames from the inside out, then what was given. -/
structure Scope where
  given : Fields Data
  frames : List Frame

/-- What a loop says about its turn. -/
def Turn.field? (turn : Turn) (name : String) : Option Data :=
  match name with
  | "index" => some (.nat (turn.index + 1))
  | "index0" => some (.nat turn.index)
  | "first" => some (.bool (turn.index == 0))
  | "last" => some (.bool (turn.index + 1 == turn.size))
  | _ => none

/-- What a path leads to within a frame. -/
def Frame.find? (frame : Frame) (root : String) (rest : List String) : Option Data :=
  match (Fields.get? frame.bound root).bind fun v => members? v rest with
  | some v => some v
  | none =>
    match frame.turn with
    | none => none
    | some turn =>
      match root, rest with
      | "loop", [name] =>
        match turn.field? name with
        | some v => some v
        | none => none
      | _, _ =>
        if root = turn.itemName then members? turn.item rest
        else if turn.keyName = some root then members? (.str turn.key) rest
        else none

/-- What a path of names leads to. -/
def Scope.find? (scope : Scope) (root : String) (rest : List String) : Option Data :=
  match scope.frames.findSome? fun frame => frame.find? root rest with
  | some v => some v
  | none => (Fields.get? scope.given root).bind fun v => members? v rest

/-- Bind a name in the innermost frame, or in the outermost. -/
def Scope.assign (scope : Scope) (name : String) (everywhere : Bool) (v : Data) : Scope :=
  let bind (frame : Frame) : Frame := { frame with bound := Fields.insert frame.bound name v }
  if everywhere then
    { scope with frames := scope.frames.dropLast ++ (scope.frames.getLast?.map bind).toList }
  else
    match scope.frames with
    | frame :: rest => { scope with frames := bind frame :: rest }
    | [] => scope

/-- The names of the steps of a path, those in brackets being looked up. -/
def pathNames (scope : Scope) (fuel : Nat) : List PathPart → Option (List String)
  | [] => some []
  | .key name :: rest => do some (name :: (← pathNames scope fuel rest))
  | .sub root parts :: rest =>
    match fuel with
    | 0 => none
    | fuel + 1 => do
      let inner ← pathNames scope fuel parts
      let name ←
        match ← scope.find? root inner with
        | .str s => some s
        | .num n => some n.toString
        | _ => none
      some (name :: (← pathNames scope fuel rest))

/-- What a path leads to. -/
def Scope.lookup? (scope : Scope) (path : Path) : Option Data := do
  scope.find? path.root (← pathNames scope 64 path.rest)

/-- Integers within 64 bits, with a sign or without, keep their arithmetic exact; a result
beyond them is a failure. Everything else is done in floats. -/
def MathOp.apply (op : MathOp) (a b : Number) : Except Fault (Option Number) :=
  let exact (f : Int → Int → Int) : Option (Except Fault (Option Number)) :=
    match a, b with
    | .int i, .int j =>
      let r := f i j
      if i < 2 ^ (63 : Nat) ∧ j < 2 ^ (63 : Nat) then
        some (if -(2 ^ (63 : Nat)) ≤ r ∧ r < 2 ^ (63 : Nat) then .ok (some (.int r))
          else .error .unfillable)
      else if 0 ≤ i ∧ 0 ≤ j then
        some (if 0 ≤ r ∧ r < 2 ^ (64 : Nat) then .ok (some (.int r)) else .error .unfillable)
      else none
    | _, _ => none
  let float (x : Option Binary64) : Except Fault (Option Number) := .ok (x.map .float)
  match op with
  | add => (exact (· + ·)).getD (float (a.toBinary64.add b.toBinary64))
  | sub => (exact (· - ·)).getD (float (a.toBinary64.sub b.toBinary64))
  | mul => (exact (· * ·)).getD (float (a.toBinary64.mul b.toBinary64))
  | div =>
    match a.toBinary64.div b.toBinary64 with
    | none => .ok none
    | some x =>
      match x.toInt? with
      | some i => .ok (some (.int (Filter.clamp i)))
      | none => .ok (some (.float x))
  | rem =>
    match a, b with
    | .int _, .int 0 => .error .unfillable
    | _, _ => (exact Int.tmod).getD (float (a.toBinary64.rem b.toBinary64))

/-- Whether a comparison of two numbers holds. -/
def LogicOp.compare (op : LogicOp) (a b : Number) : Bool :=
  let order := a.toBinary64.compare b.toBinary64
  match op with
  | lt => order == .lt
  | ltEq => order != .gt
  | gt => order == .gt
  | gtEq => order != .lt
  | _ => false

/-- Whether two values are equal; a number cannot be held against anything but a number. -/
def equal? (a b : Data) : Option Bool :=
  match a, b with
  | .num x, .num y => some (x.toBinary64.same y.toBinary64)
  | .num _, _ => none
  | _, .num _ => none
  | a, b => some (a.same b)

/-- Whether an item is in a container, if the container can have such items. -/
def memberOf? (item container : Data) : Option Bool :=
  match container, item with
  | .arr items, v => some (items.any fun item => item.same v)
  | .str s, .str p => some (Text.occursIn p s)
  | .obj fields, .str name => some (Fields.contains fields name)
  | _, _ => none

def orUnfillable : Option α → Except Fault α
  | some x => .ok x
  | none => .error .unfillable

/-- The integers of a range. -/
def rangeItems (args : Filter.Args) : Option Data := do
  let stop ← Filter.intArg args "end" none
  let start ← Filter.intArg args "start" (some 0)
  let step ← Filter.intArg args "step_by" (some 1)
  if start < 0 ∨ stop < 0 ∨ step ≤ 0 ∨ start > stop then none
  else
    let count := ((stop - start + step - 1) / step).toNat
    some (.arr ((List.range count).map fun (i : Nat) => .int (start + i * step)))

/-- What a function gives. -/
def callFunction (name : String) (args : Filter.Args) : Option Data :=
  match name with
  | "range" => rangeItems args
  | _ => none

/-- Filters that only mark a term and leave its value as it is. -/
def isMark (name : String) : Bool := name == "safe" || name == "default"

/-- What stands in for the value of a term that is missing, where the term says so. -/
def Term.fallback? (term : Term) : Option (Option Term) :=
  match term.filters with
  | ("default", args) :: _ => some (args.lookup "value")
  | _ => none

mutual

/-- The value of a term, having gone through its filters. A choice that is negated is
negated as a choice and once more as a term. -/
def evalTerm (fuel : Nat) (scope : Scope) (term : Term) : Except Fault Data :=
  match fuel with
  | 0 => .error .unfillable
  | fuel + 1 =>
    let finish (v : Data) : Except Fault Data := do
      let v ← term.filters.foldlM (fun v (name, args) => do
        if isMark name then .ok v
        else orUnfillable (Filter.apply name (← evalArgs fuel scope args) v)) v
      .ok (if term.negated then .bool !truthy v else v)
    match term.value with
    | .path path =>
      match scope.lookup? path, term.fallback? with
      | some v, none => finish v
      | some v, some fallback =>
        if v.isNull then do finish (← evalFallback fuel scope fallback) else finish v
      | none, some fallback => do finish (← evalFallback fuel scope fallback)
      | none, none => if term.negated then .ok (.bool true) else .error .unfillable
    | .logic .. => do finish (.bool (← evalBool fuel scope term))
    | value => do finish (← evalValue fuel scope value)

/-- What stands in for a value that is missing, if there is something. -/
def evalFallback (fuel : Nat) (scope : Scope) (fallback : Option Term) : Except Fault Data :=
  match fuel, fallback with
  | fuel + 1, some term => evalTerm fuel scope term
  | _, _ => .error .unfillable

/-- The arguments of a filter or a function. -/
def evalArgs (fuel : Nat) (scope : Scope) (args : List (String × Term)) :
    Except Fault (List (String × Data)) :=
  match fuel with
  | 0 => .error .unfillable
  | fuel + 1 => args.mapM fun (name, term) => do .ok (name, ← evalTerm fuel scope term)

/-- The value of a literal, a call, or what operators make of values. -/
def evalValue (fuel : Nat) (scope : Scope) (value : Value) : Except Fault Data :=
  match fuel with
  | 0 => .error .unfillable
  | fuel + 1 =>
    match value with
    | .int i => .ok (.num (.int i))
    | .float x => .ok (.num (.float x))
    | .text s => .ok (.str s)
    | .bool b => .ok (.bool b)
    | .path path => orUnfillable (scope.lookup? path)
    | .array items => do .ok (.arr (← items.mapM fun item => evalTerm fuel scope item))
    | .call name args => do orUnfillable (callFunction name (← evalArgs fuel scope args))
    | .concat parts => do
      let texts ← parts.mapM fun part => do
        match ← evalValue fuel scope part with
        | .str s => .ok s
        | .num n =>
          match part with
          | .float x => .ok (x.text floatLayout)
          | _ => .ok n.toString
        | _ => .error .unfillable
      .ok (.str (String.join texts))
    | .math .. => do
      match ← evalNumber fuel scope value.term with
      | some n => .ok (.num n)
      | none => .ok (.str "NaN")
    | .logic .. => do .ok (.bool (← evalBool fuel scope value.term))
    | .isIn left negated right => do
      let item ← evalTerm fuel scope left
      let container ← evalTerm fuel scope right
      let present ← orUnfillable (memberOf? item container)
      .ok (.bool (present != negated))
    | .test path negated name args => do
      let args ← args.mapM fun arg => evalTerm fuel scope arg
      let answer ← orUnfillable (testAnswer name args (scope.lookup? path))
      .ok (.bool (answer != negated))

/-- The number that a term stands for; none when arithmetic has no result. -/
def evalNumber (fuel : Nat) (scope : Scope) (term : Term) : Except Fault (Option Number) :=
  match fuel with
  | 0 => .error .unfillable
  | fuel + 1 =>
    let ofData (v : Data) : Except Fault (Option Number) :=
      match v with
      | .num n => .ok (some n)
      | _ => .error .unfillable
    if !term.filters.isEmpty then do ofData (← evalTerm fuel scope term)
    else
      match term.value with
      | .int _ => do ofData (← evalValue fuel scope term.value)
      | .float x => .ok (some (.float x))
      | .path _ => do ofData (← evalValue fuel scope term.value)
      | .call .. => do ofData (← evalValue fuel scope term.value)
      | .math left op right => do
        match ← evalNumber fuel scope left, ← evalNumber fuel scope right with
        | some a, some b => op.apply a b
        | _, _ => .ok none
      | _ => .error .unfillable

/-- Whether a term holds. A path that leads nowhere does not, and a comparison of a number
with anything else never holds, whether it is negated or not. -/
def evalBool (fuel : Nat) (scope : Scope) (term : Term) : Except Fault Bool :=
  match fuel with
  | 0 => .error .unfillable
  | fuel + 1 => do
    let holds ←
      match term.value with
      | .logic left op right =>
        match op with
        | .or => do
          if ← evalBool fuel scope left then .ok true else evalBool fuel scope right
        | .and => do
          if ← evalBool fuel scope left then evalBool fuel scope right else .ok false
        | .eq => do
          match equal? (← evalTerm fuel scope left) (← evalTerm fuel scope right) with
          | some same => .ok same
          | none => .ok term.negated
        | .notEq => do
          match equal? (← evalTerm fuel scope left) (← evalTerm fuel scope right) with
          | some same => .ok !same
          | none => .ok term.negated
        | op => do
          match ← evalNumber fuel scope left, ← evalNumber fuel scope right with
          | some a, some b => .ok (op.compare a b)
          | _, _ => .error .unfillable
      | .path _ =>
        match evalTerm fuel scope term with
        | .ok v => .ok (truthy v != term.negated)
        | .error _ => .ok term.negated
      | .concat _ => do
        match ← evalTerm fuel scope term with
        | .str s => .ok !s.isEmpty
        | _ => .error .unfillable
      | .math .. => do
        match ← evalNumber fuel scope term.value.term with
        | some n => .ok (!n.toBinary64.isZero)
        | none => .ok false
      | .test .. =>
        match evalValue fuel scope term.value with
        | .ok v => .ok (truthy v)
        | .error _ => .ok false
      | .call .. => do
        match ← evalValue fuel scope term.value with
        | .bool b => .ok b
        | _ => .error .unfillable
      | value => do .ok (truthy (← evalValue fuel scope value))
    .ok (holds != term.negated)

end

/-- How the parts of a section ended. -/
inductive Ending where
  | through
  /-- The loop around is to stop. -/
  | stop
  /-- The turn of the loop around is over. -/
  | skip
deriving DecidableEq

/-- The text so far, the names bound so far, and how the section ended. -/
structure Filled where
  text : String
  scope : Scope
  ending : Ending

/-- The turns of a loop over a value. -/
def turns? (key : Option String) (item : String) (v : Data) : Option (List Turn) :=
  match v, key with
  | .arr items, none =>
    some (items.mapIdx fun i x => ⟨none, item, "", x, i, items.length⟩)
  | .str s, none =>
    let cs := s.toList
    some (cs.mapIdx fun i c => ⟨none, item, "", .str c.toString, i, cs.length⟩)
  | .obj fields, some key =>
    some (fields.mapIdx fun i field => ⟨some key, item, field.1, field.2, i, fields.length⟩)
  | _, _ => none

/-- Whether a loop can go over what such a term stands for. -/
def Term.iterable (term : Term) : Bool :=
  match term.value with
  | .path _ => true
  | .call .. => true
  | .array _ => true
  | _ => false

mutual

/-- Fill in parts one after another. -/
def fillParts (fuel : Nat) (scope : Scope) (parts : List Part) : Except Fault Filled :=
  match fuel with
  | 0 => .error .unfillable
  | fuel + 1 =>
    match parts with
    | [] => .ok ⟨"", scope, .through⟩
    | part :: rest => do
      let here ← fillPart fuel scope part
      match here.ending with
      | .through => do
        let after ← fillParts fuel here.scope rest
        .ok ⟨here.text ++ after.text, after.scope, after.ending⟩
      | _ => .ok here

def fillPart (fuel : Nat) (scope : Scope) (part : Part) : Except Fault Filled :=
  match fuel with
  | 0 => .error .unfillable
  | fuel + 1 =>
    match part with
    | .text s => .ok ⟨s, scope, .through⟩
    | .output term => do .ok ⟨fillText (← evalTerm fuel scope term), scope, .through⟩
    | .assign name everywhere term => do
      .ok ⟨"", scope.assign name everywhere (← evalTerm fuel scope term), .through⟩
    | .choice branches otherwise => fillChoice fuel scope branches otherwise
    | .loop key item container body otherwise => do
      if !container.iterable then .error .unfillable
      else
        let v ← evalTerm fuel scope container
        let turns ← orUnfillable (turns? key item v)
        if turns.isEmpty then fillParts fuel scope otherwise
        else
          let inner : Scope := { scope with frames := ⟨[], none⟩ :: scope.frames }
          let (text, inner, _) ← turns.foldlM (fun (state : String × Scope × Bool) turn => do
            let (text, inner, stopped) := state
            if stopped then .ok state
            else
              let inner := { inner with frames := ⟨[], some turn⟩ :: inner.frames.tail }
              let filled ← fillParts fuel inner body
              .ok (text ++ filled.text, filled.scope, filled.ending == .stop)) ("", inner, false)
          .ok ⟨text, { inner with frames := inner.frames.tail }, .through⟩
    | .filtered name args body => do
      let filled ← fillParts fuel scope body
      if name == "safe" then .ok filled
      else do
        let args ← evalArgs fuel filled.scope args
        let v ← orUnfillable (Filter.apply name args (.str filled.text))
        .ok ⟨fillText v, filled.scope, filled.ending⟩
    | .stop => .ok ⟨"", scope, .stop⟩
    | .skip => .ok ⟨"", scope, .skip⟩
    | .included optional => if optional then .ok ⟨"", scope, .through⟩ else .error .unfillable

/-- Fill in the first branch whose condition holds. -/
def fillChoice (fuel : Nat) (scope : Scope) (branches : List (Term × List Part))
    (otherwise : List Part) : Except Fault Filled :=
  match fuel with
  | 0 => .error .unfillable
  | fuel + 1 =>
    match branches with
    | [] => fillParts fuel scope otherwise
    | (condition, body) :: rest => do
      if ← evalBool fuel scope condition then fillParts fuel scope body
      else fillChoice fuel scope rest otherwise

end

/-- The names that a value gives to a template: the fields of an object, or one name
for anything else. -/
def given (v : Data) : Fields Data :=
  match v with
  | .obj fields => fields
  | v => [("data", v)]

/-- Fill in a template from a value. -/
def render (source : String) (v : Data) : Except Fault String := do
  let parts ← parse source
  let filled ← fillParts (16 * source.length + 64) ⟨given v, [⟨[], none⟩]⟩ parts
  .ok filled.text

end Template

end DurableFlow
