import DurableFlow.Expr.Eval
import DurableFlow.Failure
import DurableFlow.Procedure.Basic
import DurableFlow.Run.Context
import DurableFlow.Template.Placeholder

/-!
# What nodes do

The parts of running a node that only read the context: preparing the input of a
procedure, choosing the branch of a condition, and telling what several branches that
have run side by side lead to together.
-/

namespace DurableFlow

/-- Where control goes after a node. -/
inductive Step where
  /-- To these nodes; to none when the path ends. -/
  | goOn (next : List String)
  /-- Nowhere for now: the run is suspended at a node. -/
  | suspend (node : String) (pause : Pause)
deriving DecidableEq, Repr

/-- What running a node leads to. -/
abbrev Ending := Except Failure Step

/-- The input of a procedure: the configuration filled in from the context, and over it
all variables. -/
def Context.input (context : Context) (config : Fields Data) : Except Failure Data :=
  match Template.renderData context.templateScope (.obj config) with
  | .error fault => .error fault.failure
  | .ok rendered => .ok (.obj (Fields.merge rendered.fields context.vars))

namespace Node

/-- The branch that a condition chooses in a scope, if it names one. -/
def branch? (node : Node) (scope : Data) : Except Failure (Option String) :=
  match node.conditionForm? with
  | none => .error (.routing node.id .noForm)
  | some (.predicate expression trueBranch falseBranch) =>
    match Expr.evaluateBool expression scope with
    | .error e => .error (.expression e)
    | .ok holds => .ok (if holds then trueBranch else falseBranch)
  | some (.switch discriminator cases fallback) =>
    match Expr.evaluate discriminator scope with
    | .error e => .error (.expression e)
    | .ok value =>
      match (Fields.get? cases value.caseKey).or fallback with
      | some branch => .ok (some branch)
      | none => .error (.routing node.id (.noCase value.caseKey))

/-- Where a condition leads: to the chosen branch, or on if it names none. -/
def route (node : Node) (scope : Data) : Ending :=
  match node.branch? scope with
  | .error e => .error e
  | .ok (some branch) => .ok (.goOn [branch])
  | .ok none => .ok (.goOn node.successors)

/-- What a reply of a node's procedure leads to, apart from its output being kept. -/
def answered (node : Node) (procedure : String) : Reply → Ending
  | .output _ => .ok (.goOn node.successors)
  | .suspend pause => .ok (.suspend node.id pause)
  | .failed text => .error (.procedure procedure text)
  | .dateRange => .error .dateRange

end Node

/-- Branches that run side by side, by what their parent makes of their endings. -/
inductive Join where
  /-- The branches of a parallel node: the node goes on when they have all ended, or when
  the first one has. -/
  | parallel (node : Node) (waitForAll : Bool)
  /-- The successors of a node, each of which runs. -/
  | fanOut
deriving DecidableEq, Repr

namespace Join

def waitForAll : Join → Bool
  | parallel _ all => all
  | fanOut => true

/-- The first suspension among steps. -/
def suspension? (steps : List Step) : Option Step :=
  steps.find? fun step =>
    match step with
    | .suspend .. => true
    | .goOn _ => false

/-- The successors that steps name. -/
def successors (steps : List Step) : List (List String) :=
  steps.filterMap fun step =>
    match step with
    | .goOn next => some next
    | .suspend .. => none

/-- The one node that all branches agree on; if they do not, the path ends. -/
def agreed : List (List String) → List String
  | [next] :: rest => if rest.all (· == [next]) then [next] else []
  | _ => []

/-- Where control goes when the steps of all branches that were waited for are known. -/
def resolve (join : Join) (steps : List Step) : Step :=
  match suspension? steps with
  | some suspend => suspend
  | none =>
    match join with
    | parallel node _ => .goOn node.successors
    | fanOut => .goOn (agreed (successors steps))

/-- The steps of endings up to the first error. -/
def collect : List Ending → Except Failure (List Step)
  | [] => .ok []
  | .error e :: _ => .error e
  | .ok step :: rest =>
    match collect rest with
    | .error e => .error e
    | .ok steps => .ok (step :: steps)

/-- What the branches lead to, given the endings so far in the order in which they came;
nothing as long as there is somebody to wait for. -/
def outcome? (join : Join) (count : Nat) (endings : List Ending) : Option Ending :=
  let awaited := if join.waitForAll then endings else endings.take 1
  match collect awaited with
  | .error e => some (.error e)
  | .ok steps =>
    if steps.length = count ∨ (!join.waitForAll ∧ !steps.isEmpty) then
      some (.ok (join.resolve steps))
    else none

end Join

end DurableFlow
