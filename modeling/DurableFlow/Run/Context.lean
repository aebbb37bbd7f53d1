import DurableFlow.Source.Decode

/-!
# The context of a run

What the nodes of a run read and write: the variables, the outputs of the nodes and the
history of the nodes that were entered. All concurrent branches of a run share one
context.
-/

namespace DurableFlow

open Decode

/-- The state that the nodes of a run share. -/
structure Context where
  workflow : String
  /-- The id of the run, which stays the same when the run is suspended and resumed. -/
  execution : String
  vars : Fields Data
  /-- The output of every node that gave one. -/
  outputs : Fields Data := []
  /-- The node that was entered last. -/
  node : Option String := none
  /-- The nodes that were entered, the latest first. -/
  trail : List String := []
  startedAt : Instant
deriving DecidableEq, Repr

namespace Context

/-- The context of a new run. -/
def start (workflow execution : String) (vars : Fields Data) (now : Instant) : Context :=
  { workflow, execution, vars, startedAt := now }

/-- Bind what a run is started with over the variables: the fields of an object, nothing
for null, and any other value under one name. -/
def bindInput (vars : Fields Data) (input : Data) : Fields Data :=
  match input with
  | .obj fields => Fields.merge vars fields
  | .null => vars
  | other => Fields.insert vars "input" other

/-- The nodes in the order in which they were entered. -/
def history (context : Context) : List String := context.trail.reverse

/-- Enter a node. -/
def enter (context : Context) (node : String) : Context :=
  { context with node := some node, trail := node :: context.trail }

/-- Keep the output of a node; the fields of an object become variables as well. -/
def record (context : Context) (node : String) (output : Data) : Context :=
  { context with
    vars := Fields.merge context.vars output.fields
    outputs := Fields.insert context.outputs node output }

/-- Bind one variable. -/
def bind (context : Context) (name : String) (value : Data) : Context :=
  { context with vars := Fields.insert context.vars name value }

/-- Bind fields over the variables. -/
def merge (context : Context) (delta : Fields Data) : Context :=
  { context with vars := Fields.merge context.vars delta }

/-- The output that is kept for a node, null when there is none. -/
def outputOf (context : Context) (node : String) : Data :=
  (Fields.get? context.outputs node).getD .null

/-- What expressions read: the variables by their names and, over them, all variables and
all outputs under names of their own. -/
def expressionScope (context : Context) : Data :=
  .obj (Fields.merge context.vars
    [("variables", .obj context.vars), ("outputs", .obj context.outputs),
      ("nodeOutputs", .obj context.outputs)])

/-- What templates read. -/
def templateScope (context : Context) : Data :=
  .ofPairs [("variables", .obj context.vars), ("outputs", .obj context.outputs),
    ("executionId", .str context.execution), ("workflowId", .str context.workflow)]

def toData (context : Context) : Data :=
  .ofPairs [("workflowId", .str context.workflow), ("executionId", .str context.execution),
    ("variables", .obj context.vars), ("nodeOutputs", .obj context.outputs),
    ("currentNodeId", .ofOption (context.node.map .str)),
    ("nodesExecuted", .texts context.history), ("startedAt", .str context.startedAt.zuluText)]

def decode (v : Source) : Except DecodeError Context := do
  let fields ← Decode.record "ExecutionContext"
    [.of "workflowId" string, .of "executionId" string, .of "variables" (map data),
      .of "nodeOutputs" (map data), .of "currentNodeId" (option string),
      .of "nodesExecuted" (list string), .of "startedAt" instant] (fun _ => true) v
  let workflow ← required fields "workflowId" string
  let execution ← required fields "executionId" string
  let vars ← required fields "variables" (map data)
  let outputs ← required fields "nodeOutputs" (map data)
  let node ← optional fields "currentNodeId" string
  let history ← required fields "nodesExecuted" (list string)
  let startedAt ← required fields "startedAt" instant
  .ok { workflow, execution, vars, outputs, node, trail := history.reverse, startedAt }

@[simp] theorem history_enter (context : Context) (node : String) :
    (context.enter node).history = context.history ++ [node] := by
  simp [enter, history]

@[simp] theorem history_record (context : Context) (node : String) (output : Data) :
    (context.record node output).history = context.history := rfl

@[simp] theorem outputs_enter (context : Context) (node : String) :
    (context.enter node).outputs = context.outputs := rfl

@[simp] theorem outputs_bind (context : Context) (name : String) (value : Data) :
    (context.bind name value).outputs = context.outputs := rfl

@[simp] theorem history_bind (context : Context) (name : String) (value : Data) :
    (context.bind name value).history = context.history := rfl

end Context

end DurableFlow
