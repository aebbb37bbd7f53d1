import DurableFlow.Pause.Basic
import DurableFlow.Run.Context

/-!
# Suspended runs

What is kept of a run while it waits: enough of its context to go on behind the node
that suspended it, what it waits for and until when.
-/

namespace DurableFlow

open Exchange Decode

/-- A run that waits. -/
structure Suspended where
  workflow : String
  execution : String
  /-- The node that suspended the run; the run goes on behind it. -/
  node : String
  vars : Fields Data
  outputs : Fields Data
  history : List String
  wait : Wait
  reason : String := ""
  data : Data := .null
  /-- When the wait is over. -/
  deadline : Option Instant := none
  /-- Where the run goes on when the wait is over. -/
  deadlineNode : Option String := none
  pausedAt : Instant
  startedAt : Instant
deriving DecidableEq, Repr

namespace Suspended

/-- The instant at which a timeout ends. Its duration counts as a signed number of 64
bits; there is none when the calendar ends before it. -/
def deadlineOf? (pausedAt : Instant) (timeout : AwaitTimeout) : Option Instant :=
  let millis := Int.bmod timeout.durationMs (2 ^ (64 : Nat))
  if millis = -(2 ^ (63 : Nat)) then none else pausedAt.addMillis? millis

/-- The suspended run of a context, when its deadline is an instant. -/
def capture? (now : Instant) (context : Context) (node : String) (pause : Pause) :
    Option Suspended :=
  let state : Suspended :=
    { workflow := context.workflow
      execution := context.execution
      node
      vars := context.vars
      outputs := context.outputs
      history := context.history
      wait := pause.wait
      reason := pause.reason
      data := pause.data
      pausedAt := now
      startedAt := context.startedAt }
  match pause.timeout with
  | none => some state
  | some timeout =>
    (deadlineOf? now timeout).map fun deadline =>
      { state with deadline := some deadline, deadlineNode := timeout.node }

/-- The context in which the run goes on. -/
def toContext (state : Suspended) (delta : Fields Data) : Context :=
  { workflow := state.workflow
    execution := state.execution
    vars := Fields.merge state.vars delta
    outputs := state.outputs
    node := some state.node
    trail := state.history.reverse
    startedAt := state.startedAt }

/-- The nanoseconds until the wait is over; none are left when it is over. -/
def remaining (state : Suspended) (now : Instant) : Option Nat :=
  state.deadline.map fun deadline => (now.nanosUntil deadline).toNat

def toData (state : Suspended) : Data :=
  .ofPairs ([("workflowId", .str state.workflow), ("executionId", .str state.execution),
    ("currentNodeId", .str state.node), ("variables", .obj state.vars),
    ("nodeOutputs", .obj state.outputs), ("nodesExecuted", .texts state.history),
    ("waitingFor", state.wait.toData), ("reason", .str state.reason)] ++
    (if state.data.isNull then [] else [("data", state.data)]) ++
    textIfSome "timeoutAt" (state.deadline.map Instant.zuluText) ++
    textIfSome "timeoutNode" state.deadlineNode ++
    [("pausedAt", .str state.pausedAt.zuluText), ("startedAt", .str state.startedAt.zuluText)])

/-- Read a suspended run. One that does not say when it started counts from now. -/
def decode (now : Instant) (v : Source) : Except DecodeError Suspended := do
  let fields ← record "ResumeState"
    [.of "workflowId" string, .of "executionId" string, .of "currentNodeId" string,
      .of "variables" (map Decode.data), .of "nodeOutputs" (map Decode.data),
      .of "nodesExecuted" (list string), .of "waitingFor" Wait.decode, .of "reason" string,
      .of "data" Decode.data, .of "timeoutAt" (option instant),
      .of "timeoutNode" (option string), .of "pausedAt" instant, .of "startedAt" instant]
    (fun name => name ∉ ["reason", "data", "timeoutAt", "timeoutNode", "startedAt"]) v
  let workflow ← required fields "workflowId" string
  let execution ← required fields "executionId" string
  let node ← required fields "currentNodeId" string
  let vars ← required fields "variables" (map Decode.data)
  let outputs ← required fields "nodeOutputs" (map Decode.data)
  let history ← required fields "nodesExecuted" (list string)
  let wait ← required fields "waitingFor" Wait.decode
  let reason ← defaulted fields "reason" string ""
  let kept ← defaulted fields "data" Decode.data .null
  let deadline ← optional fields "timeoutAt" instant
  let deadlineNode ← optional fields "timeoutNode" string
  let pausedAt ← required fields "pausedAt" instant
  let startedAt ← defaulted fields "startedAt" instant now
  .ok { workflow, execution, node, vars, outputs, history, wait, reason, data := kept,
        deadline, deadlineNode, pausedAt, startedAt }

end Suspended

end DurableFlow
