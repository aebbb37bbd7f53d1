import DurableFlow.Run.Status
import DurableFlow.Source.Decode

/-!
# Records of runs

What is known about a run after it has ended, or while it is still going on.
-/

namespace DurableFlow

open Decode

/-- The record of a run. -/
structure RunRecord where
  execution : String
  workflow : String
  status : Status
  startedAt : Instant
  finishedAt : Option Instant := none
  durationMs : Option Int := none
  history : List String := []
  output : Option Data := none
  error : Option String := none
deriving DecidableEq, Repr

/-- What changes in the record of a run when its status does. -/
structure RunOutcome where
  status : Status
  output : Option Data := none
  error : Option String := none
  /-- Only a run that is over has finished. -/
  finishedAt : Option Instant := none
  durationMs : Option Int := none
  history : List String := []
deriving DecidableEq, Repr

namespace RunRecord

/-- The record of a run that has just started. -/
def started (execution workflow : String) (startedAt : Instant) : RunRecord :=
  { execution, workflow, status := .running, startedAt }

/-- Everything but the workflow and the start of a run may change. -/
def replaceBy (old new : RunRecord) : RunRecord :=
  { new with workflow := old.workflow, startedAt := old.startedAt }

/-- Take over an outcome. -/
def settle (record : RunRecord) (outcome : RunOutcome) : RunRecord :=
  { record with
    status := outcome.status
    output := outcome.output
    error := outcome.error
    finishedAt := outcome.finishedAt
    durationMs := outcome.durationMs
    history := outcome.history }

def toData (record : RunRecord) : Data :=
  .ofPairs [("executionId", .str record.execution), ("workflowId", .str record.workflow),
    ("status", .str record.status.text), ("startedAt", .str record.startedAt.zuluText),
    ("finishedAt", .ofOption (record.finishedAt.map fun t => .str t.zuluText)),
    ("durationMs", .ofOption (record.durationMs.map .int)),
    ("nodesExecuted", .texts record.history), ("output", .ofOption record.output),
    ("error", .ofOption (record.error.map .str))]

def decode (v : Source) : Except DecodeError RunRecord := do
  let fields ← Decode.record "ExecutionRecord"
    [.of "executionId" string, .of "workflowId" string, .of "status" Status.decode,
      .of "startedAt" instant, .of "finishedAt" (option instant),
      .of "durationMs" (option int64), .of "nodesExecuted" (list string),
      .of "output" (option data), .of "error" (option string)] (fun _ => true) v
  let execution ← required fields "executionId" string
  let workflow ← required fields "workflowId" string
  let status ← required fields "status" Status.decode
  let startedAt ← required fields "startedAt" instant
  let finishedAt ← optional fields "finishedAt" instant
  let durationMs ← optional fields "durationMs" int64
  let history ← required fields "nodesExecuted" (list string)
  let output ← optional fields "output" data
  let error ← optional fields "error" string
  .ok { execution, workflow, status, startedAt, finishedAt, durationMs, history, output, error }

end RunRecord

end DurableFlow
