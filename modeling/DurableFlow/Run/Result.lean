import DurableFlow.Ledger.Record
import DurableFlow.Run.Basic

/-!
# Results of runs

What is told about a run when a pass over its workflow has come to an end.
-/

namespace DurableFlow

open Exchange

/-- The result of a pass. -/
structure RunResult where
  execution : String
  workflow : String
  status : Status
  outputs : Fields Data
  history : List String
  /-- The state of a suspended run. -/
  suspended : Option Suspended := none
  error : Option String := none
deriving DecidableEq, Repr

namespace RunResult

def toData (result : RunResult) : Data :=
  .ofPairs ([("executionId", .str result.execution), ("workflowId", .str result.workflow),
    ("status", .str result.status.text), ("outputs", .obj result.outputs),
    ("nodesExecuted", .texts result.history)] ++
    ifSome "resumeState" (result.suspended.map Suspended.toData) ++
    textIfSome "error" result.error)

end RunResult

namespace Context

/-- The result of a run with this context. -/
def result (context : Context) (status : Status) (suspended : Option Suspended)
    (error : Option String) : RunResult :=
  { execution := context.execution
    workflow := context.workflow
    status
    outputs := context.outputs
    history := context.history
    suspended
    error }

/-- What the record of the run is to say when its status changes. -/
def outcome (context : Context) (now : Instant) (status : Status) (output : Option Data)
    (error : Option String) : RunOutcome :=
  { status
    output
    error
    finishedAt := if status.isTerminal then some now else none
    durationMs := if status.isTerminal then some (context.startedAt.millisUntil now) else none
    history := context.history }

end Context

namespace Conclusion

/-- The result of a pass, and what is published about it. There is none when the deadline
of a pause is no date. -/
def result (now : Instant) (context : Context) : Conclusion → Except Failure (RunResult × Happening)
  | completed => .ok (context.result .completed none none, .completed)
  | suspended node pause =>
    match Suspended.capture? now context node pause with
    | none => .error .dateRange
    | some state => .ok (context.result .paused (some state) none, .paused node state)
  | failed .cancelled =>
    .ok (context.result .cancelled none (some Failure.cancelled.message), .cancelled)
  | failed .dateRange => .error .dateRange
  | failed failure =>
    .ok (context.result .failed none (some failure.message), .failed failure.message)

end Conclusion

end DurableFlow
