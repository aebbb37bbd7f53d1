import DurableFlow.Run.Suspended

/-!
# Notices

What is published about a run while it goes on.
-/

namespace DurableFlow

/-- What has happened to a run. -/
inductive Happening where
  | started
  | nodeStarted (node : String)
  | nodeCompleted (node : String) (output : Data)
  | nodeFailed (node error : String)
  | completed
  | failed (error : String)
  | paused (node : String) (state : Suspended)
  | resumed (node : String)
  | cancelled
deriving DecidableEq, Repr

/-- What has happened, and to which run. -/
structure Notice where
  workflow : String
  execution : String
  happening : Happening
deriving DecidableEq, Repr

namespace Happening

def name : Happening → String
  | started => "workflow.started"
  | nodeStarted _ => "node.started"
  | nodeCompleted .. => "node.completed"
  | nodeFailed .. => "node.failed"
  | completed => "workflow.completed"
  | failed _ => "workflow.failed"
  | paused .. => "workflow.paused"
  | resumed _ => "workflow.resumed"
  | cancelled => "workflow.cancelled"

/-- The fields that a kind of happening adds to its notice. -/
def fields : Happening → List (String × Data)
  | started | completed | cancelled => []
  | nodeStarted node | resumed node => [("nodeId", .str node)]
  | nodeCompleted node output => [("nodeId", .str node), ("output", output)]
  | nodeFailed node error => [("nodeId", .str node), ("error", .str error)]
  | failed error => [("error", .str error)]
  | paused node state => [("nodeId", .str node), ("resumeState", state.toData)]

end Happening

def Notice.toData (notice : Notice) : Data :=
  .ofPairs ([("workflowId", .str notice.workflow), ("executionId", .str notice.execution),
    ("type", .str notice.happening.name)] ++ notice.happening.fields)

end DurableFlow
