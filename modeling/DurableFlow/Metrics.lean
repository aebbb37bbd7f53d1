import DurableFlow.Definition.Basic
import DurableFlow.Run.Status
import DurableFlow.Trigger.TimeoutPolicy

/-!
# Metrics

Counts of what has happened, and the number of runs that are pending. A series appears
once something has been counted in it.
-/

namespace DurableFlow

/-- How an event was handled. -/
inductive EventOutcome where
  | resumed
  | started
  | dropped
deriving DecidableEq, Repr

def EventOutcome.text : EventOutcome → String
  | resumed => "resumed"
  | started => "started"
  | dropped => "dropped"

/-- What is counted. -/
inductive Tally where
  | run (status : Status)
  | node (kind : String)
  | timeout (policy : TimeoutPolicy)
  | event (outcome : EventOutcome)
deriving DecidableEq, Repr

/-- The counters, by label, and the gauge. -/
structure Metrics where
  runs : Fields Nat := []
  nodes : Fields Nat := []
  timeouts : Fields Nat := []
  events : Fields Nat := []
  pending : Nat := 0
deriving DecidableEq, Repr

namespace Metrics

/-- One more in a series. -/
def increment (series : Fields Nat) (label : String) : Fields Nat :=
  Fields.insert series label ((Fields.get? series label).getD 0 + 1)

def count (metrics : Metrics) : Tally → Metrics
  | .run status => { metrics with runs := increment metrics.runs status.text }
  | .node kind => { metrics with nodes := increment metrics.nodes kind }
  | .timeout policy => { metrics with timeouts := increment metrics.timeouts policy.text }
  | .event outcome => { metrics with events := increment metrics.events outcome.text }

/-- The sample lines of a family of counters. -/
def family (name label : String) (series : Fields Nat) : List String :=
  series.map fun sample =>
    name ++ "\x7b" ++ label ++ "=\"" ++ sample.1 ++ "\"\x7d " ++ toString sample.2

/-- All sample lines, by family and label. -/
def samples (metrics : Metrics) : List String :=
  family "tripwire_executions_total" "status" metrics.runs ++
    family "tripwire_nodes_executed_total" "type" metrics.nodes ++
    ["tripwire_pending_executions " ++ toString metrics.pending] ++
    family "tripwire_timeouts_total" "policy" metrics.timeouts ++
    family "tripwire_trigger_events_total" "outcome" metrics.events

end Metrics

end DurableFlow
