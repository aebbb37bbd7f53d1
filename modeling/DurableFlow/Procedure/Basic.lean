import DurableFlow.Id
import DurableFlow.Pause.Basic

/-!
# Procedures

A procedure is a named unit of work. It is invoked with data on behalf of a run, takes
its time and then replies: with an output, with the wish to suspend the run, or with a
failure.
-/

namespace DurableFlow

/-- How a procedure describes itself. -/
structure Contract where
  name : String
  description : String := ""
  /-- The provider that a trigger procedure subscribes with. -/
  provider : Option String := none
  /-- The procedure that takes back what this trigger procedure has set up. -/
  stopProcedure : Option String := none
deriving DecidableEq, Repr

/-- On whose behalf a procedure is invoked. -/
structure Invocation where
  workflow : String
  execution : String
  node : Option String := none
deriving DecidableEq, Repr

/-- What a procedure replies. -/
inductive Reply where
  | output (value : Data)
  | suspend (pause : Pause)
  | failed (text : String)
  /-- The procedure broke down over a date that the calendar does not have. -/
  | dateRange
deriving DecidableEq, Repr

/-- A procedure. -/
structure Procedure where
  contract : Contract
  /-- The milliseconds that a reply takes. -/
  delay : Nat := 0
  reply : Moment → Invocation → Data → Reply

/-- Procedures by their names. -/
abbrev Catalog := Fields Procedure

namespace Catalog

/-- Add procedures one after another; one with a known name takes the place of the other. -/
def ofList (procedures : List Procedure) : Catalog :=
  Fields.ofList (procedures.map fun procedure => (procedure.contract.name, procedure))

/-- Whether a procedure goes by a name. -/
def knows (catalog : Catalog) (name : String) : Bool := Fields.contains catalog name

end Catalog

open Exchange in
def Contract.toData (contract : Contract) : Data :=
  .ofPairs [("name", .str contract.name), ("description", .str contract.description),
    ("metadata", .ofPairs (textIfSome "provider" contract.provider ++
      textIfSome "stopProcedure" contract.stopProcedure))]

open Exchange in
def Invocation.toData (invocation : Invocation) : Data :=
  .ofPairs ([("workflowId", .str invocation.workflow),
    ("executionId", .str invocation.execution)] ++ textIfSome "nodeId" invocation.node)

end DurableFlow
