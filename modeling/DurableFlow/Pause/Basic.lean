import DurableFlow.Definition.Exchange

/-!
# Pauses

A node or a procedure suspends its run with a pause, which says what the run waits for
and for how long.
-/

namespace DurableFlow

open Exchange Decode

/-- What a suspended run waits for. -/
structure Wait where
  /-- The names that an event may answer. -/
  names : List String
  /-- An expression that the event has to satisfy as well. -/
  filter : Option String := none
deriving DecidableEq, Repr

namespace Wait

def toData (wait : Wait) : Data :=
  .ofPairs (("procedures", .texts wait.names) :: textIfSome "filter" wait.filter)

def decode (v : Source) : Except DecodeError Wait := do
  let fields ← record "WaitCondition"
    [.of "procedures" (list string), .of "filter" (option string)] (· == "procedures") v
  let names ← required fields "procedures" (list string)
  let filter ← optional fields "filter" string
  .ok { names, filter }

end Wait

/-- The wish to suspend a run. -/
structure Pause where
  reason : String
  wait : Wait
  timeout : Option AwaitTimeout := none
  data : Data := .null
deriving DecidableEq, Repr

namespace Pause

/-- The pause of a node that waits for events. -/
def awaiting (names : List String) (filter : Option String) (timeout : Option AwaitTimeout) :
    Pause :=
  { reason := "awaiting " ++ ", ".intercalate names, wait := { names, filter }, timeout }

def toData (pause : Pause) : Data :=
  .ofPairs [("reason", .str pause.reason), ("waitingFor", pause.wait.toData),
    ("timeout", .ofOption (pause.timeout.map AwaitTimeout.toData)), ("data", pause.data)]

end Pause

end DurableFlow
