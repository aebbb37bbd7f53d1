import DurableFlow.Source.Decode

/-!
# The status of a run

A run is running until it completes, fails, is cancelled or pauses. A paused run may
run again; the other three ends are final.
-/

namespace DurableFlow

/-- How far a run has come. -/
inductive Status where
  | running
  | completed
  | failed
  | paused
  | cancelled
deriving DecidableEq, Repr

namespace Status

/-- All statuses in their order. -/
def all : List Status := [running, completed, failed, paused, cancelled]

/-- A run with a terminal status is never continued. -/
def isTerminal : Status → Bool
  | completed | failed | cancelled => true
  | running | paused => false

def text : Status → String
  | running => "running"
  | completed => "completed"
  | failed => "failed"
  | paused => "paused"
  | cancelled => "cancelled"

/-- The status that a text names. -/
def ofText? (text : String) : Option Status := all.find? (·.text == text)

/-- The status that a name stands for. -/
def decodeName (name : String) : Except DecodeError Status :=
  match ofText? name with
  | some status => .ok status
  | none => .error (.unknownVariant name (all.map Status.text))

/-- A status is its name, or an object with the name alone, bound to null. -/
def decode (v : Source) : Except DecodeError Status :=
  match v with
  | .str name => decodeName name
  | .plain name => decodeName name
  | .obj [(name, value)] _ =>
    match decodeName name with
    | .error e => .error e
    | .ok status => if value.isAbsent then .ok status else .error (value.mismatch "unit")
  | .obj .. => .error (.wrongValue "map" "map with a single key")
  | v => .error (v.mismatch "string or map")

@[simp] theorem ofText?_text (status : Status) : ofText? status.text = some status := by
  cases status <;> decide

end Status

end DurableFlow
