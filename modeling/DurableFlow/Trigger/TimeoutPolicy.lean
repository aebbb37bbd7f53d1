import DurableFlow.Failure

/-!
# Timeout policies

What becomes of a suspended run when its wait is over.
-/

namespace DurableFlow

/-- What becomes of a run that nothing has answered in time. -/
inductive TimeoutPolicy where
  /-- The run is forgotten. -/
  | drop
  /-- The run is forgotten and has failed. -/
  | fail
  /-- The run goes on at the node that its wait names, or is forgotten if it names none. -/
  | transition
deriving DecidableEq, Repr

namespace TimeoutPolicy

def text : TimeoutPolicy → String
  | drop => "drop"
  | fail => "fail"
  | transition => "transition"

/-- The text that a policy is looked up by: without blanks around it, in lower case. -/
def key (text : String) : String := Text.lowerAscii (Text.trim text)

/-- The policy that a text names, or what it names instead. -/
def ofText (text : String) : Except String TimeoutPolicy :=
  match key text with
  | "drop" => .ok .drop
  | "fail" => .ok .fail
  | "transition" => .ok .transition
  | other => .error other

end TimeoutPolicy

end DurableFlow
