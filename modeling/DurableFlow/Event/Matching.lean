import DurableFlow.Event.Basic
import DurableFlow.Expr.Eval
import DurableFlow.Run.Suspended

/-!
# Matching events with suspended runs

An event answers a suspended run when it names something that the run waits for and
passes the filter of the wait. Of several runs that it answers the one that was
suspended first is meant.
-/

namespace DurableFlow

namespace Event

/-- A waited name is a part of the trigger of an event; empty texts name nothing. -/
def namesMatch (waited trigger : String) : Bool :=
  !waited.isEmpty && !trigger.isEmpty && Text.occursIn waited trigger

/-- Whether the event goes by a name: by its trigger if it has one, else by its type. -/
def identifies (event : Event) (waited : String) : Bool :=
  match event.trigger with
  | some trigger => namesMatch waited trigger
  | none =>
    match event.type with
    | some type => !waited.isEmpty && type == waited
    | none => false

/-- What a filter reads. -/
def filterScope (event : Event) (state : Suspended) : Data :=
  .ofPairs [("payload", event.payload), ("event", event.toVariables),
    ("variables", .obj state.vars), ("outputs", .obj state.outputs)]

/-- Whether the event passes a filter; a filter that cannot be evaluated lets nothing pass. -/
def passes (event : Event) (state : Suspended) (filter : String) : Bool :=
  match Expr.evaluateBool filter (event.filterScope state) with
  | .ok passed => passed
  | .error _ => false

/-- Whether the event answers a suspended run. -/
def answers (event : Event) (state : Suspended) : Bool :=
  state.wait.names.any event.identifies &&
    (match state.wait.filter with
    | none => true
    | some filter => event.passes state filter)

/-- The earlier of two suspended runs, the first one of two from one instant. -/
def earlier (a b : Suspended) : Suspended := if b.pausedAt.before a.pausedAt then b else a

/-- The earliest of suspended runs, of several from one instant the first. -/
def earliest? : List Suspended → Option Suspended
  | [] => none
  | state :: rest => some (rest.foldl earlier state)

/-- The run that the event is meant for. -/
def findMatch (event : Event) (states : List Suspended) : Option Suspended :=
  earliest? (states.filter event.answers)

/-- Whether the event may start a run of a workflow with this trigger. -/
def allowedBy (event : Event) (trigger : Trigger) : Bool :=
  match trigger.eventType with
  | none => true
  | some wanted => event.type == some wanted

end Event

end DurableFlow
