import DurableFlow.Desk.Basic
import DurableFlow.Engine.Basic

/-!
# Errands

An errand is something that an office is asked to do: start a workflow, handle an event,
deploy, stop and so on. It is a list of acts that are carried out one after another,
whatever comes of them, and then a decision, which may lead to further acts and another
decision. Errands of one office go on side by side; an act or a decision happens at once.
-/

namespace DurableFlow

/-- Something that is done without looking at what comes of it. -/
inductive Act where
  | saveRun (record : RunRecord)
  | settleRun (execution : String) (outcome : RunOutcome)
  | saveSuspended (state : Suspended)
  | deleteSuspended (execution : String)
  | saveSubscription (subscription : Subscription)
  | deleteSubscription (workflow : String)
  | publish (notice : Notice)
  | count (tally : Tally)
  /-- A suspended run becomes pending, and its workflow known. -/
  | arm (definition : Definition) (state : Suspended)
  | register (provider : String) (handler : Handler)
  | unregister (provider : String) (handler : Handler)
deriving DecidableEq, Repr

/-- What an errand comes to. -/
inductive Answer where
  | nothing
  | result (result : RunResult)
  /-- An event was handled; unless it was dropped, a run has a result. -/
  | handled (outcome : EventOutcome) (result : Option RunResult)
  | subscription (subscription : Subscription)
  | suspended (state : Suspended)
  | count (n : Nat)
  | ending (ending : Ending)
  | failed (failure : Failure)
deriving Repr

/-- What a pass over a workflow is for, which decides what becomes of its result. -/
inductive Purpose where
  /-- The result is all that is asked for. -/
  | direct
  /-- A run that is suspended becomes pending. -/
  | kept (definition : Definition)
  /-- An event has started the run. -/
  | started (definition : Definition)
  /-- An event has claimed the suspended run. -/
  | resumed (definition : Definition) (state : Suspended)
  /-- The wait of the suspended run is over. -/
  | expired (definition : Definition) (state : Suspended)
deriving DecidableEq, Repr

/-- A decision: what an errand does when its acts are carried out. -/
inductive Decision where
  | answer (answer : Answer)
  | start (purpose : Purpose) (definition : Definition) (input : Data)
      (execution : Option String)
  /-- Go on behind the node that suspended the run, or at a node. -/
  | resume (purpose : Purpose) (definition : Definition) (state : Suspended)
      (node : Option String) (delta : Fields Data)
  | drive (purpose : Purpose) (run : Nat)
  | conclude (purpose : Purpose) (run : Nat)
  | finish (purpose : Purpose) (result : Except Failure RunResult)
  /-- Wait for the one branch of a group. -/
  | attend (run group : Nat)
  | claim (definition : Definition) (event : Event)
  | expire (execution : String)
  | cancel (execution : String)
  | stop (workflow : String)
  | callStop (subscription : Subscription) (dropped : List String)
  | awaitStop (workflow : String) (dropped : List String) (due : Nat)
  | deploy (definition : Definition) (url : String) (config : Fields Data)
  | awaitDeploy (definition : Definition) (trigger : Trigger) (reply : Reply) (due : Nat)
  | install (definition : Definition) (subscription : Subscription)
  | restore
  | adoptSubscriptions (subscriptions : List Subscription)
  | recallSuspended
  | adoptSuspended (states : List Suspended)
  | dispatch (event : Event)
  | deliver
deriving Repr

/-- An event on its way to the handlers that are left. -/
structure Delivery where
  event : Event
  handlers : List Handler
  /-- The handlers that there were at first. -/
  count : Nat
deriving DecidableEq, Repr

/-- Something that is being done. -/
structure Errand where
  acts : List Act := []
  decision : Decision
  delivery : Option Delivery := none
  /-- Somebody has asked for the run of the errand to be cancelled. -/
  isCancelled : Bool := false
deriving Repr

/-- An alarm ends the wait of a pending run, unless it is stopped before. -/
structure Alarm where
  id : Nat
  execution : String
deriving DecidableEq, Repr

/-- A desk, its switchboard, and what is being done. -/
structure Office where
  desk : Desk := {}
  board : Switchboard Handler := {}
  /-- An office that is not open any more handles no events and no alarms. -/
  isOpen : Bool := true
  errands : List (Nat × Errand) := []
  alarms : List Alarm := []
  nextErrand : Nat := 0
  nextAlarm : Nat := 0
  nextHandler : Nat := 0

namespace Errand

/-- The answer of an errand that has come to its end. -/
def answer? (errand : Errand) : Option Answer :=
  match errand.acts, errand.decision, errand.delivery with
  | [], .answer answer, none => some answer
  | _, _, _ => none

/-- The run that an errand drives or waits for. -/
def run? (errand : Errand) : Option Nat :=
  match errand.decision with
  | .drive _ run | .conclude _ run | .attend run _ => some run
  | _ => none

/-- Go on with further acts and another decision. -/
def go (errand : Errand) (acts : List Act) (decision : Decision) : Errand :=
  { errand with acts, decision }

end Errand

namespace Office

/-- Take on an errand. -/
def takeOn (office : Office) (errand : Errand) : Nat × Office :=
  (office.nextErrand,
    { office with
      errands := office.errands ++ [(office.nextErrand, errand)]
      nextErrand := office.nextErrand + 1 })

def errand? (office : Office) (id : Nat) : Option Errand := office.errands.lookup id

def setErrand (office : Office) (id : Nat) (errand : Errand) : Office :=
  { office with
    errands := office.errands.map fun entry => if entry.1 = id then (id, errand) else entry }

def dropErrand (office : Office) (id : Nat) : Office :=
  { office with errands := office.errands.filter (·.1 != id) }

/-- Stop the alarm of a pending run. -/
def silence (office : Office) (alarm : Option Nat) : Office :=
  match alarm with
  | none => office
  | some id => { office with alarms := office.alarms.filter (·.id != id) }

/-- Take a run out of the pending ones and stop its alarm. -/
def release (office : Office) (execution : String) : Office :=
  match office.desk.pending? execution with
  | none => office
  | some pending => { office.silence pending.alarm with desk := office.desk.take execution }

/-- Make a run pending. An alarm is set if its wait has an end. -/
def arm (office : Office) (state : Suspended) : Office :=
  let office := office.silence ((office.desk.pending? state.execution).bind Pending.alarm)
  match state.deadline with
  | none => { office with desk := office.desk.hold state none }
  | some _ =>
    { office with
      desk := office.desk.hold state (some office.nextAlarm)
      alarms := office.alarms ++ [⟨office.nextAlarm, state.execution⟩]
      nextAlarm := office.nextAlarm + 1 }

/-- Take a workflow out of the office and stop the alarms of its pending runs. -/
def detach (office : Office) (workflow : String) : Office :=
  let dropped := (Fields.values office.desk.pending).filter (·.state.workflow == workflow)
  let office := dropped.foldl (fun office pending => office.silence pending.alarm) office
  { office with desk := office.desk.detach workflow }

end Office

end DurableFlow
