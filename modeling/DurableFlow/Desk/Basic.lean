import DurableFlow.Data.Ordered
import DurableFlow.Event.Matching
import DurableFlow.Trigger.Subscription
import DurableFlow.Trigger.Switchboard
import DurableFlow.Trigger.TimeoutPolicy

/-!
# The desk

The desk knows the workflows whose runs it can resume, the deployments and the pending
runs, which are suspended and wait for an event or for the end of their wait. Each
operation here happens at once, so that no two of them can claim the same pending run.
-/

namespace DurableFlow

/-- What hands the events of a provider to a workflow. -/
structure Handler where
  id : Nat
  workflow : String
deriving DecidableEq, Repr

/-- A deployed workflow. -/
structure Deployment where
  subscription : Subscription
  handler : Handler
deriving DecidableEq, Repr

/-- A suspended run that is waited for, and the alarm that ends its wait. -/
structure Pending where
  state : Suspended
  alarm : Option Nat
deriving DecidableEq, Repr

/-- What a process knows of its workflows. -/
structure Desk where
  policy : TimeoutPolicy := .drop
  definitions : Fields Definition := []
  deployments : Fields Deployment := []
  /-- The pending runs by their ids. -/
  pending : Fields Pending := []
deriving DecidableEq, Repr

namespace Desk

def definition? (desk : Desk) (workflow : String) : Option Definition :=
  Fields.get? desk.definitions workflow

def isDeployed (desk : Desk) (workflow : String) : Bool :=
  Fields.contains desk.deployments workflow

/-- Make a definition known, in the place of an older one. -/
def learn (desk : Desk) (d : Definition) : Desk :=
  { desk with definitions := Fields.insert desk.definitions d.id d }

/-- Make a definition known unless its workflow is known already. -/
def learnNew (desk : Desk) (d : Definition) : Desk :=
  if Fields.contains desk.definitions d.id then desk else desk.learn d

/-- The pending runs of a workflow. -/
def pendingOf (desk : Desk) (workflow : String) : List Suspended :=
  ((Fields.values desk.pending).map Pending.state).filter (·.workflow == workflow)

/-- The pending run of a workflow that an event is meant for. -/
def match? (desk : Desk) (workflow : String) (event : Event) : Option Suspended :=
  event.findMatch (desk.pendingOf workflow)

def pending? (desk : Desk) (execution : String) : Option Pending :=
  Fields.get? desk.pending execution

/-- Take a run out of the pending ones. -/
def take (desk : Desk) (execution : String) : Desk :=
  { desk with pending := Fields.erase desk.pending execution }

/-- Put a run among the pending ones, in the place of an older state of the same run. -/
def hold (desk : Desk) (state : Suspended) (alarm : Option Nat) : Desk :=
  { desk with pending := Fields.insert desk.pending state.execution ⟨state, alarm⟩ }

/-- Deploy a workflow. -/
def deploy (desk : Desk) (workflow : String) (deployment : Deployment) : Desk :=
  { desk with deployments := Fields.insert desk.deployments workflow deployment }

/-- Forget a workflow: its deployment, its definition and its pending runs. -/
def detach (desk : Desk) (workflow : String) : Desk :=
  { desk with
    definitions := Fields.erase desk.definitions workflow
    deployments := Fields.erase desk.deployments workflow
    pending := desk.pending.filter fun entry => entry.2.state.workflow != workflow }

/-- The pending runs, those first that were suspended first. -/
def pausedRuns (desk : Desk) : List Suspended :=
  Ordered.sort (fun a b => b.pausedAt.before a.pausedAt)
    ((Fields.values desk.pending).map Pending.state)

/-- The subscriptions, by workflow. -/
def subscriptions (desk : Desk) : List Subscription :=
  Ordered.sort (fun a b => b.workflow < a.workflow)
    ((Fields.values desk.deployments).map Deployment.subscription)

end Desk

end DurableFlow
