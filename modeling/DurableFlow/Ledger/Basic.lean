import DurableFlow.Data.Ordered
import DurableFlow.Failure
import DurableFlow.Ledger.Record
import DurableFlow.Run.Suspended
import DurableFlow.Trigger.Subscription

/-!
# The ledger

What outlives a process: the records of runs, the suspended runs and the subscriptions.
Rows keep the place in which they were first written; listings are sorted by the text of
an instant, rows with one text staying in their order. Data is stored as text, and what is
looked up is read back from there. Any of the operations can be switched off, and then
fails without an effect.
-/

namespace DurableFlow

/-- The operations on a ledger. -/
inductive LedgerCall where
  | saveRun
  | settleRun
  | getRun
  | listRuns
  | saveSuspended
  | deleteSuspended
  | listSuspended
  | saveSubscription
  | deleteSubscription
  | listSubscriptions
deriving DecidableEq, Repr

namespace LedgerCall

def all : List LedgerCall :=
  [saveRun, settleRun, getRun, listRuns, saveSuspended, deleteSuspended, listSuspended,
    saveSubscription, deleteSubscription, listSubscriptions]

def text : LedgerCall → String
  | saveRun => "save_execution"
  | settleRun => "complete_execution"
  | getRun => "get_execution"
  | listRuns => "list_executions"
  | saveSuspended => "save_resume_state"
  | deleteSuspended => "delete_resume_state"
  | listSuspended => "list_resume_states"
  | saveSubscription => "save_subscription"
  | deleteSubscription => "delete_subscription"
  | listSubscriptions => "list_subscriptions"

def ofText? (text : String) : Option LedgerCall := all.find? (·.text == text)

end LedgerCall

/-- The record of a run as it is read back. -/
def RunRecord.reread (record : RunRecord) : Except Failure RunRecord :=
  match record.output with
  | none => .ok record
  | some output =>
    Failure.ofDecode (output.reread.map fun output => { record with output := some output })

/-- A suspended run as it is read back. -/
def Suspended.reread (state : Suspended) : Except Failure Suspended :=
  Failure.ofDecode (Source.decodeText (Suspended.decode state.startedAt) state.toData.compact)

/-- A subscription as it is read back. -/
def Subscription.reread (subscription : Subscription) : Except Failure Subscription :=
  Failure.ofDecode (subscription.metadata.reread.map fun metadata => { subscription with metadata })

/-- What is stored. -/
structure Ledger where
  runs : List RunRecord := []
  suspended : List Suspended := []
  subscriptions : List Subscription := []
  /-- The operations that fail. -/
  failing : List LedgerCall := []
deriving DecidableEq, Repr

namespace Ledger

/-- Whether an operation can be carried out. -/
def serves (ledger : Ledger) (call : LedgerCall) : Bool := !ledger.failing.contains call

/-- Put a row in the place of the one with its key, or behind all others. -/
def upsert {α : Type} (sameKey : α → Bool) (replace : α → α) (row : α) : List α → List α
  | [] => [row]
  | r :: rest =>
    if sameKey r then replace r :: rest else r :: upsert sameKey replace row rest

/-- The latest first. -/
def latestFirst {α : Type} (instant : α → Instant) (rows : List α) : List α :=
  Ordered.sort (fun a b => (instant a).offsetText < (instant b).offsetText) rows

/-- The earliest first. -/
def earliestFirst {α : Type} (instant : α → Instant) (rows : List α) : List α :=
  Ordered.sort (fun a b => (instant b).offsetText < (instant a).offsetText) rows

/-- Keep the record of a run, over the one that is there. -/
def saveRun (ledger : Ledger) (record : RunRecord) : Except Failure Ledger :=
  if ledger.serves .saveRun then
    .ok { ledger with
      runs := upsert (·.execution == record.execution) (·.replaceBy record) record ledger.runs }
  else .error .storeDown

/-- Change the record of a run, which has to be there. -/
def settleRun (ledger : Ledger) (execution : String) (outcome : RunOutcome) :
    Except Failure Ledger :=
  if ledger.serves .settleRun then
    if ledger.runs.any (·.execution == execution) then
      .ok { ledger with
        runs := ledger.runs.map fun r => if r.execution = execution then r.settle outcome else r }
    else .error (.notFound (.execution execution))
  else .error .storeDown

def getRun (ledger : Ledger) (execution : String) : Except Failure (Option RunRecord) :=
  if ledger.serves .getRun then
    match ledger.runs.find? (·.execution == execution) with
    | none => .ok none
    | some record => record.reread.map some
  else .error .storeDown

/-- The records of a workflow or of all, the latest first, as many as asked for; a
negative limit is none. -/
def recentRuns (ledger : Ledger) (workflow : Option String) (limit : Int) : List RunRecord :=
  let rows := ledger.runs.filter fun r =>
    match workflow with
    | none => true
    | some id => r.workflow == id
  let rows := latestFirst RunRecord.startedAt rows
  if limit < 0 then rows else rows.take limit.toNat

def listRuns (ledger : Ledger) (workflow : Option String) (limit : Int) :
    Except Failure (List RunRecord) :=
  if ledger.serves .listRuns then (ledger.recentRuns workflow limit).mapM RunRecord.reread
  else .error .storeDown

/-- Keep a suspended run, in the place of an older state of the same run. -/
def saveSuspended (ledger : Ledger) (state : Suspended) : Except Failure Ledger :=
  if ledger.serves .saveSuspended then
    .ok { ledger with
      suspended :=
        upsert (·.execution == state.execution) (fun _ => state) state ledger.suspended }
  else .error .storeDown

def deleteSuspended (ledger : Ledger) (execution : String) : Except Failure Ledger :=
  if ledger.serves .deleteSuspended then
    .ok { ledger with suspended := ledger.suspended.filter (·.execution != execution) }
  else .error .storeDown

/-- The suspended runs, those first that were suspended first. -/
def suspendedRuns (ledger : Ledger) : List Suspended :=
  earliestFirst Suspended.pausedAt ledger.suspended

def listSuspended (ledger : Ledger) : Except Failure (List Suspended) :=
  if ledger.serves .listSuspended then ledger.suspendedRuns.mapM Suspended.reread
  else .error .storeDown

/-- Keep the subscription of a workflow, in the place of an older one. -/
def saveSubscription (ledger : Ledger) (subscription : Subscription) : Except Failure Ledger :=
  if ledger.serves .saveSubscription then
    .ok { ledger with
      subscriptions :=
        upsert (·.workflow == subscription.workflow) (fun _ => subscription) subscription
          ledger.subscriptions }
  else .error .storeDown

def deleteSubscription (ledger : Ledger) (workflow : String) : Except Failure Ledger :=
  if ledger.serves .deleteSubscription then
    .ok { ledger with subscriptions := ledger.subscriptions.filter (·.workflow != workflow) }
  else .error .storeDown

/-- The subscriptions, those first that were created first. -/
def activeSubscriptions (ledger : Ledger) : List Subscription :=
  earliestFirst Subscription.createdAt ledger.subscriptions

def listSubscriptions (ledger : Ledger) : Except Failure (List Subscription) :=
  if ledger.serves .listSubscriptions then
    ledger.activeSubscriptions.mapM Subscription.reread
  else .error .storeDown

end Ledger

end DurableFlow
