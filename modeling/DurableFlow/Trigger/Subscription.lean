import DurableFlow.Failure
import DurableFlow.Procedure.Basic

/-!
# Subscriptions

Deploying a workflow makes its trigger procedure subscribe with a provider. What the
procedure gives back is kept, because the same handles take the subscription back.
-/

namespace DurableFlow

open Exchange Decode

/-- What a provider's subscription goes by. -/
structure Subscription where
  workflow : String
  id : String
  provider : String
  /-- The procedure that created the subscription. -/
  procedure : String
  channel : Option String := none
  resource : Option String := none
  /-- All that the procedure gave back. -/
  metadata : Data := .null
  createdAt : Instant
  expiresAt : Option Instant := none
deriving DecidableEq, Repr

namespace Subscription

/-- The id among the handles: a text that is not empty, or a number. -/
def id? (output : Data) : Option String :=
  match output.field? "id" with
  | some (.str id) => if id.isEmpty then none else some id
  | some (.num n) => some (toString n)
  | _ => none

/-- An instant in milliseconds since the start of 1970. -/
def ofMillis (value : Data) (millis : Option Int) : Except TriggerFault Instant :=
  match millis.bind Instant.ofMillis? with
  | some t => .ok t
  | none => .error (.invalidExpiration value)

/-- The end of a subscription: a date as a text, or milliseconds as a number or a text. -/
def expiration (value : Data) : Except TriggerFault Instant :=
  match value with
  | .num n => ofMillis value n.toInt64?
  | .str s =>
    match Instant.parseStrict s with
    | .ok t => .ok t
    | .error _ => ofMillis value (Bounded.int64? s)
  | _ => .error (.invalidExpiration value)

/-- The end of a subscription, if there is one. -/
def expiresAt? (output : Data) : Except TriggerFault (Option Instant) :=
  match output.field? "expiration" with
  | none | some .null => .ok none
  | some value => (expiration value).map some

/-- The subscription that a trigger procedure's output describes. -/
def ofOutput (now : Instant) (workflow : String) (trigger : Trigger) (output : Data) :
    Except TriggerFault Subscription :=
  match id? output with
  | none => .error (.noSubscriptionId trigger.procedure)
  | some id =>
    match expiresAt? output with
    | .error fault => .error fault
    | .ok expiresAt =>
      .ok
        { workflow
          id
          provider := trigger.provider
          procedure := trigger.procedure
          channel := (output.field? "channelId").bind Data.text?
          resource := (output.field? "resourceId").bind Data.text?
          metadata := output
          createdAt := now
          expiresAt }

/-- What the stop procedure is given: all handles again. -/
def stopInput (subscription : Subscription) : Data :=
  .obj (Fields.merge subscription.metadata.fields (Fields.ofList
    (("id", .str subscription.id) :: textIfSome "channelId" subscription.channel ++
      textIfSome "resourceId" subscription.resource)))

/-- The text before an ending, if the text has it. -/
def beforeEnding? (ending text : String) : Option String :=
  let cs := text.toList
  let keep := cs.length - ending.length
  if ending.length ≤ cs.length ∧ cs.drop keep = ending.toList then
    some (String.ofList (cs.take keep))
  else none

/-- The procedure that takes back what another one has set up: the one that it names, else
the one that goes by the counterpart of its name. -/
def stopProcedure? (name : String) (declared : Option String) : Option String :=
  match declared with
  | some stop => some stop
  | none =>
    match beforeEnding? ".watch" name with
    | some stem => some (stem ++ ".stop")
    | none => (beforeEnding? ".subscribe" name).map (· ++ ".unsubscribe")

def toData (subscription : Subscription) : Data :=
  .ofPairs ([("workflowId", .str subscription.workflow), ("subscriptionId", .str subscription.id),
    ("provider", .str subscription.provider),
    ("triggerProcedureName", .str subscription.procedure)] ++
    textIfSome "channelId" subscription.channel ++
    textIfSome "resourceId" subscription.resource ++
    [("metadata", subscription.metadata), ("createdAt", .str subscription.createdAt.zuluText)] ++
    textIfSome "expiresAt" (subscription.expiresAt.map Instant.zuluText))

def decode (v : Source) : Except DecodeError Subscription := do
  let fields ← record "TriggerSubscription"
    [.of "workflowId" string, .of "subscriptionId" string, .of "provider" string,
      .of "triggerProcedureName" string, .of "channelId" (option string),
      .of "resourceId" (option string), .of "metadata" data, .of "createdAt" instant,
      .of "expiresAt" (option instant)]
    (fun name => name ∉ ["channelId", "resourceId", "metadata", "expiresAt"]) v
  let workflow ← required fields "workflowId" string
  let id ← required fields "subscriptionId" string
  let provider ← required fields "provider" string
  let procedure ← required fields "triggerProcedureName" string
  let channel ← optional fields "channelId" string
  let resource ← optional fields "resourceId" string
  let metadata ← defaulted fields "metadata" data .null
  let createdAt ← required fields "createdAt" instant
  let expiresAt ← optional fields "expiresAt" instant
  .ok { workflow, id, provider, procedure, channel, resource, metadata, createdAt, expiresAt }

end Subscription

end DurableFlow
