import DurableFlow.Source.Decode

/-!
# Events

An event is what a provider sends. It answers a paused run, or it starts a new one.
-/

namespace DurableFlow

open Exchange Decode

/-- An event from a provider. -/
structure Event where
  id : String
  provider : String
  /-- The callback that the event answers. -/
  trigger : Option String := none
  subscription : Option String := none
  type : Option String := none
  payload : Data := .null
  headers : Fields String := []
  timestamp : Instant
deriving DecidableEq, Repr

namespace Event

def toData (event : Event) : Data :=
  .ofPairs ([("id", .str event.id), ("provider", .str event.provider)] ++
    textIfSome "triggerId" event.trigger ++ textIfSome "subscriptionId" event.subscription ++
    textIfSome "eventType" event.type ++
    [("payload", event.payload), ("headers", .obj (Fields.mapValues .str event.headers)),
      ("timestamp", .str event.timestamp.zuluText)])

def decode (v : Source) : Except DecodeError Event := do
  let fields ← record "TriggerEvent"
    [.of "id" string, .of "provider" string, .of "triggerId" (option string),
      .of "subscriptionId" (option string), .of "eventType" (option string),
      .of "payload" data, .of "headers" (map string), .of "timestamp" instant]
    (fun name => name ∈ ["id", "provider", "timestamp"]) v
  let id ← required fields "id" string
  let provider ← required fields "provider" string
  let trigger ← optional fields "triggerId" string
  let subscription ← optional fields "subscriptionId" string
  let type ← optional fields "eventType" string
  let payload ← defaulted fields "payload" data .null
  let headers ← defaulted fields "headers" (map string) []
  let timestamp ← required fields "timestamp" instant
  .ok { id, provider, trigger, subscription, type, payload, headers, timestamp }

/-- The event as a run sees it, with a null for everything that is absent. -/
def toVariables (event : Event) : Data :=
  let text (t : Option String) : Data := .ofOption (t.map .str)
  .ofPairs [("id", .str event.id), ("provider", .str event.provider),
    ("triggerId", text event.trigger), ("subscriptionId", text event.subscription),
    ("eventType", text event.type), ("payload", event.payload),
    ("headers", .obj (Fields.mapValues .str event.headers)),
    ("timestamp", .str event.timestamp.offsetText)]

/-- What a resumed run finds among its variables: the fields of the payload, or a payload
that is no object under one name, and over them the event itself. -/
def delta (event : Event) : Fields Data :=
  let payload : Fields Data :=
    match event.payload with
    | .obj fields => fields
    | .null => []
    | other => [("payload", other)]
  Fields.insert payload "event" event.toVariables

/-- What a run that the event starts finds among its variables. -/
def input (event : Event) : Data :=
  .ofPairs [("event", event.toVariables), ("trigger", event.toVariables)]

end Event

end DurableFlow
