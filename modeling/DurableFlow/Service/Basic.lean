import DurableFlow.World.Basic

/-!
# The service

The service lets providers send events and lets others look at runs and cancel pending
ones. A request names a resource by its path; a resource takes some methods only.
-/

namespace DurableFlow

/-- A request as it was sent. -/
structure Message where
  method : String
  path : String
  /-- The headers in the order in which they were sent. -/
  headers : List (String × String) := []
  body : String := ""
deriving DecidableEq, Repr

/-- What a response carries. -/
inductive Body where
  | none
  | text (text : String)
  | data (data : Data)
  /-- Sample lines of metrics. -/
  | samples (lines : List String)
deriving DecidableEq, Repr

/-- A response. -/
structure Response where
  status : Nat
  body : Body := .none
  /-- The response tells of its body, but does not carry it. -/
  isHeadOnly : Bool := false
deriving DecidableEq, Repr

namespace Response

def contentType (response : Response) : Option String :=
  match response.body with
  | .none => none
  | .text _ | .samples _ => some "text/plain; charset=utf-8"
  | .data _ => some "application/json"

/-- A response with data. -/
def ok (data : Data) : Response := { status := 200, body := .data data }

/-- A response that says what is wrong. -/
def fault (status : Nat) (text : String) : Response :=
  { status, body := .data (.obj [("error", .str text)]) }

/-- There is no such resource. -/
def notFound : Response := { status := 404 }

/-- The resource does not take the method. -/
def methodNotAllowed : Response := { status := 405 }

/-- What is carried by the response. -/
def carried (response : Response) : Body :=
  if response.isHeadOnly then .none else response.body

end Response

namespace Service

/-- The resources by their paths. -/
inductive Resource where
  | health
  | metrics
  | webhook (provider : String)
  | pausedRuns
  | run (id : String)
deriving DecidableEq, Repr

/-- The parts of a path between slashes. -/
def segments (path : String) : List String :=
  let path := (path.toList.takeWhile fun c => c != '?' && c != '#')
  let parts := path.foldr (fun c parts =>
    if c = '/' then [] :: parts
    else
      match parts with
      | part :: rest => (c :: part) :: rest
      | [] => [[c]]) [[]]
  parts.map String.ofList

/-- A part of a path with its escapes resolved, if they spell a text. -/
def decodeSegment? (segment : String) : Option String :=
  String.fromUTF8? ⟨(Url.percentDecoded segment.toList).toArray⟩

/-- A part of a path that names something: the name, or what is said about a part that
is no text. -/
def parameter (name segment : String) : Except Response String :=
  match decodeSegment? segment with
  | some text => .ok text
  | none =>
    .error
      { status := 400, body := .text ("Invalid URL: Invalid UTF-8 in \x60" ++ name ++ "\x60") }

/-- The resource that a path names, and the methods that it takes. -/
def route? (path : String) : Option (Except Response Resource × List String) :=
  match segments path with
  | ["", "health"] => some (.ok .health, ["GET", "HEAD"])
  | ["", "metrics"] => some (.ok .metrics, ["GET", "HEAD"])
  | ["", "webhooks", provider] =>
    if provider.isEmpty then none
    else some ((parameter "provider" provider).map .webhook, ["POST"])
  | ["", "executions", "paused"] => some (.ok .pausedRuns, ["GET", "HEAD"])
  | ["", "executions", id] =>
    if id.isEmpty then none
    else some ((parameter "id" id).map .run, ["GET", "HEAD", "DELETE"])
  | _ => none

/-- A header value that is plain text. -/
def isPlain (value : String) : Bool :=
  value.toList.all fun c => c == '\t' || (' ' ≤ c && c ≤ '~')

/-- The first value of a header, if it is plain text. -/
def header? (headers : List (String × String)) (name : String) : Option String :=
  (headers.lookup name).filter isPlain

/-- The payload that a body spells, null for an empty one. -/
def payload? (body : String) : Option Data :=
  if body.isEmpty then some .null
  else (Source.decodeText Decode.data body).toOption

/-- The event that a request of a provider carries. -/
def event (moment : Moment) (provider : String) (headers : List (String × String))
    (payload : Data) : Event :=
  let headers := headers.map fun h => (Text.lowerAscii h.1, h.2)
  { id := (header? headers "x-event-id").getD moment.freshId
    provider
    trigger := header? headers "x-trigger-id"
    subscription := header? headers "x-subscription-id"
    type := header? headers "x-event-type"
    payload
    headers := Fields.ofList (headers.filter fun h => isPlain h.2)
    timestamp := moment.now }

/-- What a request leads to: a response at once, or one that an errand has to find out. -/
inductive Handling where
  | respond (response : Response)
  /-- The event is on its way when the response is given. -/
  | accept (response : Response) (event : Event)
  /-- A pending run is to be cancelled. -/
  | cancel (execution : String)

/-- The record of a run. -/
def showRun (engine : Engine) (id : String) : Response :=
  match engine.ledger with
  | none => .fault 404 "Execution not found"
  | some ledger =>
    match ledger.getRun id with
    | .ok (some record) => .ok record.toData
    | .ok none => .fault 404 "Execution not found"
    | .error _ => .fault 500 "Failed to load execution"

/-- Take in the event of a provider. -/
def receive (engine : Engine) (office : Office) (provider : String)
    (message : Message) : Handling :=
  match payload? message.body with
  | none => .respond (.fault 400 "Body must be JSON")
  | some payload =>
    let event := event engine.moment provider message.headers payload
    .accept
      { status := 202
        body := .data (.ofPairs [("eventId", .str event.id),
          ("handlers", .nat (office.board.count provider))]) }
      event

/-- Handle a request for a resource with a method that it takes. -/
def serve (engine : Engine) (office : Office) (message : Message) :
    Resource → Handling
  | .health => .respond (.ok (.obj [("status", .str "healthy")]))
  | .metrics => .respond { status := 200, body := .samples engine.metrics.samples }
  | .webhook provider => receive engine office provider message
  | .pausedRuns => .respond (.ok (.arr (office.desk.pausedRuns.map Suspended.toData)))
  | .run id =>
    if message.method = "DELETE" then .cancel id else .respond (showRun engine id)

/-- Handle a request for a resource, whatever its method. -/
def handleAny (engine : Engine) (office : Office) (message : Message) : Handling :=
  match route? message.path with
  | none => .respond .notFound
  | some (resource, methods) =>
    if !methods.contains message.method then .respond .methodNotAllowed
    else
      match resource with
      | .error response => .respond response
      | .ok resource => serve engine office message resource

/-- Handle a request. A `HEAD` request gets what a `GET` request would, without its body. -/
def handle (engine : Engine) (office : Office) (message : Message) : Handling :=
  match handleAny engine office message with
  | .respond response => .respond { response with isHeadOnly := message.method = "HEAD" }
  | handling => handling

/-- The response to a request for a run to be cancelled. -/
def cancelled : Answer → Response
  | .suspended state => .ok state.toData
  | .failed (.notFound _) => .fault 404 "Pending execution not found"
  | _ => .fault 500 "Failed to cancel execution"

end Service

end DurableFlow
