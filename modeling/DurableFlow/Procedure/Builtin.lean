import DurableFlow.Data.Compact
import DurableFlow.Net.Url
import DurableFlow.Procedure.Basic
import DurableFlow.Source.Text
import DurableFlow.Text.Case

/-!
# Built-in procedures

The procedures that are there without being registered.
-/

namespace DurableFlow

/-- A request over the network. Its body is sent as the text of the data. -/
structure HttpRequest where
  url : String
  method : String
  headers : List (String × String) := []
  body : Option Data := none
deriving DecidableEq, Repr

/-- What comes back for a request. A header has no value here if its value is no text. -/
structure HttpResponse where
  status : Nat
  headers : List (String × Option String) := []
  text : String := ""
deriving DecidableEq, Repr

/-- Who sends requests: there is a response, or a text that says what has gone wrong. -/
abbrev Sender : Type := HttpRequest → Except String HttpResponse

/-- A sender that reaches nobody. -/
def Sender.offline : Sender := fun _ => .error "no network"

namespace Builtin

/-- The text of a field. -/
def text? (input : Data) (name : String) : Option String := (input.field? name).bind Data.text?

def noop : Procedure where
  contract :=
    { name := "core.noop", description := "Does nothing and returns an empty object" }
  reply _ _ _ := .output (.obj [])

def log : Procedure where
  contract := { name := "core.log", description := "Writes \x60message\x60 to the log" }
  reply _ _ input := .output (.obj [("logged", .str ((text? input "message").getD ""))])

def set : Procedure where
  contract :=
    { name := "core.set"
      description := "Returns the \x60values\x60 object so it is merged into variables" }
  reply _ _ input :=
    match input.field? "values" with
    | some (.obj values) => .output (.obj values)
    | some other => .failed ("core.set expects an object under 'values', got " ++ other.compact)
    | none => .output (.obj [])

/-- The names to wait for: one text, or the texts of an array. -/
def waitedNames (input : Data) : List String :=
  match input.field? "waitFor" with
  | some (.str name) => [name]
  | some (.arr names) => names.filterMap Data.text?
  | _ => []

/-- The timeout of a pause, if a natural number says how long it is. -/
def timeout? (input : Data) : Option AwaitTimeout :=
  match input.field? "timeoutMs" with
  | some (.num n) =>
    n.toNat64?.map fun durationMs => { durationMs, node := text? input "timeoutNode" }
  | _ => none

/-- The pause that a procedure's input describes, if it says what to wait for. -/
def pause? (input : Data) : Option Pause :=
  let names := waitedNames input
  if names.isEmpty then none
  else
    some
      { reason := (text? input "reason").getD "suspended by procedure"
        wait := { names, filter := text? input "filter" }
        timeout := timeout? input
        data := input.field "data" }

def suspend : Procedure where
  contract :=
    { name := "core.suspend"
      description := "Suspends the run until one of \x60waitFor\x60 arrives" }
  reply _ _ input :=
    match pause? input with
    | some pause => .suspend pause
    | none => .failed "core.suspend requires 'waitFor'"

/-- A number among the fields, or what is said about its absence. -/
def operand (input : Data) (name : String) : Except String Number :=
  match input.field? name with
  | some (.num n) => .ok n
  | some other => .error ("'" ++ name ++ "' must be a number, got " ++ other.compact)
  | none => .error ("missing operand '" ++ name ++ "'")

/-- The sum of two numbers: exact for two signed integers of 64 bits, else as floats. A
sum that is no finite float is null. -/
def sum (a b : Number) : Except String Data :=
  match a.toInt64?, b.toInt64? with
  | some a, some b =>
    if -(2 ^ (63 : Nat)) ≤ a + b ∧ a + b < 2 ^ (63 : Nat) then .ok (.int (a + b))
    else .error (toString a ++ " + " ++ toString b ++ " overflows a 64-bit integer")
  | _, _ => .ok (.ofOption ((a.toBinary64.add b.toBinary64).map fun x => .num (.float x)))

def add : Procedure where
  contract := { name := "math.add", description := "Adds \x60a\x60 and \x60b\x60" }
  reply _ _ input :=
    let result : Except String Data := do
      let a ← operand input "a"
      let b ← operand input "b"
      sum a b
    match result with
    | .ok value => .output (.obj [("result", value)])
    | .error text => .failed text

/-- The headers that an input asks for. A value that is no text is sent as it is written. -/
def requestHeaders (input : Data) : List (String × String) :=
  match input.field? "headers" with
  | some (.obj headers) =>
    headers.map fun (name, value) => (name, value.text?.getD value.compact)
  | _ => []

/-- The request that an input describes, or what is wrong with its address or its method. -/
def httpRequest (input : Data) : Except String HttpRequest :=
  match text? input "url" with
  | none => .error "http.request requires 'url'"
  | some url =>
    match Url.check url with
    | .error _ => .error ("invalid url '" ++ url ++ "'")
    | .ok () =>
      let method := Text.upper ((text? input "method").getD "GET")
      if isRequestMethod method then
        .ok { url, method, headers := requestHeaders input, body := input.field? "body" }
      else .error ("invalid method '" ++ method ++ "'")

/-- What a procedure gives back of a response. A text that is no data is given back as it is. -/
def responseData (response : HttpResponse) : Data :=
  let headers := response.headers.filterMap fun (name, value) =>
    value.map fun text => (name, Data.str text)
  let body :=
    match Source.decodeText Decode.data response.text with
    | .ok body => body
    | .error _ => .str response.text
  .ofPairs [("status", .int response.status), ("headers", .ofPairs headers), ("body", body)]

/-- Requests are checked here, and sent by someone else. -/
def request (send : Sender) : Procedure where
  contract :=
    { name := "http.request"
      description := "Performs an HTTP request and returns its status and body" }
  reply _ _ input :=
    match (httpRequest input).bind send with
    | .ok response => .output (responseData response)
    | .error text => .failed text

/-- The end of a channel that lives for some seconds. -/
def expiration? (now : Instant) (seconds : Int) : Option Instant :=
  if -(2 ^ (63 : Nat)) < seconds * 1000 ∧ seconds * 1000 < 2 ^ (63 : Nat) then
    now.addMillis? (seconds * 1000)
  else none

def watch : Procedure where
  contract :=
    { name := "webhook.watch"
      description := "Registers a generic webhook channel"
      provider := some "webhook"
      stopProcedure := some "webhook.stop" }
  reply moment _ input :=
    match text? input "webhookUrl" with
    | none => .failed "webhook.watch requires 'webhookUrl'"
    | some url =>
      let id := moment.freshId
      let channel : List (String × Data) :=
        [("id", .str id), ("channelId", .str ("channel-" ++ id)), ("webhookUrl", .str url)] ++
          Exchange.textIfSome "resourceId" (text? input "resource")
      match input.field? "ttlSeconds" with
      | some (.num n) =>
        match n.toInt64? with
        | none => .output (.ofPairs channel)
        | some seconds =>
          match expiration? moment.now seconds with
          | none => .dateRange
          | some located =>
            .output (.ofPairs (channel ++ [("expiration", .str located.offsetText)]))
      | _ => .output (.ofPairs channel)

def stop : Procedure where
  contract :=
    { name := "webhook.stop", description := "Tears down a channel created by webhook.watch" }
  reply _ _ input := .output (.ofPairs [("stopped", .bool true), ("id", input.field "id")])

/-- All built-in procedures. -/
def all (send : Sender := .offline) : List Procedure :=
  [noop, log, set, suspend, add, request send, watch, stop]

/-- The built-in procedures by their names. -/
def catalog (send : Sender := .offline) : Catalog := Catalog.ofList (all send)

end Builtin

end DurableFlow
