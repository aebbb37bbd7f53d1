import DurableFlow.Definition.Basic
import DurableFlow.Source.Decode

/-!
# Exchanging definitions

Definitions as data and back. An optional field that is absent is left out, and a
field with a default may be missing when it is read.
-/

namespace DurableFlow

open Exchange Decode

def Next.toData : Next → Data
  | one id => .str id
  | many ids => .texts ids

def AwaitTimeout.toData (t : AwaitTimeout) : Data :=
  .ofPairs (("durationMs", .nat t.durationMs) :: textIfSome "node" t.node)

/-- The fields that a kind of node adds to the node. -/
def NodeKind.fields (kind : NodeKind) : List (String × Data) :=
  ("type", .str kind.name) ::
  match kind with
  | procedure name config => textIfSome "procedureName" name ++ [("config", .obj config)]
  | condition c =>
    textIfSome "expression" c.expression ++ textIfSome "trueBranch" c.trueBranch ++
      textIfSome "falseBranch" c.falseBranch ++ textIfSome "switch" c.switch ++
      (if c.cases.isEmpty then [] else [("cases", .obj (Fields.mapValues .str c.cases))]) ++
      textIfSome "default" c.fallback
  | parallel branches waitForAll =>
    [("branches", .texts branches), ("waitForAll", .bool waitForAll)]
  | sequential => []
  | await procedures filter timeout =>
    ("procedures", .texts procedures) :: textIfSome "filter" filter ++
      ifSome "timeout" (timeout.map AwaitTimeout.toData)

def Node.toData (node : Node) : Data :=
  .ofPairs (("id", .str node.id) :: node.kind.fields ++
    ifSome "next" (node.next.map Next.toData) ++ textIfSome "onError" node.onError)

def Trigger.toData (t : Trigger) : Data :=
  .ofPairs ([("provider", .str t.provider), ("triggerProcedureName", .str t.procedure)] ++
    textIfSome "eventType" t.eventType ++ [("subscriptionConfig", .obj t.subscriptionConfig)])

def Definition.toData (d : Definition) : Data :=
  .ofPairs ([("id", .str d.id), ("name", .str d.name), ("version", .str d.version),
    ("variables", .obj d.vars), ("startNodeId", .str d.start),
    ("nodes", .arr (d.nodes.map Node.toData))] ++ ifSome "trigger" (d.trigger.map Trigger.toData))

/-- A text for one id, an array of texts for several. -/
def Next.decode (v : Source) : Except DecodeError Next :=
  match data v with
  | .error e => .error e
  | .ok (.str id) => .ok (.one id)
  | .ok (.arr items) =>
    match items.mapM Data.text? with
    | some ids => .ok (.many ids)
    | none => .error (.noVariant "Next")
  | .ok _ => .error (.noVariant "Next")

def AwaitTimeout.decode (v : Source) : Except DecodeError AwaitTimeout := do
  let fields ← record "AwaitTimeout"
    [.of "durationMs" nat64, .of "node" (option string)] (· == "durationMs") v
  let durationMs ← required fields "durationMs" nat64
  let node ← optional fields "node" string
  .ok { durationMs, node }

namespace NodeKind

/-- The names of the kinds in their order. -/
def names : List String := ["procedure", "condition", "parallel", "sequential", "await"]

/-- The name of a kind, or its position among the names. -/
def decodeName (v : Source) : Except DecodeError String :=
  match v with
  | .str s => if s ∈ names then .ok s else .error (.unknownVariant s names)
  | .num (.int i) =>
    if i < 0 then .error (v.mismatch "variant identifier")
    else
      match names[i.toNat]? with
      | some name => .ok name
      | none => .error (.wrongValue (Source.describeNumber (.int i)) "variant index 0 <= i < 5")
  | v => .error (v.mismatch "variant identifier")

/-- The name of the kind among the fields of a node, which has to be there once. -/
def nameAmong (found : Option String) :
    List (String × Source) → Except DecodeError String
  | [] =>
    match found with
    | some name => .ok name
    | none => .error (.missingField "type")
  | (field, v) :: rest =>
    if field = "type" then
      match found with
      | some _ => .error (.duplicateField "type")
      | none =>
        match decodeName v with
        | .error e => .error e
        | .ok name => nameAmong (some name) rest
    else nameAmong found rest

def decodeProcedure (fields : List (String × Source)) : Except DecodeError NodeKind := do
  let known ← recordFields
    [.of "procedureName" (option string), .of "config" (map data)] [] fields
  let name ← optional known "procedureName" string
  let config ← defaulted known "config" (map data) []
  .ok (.procedure name config)

def decodeCondition (fields : List (String × Source)) : Except DecodeError NodeKind := do
  let known ← recordFields
    [.of "expression" (option string), .of "trueBranch" (option string),
      .of "falseBranch" (option string), .of "switch" (option string),
      .of "cases" (map string), .of "default" (option string)] [] fields
  let expression ← optional known "expression" string
  let trueBranch ← optional known "trueBranch" string
  let falseBranch ← optional known "falseBranch" string
  let switch ← optional known "switch" string
  let cases ← defaulted known "cases" (map string) []
  let fallback ← optional known "default" string
  .ok (.condition { expression, trueBranch, falseBranch, switch, cases, fallback })

def decodeParallel (fields : List (String × Source)) : Except DecodeError NodeKind := do
  let known ← recordFields [.of "branches" (list string), .of "waitForAll" bool] [] fields
  let branches ← required known "branches" (list string)
  let waitForAll ← defaulted known "waitForAll" bool true
  .ok (.parallel branches waitForAll)

def decodeAwait (fields : List (String × Source)) : Except DecodeError NodeKind := do
  let known ← recordFields
    [.of "procedures" (list string), .of "filter" (option string),
      .of "timeout" (option AwaitTimeout.decode)] [] fields
  let procedures ← required known "procedures" (list string)
  let filter ← optional known "filter" string
  let timeout ← optional known "timeout" AwaitTimeout.decode
  .ok (.await procedures filter timeout)

/-- The kind that the fields of a node describe, once those of the node itself are taken out. -/
def decode (fields : List (String × Source)) : Except DecodeError NodeKind := do
  let name ← nameAmong none fields
  match name with
  | "procedure" => decodeProcedure fields
  | "condition" => decodeCondition fields
  | "parallel" => decodeParallel fields
  | "await" => decodeAwait fields
  | _ => .ok .sequential

end NodeKind

namespace Node

/-- The fields that a node has whatever its kind. -/
def ownFields : List FieldSpec :=
  [.of "id" string, .of "next" (option Next.decode), .of "onError" (option string)]

/-- Tell the fields of the node from those of its kind, each checked where it stands. -/
def splitFields (seen : List String) : List (String × Source) →
    Except DecodeError (List (String × Source) × List (String × Source))
  | [] => .ok ([], [])
  | (name, v) :: rest =>
    match ownFields.find? (·.name == name) with
    | some spec =>
      if name ∈ seen then .error (.duplicateField name)
      else
        match spec.check v with
        | .error e => .error e
        | .ok () =>
          match splitFields (name :: seen) rest with
          | .error e => .error e
          | .ok (own, others) => .ok ((name, v) :: own, others)
    | none =>
      match data v with
      | .error e => .error e
      | .ok _ =>
        match splitFields seen rest with
        | .error e => .error e
        | .ok (own, others) => .ok (own, (name, v.settled) :: others)

def decode (v : Source) : Except DecodeError Node :=
  match v.untagged with
  | .obj fields stop => do
    let (own, others) ← splitFields [] fields
    stopError stop
    let id ← required own "id" string
    let next ← optional own "next" Next.decode
    let onError ← optional own "onError" string
    let kind ← NodeKind.decode others
    .ok { id, kind, next, onError }
  | v => .error (v.mismatch "struct WorkflowNode")

end Node

def Trigger.decode (v : Source) : Except DecodeError Trigger := do
  let fields ← record "TriggerDescriptor"
    [.of "provider" string, .of "triggerProcedureName" string,
      .of "eventType" (option string), .of "subscriptionConfig" (map data)]
    (fun name => name == "provider" || name == "triggerProcedureName") v
  let provider ← required fields "provider" string
  let procedure ← required fields "triggerProcedureName" string
  let eventType ← optional fields "eventType" string
  let subscriptionConfig ← defaulted fields "subscriptionConfig" (map data) []
  .ok { provider, procedure, eventType, subscriptionConfig }

namespace Definition

def decode (v : Source) : Except DecodeError Definition := do
  let fields ← record "WorkflowDefinition"
    [.of "id" string, .of "name" string, .of "version" string, .of "variables" (map data),
      .of "startNodeId" string, .of "nodes" (list Node.decode),
      .of "trigger" (option Trigger.decode)]
    (fun name => name ∈ ["id", "name", "startNodeId", "nodes"]) v
  let id ← required fields "id" string
  let name ← required fields "name" string
  let version ← defaulted fields "version" string "1"
  let vars ← defaulted fields "variables" (map data) []
  let start ← required fields "startNodeId" string
  let nodes ← required fields "nodes" (list Node.decode)
  let trigger ← optional fields "trigger" Trigger.decode
  .ok { id, name, version, vars, start, nodes, trigger }

/-- The definition that data describes. -/
def ofData (v : Data) : Except DecodeError Definition := decode (.ofData v)

end Definition

end DurableFlow
