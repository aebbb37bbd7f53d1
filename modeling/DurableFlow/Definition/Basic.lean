import DurableFlow.Data.Basic

/-!
# Workflow definitions

A definition is a graph of nodes with a start. Each node says what it does, where
control goes when it is done, and where it goes when the node fails.
-/

namespace DurableFlow

/-- The nodes that follow a node: one, or several at once. -/
inductive Next where
  | one (id : String)
  | many (ids : List String)
deriving DecidableEq, Repr

/-- The ids in the order in which they are given. -/
def Next.ids : Next → List String
  | one id => [id]
  | many ids => ids

/-- How long an await node waits, and where control goes after that. -/
structure AwaitTimeout where
  durationMs : Nat
  node : Option String := none
deriving DecidableEq, Repr

/-- The two ways in which a condition may choose; both may be filled in. -/
structure Condition where
  expression : Option String := none
  trueBranch : Option String := none
  falseBranch : Option String := none
  switch : Option String := none
  cases : Fields String := []
  fallback : Option String := none
deriving DecidableEq, Repr

/-- What a node does. -/
inductive NodeKind where
  /-- Calls a procedure with the rendered configuration. -/
  | procedure (name : Option String) (config : Fields Data)
  /-- Chooses where control goes. -/
  | condition (condition : Condition)
  /-- Runs nodes at the same time and waits for all of them or for the first. -/
  | parallel (branches : List String) (waitForAll : Bool)
  | sequential
  /-- Suspends the run until one of the named events arrives. -/
  | await (procedures : List String) (filter : Option String) (timeout : Option AwaitTimeout)
deriving DecidableEq, Repr

/-- A node of a workflow. -/
structure Node where
  id : String
  kind : NodeKind
  next : Option Next := none
  onError : Option String := none
deriving DecidableEq, Repr

/-- The source of events that starts a workflow. -/
structure Trigger where
  provider : String
  /-- The procedure that creates the subscription. -/
  procedure : String
  /-- Only events of this type start runs, if one is given. -/
  eventType : Option String := none
  subscriptionConfig : Fields Data := []
deriving DecidableEq, Repr

/-- A workflow. -/
structure Definition where
  id : String
  name : String
  version : String := "1"
  /-- Bindings that a run starts with. -/
  vars : Fields Data := []
  start : String
  nodes : List Node
  trigger : Option Trigger := none
deriving DecidableEq, Repr

/-- How a condition chooses. -/
inductive ConditionForm where
  | predicate (expression : String) (trueBranch falseBranch : Option String)
  | switch (discriminator : String) (cases : Fields String) (fallback : Option String)
deriving DecidableEq, Repr

/-- A switch is followed even if an expression is given as well. -/
def Condition.form? (c : Condition) : Option ConditionForm :=
  match c.switch with
  | some discriminator => some (.switch discriminator c.cases c.fallback)
  | none =>
    match c.expression with
    | some expression => some (.predicate expression c.trueBranch c.falseBranch)
    | none => none

namespace NodeKind

def name : NodeKind → String
  | procedure .. => "procedure"
  | condition .. => "condition"
  | parallel .. => "parallel"
  | sequential => "sequential"
  | await .. => "await"

/-- The ids that a kind of node hands control to by itself. -/
def references : NodeKind → List String
  | procedure .. => []
  | condition c =>
    c.trueBranch.toList ++ c.falseBranch.toList ++ Fields.values c.cases ++ c.fallback.toList
  | parallel branches _ => branches
  | sequential => []
  | await _ _ (some ⟨_, some node⟩) => [node]
  | await .. => []

end NodeKind

namespace Node

/-- The ids that control goes to after the node, in the order in which they are given. -/
def successors (node : Node) : List String := (node.next.map Next.ids).getD []

/-- All ids that the node may hand control to. -/
def references (node : Node) : List String :=
  node.successors ++ node.onError.toList ++ node.kind.references

/-- How the node chooses, if it is a condition that says how. -/
def conditionForm? (node : Node) : Option ConditionForm :=
  match node.kind with
  | .condition c => c.form?
  | _ => none

theorem mem_references_of_mem_successors {node : Node} {id : String}
    (h : id ∈ node.successors) : id ∈ node.references := by
  simp [references, h]

end Node

namespace Definition

/-- The node with an id; of several the first. -/
def node? (d : Definition) (id : String) : Option Node := d.nodes.find? (·.id == id)

/-- The ids of the nodes in their order. -/
def ids (d : Definition) : List String := d.nodes.map (·.id)

theorem id_of_node? {d : Definition} {id : String} {node : Node} (h : d.node? id = some node) :
    node.id = id := by
  simpa using List.find?_some h

theorem mem_nodes_of_node? {d : Definition} {id : String} {node : Node}
    (h : d.node? id = some node) : node ∈ d.nodes :=
  List.mem_of_find?_eq_some h

end Definition

end DurableFlow
