import DurableFlow.Definition.Basic

/-!
# Building definitions

Constructors for nodes of each kind and the changes that are usually made to them.
-/

namespace DurableFlow

namespace Node

/-- Calls a procedure; a configuration that is no object counts as empty. -/
def procedure (id name : String) (config : Data) : Node :=
  { id, kind := .procedure (some name) config.fields }

/-- Chooses between two nodes. -/
def predicate (id expression trueBranch falseBranch : String) : Node :=
  { id, kind := .condition
      { expression := some expression
        trueBranch := some trueBranch
        falseBranch := some falseBranch } }

/-- Chooses between several nodes. -/
def switch (id discriminator : String) (cases : List (String × String))
    (fallback : Option String) : Node :=
  { id, kind := .condition
      { switch := some discriminator
        cases := Fields.ofList cases
        fallback } }

def parallel (id : String) (branches : List String) (waitForAll : Bool) : Node :=
  { id, kind := .parallel branches waitForAll }

def sequential (id : String) : Node := { id, kind := .sequential }

def await (id : String) (procedures : List String) : Node :=
  { id, kind := .await procedures none none }

/-- Set the filter of an await node; other nodes have none to set. -/
def withFilter (node : Node) (filter : String) : Node :=
  match node.kind with
  | .await procedures _ timeout => { node with kind := .await procedures (some filter) timeout }
  | _ => node

/-- Set the timeout of an await node; other nodes have none to set. -/
def withTimeout (node : Node) (timeout : AwaitTimeout) : Node :=
  match node.kind with
  | .await procedures filter _ => { node with kind := .await procedures filter (some timeout) }
  | _ => node

end Node

/-- A definition that goes by its id. -/
def Definition.ofNodes (id start : String) (nodes : List Node) : Definition :=
  { id, name := id, start, nodes }

end DurableFlow
