import DurableFlow.Definition.Basic

/-!
# Validating definitions

A definition is valid when its node ids are distinct, every id that a node hands
control to is the id of a node, and every procedure that a node calls is known. The
procedure of a trigger is looked up only when the workflow is deployed.
-/

namespace DurableFlow

/-- What is wrong with a definition, or with a state that is to be resumed under one. -/
inductive Problem where
  | duplicateNode (id : String)
  | missingStart (id : String)
  | unknownReference (node reference : String)
  | unnamedProcedure (node : String)
  | unknownProcedure (node procedure : String)
  /-- A suspended run belongs to another workflow. -/
  | foreignState (execution found wanted : String)
deriving DecidableEq, Repr

def Problem.message : Problem → String
  | duplicateNode id => "duplicate node id '" ++ id ++ "'"
  | missingStart id => "start node '" ++ id ++ "' does not exist"
  | unknownReference node reference =>
    "node '" ++ node ++ "' references unknown node '" ++ reference ++ "'"
  | unnamedProcedure node => "procedure node '" ++ node ++ "' has no procedureName"
  | unknownProcedure node procedure =>
    "procedure node '" ++ node ++ "' uses unregistered procedure '" ++ procedure ++ "'"
  | foreignState execution found wanted =>
    "resume state of execution " ++ execution ++ " belongs to workflow '" ++ found ++
      "', not '" ++ wanted ++ "'"

namespace Definition

/-- The ids that have occurred before, in the order in which they occur again. -/
def repeated (seen : List String) : List String → List String
  | [] => []
  | id :: rest => if id ∈ seen then id :: repeated seen rest else repeated (id :: seen) rest

/-- The references of a node that no node answers to. -/
def danglingReferences (d : Definition) (node : Node) : List Problem :=
  (node.references.filter fun id => !d.ids.contains id).map (.unknownReference node.id)

/-- What is wrong with the procedure of a node. -/
def procedureProblems (known : String → Bool) (node : Node) : List Problem :=
  match node.kind with
  | .procedure none _ => [.unnamedProcedure node.id]
  | .procedure (some name) _ => if known name then [] else [.unknownProcedure node.id name]
  | _ => []

/-- All problems of a definition: repeated ids, then the start, then node by node. -/
def problems (known : String → Bool) (d : Definition) : List Problem :=
  (repeated [] d.ids).map .duplicateNode ++
    (if d.start ∈ d.ids then [] else [.missingStart d.start]) ++
    d.nodes.flatMap fun node => d.danglingReferences node ++ procedureProblems known node

/-- A definition without problems. -/
def Valid (known : String → Bool) (d : Definition) : Prop := d.problems known = []

instance (known : String → Bool) (d : Definition) : Decidable (d.Valid known) := by
  unfold Valid; infer_instance

end Definition

end DurableFlow
