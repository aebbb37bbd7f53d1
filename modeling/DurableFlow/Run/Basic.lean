import DurableFlow.Metrics
import DurableFlow.Run.Node
import DurableFlow.Run.Notice

/-!
# Running a workflow

A run goes over a workflow in one pass, from its start or from where it was suspended,
until it completes, fails, is cancelled or is suspended. One task drives it from node to
node; the branches of parallel nodes and the several successors of a node are tasks of
their own. All tasks share the context of the run. What a task does at once, unseen by
the others, is one step; between two steps of one task any other task may take its own.
-/

namespace DurableFlow

/-- Where a task stands. -/
inductive Phase where
  /-- The node with this id is looked up and entered into the history. -/
  | entering (id : String)
  /-- The start of a node is published. -/
  | announcing (node : Node)
  /-- A node does what its kind asks for. -/
  | acting (node : Node)
  /-- The procedure of a node takes its time. -/
  | replying (node : Node) (procedure : String) (reply : Reply) (due : Nat)
  /-- The output of a node is written into the context. -/
  | recording (node : Node) (output : Data)
  /-- Branches are set off. -/
  | forking (join : Join) (ids : List String)
  /-- Branches are waited for. -/
  | joining (join : Join) (group count : Nat)
  /-- The ending of a node is published. -/
  | settling (node : Node) (ending : Ending)
  /-- The failure of a node is written into the context, and control goes elsewhere. -/
  | redirecting (node : Node) (target : String) (failure : Failure)
  | ended (ending : Ending)
deriving Repr

/-- A branch and the group of branches that are waited for together. -/
structure Branch where
  group : Nat
  phase : Phase
deriving Repr

/-- How a pass over a workflow comes to its end. -/
inductive Conclusion where
  | completed
  | suspended (node : String) (pause : Pause)
  | failed (failure : Failure)
deriving DecidableEq, Repr

/-- Where the task stands that drives a run. -/
inductive Drive where
  /-- These nodes are next. -/
  | choosing (next : List String)
  | running (phase : Phase)
  | concluded (conclusion : Conclusion)
deriving Repr

/-- A task of a run. -/
inductive TaskId where
  | driver
  | branch (id : Nat)
deriving DecidableEq, Repr

/-- A run in the midst of a pass. -/
structure Run where
  definition : Definition
  context : Context
  /-- The most steps of the driver that the pass may take. -/
  limit : Nat
  steps : Nat := 0
  /-- Somebody has asked for the run to be cancelled. -/
  isCancelled : Bool := false
  drive : Drive
  branches : List (Nat × Branch) := []
  nextBranch : Nat := 0
  nextGroup : Nat := 0
  /-- The endings of branches by their group, in the order in which they came. -/
  arrivals : List (Nat × Ending) := []
deriving Repr

/-- What a step shows to the world outside the run. -/
inductive Effect where
  | publish (happening : Happening)
  | count (tally : Tally)
  | call (procedure : String) (input : Data) (invocation : Invocation)
deriving DecidableEq, Repr

/-- What surrounds a step: the procedures, the time and the clock that replies are timed by. -/
structure Surroundings where
  catalog : Catalog
  moment : Moment
  clock : Nat

namespace Run

/-- A pass from given nodes on. -/
def start (definition : Definition) (context : Context) (limit : Nat) (next : List String) :
    Run :=
  { definition, context, limit, drive := .choosing next }

/-- A run that only lends its context to single nodes. -/
def idle (definition : Definition) (context : Context) : Run :=
  { definition, context, limit := 0, drive := .concluded .completed }

/-- The endings of a group so far. -/
def endingsOf (run : Run) (group : Nat) : List Ending :=
  (run.arrivals.filter (·.1 == group)).map (·.2)

/-- The branch with an id. -/
def branch? (run : Run) (id : Nat) : Option Branch := run.branches.lookup id

/-- Put a branch where it has come to. -/
def setPhase (run : Run) (id : Nat) (phase : Phase) : Run :=
  { run with
    branches := run.branches.map fun entry =>
      if entry.1 = id then (id, { entry.2 with phase }) else entry }

/-- Set off one branch for each id, as a new group. -/
def fork (run : Run) (phases : List Phase) : Run :=
  { run with
    branches := run.branches ++
      phases.mapIdx fun i phase => (run.nextBranch + i, ⟨run.nextGroup, phase⟩)
    nextBranch := run.nextBranch + phases.length
    nextGroup := run.nextGroup + 1 }

/-- The ids that the next branches will have. -/
def nextBranches (run : Run) (count : Nat) : List Nat :=
  (List.range count).map (run.nextBranch + ·)

/-- A branch that has broken down leaves its parent with nothing but that fact. -/
def arrival : Ending → Ending
  | .error .dateRange => .error .brokenBranch
  | ending => ending

/-- A branch has ended. -/
def arrive (run : Run) (id group : Nat) (ending : Ending) : Run :=
  { run with
    branches := run.branches.filter (·.1 != id)
    arrivals := run.arrivals ++ [(group, arrival ending)] }

/-- Nobody waits for a group any more. -/
def dismiss (run : Run) (group : Nat) : Run :=
  { run with arrivals := run.arrivals.filter (·.1 != group) }

/-- Whether a phase waits for a group. -/
def waitsFor (group : Nat) : Phase → Bool
  | .joining _ g _ => g == group
  | _ => false

/-- The task that waits for a group. -/
def waiter? (run : Run) (group : Nat) : Option TaskId :=
  match run.drive with
  | .running phase => if waitsFor group phase then some .driver else inBranches
  | _ => inBranches
where
  inBranches : Option TaskId :=
    (run.branches.find? fun entry => waitsFor group entry.2.phase).map fun entry =>
      .branch entry.1

end Run

end DurableFlow
