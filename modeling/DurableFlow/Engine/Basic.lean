import DurableFlow.Ledger.Basic
import DurableFlow.Run.Advance
import DurableFlow.Run.Result

/-!
# The engine

The engine runs workflows: it knows the procedures, keeps the runs that are under way,
publishes what happens to them and writes their records. The ledger may be missing or
fail; neither changes what becomes of a run.
-/

namespace DurableFlow

/-- The call of a procedure. -/
structure Call where
  procedure : String
  input : Data
  invocation : Invocation
deriving DecidableEq, Repr

/-- The engine. -/
structure Engine where
  catalog : Catalog
  /-- The most steps that one pass of a run may take. -/
  limit : Nat := 10000
  ledger : Option Ledger := none
  metrics : Metrics := {}
  /-- What has been published, the latest first. -/
  notices : List Notice := []
  /-- The calls of procedures, the latest first. -/
  calls : List Call := []
  /-- The instant at which the engine was set up. -/
  epoch : Instant
  /-- The milliseconds that the clock has run since then. -/
  clock : Nat := 0
  /-- The moments that have been handed out. -/
  moments : Nat := 0
  runs : List (Nat × Run) := []
  nextRun : Nat := 0

namespace Engine

/-- The next moment. Moments differ from one another and only grow. -/
def moment (engine : Engine) : Moment :=
  { now := { engine.epoch with
      second := engine.epoch.second + engine.moments / 10 ^ (9 : Nat)
      nano := engine.moments % 10 ^ (9 : Nat) }
    serial := engine.moments }

/-- The engine once the next moment is handed out. -/
def tick (engine : Engine) : Engine := { engine with moments := engine.moments + 1 }

def publish (engine : Engine) (notice : Notice) : Engine :=
  { engine with notices := notice :: engine.notices }

def count (engine : Engine) (tally : Tally) : Engine :=
  { engine with metrics := engine.metrics.count tally }

/-- Show how many runs are pending. -/
def showPending (engine : Engine) (pending : Nat) : Engine :=
  { engine with metrics := { engine.metrics with pending } }

def logCall (engine : Engine) (procedure : String) (input : Data) (invocation : Invocation) :
    Engine :=
  { engine with calls := ⟨procedure, input, invocation⟩ :: engine.calls }

/-- Write to the ledger, if there is one. What cannot be written is left out. -/
def write (engine : Engine) (change : Ledger → Except Failure Ledger) : Engine :=
  match engine.ledger with
  | none => engine
  | some ledger =>
    match change ledger with
    | .ok ledger => { engine with ledger := some ledger }
    | .error _ => engine

/-- A definition that may be run. -/
def validate (engine : Engine) (d : Definition) : Except Failure Unit :=
  match d.problems engine.catalog.knows with
  | [] => .ok ()
  | problems => .error (.invalid problems)

/-- What surrounds the next step of a run. -/
def surroundings (engine : Engine) : Surroundings :=
  { catalog := engine.catalog, moment := engine.moment, clock := engine.clock }

/-- Show an effect of a run. -/
def perform (context : Context) (engine : Engine) : Effect → Engine
  | .publish happening => engine.publish ⟨context.workflow, context.execution, happening⟩
  | .count tally => engine.count tally
  | .call procedure input invocation => engine.logCall procedure input invocation

def run? (engine : Engine) (id : Nat) : Option Run := engine.runs.lookup id

def setRun (engine : Engine) (id : Nat) (run : Run) : Engine :=
  { engine with
    runs := engine.runs.map fun entry => if entry.1 = id then (id, run) else entry }

/-- Take up a run, under a new id. -/
def adopt (engine : Engine) (run : Run) : Nat × Engine :=
  (engine.nextRun,
    { engine with
      runs := engine.runs ++ [(engine.nextRun, run)]
      nextRun := engine.nextRun + 1 })

/-- Forget a run. Branches that nobody waits for keep it. -/
def close (engine : Engine) (id : Nat) : Engine :=
  { engine with
    runs := engine.runs.filter fun entry => entry.1 != id || !entry.2.branches.isEmpty }

/-- A step of a task of a run: the engine after it, the branches that were set off, and
what becomes of the task. -/
def stepRun (engine : Engine) (id : Nat) (task : TaskId) : Engine × List Nat × Signal :=
  match engine.run? id with
  | none => (engine, [], .finished)
  | some run =>
    let progress := run.step engine.surroundings task
    let engine := engine.tick.setRun id progress.run
    (progress.effects.foldl (perform run.context) engine, progress.forked, progress.signal)

end Engine

end DurableFlow
