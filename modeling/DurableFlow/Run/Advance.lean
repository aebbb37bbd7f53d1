import DurableFlow.Run.Basic

/-!
# The steps of a run

What one step of a task does to the run, and what it shows. The context is read and
written within single steps only, never across the call of a procedure.
-/

namespace DurableFlow

/-- What becomes of a task after a step. -/
inductive Signal where
  /-- It goes on at once. -/
  | proceed
  /-- It goes on when all others that can go on have taken their turns. -/
  | giveWay
  /-- It goes on when the clock shows this time. -/
  | sleep (due : Nat)
  /-- It goes on when a branch that it waits for has ended. -/
  | wait
  /-- It was a branch of this group and has ended. -/
  | arrived (group : Nat)
  /-- It has nothing left to do. -/
  | finished
deriving DecidableEq, Repr

namespace Phase

/-- What a failure leaves among the variables. -/
def lastError (node : Node) (failure : Failure) : Data :=
  .ofPairs [("nodeId", .str node.id), ("message", .str failure.message)]

/-- Call the procedure of a node. -/
def call (around : Surroundings) (context : Context) (node : Node) (name : String)
    (config : Fields Data) : Phase × List Effect :=
  match Fields.get? around.catalog name with
  | none => (.settling node (.error (.unknownProcedure name)), [])
  | some procedure =>
    match context.input config with
    | .error failure => (.settling node (.error failure), [])
    | .ok input =>
      let invocation : Invocation :=
        { workflow := context.workflow, execution := context.execution, node := some node.id }
      (.replying node name (procedure.reply around.moment invocation input)
        (around.clock + procedure.delay), [.call name input invocation])

/-- Do what the kind of a node asks for. -/
def act (around : Surroundings) (context : Context) (node : Node) : Phase × List Effect :=
  match node.kind with
  | .procedure none _ => (.settling node (.error (.unnamedProcedure node.id)), [])
  | .procedure (some name) config => call around context node name config
  | .condition _ => (.settling node (node.route context.expressionScope), [])
  | .parallel branches waitForAll => (.forking (.parallel node waitForAll) branches, [])
  | .sequential => (.settling node (.ok (.goOn node.successors)), [])
  | .await names filter timeout =>
    (.settling node (.ok (.suspend node.id (.awaiting names filter timeout))), [])

/-- Take up a reply that has come. -/
def takeUp (node : Node) (procedure : String) (reply : Reply) : Phase :=
  match reply with
  | .output value => .recording node value
  | .dateRange => .ended (.error .dateRange)
  | reply => .settling node (node.answered procedure reply)

/-- What publishing the ending of a node leads to. -/
def settle (context : Context) (node : Node) (ending : Ending) : Phase × List Effect :=
  match ending with
  | .ok (.goOn _) =>
    (.ended ending, [.publish (.nodeCompleted node.id (context.outputOf node.id))])
  | .ok (.suspend ..) => (.ended ending, [])
  | .error failure =>
    let next : Phase :=
      match node.onError with
      | some target => .redirecting node target failure
      | none => .ended (.error failure)
    (next, [.publish (.nodeFailed node.id failure.message)])

/-- A step of a task within a node, as far as it concerns the context alone. -/
def step (around : Surroundings) (definition : Definition) (context : Context) :
    Phase → Phase × Context × List Effect
  | .entering id =>
    match definition.node? id with
    | none => (.ended (.error (.unknownNode id)), context, [])
    | some node => (.announcing node, context.enter node.id, [])
  | .announcing node =>
    (.acting node, context, [.publish (.nodeStarted node.id), .count (.node node.kind.name)])
  | .acting node =>
    let (phase, effects) := act around context node
    (phase, context, effects)
  | .replying node procedure reply due =>
    if around.clock < due then (.replying node procedure reply due, context, [])
    else (takeUp node procedure reply, context, [])
  | .recording node output =>
    (.settling node (.ok (.goOn node.successors)), context.record node.id output, [])
  | .settling node ending =>
    let (phase, effects) := settle context node ending
    (phase, context, effects)
  | .redirecting node target failure =>
    (.ended (.ok (.goOn [target])), context.bind "lastError" (lastError node failure), [])
  | .forking join ids => (.forking join ids, context, [])
  | .joining join group count => (.joining join group count, context, [])
  | .ended ending => (.ended ending, context, [])

/-- What the endings of its branches lead a task to. -/
def joined (join : Join) (ending : Ending) : Phase :=
  match join with
  | .parallel node _ => .settling node ending
  | .fanOut => .ended ending

/-- Whether a task in this phase has to wait for the clock. -/
def signal (clock : Nat) : Phase → Signal
  | .replying _ _ _ due => if clock < due then .sleep due else .proceed
  | _ => .proceed

end Phase

/-- What a step has done. -/
structure Progress where
  run : Run
  effects : List Effect := []
  /-- The branches that have been set off. -/
  forked : List Nat := []
  signal : Signal

namespace Run

/-- A step of a task that stands in a phase: the run without the new phase, the new phase,
and what the step shows. -/
def stepPhase (around : Surroundings) (run : Run) (phase : Phase) : Phase × Progress :=
  match phase with
  | .forking join ids =>
    (.joining join run.nextGroup ids.length,
      { run := run.fork (ids.map .entering)
        forked := run.nextBranches ids.length
        signal := if ids.isEmpty then .proceed else .giveWay })
  | .joining join group count =>
    match join.outcome? count (run.endingsOf group) with
    | none => (phase, { run, signal := .wait })
    | some ending => (Phase.joined join ending, { run := run.dismiss group, signal := .proceed })
  | phase =>
    let (next, context, effects) := phase.step around run.definition run.context
    (next, { run := { run with context }, effects, signal := next.signal around.clock })

/-- Choose what comes next. -/
def choose (run : Run) (next : List String) : Run :=
  match next with
  | [] => { run with drive := .concluded .completed }
  | id :: rest =>
    if run.isCancelled then { run with drive := .concluded (.failed .cancelled) }
    else if run.limit ≤ run.steps then
      { run with drive := .concluded (.failed (.stepLimit run.limit)) }
    else
      let phase : Phase := if rest.isEmpty then .entering id else .forking .fanOut next
      { run with steps := run.steps + 1, drive := .running phase }

/-- What the ending of a node means for the run. -/
def follow : Ending → Drive
  | .ok (.goOn next) => .choosing next
  | .ok (.suspend node pause) => .concluded (.suspended node pause)
  | .error failure => .concluded (.failed failure)

/-- A step of the task that drives the run. -/
def stepDriver (around : Surroundings) (run : Run) : Progress :=
  match run.drive with
  | .concluded _ => { run, signal := .finished }
  | .choosing next =>
    let run := run.choose next
    { run, signal := match run.drive with | .concluded _ => .finished | _ => .proceed }
  | .running (.ended ending) =>
    let run := { run with drive := follow ending }
    { run, signal := match run.drive with | .concluded _ => .finished | _ => .proceed }
  | .running phase =>
    let (next, progress) := run.stepPhase around phase
    { progress with run := { progress.run with drive := .running next } }

/-- A step of a branch. -/
def stepBranch (around : Surroundings) (run : Run) (id : Nat) : Progress :=
  match run.branch? id with
  | none => { run, signal := .finished }
  | some ⟨group, .ended ending⟩ =>
    { run := run.arrive id group ending, signal := .arrived group }
  | some ⟨_, phase⟩ =>
    let (next, progress) := run.stepPhase around phase
    { progress with run := progress.run.setPhase id next }

/-- A step of a task. -/
def step (around : Surroundings) (run : Run) : TaskId → Progress
  | .driver => run.stepDriver around
  | .branch id => run.stepBranch around id

end Run

end DurableFlow
