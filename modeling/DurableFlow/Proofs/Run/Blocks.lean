import DurableFlow.Proofs.Run.Transparency

/-!
# What a pass tells of its nodes

Over a definition without parallel nodes, where no node has several successors, the driver is
the only task of a pass, and it tells of one node after another. The start of a node is told
once the node has been entered into the history, and then its end, unless the node suspends
the run.

`Blocks` says what is told, whatever the run. `Run.Tells` is what every step keeps: what has
been told are blocks, the node that has only started is the one that the driver is at work on,
and the nodes of the blocks are what the pass has added to the history.
-/

namespace DurableFlow

/-- What an effect publishes. -/
def Effect.happening? : Effect → Option Happening
  | .publish happening => some happening
  | _ => none

/-- A node has come to its end. -/
inductive Happening.Ends (node : String) : Happening → Prop where
  | completed (output : Data) : Ends node (.nodeCompleted node output)
  | failed (error : String) : Ends node (.nodeFailed node error)

/-- What is told of one node after another, with the nodes and, if the last of them has only
started, that one. -/
inductive Blocks : List Happening → List String → Option String → Prop where
  | nil : Blocks [] [] none
  | started (node : String) : Blocks [.nodeStarted node] [node] (some node)
  | block {node : String} {ending : Happening} (ends : ending.Ends node) {later : List Happening}
      {ids : List String} {bare : Option String} (rest : Blocks later ids bare) :
      Blocks (.nodeStarted node :: ending :: later) (node :: ids) bare

namespace Blocks

variable {told : List Happening} {ids : List String} {node : String}

theorem start (blocks : Blocks told ids none) (node : String) :
    Blocks (told ++ [.nodeStarted node]) (ids ++ [node]) (some node) := by
  generalize closed : (none : Option String) = bare at blocks
  induction blocks with
  | nil => exact .started node
  | started other => contradiction
  | block ends rest ih => exact .block ends (ih closed)

theorem finish (blocks : Blocks told ids (some node)) {ending : Happening}
    (ends : ending.Ends node) : Blocks (told ++ [ending]) ids none := by
  generalize opened : some node = bare at blocks
  induction blocks with
  | nil => contradiction
  | started other =>
    cases opened
    exact .block ends .nil
  | block before rest ih => exact .block before (ih opened)

end Blocks

/-- What the ending of a node may be where its driver is the only task. -/
def Ending.IsOf (node : Node) : Ending → Prop
  | .ok (.goOn next) => next.length ≤ 1
  | .ok (.suspend id _) => id = node.id
  | .error _ => True

/-- Which node has only started to be told of when a node has come to this ending. What breaks
a run down may come in the midst of a node. -/
def Ending.Leaves (bare : Option String) : Ending → Prop
  | .ok (.goOn next) => next.length ≤ 1 ∧ bare = none
  | .ok (.suspend id _) => bare = some id
  | .error failure => failure ≠ .dateRange → bare = none

/-- Which node has only started to be told of when a pass has come to this conclusion. -/
def Conclusion.Leaves (bare : Option String) : Conclusion → Prop
  | completed => bare = none
  | suspended id _ => bare = some id
  | failed failure => failure ≠ .dateRange → bare = none

namespace Phase

/-- Which node has only started to be told of when a task that is the only one stands here. -/
def Within (d : Definition) (bare : Option String) : Phase → Prop
  | entering _ | redirecting .. => bare = none
  | announcing node => bare = none ∧ node ∈ d.nodes
  | acting node | replying node .. | recording node _ => bare = some node.id ∧ node ∈ d.nodes
  | settling node ending => bare = some node.id ∧ ending.IsOf node
  | ended ending => ending.Leaves bare
  | forking .. | joining .. => False

/-- The node that has been entered and not been told of. -/
def untold : Phase → List String
  | announcing node => [node.id]
  | _ => []

/-- What has been told are blocks that end where the task stands, and their nodes are what has
been added to a history. -/
def Tells (d : Definition) (before : List String) (context : Context) (told : List Happening)
    (phase : Phase) : Prop :=
  ∃ ids bare, Blocks told ids bare ∧ phase.Within d bare ∧
    context.history = before ++ ids ++ phase.untold

variable {d : Definition} {before : List String} {context : Context} {told : List Happening}
  {node : Node}

theorem within_takeUp (known : node ∈ d.nodes) (sequential : d.IsSequential)
    (procedure : String) (reply : Reply) :
    (takeUp node procedure reply).Within d (some node.id) ∧
      (takeUp node procedure reply).untold = [] := by
  have few := (sequential node known).2
  cases reply with
  | output value => exact ⟨⟨rfl, known⟩, rfl⟩
  | suspend pause => exact ⟨⟨rfl, rfl⟩, rfl⟩
  | failed text => exact ⟨⟨rfl, trivial⟩, rfl⟩
  | dateRange => exact ⟨fun other => absurd rfl other, rfl⟩

/-- To act publishes nothing, and remains within the node. -/
theorem within_act (known : node ∈ d.nodes) (sequential : d.IsSequential)
    (around : Surroundings) (context : Context) :
    (act around context node).1.Within d (some node.id) ∧
      (act around context node).1.untold = [] ∧
      (act around context node).2.filterMap Effect.happening? = [] := by
  obtain ⟨alone, few⟩ := sequential node known
  rw [act]
  split
  · exact ⟨⟨rfl, trivial⟩, rfl, rfl⟩
  · rw [call]
    split
    · exact ⟨⟨rfl, trivial⟩, rfl, rfl⟩
    · split
      · exact ⟨⟨rfl, trivial⟩, rfl, rfl⟩
      · exact ⟨⟨rfl, known⟩, rfl, rfl⟩
  · refine ⟨⟨rfl, ?_⟩, rfl, rfl⟩
    rw [Node.route]
    split
    · trivial
    · exact Nat.le_refl 1
    · exact few
  · rename_i kind
    simp [NodeKind.isParallel, kind] at alone
  · exact ⟨⟨rfl, few⟩, rfl, rfl⟩
  · exact ⟨⟨rfl, rfl⟩, rfl, rfl⟩

/-- The end of a node is told, unless the node suspends the run. -/
theorem tells_settle {ids : List String} (blocks : Blocks told ids (some node.id))
    {ending : Ending} (of : ending.IsOf node) (history : context.history = before ++ ids) :
    (settle context node ending).1.Tells d before context
      (told ++ (settle context node ending).2.filterMap Effect.happening?) := by
  match ending with
  | .ok (.goOn next) =>
    exact ⟨ids, none, blocks.finish (.completed _), ⟨of, rfl⟩, by simp [settle, untold, history]⟩
  | .ok (.suspend id pause) =>
    refine ⟨ids, some node.id, ?_, congrArg some of.symm, by simp [settle, untold, history]⟩
    simpa [settle] using blocks
  | .error failure =>
    refine ⟨ids, none, blocks.finish (.failed _), ?_, ?_⟩
    · rw [settle]
      cases node.onError with
      | none => exact fun _ => rfl
      | some target => rfl
    · rw [settle]
      cases node.onError <;> simp [untold, history]

/-- A step within a node tells what comes next. -/
theorem Tells.step {phase : Phase} (tells : phase.Tells d before context told)
    (sequential : d.IsSequential) (around : Surroundings) :
    (phase.step around d context).1.Tells d before (phase.step around d context).2.1
      (told ++ (phase.step around d context).2.2.filterMap Effect.happening?) := by
  obtain ⟨ids, bare, blocks, within, history⟩ := tells
  cases phase with
  | entering id =>
    obtain rfl : bare = none := within
    cases found : d.node? id with
    | none =>
      simp only [Phase.step, found, List.filterMap_nil, List.append_nil]
      exact ⟨ids, none, blocks, fun _ => rfl, history⟩
    | some node =>
      simp only [Phase.step, found, List.filterMap_nil, List.append_nil]
      refine ⟨ids, none, blocks, ⟨rfl, Definition.mem_nodes_of_node? found⟩, ?_⟩
      rw [Context.history_enter, history]
      simp [untold]
  | announcing node =>
    obtain ⟨rfl, known⟩ := within
    refine ⟨ids ++ [node.id], some node.id, blocks.start node.id, ⟨rfl, known⟩, ?_⟩
    simpa [Phase.step, untold] using history
  | acting node =>
    obtain ⟨rfl, known⟩ := within
    obtain ⟨stays, entered, silent⟩ := within_act known sequential around context
    simp only [Phase.step, silent, List.append_nil]
    exact ⟨ids, some node.id, blocks, stays, by rw [entered]; exact history⟩
  | replying node procedure reply due =>
    obtain ⟨rfl, known⟩ := within
    simp only [Phase.step]
    split
    · exact ⟨ids, some node.id, by simpa using blocks, ⟨rfl, known⟩, history⟩
    · obtain ⟨stays, entered⟩ := within_takeUp known sequential procedure reply
      exact ⟨ids, some node.id, by simpa using blocks, stays, by rw [entered]; exact history⟩
  | recording node output =>
    obtain ⟨rfl, known⟩ := within
    refine ⟨ids, some node.id, ?_, ⟨rfl, (sequential node known).2⟩, history⟩
    simpa [Phase.step] using blocks
  | settling node ending =>
    obtain ⟨rfl, of⟩ := within
    simp only [untold, List.append_nil] at history
    exact tells_settle blocks of history
  | redirecting node target failure =>
    obtain rfl : bare = none := within
    refine ⟨ids, none, ?_, ⟨Nat.le_refl 1, rfl⟩, history⟩
    simpa [Phase.step] using blocks
  | ended ending => exact ⟨ids, bare, by simpa [Phase.step] using blocks, within, history⟩
  | forking => exact within.elim
  | joining => exact within.elim

end Phase

namespace Drive

/-- Which node has only started to be told of when the driver stands here. -/
def Within (d : Definition) (bare : Option String) : Drive → Prop
  | choosing next => next.length ≤ 1 ∧ bare = none
  | running phase => phase.Within d bare
  | concluded conclusion => conclusion.Leaves bare

/-- The node that has been entered and not been told of. -/
def untold : Drive → List String
  | running phase => phase.untold
  | _ => []

end Drive

namespace Run

/-- A pass that has taken no step. Over a definition without several successors it has one node
to begin with, or none. -/
def AtStart (run : Run) : Prop :=
  run.branches = [] ∧
    ∃ next, run.drive = .choosing next ∧ (run.definition.IsSequential → next.length ≤ 1)

/-- What a pass has told since it began are blocks that end where it stands, and their nodes are
what it has added to the history. -/
structure Tells (begun run : Run) (told : List Happening) : Prop where
  definition : run.definition = begun.definition
  execution : run.context.execution = begun.context.execution
  branches : run.branches = []
  blocks : ∃ ids bare, Blocks told ids bare ∧ run.drive.Within begun.definition bare ∧
    run.context.history = begun.context.history ++ ids ++ run.drive.untold

variable {begun run : Run} {told : List Happening}

theorem AtStart.tells (begins : run.AtStart) (sequential : run.definition.IsSequential) :
    run.Tells run [] := by
  obtain ⟨branches, next, drive, few⟩ := begins
  exact ⟨rfl, rfl, branches, [], none, .nil, by rw [drive]; exact ⟨few sequential, rfl⟩,
    by simp [drive, Drive.untold]⟩

/-- A branch takes no step where there is none. -/
theorem step_branch_of_nil (none_there : run.branches = []) (around : Surroundings) (id : Nat) :
    run.step around (.branch id) = { run, signal := .finished } := by
  simp [step, stepBranch, branch?, none_there]

/-- Where the driver goes after an ending. -/
theorem leaves_follow {d : Definition} {bare : Option String} {ending : Ending}
    (leaves : ending.Leaves bare) : (follow ending).Within d bare := by
  match ending with
  | .ok (.goOn next) => exact leaves
  | .ok (.suspend id pause) => exact leaves
  | .error failure => exact leaves

theorem Tells.choose (tells : Tells begun run told) {next : List String}
    (located : run.drive = .choosing next) : Tells begun (run.choose next) told := by
  obtain ⟨definition, execution, branches, ids, bare, blocks, within, history⟩ := tells
  rw [located] at within history
  obtain ⟨few, rfl⟩ := within
  have ends : ∀ conclusion : Conclusion, conclusion.Leaves none →
      Tells begun { run with drive := .concluded conclusion } told := fun conclusion leaves =>
    ⟨definition, execution, branches, ids, none, blocks, leaves, history⟩
  unfold Run.choose
  split
  · exact ends _ rfl
  · rename_i id rest
    split
    · exact ends _ fun _ => rfl
    · split
      · exact ends _ fun _ => rfl
      · have alone : rest = [] :=
          List.eq_nil_of_length_eq_zero (Nat.le_zero.mp (Nat.le_of_succ_le_succ few))
        subst alone
        exact ⟨definition, execution, branches, ids, none, blocks, rfl, history⟩

theorem Tells.follow (tells : Tells begun run told) {ending : Ending}
    (located : run.drive = .running (.ended ending)) :
    Tells begun { run with drive := Run.follow ending } told := by
  obtain ⟨definition, execution, branches, ids, bare, blocks, within, history⟩ := tells
  rw [located] at within history
  refine ⟨definition, execution, branches, ids, bare, blocks, leaves_follow within, ?_⟩
  match ending with
  | .ok (.goOn next) => exact history
  | .ok (.suspend id pause) => exact history
  | .error failure => exact history

/-- The driver, which is the only task, tells of the node that it is at work on. -/
theorem Tells.stepDriver (tells : Tells begun run told)
    (sequential : begun.definition.IsSequential) (around : Surroundings) :
    Tells begun (run.stepDriver around).run
      (told ++ (run.stepDriver around).effects.filterMap Effect.happening?) := by
  cases located : run.drive with
  | concluded conclusion =>
    rw [stepDriver_of_concluded located]
    simpa using tells
  | choosing next =>
    simp only [Run.stepDriver, located]
    simpa using tells.choose located
  | running phase =>
    by_cases finished : ∃ ending, phase = .ended ending
    · obtain ⟨ending, rfl⟩ := finished
      simp only [Run.stepDriver, located]
      simpa using tells.follow located
    · obtain ⟨definition, execution, branches, ids, bare, blocks, within, history⟩ := tells
      rw [located] at within history
      have plain : phase.IsPlain := by
        cases phase with
        | ended ending => exact finished ⟨ending, rfl⟩
        | forking => exact within.elim
        | joining => exact within.elim
        | _ => trivial
      have stands : phase.Tells run.definition begun.context.history run.context told :=
        ⟨ids, bare, blocks, definition ▸ within, history⟩
      obtain ⟨after, effects⟩ := stepDriver_of_isPlain located plain around
      obtain ⟨ids, bare, blocks, within, history⟩ := stands.step (definition ▸ sequential) around
      rw [after, effects]
      exact ⟨definition, (Phase.step_execution ..).trans execution, branches, ids, bare, blocks,
        definition ▸ within, history⟩

/-- Whichever task takes a step, what is told are blocks still. -/
theorem Tells.step (tells : Tells begun run told) (sequential : begun.definition.IsSequential)
    (around : Surroundings) (task : TaskId) :
    Tells begun (run.step around task).run
      (told ++ (run.step around task).effects.filterMap Effect.happening?) := by
  cases task with
  | driver => exact tells.stepDriver sequential around
  | branch id =>
    rw [step_branch_of_nil tells.branches]
    simpa using tells

/-- A pass that has come to a result has told of all nodes that it has added to the history, and
has left one in its midst exactly if it is suspended there. -/
theorem Tells.result (tells : Tells begun run told) {conclusion : Conclusion}
    (located : run.drive = .concluded conclusion) {now : Instant} {result : RunResult}
    {happening : Happening} (is : conclusion.result now run.context = .ok (result, happening)) :
    ∃ ids bare, Blocks told ids bare ∧ result.history = begun.context.history ++ ids ∧
      ∀ node, bare = some node ↔ ∃ state, happening = .paused node state := by
  obtain ⟨_, _, _, ids, bare, blocks, within, history⟩ := tells
  rw [located] at within history
  change run.context.history = begun.context.history ++ ids ++ [] at history
  rw [List.append_nil] at history
  refine ⟨ids, bare, blocks, ?_⟩
  unfold Conclusion.result at is
  split at is
  · cases is
    obtain rfl : bare = none := within
    exact ⟨history, by simp⟩
  · split at is
    · contradiction
    · cases is
      obtain rfl : bare = some _ := within
      exact ⟨history, by simp⟩
  · cases is
    obtain rfl : bare = none := within (by simp)
    exact ⟨history, by simp⟩
  · contradiction
  · rename_i failure _ unbroken
    cases is
    obtain rfl : bare = none := within unbroken
    exact ⟨history, by simp⟩

end Run

end DurableFlow
