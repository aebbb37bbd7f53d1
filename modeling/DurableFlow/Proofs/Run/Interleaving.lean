import DurableFlow.Run.Advance
import DurableFlow.Proofs.Data.Table

/-!
# Interleavings of the tasks of a run

The tasks of a run take their steps in any order, at any time, and somebody may ask for
the run to be cancelled in between. A list of such moves is a schedule, and whatever a
scheduler does with a run is one.

`move_transition` says once what a move can do to a run. Everything that holds of all
interleavings is proved of these few transitions and then, by induction, of a schedule.
-/

namespace DurableFlow

namespace Phase

/-- Phases that only read and write the context: those that neither set off branches nor
wait for them, and have not come to their end. -/
def IsPlain : Phase → Prop
  | .forking .. | .joining .. | .ended _ => False
  | _ => True

/-- The context names its workflow and its run once and for all. -/
theorem step_workflow (around : Surroundings) (d : Definition) (context : Context)
    (phase : Phase) : (phase.step around d context).2.1.workflow = context.workflow := by
  cases phase with
  | entering id => simp only [step]; split <;> rfl
  | replying => simp only [step]; split <;> rfl
  | _ => rfl

theorem step_execution (around : Surroundings) (d : Definition) (context : Context)
    (phase : Phase) : (phase.step around d context).2.1.execution = context.execution := by
  cases phase with
  | entering id => simp only [step]; split <;> rfl
  | replying => simp only [step]; split <;> rfl
  | _ => rfl

end Phase

namespace Run

/-- What happens next to a run: a task takes a step at some moment, while the clock shows
some time, or somebody asks for the run to be cancelled. -/
inductive Move where
  | step (task : TaskId) (moment : Moment) (clock : Nat)
  | cancel

/-- The run after a move. -/
def move (catalog : Catalog) (run : Run) : Move → Run
  | .step task moment clock => (run.step { catalog, moment, clock } task).run
  | .cancel => { run with isCancelled := true }

/-- The run after all moves of a schedule. -/
def play (catalog : Catalog) (run : Run) (schedule : List Move) : Run :=
  schedule.foldl (move catalog) run

@[simp] theorem play_nil (catalog : Catalog) (run : Run) : run.play catalog [] = run := rfl

@[simp] theorem play_cons (catalog : Catalog) (run : Run) (m : Move) (rest : List Move) :
    run.play catalog (m :: rest) = (run.move catalog m).play catalog rest := rfl

/-- What each move of a schedule keeps, the whole schedule keeps. -/
theorem play_induction {catalog : Catalog} {P : Run → Prop}
    (step : ∀ run m, P run → P (run.move catalog m)) {run : Run} (h : P run)
    (schedule : List Move) : P (run.play catalog schedule) := by
  induction schedule generalizing run with
  | nil => exact h
  | cons m rest ih => exact ih (step run m h)

/-- The phase that a task is in. -/
def phase? (run : Run) : TaskId → Option Phase
  | .driver =>
    match run.drive with
    | .running phase => some phase
    | _ => none
  | .branch id => (run.branch? id).map Branch.phase

/-- Put a task where it has come to. -/
def put (run : Run) (task : TaskId) (phase : Phase) : Run :=
  match task with
  | .driver => { run with drive := .running phase }
  | .branch id => run.setPhase id phase

theorem setPhase_branches (run : Run) (id : Nat) (phase : Phase) :
    (run.setPhase id phase).branches =
      Table.update id (fun branch => { branch with phase }) run.branches := rfl

/-- A task that is put elsewhere is the driver or one of the branches. -/
theorem mem_put_branches {run : Run} {task : TaskId} {phase : Phase} {entry : Nat × Branch}
    (h : entry ∈ (run.put task phase).branches) :
    entry ∈ run.branches ∨
      ∃ id branch, task = .branch id ∧ (id, branch) ∈ run.branches ∧
        entry = (id, { branch with phase }) := by
  cases task with
  | driver => exact .inl h
  | branch id =>
    rw [put, setPhase_branches] at h
    exact (Table.mem_update h).imp_right fun ⟨branch, member, same⟩ =>
      ⟨id, branch, rfl, member, same⟩

/-- A branch that has a phase is there. -/
theorem exists_branch_of_phase? {run : Run} {id : Nat} {phase : Phase}
    (h : run.phase? (.branch id) = some phase) :
    ∃ group, run.branch? id = some ⟨group, phase⟩ := by
  obtain ⟨branch, found, rfl⟩ := Option.map_eq_some_iff.mp h
  exact ⟨branch.group, found⟩

theorem drive_of_phase? {run : Run} {phase : Phase} (h : run.phase? .driver = some phase) :
    run.drive = .running phase := by
  cases drive : run.drive with
  | running other => simpa [phase?, drive] using h
  | _ => simp [phase?, drive] at h

/-- All that a move can do to a run. -/
inductive Transition (catalog : Catalog) (run : Run) : Run → Prop where
  /-- The task has nothing left to do, or there is no such task. -/
  | rest : Transition catalog run run
  /-- The branches that the task waits for have not come to an end. -/
  | wait (task : TaskId) (phase : Phase) (located : run.phase? task = some phase) :
      Transition catalog run (run.put task phase)
  | act (task : TaskId) (phase : Phase) (around : Surroundings)
      (known : around.catalog = catalog) (located : run.phase? task = some phase)
      (plain : phase.IsPlain) :
      Transition catalog run
        ({ run with context := (phase.step around run.definition run.context).2.1 }.put task
          (phase.step around run.definition run.context).1)
  | fork (task : TaskId) (join : Join) (ids : List String)
      (located : run.phase? task = some (.forking join ids)) :
      Transition catalog run
        ((run.fork (ids.map .entering)).put task (.joining join run.nextGroup ids.length))
  | join (task : TaskId) (join : Join) (group count : Nat) (ending : Ending)
      (located : run.phase? task = some (.joining join group count))
      (outcome : join.outcome? count (run.endingsOf group) = some ending) :
      Transition catalog run ((run.dismiss group).put task (Phase.joined join ending))
  | arrive (id group : Nat) (ending : Ending)
      (located : run.branch? id = some ⟨group, .ended ending⟩) :
      Transition catalog run (run.arrive id group ending)
  | follow (ending : Ending) (located : run.drive = .running (.ended ending)) :
      Transition catalog run { run with drive := Run.follow ending }
  | choose (next : List String) (located : run.drive = .choosing next) :
      Transition catalog run (run.choose next)
  | cancel : Transition catalog run { run with isCancelled := true }

/-- A step within a node, whichever task takes it. -/
theorem stepPhase_transition {run : Run} {task : TaskId} {phase : Phase}
    (around : Surroundings) (located : run.phase? task = some phase)
    (unfinished : ∀ ending, phase ≠ .ended ending) :
    Transition around.catalog run
      ((run.stepPhase around phase).2.run.put task (run.stepPhase around phase).1) := by
  cases phase with
  | forking join ids => exact .fork task join ids located
  | joining join group count =>
    cases outcome : join.outcome? count (run.endingsOf group) with
    | none => simpa only [stepPhase, outcome] using .wait task _ located
    | some ending =>
      simpa only [stepPhase, outcome] using .join task join group count ending located outcome
  | ended ending => exact absurd rfl (unfinished ending)
  | _ => exact .act task _ around rfl located trivial

theorem stepDriver_transition (around : Surroundings) (run : Run) :
    Transition around.catalog run (run.stepDriver around).run := by
  rw [stepDriver]
  split
  · exact .rest
  · rename_i next located
    exact .choose next located
  · rename_i ending located
    exact .follow ending located
  · rename_i phase unfinished located
    have stands : run.phase? .driver = some phase := by simp only [phase?, located]
    exact stepPhase_transition around stands fun ending same => unfinished ending same

theorem stepBranch_transition (around : Surroundings) (run : Run) (id : Nat) :
    Transition around.catalog run (run.stepBranch around id).run := by
  rw [stepBranch]
  split
  · exact .rest
  · rename_i group ending located
    exact .arrive id group ending located
  · rename_i group phase unfinished located
    have stands : run.phase? (.branch id) = some phase := by simp [phase?, located]
    exact stepPhase_transition around stands fun ending same => unfinished ending same

/-- Whatever happens to a run is one of the transitions. -/
theorem move_transition (catalog : Catalog) (run : Run) (m : Move) :
    Transition catalog run (run.move catalog m) := by
  cases m with
  | cancel => exact .cancel
  | step task moment clock =>
    cases task with
    | driver => exact stepDriver_transition { catalog, moment, clock } run
    | branch id => exact stepBranch_transition { catalog, moment, clock } run id

end Run

end DurableFlow
