import DurableFlow.Proofs.Desk.AtMostOnce
import DurableFlow.Proofs.Run.Blocks

/-!
# What is told of a run

All that is published is told of a run: that a pass begins or has come to its end, what happens
to the nodes of a pass, or that a run which waits comes to its end without going on. A schedule
tells these one after another, and they are the notices of the engine.

What is told of one run can be read as a list of passes, each with what it has told of its
nodes.
-/

namespace DurableFlow

/-- A notice, with the pass that it is about. -/
inductive Telling where
  /-- A pass begins, as this run. -/
  | opens (notice : Notice) (id : Nat) (run : Run)
  /-- Something happens to a node of a pass. -/
  | shows (notice : Notice) (id : Nat)
  /-- The pass that was opened last has come to a result. -/
  | closes (notice : Notice) (result : RunResult)
  /-- The run comes to its end while no pass is under way. -/
  | ends (notice : Notice)

namespace Telling

def notice : Telling → Notice
  | opens notice .. | shows notice _ | closes notice _ | ends notice => notice

def happening (telling : Telling) : Happening := telling.notice.happening

def execution (telling : Telling) : String := telling.notice.execution

end Telling

namespace Engine

/-- The notices that a step of a task of a run publishes. -/
def shown (engine : Engine) (id : Nat) (task : TaskId) : List Telling :=
  match engine.run? id with
  | none => []
  | some run =>
    ((run.step engine.surroundings task).effects.filterMap Effect.happening?).map fun happening =>
      .shows ⟨run.context.workflow, run.context.execution, happening⟩ id

end Engine

namespace Errand

/-- The pass that a notice is about, going by the decision that its errand makes after it. -/
def telling (engine : Engine) (decision : Decision) (notice : Notice) : Telling :=
  match decision with
  | .drive _ id => ((engine.run? id).map (.opens notice id)).getD (.ends notice)
  | .finish _ (.ok result) => .closes notice result
  | _ => .ends notice

@[simp] theorem notice_telling (engine : Engine) (decision : Decision) (notice : Notice) :
    (telling engine decision notice).notice = notice := by
  unfold telling
  split
  · cases engine.run? _ <;> rfl
  · rfl
  · rfl

/-- Only an errand that has the result of a pass tells of it. -/
theorem result_of_telling {engine : Engine} {decision : Decision} {notice other : Notice}
    {result : RunResult} (closes : telling engine decision notice = .closes other result) :
    other = notice ∧ ∃ purpose, decision = .finish purpose (.ok result) := by
  unfold telling at closes
  split at closes
  · cases found : engine.run? _ <;> rw [found] at closes <;> cases closes
  · cases closes
    exact ⟨rfl, _, rfl⟩
  · cases closes

/-- What the next step of an errand tells. -/
def tells (engine : Engine) (errand : Errand) : List Telling :=
  match errand.acts, errand.decision with
  | .publish notice :: _, decision => [telling engine decision notice]
  | [], .drive _ id => engine.shown id .driver
  | _, _ => []

end Errand

namespace Site

/-- What a move tells. -/
def tells (site : Site) : Move → List Telling
  | .turn id => ((site.office.errand? id).map (Errand.tells site.engine)).getD []
  | .branch run id => site.engine.shown run (.branch id)
  | _ => []

/-- What a schedule tells, in the order in which it is published. -/
def tellings (site : Site) : List Move → List Telling
  | [] => []
  | m :: rest => site.tells m ++ (site.move m).tellings rest

/-- What a schedule tells of an execution. -/
def told (site : Site) (execution : String) (schedule : List Move) : List Telling :=
  (site.tellings schedule).filter (·.execution == execution)

end Site

/-- What is told of a pass. -/
structure Pass where
  id : Nat
  /-- The run as it has begun. -/
  begun : Run
  /-- What is told of its nodes until it closes. -/
  nodes : List Happening := []
  closing : Option (RunResult × Happening) := none
  /-- What is told of its nodes afterwards, by branches that nobody waits for. -/
  later : List Happening := []

namespace Pass

/-- Something has happened to a node of the pass. -/
def extend (pass : Pass) (happening : Happening) : Pass :=
  match pass.closing with
  | none => { pass with nodes := pass.nodes ++ [happening] }
  | some _ => { pass with later := pass.later ++ [happening] }

/-- Something has happened to a node of some pass. -/
def showIn (id : Nat) (happening : Happening) (pass : Pass) : Pass :=
  if pass.id = id then pass.extend happening else pass

/-- The pass has come to a result. -/
def close (result : RunResult) (happening : Happening) (pass : Pass) : Pass :=
  { pass with closing := some (result, happening) }

/-- The passes that have been told of, the latest first, and something more that is told. -/
def tell (passes : List Pass) : Telling → List Pass
  | .opens _ id run => { id, begun := run } :: passes
  | .shows notice id => passes.map (showIn id notice.happening)
  | .closes notice result => passes.modifyHead (close result notice.happening)
  | .ends _ => passes

/-- The passes that have been told of, the latest first. -/
def all (told : List Telling) : List Pass := told.foldl tell []

theorem all_append (told more : List Telling) : all (told ++ more) = more.foldl tell (all told) :=
  List.foldl_append

theorem all_concat (told : List Telling) (telling : Telling) :
    all (told ++ [telling]) = tell (all told) telling :=
  all_append told [telling]

@[simp] theorem showIn_id (id : Nat) (happening : Happening) (pass : Pass) :
    (pass.showIn id happening).id = pass.id := by
  unfold showIn Pass.extend
  repeat' split
  all_goals rfl

@[simp] theorem showIn_begun (id : Nat) (happening : Happening) (pass : Pass) :
    (pass.showIn id happening).begun = pass.begun := by
  unfold showIn Pass.extend
  repeat' split
  all_goals rfl

@[simp] theorem showIn_closing (id : Nat) (happening : Happening) (pass : Pass) :
    (pass.showIn id happening).closing = pass.closing := by
  unfold showIn Pass.extend
  repeat' split
  all_goals rfl

end Pass

section Notices

namespace Engine

end Engine

namespace Stride

variable (engine : Engine) (office : Office) (errand : Errand)

variable {engine office errand}

end Stride

namespace Site

variable {site : Site} {lives : String → Life}

end Site

end Notices

end DurableFlow
