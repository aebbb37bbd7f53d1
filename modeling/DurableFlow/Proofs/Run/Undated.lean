import DurableFlow.Proofs.Run.Reference

/-!
# Up to timestamps

What is left of a context, a suspended run and a result when their timestamps are taken out.
The only timestamp that a run carries along is when it started, and no node reads it: what
completing a node comes to is the same for runs that started at different times. The other
timestamps come into being when a pass is suspended.
-/

namespace DurableFlow

/-- A timestamp that stands for any other. -/
def Instant.undated : Instant := ⟨0, 0⟩

/-- The context without the time at which its run started. -/
def Context.undated (context : Context) : Context := { context with startedAt := .undated }

/-- The suspended run without its timestamps; only that there is a deadline is left of it. -/
def Suspended.undated (state : Suspended) : Suspended :=
  { state with
    deadline := state.deadline.map fun _ => .undated
    pausedAt := .undated
    startedAt := .undated }

/-- The result without the timestamps of the state that is kept. -/
def RunResult.undated (result : RunResult) : RunResult :=
  { result with suspended := result.suspended.map Suspended.undated }

/-- The visit to a node without the time at which the run started. -/
def Visit.undated (visit : Visit) : Visit := { visit with context := visit.context.undated }

namespace Context

variable {context other : Context}

@[simp] theorem undated_enter (context : Context) (id : String) :
    (context.enter id).undated = context.undated.enter id := rfl

@[simp] theorem undated_record (context : Context) (id : String) (output : Data) :
    (context.record id output).undated = context.undated.record id output := rfl

@[simp] theorem undated_bind (context : Context) (name : String) (value : Data) :
    (context.bind name value).undated = context.undated.bind name value := rfl

@[simp] theorem input_undated (context : Context) (config : Fields Data) :
    context.undated.input config = context.input config := rfl

@[simp] theorem expressionScope_undated (context : Context) :
    context.undated.expressionScope = context.expressionScope := rfl

@[simp] theorem history_undated (context : Context) :
    context.undated.history = context.history := rfl

@[simp] theorem outputs_undated (context : Context) :
    context.undated.outputs = context.outputs := rfl

/-- Contexts are the same up to the time at which their runs started when all else is. -/
theorem undated_eq_iff : context.undated = other.undated ↔
    context.workflow = other.workflow ∧ context.execution = other.execution ∧
      context.vars = other.vars ∧ context.outputs = other.outputs ∧
      context.node = other.node ∧ context.trail = other.trail := by
  simp only [undated, Context.mk.injEq, and_true]

/-- Runs whose contexts differ in nothing but when they started have entered the same nodes. -/
theorem history_eq_of_undated (same : context.undated = other.undated) :
    context.history = other.history := by
  rw [← history_undated context, same, history_undated]

end Context

namespace Visit

@[simp] theorem undated_after (calls : List Call) (visit : Visit) :
    (visit.after calls).undated = visit.undated.after calls := rfl

end Visit

namespace Node

theorem recover_undated (node : Node) (visit : Visit) :
    (node.recover visit).undated = node.recover visit.undated := by
  obtain ⟨context, calls, ending⟩ := visit
  cases ending with
  | ok step => rfl
  | error failure => cases handler : node.onError <;> simp [recover, Visit.undated, handler]

theorem takeReply_undated (node : Node) (context : Context) (procedure : String)
    (reply : Reply) :
    (node.takeReply context procedure reply).undated =
      node.takeReply context.undated procedure reply := by
  cases reply <;> rfl

theorem perform_undated (node : Node) (catalog : Catalog) (moment : Moment)
    (context : Context) :
    (node.perform catalog moment context).undated =
      node.perform catalog moment context.undated := by
  cases kind : node.kind with
  | procedure named config =>
    cases named with
    | none =>
      simp only [perform, kind]
      rfl
    | some name =>
      simp only [perform, kind, Context.input_undated]
      cases Fields.get? catalog name with
      | none => rfl
      | some procedure =>
        cases context.input config with
        | error failure => rfl
        | ok input => simp only [Visit.undated_after, takeReply_undated]; rfl
  | _ =>
    simp only [perform, kind]
    rfl

end Node

/-- No node reads when its run started. -/
theorem Definition.visit_undated (d : Definition) (catalog : Catalog) (moment : Moment)
    (context : Context) (id : String) :
    (d.visit catalog moment context id).undated =
      d.visit catalog moment context.undated id := by
  rw [visit, visit]
  cases d.node? id with
  | none => rfl
  | some node => simp only [Node.recover_undated, Node.perform_undated, Context.undated_enter]

/-- What is captured at different times differs in nothing but the timestamps. -/
theorem Suspended.undated_of_capture? {now later : Instant} {context other : Context}
    (same : context.undated = other.undated) {id : String} {pause : Pause}
    {state state' : Suspended} (captured : capture? now context id pause = some state)
    (captured' : capture? later other id pause = some state') :
    state.undated = state'.undated := by
  obtain ⟨workflow, execution, vars, outputs, node, trail, startedAt⟩ := context
  obtain ⟨rfl, rfl, rfl, rfl, rfl, rfl⟩ := Context.undated_eq_iff.mp same
  cases timeout : pause.timeout with
  | none =>
    simp only [capture?, timeout, Option.some.injEq] at captured captured'
    subst captured captured'
    rfl
  | some wait =>
    simp only [capture?, timeout] at captured captured'
    obtain ⟨deadline, _, rfl⟩ := Option.map_eq_some_iff.mp captured
    obtain ⟨deadline', _, rfl⟩ := Option.map_eq_some_iff.mp captured'
    rfl

/-- Passes that come to one conclusion with one context have results that differ in nothing
but the timestamps. -/
theorem Conclusion.undated_of_result {now later : Instant} {context other : Context}
    (same : context.undated = other.undated) {conclusion : Conclusion}
    {result result' : RunResult} {told told' : Happening}
    (ended : conclusion.result now context = .ok (result, told))
    (ended' : conclusion.result later other = .ok (result', told')) :
    result.undated = result'.undated := by
  have history := Context.history_eq_of_undated same
  obtain ⟨workflow, execution, -, outputs, -, -⟩ := Context.undated_eq_iff.mp same
  have alike (status : Status) (state state' : Option Suspended) (error : Option String)
      (states : state.map Suspended.undated = state'.map Suspended.undated) :
      (context.result status state error).undated =
        (other.result status state' error).undated := by
    simp only [Context.result, RunResult.undated, execution, workflow, outputs, history, states]
  cases conclusion with
  | completed =>
    cases ended
    cases ended'
    exact alike _ _ _ _ rfl
  | suspended id pause =>
    simp only [Conclusion.result] at ended ended'
    split at ended
    · contradiction
    rename_i state captured
    split at ended'
    · contradiction
    rename_i state' captured'
    cases ended
    cases ended'
    exact alike _ _ _ _ (congrArg some (Suspended.undated_of_capture? same captured captured'))
  | failed failure =>
    cases failure <;> first
      | contradiction
      | (cases ended; cases ended'; exact alike _ _ _ _ rfl)

/-- Whether the deadline of a pause is an instant depends on the time of the pause alone. -/
theorem Suspended.isSome_capture? (now : Instant) (context other : Context) (id : String)
    (pause : Pause) :
    (capture? now context id pause).isSome = (capture? now other id pause).isSome := by
  cases timeout : pause.timeout <;> simp [capture?, timeout]

theorem Conclusion.isOk_result (context other : Context) (conclusion : Conclusion)
    (now : Instant) :
    (conclusion.result now context).isOk = (conclusion.result now other).isOk := by
  cases conclusion with
  | completed => rfl
  | suspended id pause =>
    have both := Suspended.isSome_capture? now context other id pause
    simp only [result]
    cases captured : Suspended.capture? now context id pause <;>
      cases captured' : Suspended.capture? now other id pause <;>
        simp_all [Except.isOk, Except.toBool]
  | failed failure => cases failure <;> rfl

end DurableFlow
