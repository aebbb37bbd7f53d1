import DurableFlow.Proofs.Definition.Validity
import DurableFlow.Proofs.Run.Interleaving
import DurableFlow.Proofs.Run.Reference

/-!
# Completing a node

From wherever a task stands within a node, completing the node in one piece is determined: a
step of the task makes the first of the calls that are left and leaves the rest as it is.
This is for definitions without parallel nodes, where the driver is the only task.
-/

namespace DurableFlow

/-- The procedures answer by their input and on whose behalf they are invoked, not by the
time, and they do not break down. -/
def Catalog.IsFunctional (catalog : Catalog) : Prop :=
  ∀ name procedure, Fields.get? catalog name = some procedure →
    ∀ moment other invocation input,
      procedure.reply moment invocation input = procedure.reply other invocation input ∧
        procedure.reply moment invocation input ≠ .dateRange

/-- The call that an effect of a run is. -/
def Effect.call? : Effect → Option Call
  | .call procedure input invocation => some ⟨procedure, input, invocation⟩
  | _ => none

/-- An ending that one task comes to by itself in a context. -/
def Ending.IsLone (context : Context) : Ending → Prop
  | .ok (.goOn next) => next.length ≤ 1
  | .ok (.suspend id _) => context.node = some id
  | .error _ => True

namespace Phase

/-- A phase that is within the node that was entered last, or before all nodes. -/
def IsLone (d : Definition) (context : Context) : Phase → Prop
  | .entering _ => True
  | .announcing node | .acting node | .recording node _ => d.Has node ∧ context.node = some node.id
  | .replying node _ reply _ => (d.Has node ∧ context.node = some node.id) ∧ reply ≠ .dateRange
  | .settling _ ending | .ended ending => ending.IsLone context
  | .redirecting .. => True
  | .forking .. | .joining .. => False

theorem IsLone.isPlain {d : Definition} {context : Context} {phase : Phase}
    (lone : phase.IsLone d context) (unfinished : ∀ ending, phase ≠ .ended ending) :
    phase.IsPlain := by
  cases phase with
  | ended ending => exact absurd rfl (unfinished ending)
  | forking => exact lone
  | joining => exact lone
  | _ => trivial

/-- What completing the node comes to from a phase on. -/
def complete (d : Definition) (catalog : Catalog) (moment : Moment) (context : Context) :
    Phase → Visit
  | .entering id => d.visit catalog moment context id
  | .announcing node | .acting node => node.recover (node.perform catalog moment context)
  | .replying node procedure reply _ => node.recover (node.takeReply context procedure reply)
  | .recording node output =>
    { context := context.record node.id output, ending := .ok (.goOn node.successors) }
  | .settling node ending => node.recover { context, ending }
  | .redirecting node target failure =>
    { context := context.bind "lastError" (lastError node failure)
      ending := .ok (.goOn [target]) }
  | .ended ending => { context, ending }
  | .forking .. | .joining .. => { context, ending := .ok (.goOn []) }

section Steps

variable {d : Definition} {catalog : Catalog} {context : Context}

theorem takeReply_eq_complete (catalog : Catalog) (d : Definition) (moment : Moment)
    (context : Context) (node : Node) (procedure : String) {reply : Reply}
    (steady : reply ≠ .dateRange) :
    node.recover (node.takeReply context procedure reply) =
      (takeUp node procedure reply).complete d catalog moment context := by
  cases reply with
  | dateRange => exact absurd rfl steady
  | _ => rfl

theorem settle_complete (catalog : Catalog) (d : Definition) (moment : Moment)
    (context : Context) (node : Node) (ending : Ending) :
    node.recover { context, ending } =
      ((settle context node ending).1.complete d catalog moment context).after
        ((settle context node ending).2.filterMap Effect.call?) := by
  match ending with
  | .ok (.goOn next) => rfl
  | .ok (.suspend id pause) => rfl
  | .error failure =>
    cases handler : node.onError <;> simp [Node.recover, settle, handler, complete, Visit.after,
      Effect.call?]

theorem act_complete (around : Surroundings) (functional : around.catalog.IsFunctional)
    (moment : Moment) {node : Node} (sequential : node.kind.isParallel = false) :
    node.recover (node.perform around.catalog moment context) =
      ((act around context node).1.complete d around.catalog moment context).after
        ((act around context node).2.filterMap Effect.call?) := by
  cases kind : node.kind with
  | procedure named config =>
    cases named with
    | none =>
      simp only [Node.perform, act, kind]
      rfl
    | some name =>
      simp only [Node.perform, act, call, kind]
      cases found : Fields.get? around.catalog name with
      | none => rfl
      | some procedure =>
        cases rendered : context.input config with
        | error failure => rfl
        | ok input =>
          have steady := functional name procedure found moment around.moment
            { workflow := context.workflow, execution := context.execution, node := some node.id }
            input
          simp only [Node.recover_after, steady.1]
          rfl
  | parallel branches waitForAll => simp [NodeKind.isParallel, kind] at sequential
  | _ =>
    simp only [Node.perform, act, kind]
    rfl

/-- A step within a node makes the first of the calls that completing the node makes. -/
theorem step_complete (around : Surroundings) (functional : around.catalog.IsFunctional)
    (sequential : d.IsSequential) (moment : Moment) {phase : Phase}
    (lone : phase.IsLone d context) :
    phase.complete d around.catalog moment context =
      ((phase.step around d context).1.complete d around.catalog moment
        (phase.step around d context).2.1).after
          ((phase.step around d context).2.2.filterMap Effect.call?) := by
  cases phase with
  | entering id =>
    cases found : d.node? id <;> simp only [complete, step, Definition.visit, found] <;> rfl
  | announcing node => rfl
  | acting node =>
    exact act_complete around functional moment (sequential node lone.1.mem_nodes).1
  | replying node procedure reply due =>
    by_cases early : around.clock < due
    · simp only [step, early, if_true]
      rfl
    · simp only [step, early, if_false]
      exact takeReply_eq_complete _ _ _ _ _ _ lone.2
  | recording node output => rfl
  | settling node ending => exact settle_complete _ _ _ _ _ _
  | redirecting node target failure => rfl
  | ended ending => rfl
  | forking => exact lone.elim
  | joining => exact lone.elim

theorem act_isLone (around : Surroundings) (functional : around.catalog.IsFunctional)
    (sequential : d.IsSequential) {node : Node} (has : d.Has node)
    (entered : context.node = some node.id) : (act around context node).1.IsLone d context := by
  obtain ⟨alone, few⟩ := sequential node has.mem_nodes
  rw [act]
  split
  · trivial
  · rename_i name config kind
    rw [call]
    split
    · trivial
    · rename_i procedure found
      split
      · trivial
      · exact ⟨⟨has, entered⟩, (functional name procedure found _ around.moment _ _).2⟩
  · rw [Node.route]
    split
    · trivial
    · exact Nat.le_refl 1
    · exact few
  · rename_i kind
    simp [NodeKind.isParallel, kind] at alone
  · exact few
  · exact entered

theorem takeUp_isLone {node : Node} (has : d.Has node)
    (entered : context.node = some node.id) (procedure : String) (reply : Reply) :
    (takeUp node procedure reply).IsLone d context := by
  cases reply with
  | output value => exact ⟨has, entered⟩
  | suspend pause => exact entered
  | failed text => trivial
  | dateRange => trivial

theorem settle_isLone {node : Node} {ending : Ending} (lone : ending.IsLone context) :
    (settle context node ending).1.IsLone d context := by
  match ending with
  | .ok (.goOn next) => exact lone
  | .ok (.suspend id pause) => exact lone
  | .error failure => cases handler : node.onError <;> simp [settle, handler, IsLone, Ending.IsLone]

/-- A step within a node stays within it, or it comes to the node's ending. -/
theorem step_isLone (around : Surroundings) (functional : around.catalog.IsFunctional)
    (sequential : d.IsSequential) {phase : Phase} (lone : phase.IsLone d context) :
    (phase.step around d context).1.IsLone d (phase.step around d context).2.1 := by
  cases phase with
  | entering id =>
    cases found : d.node? id with
    | none =>
      simp only [step, found]
      trivial
    | some node =>
      simp only [step, found]
      exact ⟨Definition.has_of_node? found, rfl⟩
  | announcing node => exact lone
  | acting node => exact act_isLone around functional sequential lone.1 lone.2
  | replying node procedure reply due =>
    simp only [step]
    split
    · exact lone
    · exact takeUp_isLone lone.1.1 lone.1.2 procedure reply
  | recording node output => exact (sequential node lone.1.mem_nodes).2
  | settling node ending => exact settle_isLone lone
  | redirecting node target failure => exact Nat.le_refl 1
  | ended ending => exact lone
  | forking => exact lone.elim
  | joining => exact lone.elim

end Steps

end Phase

end DurableFlow
