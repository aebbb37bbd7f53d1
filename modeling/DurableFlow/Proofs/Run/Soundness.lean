import DurableFlow.Desk.Step
import DurableFlow.Proofs.Data.Fields
import DurableFlow.Proofs.Definition.Validity
import DurableFlow.Proofs.Run.Interleaving

/-!
# Validation is sound for whole runs

Under a valid definition a run never asks for a node or a procedure that is not there,
however its tasks are interleaved and however often it is suspended and resumed.

The invariant is `Run.Grounded`: all that the tasks of a run are about to do, and all that
they have come to, is about nodes of the definition. Each transition keeps it, and a state
captured from a grounded run can be resumed into another one.
-/

namespace DurableFlow

/-- A node or a procedure that is asked for is not there. -/
def Failure.isMissing : Failure → Bool
  | .unknownNode _ | .unnamedProcedure _ | .unknownProcedure _ => true
  | _ => false

@[simp] theorem Template.RenderFault.isMissing_failure (fault : Template.RenderFault) :
    fault.failure.isMissing = false := by
  cases fault <;> rfl

/-- An await node raises exactly the pause that it declares. What a procedure waits for is
its own affair. -/
def Node.Raises (node : Node) (pause : Pause) : Prop :=
  ∀ names filter timeout, node.kind = .await names filter timeout →
    pause = .awaiting names filter timeout

/-- The node calls a procedure. -/
def Node.IsProcedure (node : Node) : Prop := ∃ name config, node.kind = .procedure name config

/-- Where a step leads is in the definition. -/
def Step.Grounded (d : Definition) : Step → Prop
  | .goOn next => d.Offers next
  | .suspend id pause => ∃ node, d.node? id = some node ∧ node.Raises pause

/-- An ending leads to nodes of the definition, or tells of something else than a gap in it. -/
def Ending.Grounded (d : Definition) : Ending → Prop
  | .ok step => step.Grounded d
  | .error failure => failure.isMissing = false

def Join.Grounded (d : Definition) : Join → Prop
  | .parallel node _ => d.Has node
  | .fanOut => True

def Phase.Grounded (d : Definition) : Phase → Prop
  | .entering id => id ∈ d.ids
  | .announcing node | .acting node | .recording node _ => d.Has node
  | .replying node .. => d.Has node ∧ node.IsProcedure
  | .forking join ids => join.Grounded d ∧ ∀ id ∈ ids, id ∈ d.ids
  | .joining join _ _ => join.Grounded d
  | .settling node ending => d.Has node ∧ Ending.Grounded d ending
  | .redirecting _ target failure => target ∈ d.ids ∧ failure.isMissing = false
  | .ended ending => Ending.Grounded d ending

def Conclusion.Grounded (d : Definition) : Conclusion → Prop
  | .completed => True
  | .suspended id pause => ∃ node, d.node? id = some node ∧ node.Raises pause
  | .failed failure => failure.isMissing = false

def Drive.Grounded (d : Definition) : Drive → Prop
  | .choosing next => d.Offers next
  | .running phase => phase.Grounded d
  | .concluded conclusion => conclusion.Grounded d

/-- All that the tasks of a run are about to do, and all that they have come to, is about
nodes of the definition that the run goes by. -/
structure Run.Grounded (d : Definition) (run : Run) : Prop where
  definition : run.definition = d
  workflow : run.context.workflow = d.id
  drive : run.drive.Grounded d
  branches : ∀ entry ∈ run.branches, entry.2.phase.Grounded d
  arrivals : ∀ arrival ∈ run.arrivals, Ending.Grounded d arrival.2

section Nodes

variable {d : Definition} {catalog : Catalog}

/-- The branch that a condition chooses is one that it refers to. -/
theorem Node.branch?_mem_references {node : Node} {scope : Data} {branch : String}
    (h : node.branch? scope = .ok (some branch)) : branch ∈ node.references := by
  cases kind : node.kind with
  | condition c =>
    have listed : branch ∈ NodeKind.references (.condition c) := by
      simp only [branch?, conditionForm?, kind, Condition.form?] at h
      cases switch : c.switch with
      | some discriminator =>
        simp only [switch] at h
        split at h <;> try contradiction
        split at h <;> try contradiction
        rename_i chosen
        cases h
        rcases Option.or_eq_some_iff.mp chosen with found | ⟨_, fallback⟩
        · simp [NodeKind.references, Fields.mem_values_of_get? found]
        · simp [NodeKind.references, fallback]
      | none =>
        cases expression : c.expression with
        | none => simp [switch, expression] at h
        | some text =>
          simp only [switch, expression] at h
          split at h <;> try contradiction
          rename_i holds _
          cases holds <;> simp_all [NodeKind.references]
    simp [references, kind, listed]
  | _ => simp [branch?, conditionForm?, kind] at h

/-- A condition that fails does so for reasons of its own. -/
theorem Node.isMissing_of_branch?_error {node : Node} {scope : Data} {failure : Failure}
    (h : node.branch? scope = .error failure) : failure.isMissing = false := by
  rw [branch?] at h
  repeat' split at h
  all_goals first | (cases h; rfl) | contradiction

/-- A condition leads to one of its branches or on. -/
theorem Node.route_grounded (valid : d.Valid catalog.knows) {node : Node} (has : d.Has node)
    (scope : Data) : Ending.Grounded d (node.route scope) := by
  rw [route]
  split
  · rename_i failure failed
    exact isMissing_of_branch?_error failed
  · rename_i branch chosen
    exact valid.offers_reference has (branch?_mem_references chosen)
  · exact .successors node has

theorem Context.isMissing_of_input_error {context : Context} {config : Fields Data}
    {failure : Failure} (h : context.input config = .error failure) :
    failure.isMissing = false := by
  rw [Context.input] at h
  split at h
  · cases h
    exact Template.RenderFault.isMissing_failure _
  · contradiction

/-- Whatever a procedure replies, its node goes on, waits, or fails for a reason of its own. -/
theorem Phase.takeUp_grounded {node : Node} (has : d.Has node) (procedural : node.IsProcedure)
    (name : String) (reply : Reply) : (Phase.takeUp node name reply).Grounded d := by
  cases reply with
  | output value => exact has
  | suspend pause =>
    refine ⟨has, node, has, fun names filter timeout kind => ?_⟩
    obtain ⟨_, _, procedure⟩ := procedural
    cases procedure.symm.trans kind
  | failed text => exact ⟨has, rfl⟩
  | dateRange => rfl

theorem Phase.call_grounded {node : Node} (has : d.Has node) (procedural : node.IsProcedure)
    {around : Surroundings} {name : String} (known : around.catalog.knows name = true)
    (context : Context) (config : Fields Data) :
    (Phase.call around context node name config).1.Grounded d := by
  obtain ⟨procedure, found⟩ := Option.isSome_iff_exists.mp known
  rw [Phase.call]
  rw [found]
  cases input : context.input config with
  | error failure => exact ⟨has, Context.isMissing_of_input_error input⟩
  | ok value => exact ⟨has, procedural⟩

/-- Whatever a node does, it stays with nodes of a valid definition. -/
theorem Phase.act_grounded {around : Surroundings} (valid : d.Valid around.catalog.knows)
    {node : Node} (has : d.Has node) (context : Context) :
    (Phase.act around context node).1.Grounded d := by
  rw [Phase.act]
  split
  · rename_i kind
    obtain ⟨_, named, _⟩ := valid.procedure_known has.mem_nodes kind
    contradiction
  · rename_i name config kind
    obtain ⟨_, named, known⟩ := valid.procedure_known has.mem_nodes kind
    cases named
    exact call_grounded has ⟨_, _, kind⟩ known context config
  · exact ⟨has, Node.route_grounded valid has _⟩
  · rename_i branches waitForAll kind
    refine ⟨has, fun id member => valid.reference_mem_ids has.mem_nodes ?_⟩
    simp [Node.references, kind, NodeKind.references, member]
  · exact ⟨has, .successors node has⟩
  · rename_i names filter timeout kind
    refine ⟨has, node, has, fun _ _ _ same => ?_⟩
    cases kind.symm.trans same
    rfl

theorem Phase.settle_grounded {known : String → Bool} (valid : d.Valid known) {node : Node}
    (has : d.Has node) {ending : Ending} (grounded : Ending.Grounded d ending)
    (context : Context) : (Phase.settle context node ending).1.Grounded d := by
  match ending with
  | .ok (.goOn next) => exact grounded
  | .ok (.suspend id pause) => exact grounded
  | .error failure =>
    cases handler : node.onError with
    | none =>
      simp only [Phase.settle, handler]
      exact grounded
    | some target =>
      have reference : target ∈ node.references := by simp [Node.references, handler]
      simp only [Phase.settle, handler]
      exact ⟨valid.reference_mem_ids has.mem_nodes reference, grounded⟩

/-- A step within a node stays with nodes of a valid definition. -/
theorem Phase.step_grounded {around : Surroundings} (valid : d.Valid around.catalog.knows)
    {phase : Phase} (grounded : phase.Grounded d) (context : Context) :
    (phase.step around d context).1.Grounded d := by
  cases phase with
  | entering id =>
    obtain ⟨node, found⟩ := Definition.exists_node_of_mem_ids grounded
    simp only [step, found]
    exact Definition.has_of_node? found
  | announcing node => exact grounded
  | acting node => exact act_grounded valid grounded context
  | replying node procedure reply due =>
    simp only [step]
    split
    · exact grounded
    · exact takeUp_grounded grounded.1 grounded.2 procedure reply
  | recording node output => exact ⟨grounded, .successors node grounded⟩
  | forking join ids => exact grounded
  | joining join group count => exact grounded
  | settling node ending => exact settle_grounded valid grounded.1 grounded.2 context
  | redirecting node target failure => exact .single target grounded.1
  | ended ending => exact grounded

end Nodes

section Joins

variable {d : Definition}

theorem Join.collect_grounded {endings : List Ending}
    (grounded : ∀ ending ∈ endings, Ending.Grounded d ending) :
    match Join.collect endings with
    | .error failure => failure.isMissing = false
    | .ok steps => ∀ step ∈ steps, step.Grounded d := by
  induction endings with
  | nil => simp [Join.collect]
  | cons ending rest ih =>
    have later := ih fun ending member => grounded ending (List.mem_cons_of_mem _ member)
    have first := grounded ending List.mem_cons_self
    cases ending with
    | error failure => exact first
    | ok step =>
      cases rest_steps : Join.collect rest with
      | error failure => simpa [Join.collect, rest_steps] using later
      | ok steps =>
        simp only [rest_steps] at later
        simp only [Join.collect, rest_steps, List.mem_cons, forall_eq_or_imp]
        exact ⟨first, later⟩

/-- Branches that agree agree on what the first of them names. -/
theorem Join.agreed_eq (nexts : List (List String)) :
    Join.agreed nexts = [] ∨ ∃ id rest, nexts = [id] :: rest ∧ Join.agreed nexts = [id] := by
  unfold Join.agreed
  split
  · rename_i id rest
    split
    · exact .inr ⟨id, rest, rfl, rfl⟩
    · exact .inl rfl
  · exact .inl rfl

/-- Where branches lead together, one of them or their parent leads. -/
theorem Join.resolve_grounded {join : Join} (grounded : join.Grounded d) {steps : List Step}
    (all : ∀ step ∈ steps, step.Grounded d) : (join.resolve steps).Grounded d := by
  unfold Join.resolve
  split
  · rename_i suspend found
    exact all _ (List.mem_of_find?_eq_some found)
  · cases join with
    | parallel node waitForAll => exact .successors node grounded
    | fanOut =>
      rcases Join.agreed_eq (Join.successors steps) with none_agreed | ⟨id, rest, named, agreed⟩
      · simp only [none_agreed]
        exact .nothing
      · have member : [id] ∈ Join.successors steps := by simp [named]
        obtain ⟨step, step_mem, names⟩ := List.mem_filterMap.mp member
        simp only [agreed]
        cases step with
        | goOn next =>
          cases names
          exact all _ step_mem
        | suspend => simp at names

theorem Join.outcome?_grounded {join : Join} (grounded : join.Grounded d) {count : Nat}
    {endings : List Ending} (all : ∀ ending ∈ endings, Ending.Grounded d ending)
    {ending : Ending} (outcome : join.outcome? count endings = some ending) :
    Ending.Grounded d ending := by
  have awaited_all : ∀ ending ∈ (if join.waitForAll then endings else endings.take 1),
      Ending.Grounded d ending := by
    intro ending member
    split at member
    · exact all ending member
    · exact all ending (List.mem_of_mem_take member)
  have collected := collect_grounded awaited_all
  unfold Join.outcome? at outcome
  dsimp only at outcome
  split at outcome
  · rename_i failure failed
    rw [failed] at collected
    cases outcome
    exact collected
  · rename_i steps settled
    rw [settled] at collected
    split at outcome
    · cases outcome
      exact resolve_grounded grounded collected
    · contradiction

end Joins

namespace Run

variable {d : Definition} {catalog : Catalog} {run : Run}

namespace Grounded

theorem phase? (grounded : run.Grounded d) {task : TaskId} {phase : Phase}
    (located : run.phase? task = some phase) : phase.Grounded d := by
  cases task with
  | driver =>
    have drive := grounded.drive
    rw [drive_of_phase? located] at drive
    exact drive
  | branch id =>
    obtain ⟨group, found⟩ := exists_branch_of_phase? located
    exact grounded.branches _ (Table.mem_of_lookup found)

/-- A task may be put into a grounded phase. -/
theorem put (grounded : run.Grounded d) (task : TaskId) {phase : Phase}
    (fits : phase.Grounded d) : (run.put task phase).Grounded d := by
  refine ⟨?_, ?_, ?_, fun entry member => ?_, ?_⟩
  · cases task <;> exact grounded.definition
  · cases task <;> exact grounded.workflow
  · cases task with
    | driver => exact fits
    | branch id => exact grounded.drive
  · rcases mem_put_branches member with old | ⟨id, branch, _, _, rfl⟩
    · exact grounded.branches entry old
    · exact fits
  · cases task <;> exact grounded.arrivals

theorem fork (grounded : run.Grounded d) {ids : List String} (known : ∀ id ∈ ids, id ∈ d.ids) :
    (run.fork (ids.map .entering)).Grounded d := by
  refine ⟨grounded.definition, grounded.workflow, grounded.drive, fun entry member => ?_,
    grounded.arrivals⟩
  rcases List.mem_append.mp member with old | new
  · exact grounded.branches entry old
  · obtain ⟨i, _, rfl⟩ := List.mem_mapIdx.mp new
    simpa [Phase.Grounded] using known _ (List.getElem_mem _)

theorem dismiss (grounded : run.Grounded d) (group : Nat) : (run.dismiss group).Grounded d :=
  { grounded with
    arrivals := fun arrival member => grounded.arrivals arrival (List.mem_of_mem_filter member) }

theorem endingsOf (grounded : run.Grounded d) (group : Nat) :
    ∀ ending ∈ run.endingsOf group, Ending.Grounded d ending := by
  intro ending member
  obtain ⟨arrival, kept, rfl⟩ := List.mem_map.mp member
  exact grounded.arrivals arrival (List.mem_of_mem_filter kept)

theorem arrival {ending : Ending} (grounded : Ending.Grounded d ending) :
    Ending.Grounded d (Run.arrival ending) := by
  unfold Run.arrival
  split
  · rfl
  · exact grounded

theorem joined {join : Join} (fits : join.Grounded d) {ending : Ending}
    (grounded : Ending.Grounded d ending) : (Phase.joined join ending).Grounded d := by
  cases join with
  | parallel node waitForAll => exact ⟨fits, grounded⟩
  | fanOut => exact grounded

theorem choose (valid : d.Valid catalog.knows) (grounded : run.Grounded d) {next : List String}
    (offered : d.Offers next) : (run.choose next).Grounded d := by
  have known : ∀ id ∈ next, id ∈ d.ids := fun _ member => valid.offers_mem_ids offered member
  unfold Run.choose
  split
  · exact { grounded with drive := trivial }
  · rename_i id rest
    split
    · exact { grounded with drive := rfl }
    · split
      · exact { grounded with drive := rfl }
      · refine { grounded with drive := ?_ }
        cases rest with
        | nil => exact known id (by simp)
        | cons second rest => exact ⟨trivial, known⟩

/-- Whatever happens to a grounded run leaves it grounded. -/
theorem transition (valid : d.Valid catalog.knows) {after : Run} (grounded : run.Grounded d)
    (happens : Transition catalog run after) : after.Grounded d := by
  cases happens with
  | rest => exact grounded
  | wait task phase located => exact grounded.put task (grounded.phase? located)
  | act task phase around known located plain =>
    have acted : Run.Grounded d { run with
        context := (phase.step around run.definition run.context).2.1 } :=
      { grounded with workflow := (Phase.step_workflow ..).trans grounded.workflow }
    apply acted.put task
    subst known
    rw [grounded.definition]
    exact Phase.step_grounded valid (grounded.phase? located) run.context
  | fork task join ids located =>
    have phase := grounded.phase? located
    exact (grounded.fork phase.2).put task phase.1
  | join task join group count ending located outcome =>
    have fits : join.Grounded d := grounded.phase? located
    exact (grounded.dismiss group).put task
      (joined fits (Join.outcome?_grounded fits (grounded.endingsOf group) outcome))
  | arrive id group ending located =>
    have ended : Ending.Grounded d ending :=
      grounded.branches _ (Table.mem_of_lookup located)
    refine { grounded with branches := fun entry member => ?_, arrivals := fun a member => ?_ }
    · exact grounded.branches entry (List.mem_of_mem_filter member)
    · rcases List.mem_append.mp member with old | new
      · exact grounded.arrivals a old
      · rw [List.mem_singleton.mp new]
        exact arrival ended
  | follow ending located =>
    have drive := grounded.drive
    rw [located] at drive
    refine { grounded with drive := ?_ }
    match ending with
    | .ok (.goOn next) => exact drive
    | .ok (.suspend id pause) => exact drive
    | .error failure => exact drive
  | choose next located =>
    have drive := grounded.drive
    rw [located] at drive
    exact grounded.choose valid drive
  | cancel => exact { grounded with }

/-- A pass that starts at nodes which the definition offers starts out grounded. -/
theorem start {context : Context} (workflow : context.workflow = d.id) (limit : Nat)
    {next : List String} (offered : d.Offers next) :
    (Run.start d context limit next).Grounded d where
  definition := rfl
  workflow := workflow
  drive := offered
  branches := by simp [Run.start]
  arrivals := by simp [Run.start]

end Grounded

end Run

section Resumption

variable {d : Definition} {catalog : Catalog}

theorem Suspended.capture?_eq_some {now : Instant} {context : Context} {id : String}
    {pause : Pause} {state : Suspended} (h : capture? now context id pause = some state) :
    state.workflow = context.workflow ∧ state.execution = context.execution ∧
      state.node = id ∧ state.deadlineNode = pause.timeout.bind AwaitTimeout.node := by
  rw [capture?] at h
  cases timeout : pause.timeout with
  | none =>
    simp only [timeout] at h
    cases h
    exact ⟨rfl, rfl, rfl, rfl⟩
  | some wait =>
    simp only [timeout] at h
    obtain ⟨deadline, _, rfl⟩ := Option.map_eq_some_iff.mp h
    exact ⟨rfl, rfl, rfl, rfl⟩

/-- What is told of a pass is told of its context. -/
theorem Conclusion.told_of_result {now : Instant} {context : Context} {conclusion : Conclusion}
    {result : RunResult} {happening : Happening}
    (told : conclusion.result now context = .ok (result, happening)) :
    result.execution = context.execution ∧ result.workflow = context.workflow ∧
      result.history = context.history ∧ result.outputs = context.outputs := by
  unfold Conclusion.result at told
  repeat' split at told
  all_goals cases told
  all_goals exact ⟨rfl, rfl, rfl, rfl⟩

/-- A result comes with a suspended run when the pass has been suspended, and the run is captured
then. -/
theorem Conclusion.suspended_of_result {now : Instant} {context : Context} {conclusion : Conclusion}
    {result : RunResult} {happening : Happening} {state : Suspended}
    (told : conclusion.result now context = .ok (result, happening))
    (suspended : result.suspended = some state) :
    ∃ id pause, conclusion = .suspended id pause ∧
      Suspended.capture? now context id pause = some state := by
  unfold Conclusion.result at told
  split at told
  · cases told
    contradiction
  · split at told
    · contradiction
    · rename_i captured
      cases told
      cases suspended
      exact ⟨_, _, rfl, captured⟩
  · cases told
    contradiction
  · contradiction
  · cases told
    contradiction

/-- A resumption that is accepted goes on where the definition offers to. -/
theorem Stride.offers_of_checkResume {engine : Engine} {state : Suspended} {node : Option String}
    {next : List String} (accepted : checkResume engine d state node = .ok next) :
    d.Offers next ∧ state.workflow = d.id := by
  rw [checkResume] at accepted
  split at accepted
  · contradiction
  · rename_i points found
    split at accepted
    · contradiction
    · split at accepted
      · rename_i same
        cases accepted
        refine ⟨?_, same⟩
        unfold resumePoint at found
        split at found
        · split at found
          · rename_i node known
            cases found
            have same_id := Definition.id_of_node? known
            exact .single _ (same_id ▸ (Definition.has_of_node? known).mem_ids)
          · contradiction
        · split at found
          · rename_i known
            cases found
            exact .successors _ (Definition.has_of_node? known)
          · contradiction
      · contradiction

/-- A state of a valid workflow is accepted wherever its node or the given one is known. -/
theorem Stride.checkResume_eq_ok {engine : Engine} (valid : d.Valid engine.catalog.knows)
    {state : Suspended} (own : state.workflow = d.id) {node : Option String} {next : List String}
    (point : resumePoint d state node = .ok next) : checkResume engine d state node = .ok next := by
  have validated : engine.validate d = .ok () := by
    have clean : d.problems engine.catalog.knows = [] := valid
    simp only [Engine.validate, clean]
  simp only [checkResume, point, validated, own, if_true]

end Resumption

namespace Run

variable {d : Definition} {catalog : Catalog} {run : Run}

/-- The runs of a definition with some procedures: a run from the start, what any moves make
of a run, and a run from a state that has been captured from a suspended one, behind its
node or at any node that is accepted. -/
inductive Descends (d : Definition) (catalog : Catalog) : Run → Prop where
  | execute (input : Data) (execution : String) (now : Instant) (limit : Nat) :
      Descends d catalog
        (.start d (Context.start d.id execution (Context.bindInput d.vars input) now) limit
          [d.start])
  | move {run : Run} (descends : Descends d catalog run) (m : Move) :
      Descends d catalog (run.move catalog m)
  | resume {run : Run} (descends : Descends d catalog run) {id : String} {pause : Pause}
      (suspended : run.drive = .concluded (.suspended id pause)) {now : Instant}
      {state : Suspended} (captured : Suspended.capture? now run.context id pause = some state)
      {engine : Engine} (equipped : engine.catalog = catalog) {node : Option String}
      {next : List String} (accepted : Stride.checkResume engine d state node = .ok next)
      (delta : Fields Data) (limit : Nat) :
      Descends d catalog (.start d (state.toContext delta) limit next)

theorem Descends.play (descends : Descends d catalog run) (schedule : List Move) :
    Descends d catalog (run.play catalog schedule) :=
  play_induction (fun _ m h => h.move m) descends schedule

/-- Runs of a valid definition are grounded. -/
theorem Descends.grounded (valid : d.Valid catalog.knows) (descends : Descends d catalog run) :
    run.Grounded d := by
  induction descends with
  | execute input execution now limit => exact .start rfl limit valid.offers_start
  | move _ m ih => exact ih.transition valid (move_transition catalog _ m)
  | resume _ suspended captured equipped accepted delta limit ih =>
    obtain ⟨offered, own⟩ := Stride.offers_of_checkResume accepted
    exact .start own limit offered

/-- No task is sent to a node that is not there, and no node and no run fails for want of a node or
a procedure. -/
structure LacksNothing (d : Definition) (run : Run) : Prop where
  entering : ∀ task id, run.phase? task = some (.entering id) → id ∈ d.ids
  settling : ∀ task node failure, run.phase? task = some (.settling node (.error failure)) →
    failure.isMissing = false
  ended : ∀ task failure, run.phase? task = some (.ended (.error failure)) →
    failure.isMissing = false
  concluded : ∀ failure, run.drive = .concluded (.failed failure) → failure.isMissing = false

theorem Grounded.lacksNothing (grounded : run.Grounded d) : run.LacksNothing d where
  entering task id located := grounded.phase? located
  settling task node failure located := (grounded.phase? located).2
  ended task failure located := grounded.phase? located
  concluded failure ends := by
    have drive := grounded.drive
    rw [ends] at drive
    exact drive

end Run

namespace Suspended

variable {state : Suspended}

/-- The state has been captured of a run of the definition that is suspended. -/
def StemsFrom (d : Definition) (catalog : Catalog) (state : Suspended) : Prop :=
  ∃ run id pause now, Run.Descends d catalog run ∧ run.drive = .concluded (.suspended id pause) ∧
    capture? now run.context id pause = some state

/-- The node that has suspended the run is an await node that names a node for when its wait is
over. -/
def Expects (d : Definition) (state : Suspended) (target : String) : Prop :=
  ∃ node names filter durationMs, d.node? state.node = some node ∧
    node.kind = .await names filter (some ⟨durationMs, some target⟩)

/-- What the state says of the end of its wait is what its node says, and its run may go on behind
this node and at the node for when the wait is over. -/
theorem StemsFrom.accepted (valid : d.Valid catalog.knows) (stems : state.StemsFrom d catalog) :
    (∀ target, state.Expects d target → state.deadlineNode = some target) ∧
      ∀ engine : Engine, engine.catalog = catalog →
        ∀ node, (∀ target ∈ node, state.Expects d target) →
          ∃ next, Stride.checkResume engine d state node = .ok next := by
  obtain ⟨run, id, pause, now, descends, suspended, captured⟩ := stems
  have grounded := descends.grounded valid
  obtain ⟨workflow, _, rfl, deadlineNode⟩ := capture?_eq_some captured
  have own : state.workflow = d.id := workflow.trans grounded.workflow
  have drive := grounded.drive
  rw [suspended] at drive
  obtain ⟨node, found, raises⟩ := drive
  refine ⟨fun target expects => ?_, fun engine equipped => ?_⟩
  · obtain ⟨node', names, filter, durationMs, found', kind⟩ := expects
    cases found.symm.trans found'
    simp [deadlineNode, raises names filter _ kind, Pause.awaiting]
  · subst equipped
    rintro (_ | target) expects
    · have behind : Stride.resumePoint d state none = .ok node.successors := by
        simp only [Stride.resumePoint, found]
      exact ⟨_, Stride.checkResume_eq_ok valid own behind⟩
    · obtain ⟨node', names, filter, durationMs, found', kind⟩ := expects target rfl
      have reference : target ∈ node'.references := by
        simp [Node.references, kind, NodeKind.references]
      have member := valid.reference_mem_ids (Definition.mem_nodes_of_node? found') reference
      obtain ⟨other, there⟩ := Definition.exists_node_of_mem_ids member
      have aim : Stride.resumePoint d state (some target) = .ok [target] := by
        simp only [Stride.resumePoint, there]
      exact ⟨_, Stride.checkResume_eq_ok valid own aim⟩

end Suspended

end DurableFlow
