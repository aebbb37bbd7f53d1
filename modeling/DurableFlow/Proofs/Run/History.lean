import DurableFlow.Proofs.Run.Effects
import DurableFlow.Proofs.Run.Soundness
import DurableFlow.Proofs.Run.Transparency
import DurableFlow.Run.Result

/-!
# What a resumed run adds to its history

A pass that goes on from a suspended run only adds to what it was handed: nodes behind the
history, and outputs of the nodes that it has added. Whatever it calls, it calls for a node
that it has added, once for each time that the node was entered. `Grown` is the invariant, kept
by each move of the pass however its branches are interleaved; passes that follow one another
add up.
-/

namespace DurableFlow

/-- The call is one that the node makes. -/
def Call.IsOf (call : Call) (node : Node) : Prop :=
  call.invocation.node = some node.id ∧
    ∃ config, node.kind = .procedure (some call.procedure) config

/-- Whether the call is made for the node with this id. -/
def Call.isFor (id : String) (call : Call) : Bool := call.invocation.node == some id

namespace Phase

/-- The nodes that the next step enters into the history. -/
def enters (d : Definition) : Phase → List String
  | .entering id => ((d.node? id).map Node.id).toList
  | _ => []

/-- The calls for the node with this id that a task may still make before it is done with the
node that it is at work on. -/
def uncalled (id : String) : Phase → Nat
  | .announcing node | .acting node => if node.id = id then 1 else 0
  | _ => 0

theorem uncalled_weighsWork (id : String) : Run.WeighsWork (uncalled id) := by
  intro phase rests
  cases phase <;> first | rfl | cases rests

section Steps

variable {d : Definition} {around : Surroundings} {context : Context} {phase : Phase}

theorem step_trail (around : Surroundings) (d : Definition) (context : Context)
    (phase : Phase) :
    (phase.step around d context).2.1.trail = phase.enters d ++ context.trail := by
  cases phase with
  | entering id => cases found : d.node? id <;> simp [step, enters, found, Context.enter]
  | replying node procedure reply due =>
    simp only [step]
    split <;> rfl
  | _ => rfl

theorem call_working {node other : Node} {name : String} {config : Fields Data}
    (h : (call around context node name config).1.working? = some other) : other = node := by
  rw [call] at h
  repeat' split at h
  all_goals simp_all [working?]

theorem act_working {node other : Node} (h : (act around context node).1.working? = some other) :
    other = node := by
  rw [act] at h
  split at h
  · cases h
  · exact call_working h
  all_goals cases h

theorem takeUp_working {node other : Node} {procedure : String} {reply : Reply}
    (h : (takeUp node procedure reply).working? = some other) : other = node := by
  cases reply <;> simp_all [takeUp, working?]

/-- A task is at work on the node that it has been at work on, or it has just entered one. -/
theorem step_working {node : Node} (h : (phase.step around d context).1.working? = some node) :
    phase.working? = some node ∨ d.Has node ∧ node.id ∈ phase.enters d := by
  cases phase with
  | entering id =>
    cases found : d.node? id with
    | none => simp [step, found, working?] at h
    | some other =>
      obtain rfl : other = node := by simpa [step, found, working?] using h
      exact .inr ⟨Definition.has_of_node? found, by simp [enters, found]⟩
  | announcing other => exact .inl h
  | acting other => exact .inl (congrArg some (act_working h).symm)
  | replying other procedure reply due =>
    simp only [step] at h
    split at h
    · exact .inl h
    · exact .inl (congrArg some (takeUp_working h).symm)
  | settling other ending =>
    simp only [step, settle] at h
    repeat' split at h
    all_goals cases h
  | _ => cases h

/-- Only the output of the node that a task is at work on is written. -/
theorem step_outputs {id : String} (elsewhere : ∀ node, phase.working? = some node → node.id ≠ id) :
    Fields.get? (phase.step around d context).2.1.outputs id =
      Fields.get? context.outputs id := by
  cases phase with
  | entering other => cases found : d.node? other <;> simp [step, found]
  | replying node procedure reply due =>
    simp only [step]
    split <;> rfl
  | recording node output =>
    simp only [step, Context.record, Fields.get?_insert]
    rw [if_neg (Ne.symm (elsewhere node rfl))]
  | _ => rfl

theorem act_calls (around : Surroundings) (context : Context) (node : Node) :
    (act around context node).2.filterMap Effect.call? = [] ∨
      ∃ call, (act around context node).2.filterMap Effect.call? = [call] ∧ call.IsOf node := by
  rw [act]
  split
  · exact .inl rfl
  · rename_i name config kind
    rw [call]
    split
    · exact .inl rfl
    · split
      · exact .inl rfl
      · exact .inr ⟨_, rfl, rfl, config, kind⟩
  all_goals exact .inl rfl

/-- A step that is not the one at which a node acts calls nothing. -/
theorem step_silent (acts : ∀ node, phase ≠ .acting node) :
    (phase.step around d context).2.2.filterMap Effect.call? = [] := by
  cases phase with
  | acting node => exact absurd rfl (acts node)
  | entering id => cases found : d.node? id <;> simp [step, found]
  | replying node procedure reply due =>
    simp only [step]
    split <;> rfl
  | settling node ending =>
    simp only [step, settle]
    repeat' split
    all_goals rfl
  | _ => rfl

/-- Whatever is called is called for the node that the task is at work on. -/
theorem step_calls {call : Call}
    (made : call ∈ (phase.step around d context).2.2.filterMap Effect.call?) :
    ∃ node, phase.working? = some node ∧ call.IsOf node := by
  by_cases acts : ∃ node, phase = .acting node
  · obtain ⟨node, rfl⟩ := acts
    have made : call ∈ (act around context node).2.filterMap Effect.call? := made
    rcases act_calls around context node with none_made | ⟨one, made_one, of⟩
    · simp [none_made] at made
    · rw [made_one, List.mem_singleton] at made
      exact ⟨node, rfl, made ▸ of⟩
  · rw [step_silent fun node same => acts ⟨node, same⟩] at made
    contradiction

theorem uncalled_act (id : String) (around : Surroundings) (context : Context) (node : Node) :
    (act around context node).1.uncalled id = 0 := by
  rw [act]
  split
  · rfl
  · rw [call]
    repeat' split
    all_goals rfl
  all_goals rfl

theorem uncalled_takeUp (id : String) (node : Node) (procedure : String) (reply : Reply) :
    (takeUp node procedure reply).uncalled id = 0 := by
  cases reply <;> rfl

/-- Each call for a node uses up one entrance of the node. -/
theorem step_counted (id : String) (around : Surroundings) (d : Definition) (context : Context)
    (phase : Phase) :
    ((phase.step around d context).2.2.filterMap Effect.call?).countP (Call.isFor id) +
        (phase.step around d context).1.uncalled id ≤
      phase.uncalled id + (phase.enters d).count id := by
  by_cases acts : ∃ node, phase = .acting node
  · obtain ⟨node, rfl⟩ := acts
    show ((act around context node).2.filterMap Effect.call?).countP (Call.isFor id) +
      (act around context node).1.uncalled id ≤ (if node.id = id then 1 else 0) + 0
    rw [uncalled_act]
    rcases act_calls around context node with none_made | ⟨one, made_one, of, _⟩
    · simp [none_made]
    · rw [made_one, List.countP_singleton, Call.isFor, of]
      simp
  · rw [step_silent fun node same => acts ⟨node, same⟩, List.countP_nil, Nat.zero_add]
    cases phase with
    | entering other =>
      cases found : d.node? other with
      | none => simp [step, found, uncalled]
      | some node => simp [step, found, uncalled, enters, List.count_singleton]
    | announcing node => exact Nat.le_refl _
    | acting node => exact absurd ⟨node, rfl⟩ acts
    | replying node procedure reply due =>
      simp only [step]
      split
      · exact Nat.zero_le _
      · rw [uncalled_takeUp]
        exact Nat.zero_le _
    | settling node ending =>
      simp only [step, settle]
      repeat' split
      all_goals exact Nat.zero_le _
    | _ => exact Nat.zero_le _

end Steps

end Phase

namespace Run

variable {d : Definition} {catalog : Catalog} {run after : Run} {base : Context}
  {added : List String} {calls : List Call}

/-- The run has added these nodes to the history that it began with, the latest first, and has
made these calls. -/
structure Grown (d : Definition) (base : Context) (added : List String) (calls : List Call)
    (run : Run) : Prop where
  definition : run.definition = d
  execution : run.context.execution = base.execution
  trail : run.context.trail = added ++ base.trail
  working : ∀ task phase node, run.phase? task = some phase → phase.working? = some node →
    d.Has node ∧ node.id ∈ added
  outputs : ∀ id ∉ added, Fields.get? run.context.outputs id = Fields.get? base.outputs id
  called : ∀ call ∈ calls, ∃ node, d.Has node ∧ node.id ∈ added ∧ call.IsOf node
  counted : ∀ id, calls.countP (Call.isFor id) + run.tally (Phase.uncalled id) ≤ added.count id
  tended : run.Tended

namespace Grown

/-- A pass that has only just begun has added nothing. -/
theorem start (d : Definition) (context : Context) (limit : Nat) (next : List String) :
    (Run.start d context limit next).Grown d context [] [] where
  definition := rfl
  execution := rfl
  trail := rfl
  working task phase node located := by cases task <;> simp [Run.start, phase?, branch?] at located
  outputs _ _ := rfl
  called _ none_made := absurd none_made List.not_mem_nil
  counted _ := Nat.le_refl 0
  tended := .start d context limit next

theorem idle (grown : run.Grown d base added calls) (happens : Transition catalog run after)
    (still : run.Idle after) : after.Grown d base added calls where
  definition := still.definition.trans grown.definition
  execution := still.context ▸ grown.execution
  trail := still.context ▸ grown.trail
  working task phase node located busy := by
    rcases still.phases task phase located with before | rests
    · exact grown.working task phase node before busy
    · rw [rests] at busy
      contradiction
  outputs := still.context ▸ grown.outputs
  called := grown.called
  counted id := by
    rw [still.tally _ (Phase.uncalled_weighsWork id)]
    exact grown.counted id
  tended := grown.tended.transition happens

/-- A step within a node adds what it enters and what it calls. -/
theorem act (grown : run.Grown d base added calls) {task : TaskId} {phase : Phase}
    (around : Surroundings) (located : run.phase? task = some phase) (plain : phase.IsPlain) :
    (({ run with context := (phase.step around run.definition run.context).2.1 } : Run).put task
      (phase.step around run.definition run.context).1).Grown d base (phase.enters d ++ added)
        (calls ++ (phase.step around run.definition run.context).2.2.filterMap Effect.call?) := by
  obtain rfl := grown.definition
  have there : ∀ context, ({ run with context } : Run).phase? task = some phase :=
    fun context => (phase?_context run context task).trans located
  have known : ∀ node, phase.working? = some node →
      run.definition.Has node ∧ node.id ∈ added :=
    fun node busy => grown.working task phase node located busy
  refine ⟨put_definition .., ?_, ?_, ?_, ?_, ?_, ?_, ?_⟩
  · rw [put_context, Phase.step_execution]
    exact grown.execution
  · rw [put_context, Phase.step_trail, grown.trail, List.append_assoc]
  · intro other stands node stood busy
    rw [phase?_put (by rw [there]; rfl)] at stood
    split at stood
    · cases stood
      rcases Phase.step_working busy with before | ⟨has, entered⟩
      · exact ⟨(known node before).1, List.mem_append_right _ (known node before).2⟩
      · exact ⟨has, List.mem_append_left _ entered⟩
    · obtain ⟨has, member⟩ := grown.working other stands node
        ((phase?_context ..).symm.trans stood) busy
      exact ⟨has, List.mem_append_right _ member⟩
  · intro id absent
    obtain ⟨_, old⟩ := not_or.mp (List.mem_append.not.mp absent)
    have elsewhere : ∀ node, phase.working? = some node → node.id ≠ id := by
      rintro node busy rfl
      exact old (known node busy).2
    rw [put_context, Phase.step_outputs elsewhere]
    exact grown.outputs id old
  · intro call made
    rcases List.mem_append.mp made with before | now
    · obtain ⟨node, has, member, of⟩ := grown.called call before
      exact ⟨node, has, List.mem_append_right _ member, of⟩
    · obtain ⟨node, busy, of⟩ := Phase.step_calls now
      exact ⟨node, (known node busy).1, List.mem_append_right _ (known node busy).2, of⟩
  · intro id
    have before := grown.counted id
    have step := Phase.step_counted id around run.definition run.context phase
    have moved := tally_put (Phase.uncalled id)
      { run with context := (phase.step around run.definition run.context).2.1 }
      grown.tended.unique (there _) (phase.step around run.definition run.context).1
    have same : Run.tally (Phase.uncalled id) { run with
        context := (phase.step around run.definition run.context).2.1 } =
          run.tally (Phase.uncalled id) := rfl
    rw [List.countP_append, List.count_append]
    omega
  · exact grown.tended.transition (.act task phase around rfl located plain)

/-- What a move adds. -/
theorem move (grown : run.Grown d base added calls) (catalog : Catalog) (m : Move) :
    ∃ entered, (run.move catalog m).Grown d base (entered ++ added)
      (calls ++ run.callsOf catalog m) := by
  have made : run.callsOf catalog m = (run.effectsOf catalog m).filterMap Effect.call? := by
    cases m <;> rfl
  have shows := move_shows catalog grown.tended m
  rw [made]
  generalize run.effectsOf catalog m = effects at shows
  generalize run.move catalog m = after at shows
  cases shows with
  | idle happens still =>
    refine ⟨[], ?_⟩
    rw [List.nil_append, List.filterMap_nil, List.append_nil]
    exact grown.idle happens still
  | act task phase around known located plain => exact ⟨_, grown.act around located plain⟩

/-- What a schedule adds. -/
theorem play (grown : run.Grown d base added calls) (catalog : Catalog) (schedule : List Move) :
    ∃ entered, (run.play catalog schedule).Grown d base (entered ++ added)
      (calls ++ run.calls catalog schedule) := by
  induction schedule generalizing run added calls with
  | nil =>
    refine ⟨[], ?_⟩
    rw [Run.calls, List.append_nil]
    exact grown
  | cons m rest ih =>
    obtain ⟨first, moved⟩ := grown.move catalog m
    obtain ⟨later, played⟩ := ih moved
    refine ⟨later ++ first, ?_⟩
    rw [Run.calls, ← List.append_assoc, List.append_assoc later]
    exact played

end Grown

end Run

/-- Only nodes that have been entered have outputs. -/
def Context.IsRooted (context : Context) : Prop :=
  ∀ id output, Fields.get? context.outputs id = some output → id ∈ context.history

namespace Suspended

/-- The state has been captured from a run, of whatever definition. -/
def IsCaptured (state : Suspended) : Prop :=
  ∃ d catalog run id pause now, Run.Descends d catalog run ∧
    run.drive = .concluded (.suspended id pause) ∧
      capture? now run.context id pause = some state

variable {state : Suspended}

theorem kept_of_capture? {now : Instant} {context : Context} {id : String} {pause : Pause}
    (h : capture? now context id pause = some state) :
    state.execution = context.execution ∧ state.history = context.history ∧
      state.outputs = context.outputs := by
  rw [capture?] at h
  cases timeout : pause.timeout with
  | none =>
    simp only [timeout] at h
    cases h
    exact ⟨rfl, rfl, rfl⟩
  | some wait =>
    simp only [timeout] at h
    obtain ⟨deadline, _, rfl⟩ := Option.map_eq_some_iff.mp h
    exact ⟨rfl, rfl, rfl⟩

@[simp] theorem history_toContext (state : Suspended) (delta : Fields Data) :
    (state.toContext delta).history = state.history :=
  List.reverse_reverse _

end Suspended

namespace Run

variable {d : Definition} {catalog : Catalog} {run : Run} {base : Context}
  {added : List String} {calls : List Call}

theorem Grown.history (grown : run.Grown d base added calls) :
    run.context.history = base.history ++ added.reverse := by
  rw [Context.history, grown.trail, List.reverse_append, Context.history]

theorem Grown.isRooted (grown : run.Grown d base added calls) (rooted : base.IsRooted) :
    run.context.IsRooted := by
  intro id output there
  rw [grown.history, List.mem_append, List.mem_reverse]
  by_cases new : id ∈ added
  · exact .inr new
  · rw [grown.outputs id new] at there
    exact .inl (rooted id output there)

/-- A run has grown from a context in which only entered nodes have outputs. -/
theorem Descends.grown (descends : Descends d catalog run) :
    ∃ base added calls, run.Grown d base added calls ∧ base.IsRooted := by
  induction descends with
  | execute input execution now limit =>
    refine ⟨_, [], [], .start d _ limit _, fun id output there => ?_⟩
    cases there
  | move _ m ih =>
    obtain ⟨base, added, calls, grown, rooted⟩ := ih
    obtain ⟨entered, moved⟩ := grown.move catalog m
    exact ⟨base, _, _, moved, rooted⟩
  | resume _ suspended captured equipped accepted delta limit ih =>
    obtain ⟨base, added, calls, grown, rooted⟩ := ih
    obtain ⟨_, history, outputs⟩ := Suspended.kept_of_capture? captured
    refine ⟨_, [], [], .start d _ limit _, fun id output there => ?_⟩
    rw [Suspended.history_toContext, history]
    exact grown.isRooted rooted id output (outputs ▸ there)

theorem Descends.isRooted (descends : Descends d catalog run) : run.context.IsRooted := by
  obtain ⟨base, added, calls, grown, rooted⟩ := descends.grown
  exact grown.isRooted rooted

end Run

/-- What is told about a pass is told of its context. -/
theorem Conclusion.kept_of_result {now : Instant} {context : Context} {conclusion : Conclusion}
    {result : RunResult} {happening : Happening}
    (told : conclusion.result now context = .ok (result, happening)) :
    (result.execution = context.execution ∧ result.history = context.history ∧
      result.outputs = context.outputs) ∧
    ∀ state, result.suspended = some state → state.execution = context.execution ∧
      state.history = context.history ∧ state.outputs = context.outputs := by
  obtain ⟨execution, _, history, outputs⟩ := told_of_result told
  refine ⟨⟨execution, history, outputs⟩, fun state suspended => ?_⟩
  obtain ⟨_, _, _, captured⟩ := suspended_of_result told suspended
  exact Suspended.kept_of_capture? captured

/-- A result that adds nodes to the history of a suspended run, after these calls. -/
structure RunResult.Appends (d : Definition) (state : Suspended) (suffix : List String)
    (calls : List Call) (result : RunResult) : Prop where
  execution : result.execution = state.execution
  history : result.history = state.history ++ suffix
  /-- Each call is made by a node that has been entered since. -/
  called : ∀ call ∈ calls, ∃ node, d.Has node ∧ node.id ∈ suffix ∧ call.IsOf node
  /-- A node makes no more calls than it has been entered. -/
  counted : ∀ id, calls.countP (Call.isFor id) ≤ suffix.count id
  /-- Nodes that have not been entered since keep the outputs that they have, or have none. -/
  outputs : ∀ id ∉ suffix, Fields.get? result.outputs id = Fields.get? state.outputs id
  rooted : state.IsCaptured → ∀ id output, Fields.get? result.outputs id = some output →
    id ∈ result.history
  /-- The state of a run that is suspended again says the same as the result. -/
  again : ∀ later, result.suspended = some later → later.execution = result.execution ∧
    later.history = result.history ∧ later.outputs = result.outputs

namespace Run

variable {d : Definition} {catalog : Catalog} {state : Suspended} {calls : List Call}
  {result : RunResult}

/-- A suspended run is let go on, behind its node or at a given one, and its pass comes to a
result, after these calls. When the run is suspended again, it may be let go on again. -/
inductive Resumes (catalog : Catalog) (d : Definition) :
    Suspended → List Call → RunResult → Prop where
  | pass {state : Suspended} {engine : Engine} (equipped : engine.catalog = catalog)
      {node : Option String} {next : List String}
      (accepted : Stride.checkResume engine d state node = .ok next) (delta : Fields Data)
      (schedule : List Move) {conclusion : Conclusion}
      (ended : ((Run.start d (state.toContext delta) engine.limit next).play catalog
        schedule).drive = .concluded conclusion)
      {now : Instant} {result : RunResult} {happening : Happening}
      (told : conclusion.result now ((Run.start d (state.toContext delta) engine.limit
        next).play catalog schedule).context = .ok (result, happening)) :
      Resumes catalog d state
        ((Run.start d (state.toContext delta) engine.limit next).calls catalog schedule) result
  | again {state later : Suspended} {calls more : List Call} {result last : RunResult}
      (first : Resumes catalog d state calls result) (suspended : result.suspended = some later)
      (rest : Resumes catalog d later more last) : Resumes catalog d state (calls ++ more) last

/-- What a pass comes to. -/
theorem appends_of_pass {delta : Fields Data} {limit : Nat} {next : List String}
    {schedule : List Move} {conclusion : Conclusion} {now : Instant} {happening : Happening}
    (told : conclusion.result now ((Run.start d (state.toContext delta) limit next).play catalog
      schedule).context = .ok (result, happening)) :
    ∃ suffix, result.Appends d state suffix
      ((Run.start d (state.toContext delta) limit next).calls catalog schedule) := by
  obtain ⟨entered, played⟩ :=
    (Grown.start d (state.toContext delta) limit next).play catalog schedule
  rw [List.append_nil, List.nil_append] at played
  obtain ⟨⟨execution, history, outputs⟩, kept⟩ := Conclusion.kept_of_result told
  refine ⟨entered.reverse, ?_, ?_, ?_, ?_, ?_, ?_, ?_⟩
  · exact execution.trans played.execution
  · rw [history, played.history, Suspended.history_toContext]
  · intro call made
    obtain ⟨node, has, member, of⟩ := played.called call made
    exact ⟨node, has, List.mem_reverse.mpr member, of⟩
  · intro id
    rw [List.count_reverse]
    exact (Nat.le_add_right _ _).trans (played.counted id)
  · intro id absent
    rw [outputs]
    exact played.outputs id fun member => absent (List.mem_reverse.mpr member)
  · rintro ⟨d', catalog', run, id, pause, now', descends, _, captured⟩
    obtain ⟨_, old, before⟩ := Suspended.kept_of_capture? captured
    have rooted : (state.toContext delta).IsRooted := by
      intro id output there
      rw [Suspended.history_toContext, old]
      exact descends.isRooted id output (before ▸ there)
    rw [outputs, history]
    exact played.isRooted rooted
  · intro later suspended
    obtain ⟨same, same', same''⟩ := kept later suspended
    exact ⟨same.trans execution.symm, same'.trans history.symm, same''.trans outputs.symm⟩

end Run

namespace RunResult.Appends

variable {d : Definition} {state later : Suspended} {suffix extra : List String}
  {calls more : List Call} {result last : RunResult}

/-- What two passes append one after the other. -/
theorem andThen (first : result.Appends d state suffix calls)
    (suspended : result.suspended = some later) (onward : last.Appends d later extra more) :
    last.Appends d state (suffix ++ extra) (calls ++ more) := by
  obtain ⟨execution, history, outputs⟩ := first.again later suspended
  refine ⟨?_, ?_, ?_, ?_, ?_, ?_, onward.again⟩
  · rw [onward.execution, execution, first.execution]
  · rw [onward.history, history, first.history, List.append_assoc]
  · intro call made
    rcases List.mem_append.mp made with before | after
    · obtain ⟨node, has, member, of⟩ := first.called call before
      exact ⟨node, has, List.mem_append_left _ member, of⟩
    · obtain ⟨node, has, member, of⟩ := onward.called call after
      exact ⟨node, has, List.mem_append_right _ member, of⟩
  · intro id
    rw [List.countP_append, List.count_append]
    exact Nat.add_le_add (first.counted id) (onward.counted id)
  · intro id absent
    obtain ⟨old, new⟩ := not_or.mp (List.mem_append.not.mp absent)
    rw [onward.outputs id new, outputs, first.outputs id old]
  · intro captured id output there
    rw [onward.history, List.mem_append]
    by_cases new : id ∈ extra
    · exact .inr new
    · rw [onward.outputs id new, outputs] at there
      exact .inl (history ▸ first.rooted captured id output there)

end RunResult.Appends

namespace Run

variable {d : Definition} {catalog : Catalog} {state : Suspended} {calls : List Call}
  {result : RunResult}

/-- However a suspended run is let go on, behind its node or elsewhere, and however often it is
suspended again, its history is only appended to and nothing that it has completed is lost:
each procedure is called for a node that has been appended, no more often than that, and all
other nodes keep their outputs. -/
theorem history_append_only (resumes : Resumes catalog d state calls result) :
    ∃ suffix, result.Appends d state suffix calls := by
  induction resumes with
  | pass equipped accepted delta schedule ended told => exact appends_of_pass told
  | again first suspended rest ih later =>
    obtain ⟨suffix, appended⟩ := ih
    obtain ⟨extra, appended'⟩ := later
    exact ⟨suffix ++ extra, appended.andThen suspended appended'⟩

/-- The run of `welcome` that waits for a name. -/
def unnamed : Suspended where
  workflow := "welcome"
  execution := "run"
  node := "ask"
  vars := []
  outputs := []
  history := ["ask"]
  wait := { names := ["name"] }
  reason := "awaiting name"
  pausedAt := ⟨0, 0⟩
  startedAt := ⟨0, 0⟩

theorem history_append_only_welcome :
    ∃ calls result, Resumes greeting welcome unnamed calls result ∧
      calls = [⟨"greet", .obj [("name", .str "Ada")], ⟨"welcome", "run", some "greet"⟩⟩] ∧
      result.history = ["ask", "greet"] ∧ unnamed.IsCaptured ∧
      ∃ suffix, result.Appends welcome unnamed suffix calls := by
  let once (n : Nat) : List Move := List.replicate n (.step .driver ⟨⟨0, 0⟩, 0⟩ 0)
  let engine : Engine := { catalog := greeting, limit := 10, epoch := ⟨0, 0⟩ }
  have accepted : Stride.checkResume engine welcome unnamed none = .ok ["greet"] := rfl
  have ended : ((Run.start welcome (unnamed.toContext [("name", .str "Ada")]) engine.limit
      ["greet"]).play greeting (once 9)).drive = .concluded .completed := rfl
  have told : Conclusion.result ⟨0, 0⟩ ((Run.start welcome
      (unnamed.toContext [("name", .str "Ada")]) engine.limit ["greet"]).play greeting
        (once 9)).context .completed = .ok (_, _) := rfl
  have resumes : Resumes greeting welcome unnamed _ _ :=
    .pass rfl accepted [("name", .str "Ada")] (once 9) ended told
  have descends : Descends welcome greeting ((Run.start welcome
      (Context.start "welcome" "run" [] ⟨0, 0⟩) 10 ["ask"]).play greeting (once 6)) :=
    (Descends.execute .null "run" ⟨0, 0⟩ 10).play (once 6)
  have captured : unnamed.IsCaptured :=
    ⟨welcome, greeting, _, "ask", .awaiting ["name"] none none, ⟨0, 0⟩, descends, rfl, rfl⟩
  exact ⟨_, _, resumes, rfl, rfl, captured, history_append_only resumes⟩

end Run

end DurableFlow
