import DurableFlow.Proofs.Engine.Book
import DurableFlow.Proofs.Run.Effects

/-!
# What an engine counts

Nothing but the announcement of a node counts nodes, and a task that enters a node announces it
next. So the nodes that have been counted and those that are about to be announced are together
the nodes that the histories of the runs have gained (`Changes.tallied`). `Changes` says once what
may become of an engine in one step.
-/

namespace DurableFlow

namespace Fields

/-- Binding a name to another number changes one summand. -/
theorem sum_values_insert {fields : Fields Nat} (sorted : Sorted fields)
    (name : String) (value : Nat) :
    (values (insert fields name value)).sum + (get? fields name).getD 0 =
      (values fields).sum + value := by
  induction fields with
  | nil => simp [insert, values]
  | cons field rest ih =>
    obtain ⟨n, v⟩ := field
    obtain ⟨above, later⟩ := List.pairwise_cons.mp sorted
    rw [insert, get?_cons]
    split
    · rename_i less
      -- the name is below all others, so it has not been bound
      have unbound : get? rest name = none := by
        rw [Option.eq_none_iff_forall_not_mem]
        intro bound found
        exact absurd ((above _ (mem_of_get? found)).trans less) (lt_irrefl n)
      simp [unbound, less.ne, values]
      omega
    · split
      · simp [values]
        omega
      · have step := ih later
        simp only [values, List.map_cons, List.sum_cons] at step ⊢
        omega

end Fields

theorem Status.text_injective : Function.Injective Status.text := by
  intro status other same
  have named := congrArg Status.ofText? same
  simpa using named

theorem EventOutcome.text_injective : Function.Injective EventOutcome.text := by
  intro outcome other
  cases outcome <;> cases other <;> simp [EventOutcome.text]

theorem TimeoutPolicy.text_injective : Function.Injective TimeoutPolicy.text := by
  intro policy other
  cases policy <;> cases other <;> simp [TimeoutPolicy.text]

/-- A node is counted. -/
def Tally.isNode : Tally → Bool
  | .node _ => true
  | _ => false

namespace Metrics

variable {metrics : Metrics}

/-- What a counter shows. -/
def reading (metrics : Metrics) : Tally → Nat
  | .run status => (Fields.get? metrics.runs status.text).getD 0
  | .node kind => (Fields.get? metrics.nodes kind).getD 0
  | .timeout policy => (Fields.get? metrics.timeouts policy.text).getD 0
  | .event outcome => (Fields.get? metrics.events outcome.text).getD 0

/-- What the counters of nodes show together. -/
def nodesExecuted (metrics : Metrics) : Nat := (Fields.values metrics.nodes).sum

theorem getD_increment (series : Fields Nat) (label other : String) :
    (Fields.get? (increment series label) other).getD 0 =
      (Fields.get? series other).getD 0 + if other = label then 1 else 0 := by
  rw [increment, Fields.get?_insert]
  split
  · rename_i same
    rw [same, Option.getD_some]
  · rfl

/-- One counter shows one more, and all others show what they did. -/
theorem reading_count (metrics : Metrics) (tally other : Tally) :
    (metrics.count tally).reading other =
      metrics.reading other + if other = tally then 1 else 0 := by
  cases tally <;> cases other <;>
    simp [count, reading, getD_increment, Status.text_injective.eq_iff,
      EventOutcome.text_injective.eq_iff, TimeoutPolicy.text_injective.eq_iff]

theorem nodesExecuted_count (sorted : Fields.Sorted metrics.nodes) (tally : Tally) :
    (metrics.count tally).nodesExecuted =
      metrics.nodesExecuted + if tally.isNode then 1 else 0 := by
  cases tally with
  | node kind =>
    have more := Fields.sum_values_insert sorted kind ((Fields.get? metrics.nodes kind).getD 0 + 1)
    simp only [count, nodesExecuted, increment, Tally.isNode, if_true] at more ⊢
    omega
  | _ => rfl

theorem sorted_count (sorted : Fields.Sorted metrics.nodes) (tally : Tally) :
    Fields.Sorted (metrics.count tally).nodes := by
  cases tally with
  | node kind => exact sorted.insert _ _
  | _ => exact sorted

end Metrics

/-- The task has entered a node and announces it next. -/
def Phase.announces : Phase → Nat
  | .announcing _ => 1
  | _ => 0

/-- How many nodes an effect counts. -/
def Effect.nodes : Effect → Nat
  | .count tally => if tally.isNode then 1 else 0
  | _ => 0

/-- A step within a node enters a node that is to be announced, or counts one that has been
announced, or does neither. -/
theorem Phase.step_announces (around : Surroundings) (d : Definition) (context : Context)
    {phase : Phase} (plain : phase.IsPlain) :
    let next := phase.step around d context
    (next.2.2.map Effect.nodes).sum + next.1.announces + context.history.length =
      phase.announces + next.2.1.history.length := by
  cases phase with
  | entering id =>
    simp only [step]
    split
    · rfl
    · simp [announces, Nat.add_comm]
  | acting node =>
    simp only [step, act, call]
    repeat' split
    all_goals simp [announces, Effect.nodes]
  | replying node procedure reply due =>
    simp only [step]
    split
    · rfl
    · cases reply <;> simp [takeUp, announces]
  | settling node ending =>
    simp only [step, settle]
    repeat' split
    all_goals simp [announces, Effect.nodes]
  | announcing | recording | redirecting =>
    simp [step, announces, Effect.nodes, Tally.isNode]
  | forking => exact plain.elim
  | joining => exact plain.elim
  | ended => exact plain.elim

/-- A step within a node counts nothing but nodes. -/
theorem Phase.step_counts (around : Surroundings) (d : Definition) (context : Context)
    {phase : Phase} {tally : Tally} (counts : .count tally ∈ (phase.step around d context).2.2) :
    tally.isNode = true := by
  cases phase with
  | announcing node =>
    obtain rfl : tally = .node node.kind.name := by simpa [step] using counts
    rfl
  | entering | replying =>
    simp only [step] at counts
    split at counts <;> simp at counts
  | acting node =>
    simp only [step, act, call] at counts
    repeat' split at counts
    all_goals simp at counts
  | settling node ending =>
    simp only [step, settle] at counts
    repeat' split at counts
    all_goals simp at counts
  | _ => simp [step] at counts

namespace Run

variable {catalog : Catalog} {run after : Run} {effects : List Effect}

/-- How many nodes a run has entered that it has not announced. -/
def announcing (run : Run) : Nat := run.tally Phase.announces

theorem weighsWork_announces : WeighsWork Phase.announces := by
  intro phase idle
  cases phase with
  | announcing node => contradiction
  | _ => rfl

/-- A move enters a node that is to be announced, or counts one that has been announced, or does
neither. -/
theorem Shows.announcing (tended : run.Tended) (shown : Shows catalog run after effects) :
    (effects.map Effect.nodes).sum + after.announcing + run.context.history.length =
      run.announcing + after.context.history.length := by
  cases shown with
  | idle happens still =>
    rw [Run.announcing, Run.announcing, still.context, still.tally _ weighsWork_announces]
    simp
  | act task phase around known located plain =>
    have moved := tally_put Phase.announces
      { run with context := (phase.step around run.definition run.context).2.1 } tended.unique
      ((phase?_context ..).trans located) (phase.step around run.definition run.context).1
    have untouched : tally Phase.announces
        { run with context := (phase.step around run.definition run.context).2.1 } =
          run.tally Phase.announces := rfl
    have step := Phase.step_announces around run.definition run.context plain
    simp only [Run.announcing, put_context] at step moved ⊢
    omega

/-- A move counts nothing but nodes. -/
theorem Shows.isNode (shown : Shows catalog run after effects) {tally : Tally}
    (counts : .count tally ∈ effects) : tally.isNode = true := by
  cases shown with
  | idle happens still => contradiction
  | act task phase around known located plain =>
    exact Phase.step_counts around run.definition run.context counts

theorem announcing_of_concluded {conclusion : Conclusion}
    (concluded : run.drive = .concluded conclusion) (alone : run.branches = []) :
    run.announcing = 0 := by
  simp [Run.announcing, tally, concluded, alone, driverWeight]

end Run

namespace Engine

variable {engine after : Engine} {id : Nat} {run : Run}

/-- What counting takes: runs have ids and tasks of their own, and every kind of nodes a counter. -/
structure Countable (engine : Engine) : Prop where
  numbered : engine.Numbered
  tended : ∀ entry ∈ engine.runs, entry.2.Tended
  sorted : Fields.Sorted engine.metrics.nodes

theorem Countable.tick (countable : engine.Countable) : engine.tick.Countable :=
  ⟨⟨countable.numbered.nodup, countable.numbered.lt⟩, countable.tended, countable.sorted⟩

/-- How many nodes have been entered that have not been announced. -/
def announcing (engine : Engine) : Nat := (engine.runs.map fun entry => entry.2.announcing).sum

/-- The nodes that the histories of runs have gained, for each run that was there before and is
there still. -/
def entered (engine after : Engine) : List String :=
  engine.runs.flatMap fun entry =>
    ((after.run? entry.1).map fun run =>
      run.context.history.drop entry.2.context.history.length).getD []

/-- Where no history has grown, nothing has been gained. -/
theorem entered_eq_nil (numbered : engine.Numbered)
    (still : ∀ id run later, engine.run? id = some run → after.run? id = some later →
      later.context = run.context) : engine.entered after = [] := by
  refine List.flatMap_eq_nil_iff.mpr fun entry member => ?_
  have found := (Table.lookup_eq_some_iff numbered.nodup).mpr member
  cases there : after.run? entry.1 with
  | none => rfl
  | some later =>
    rw [Option.map_some, Option.getD_some, still entry.1 entry.2 later found there,
      List.drop_length]

/-- Where the history of one run only may have grown, what has been gained is what it has gained. -/
theorem length_entered (numbered : engine.Numbered) {later : Run}
    (found : engine.run? id = some run) (there : after.run? id = some later)
    (others : ∀ other, other ≠ id → after.run? other = engine.run? other) :
    (engine.entered after).length =
      later.context.history.length - run.context.history.length := by
  rw [entered, List.length_flatMap, Table.sum_eq_of_lookup numbered.nodup found]
  · simp [there]
  · intro entry member different
    have known : engine.run? entry.1 = some entry.2 :=
      (Table.lookup_eq_some_iff numbered.nodup).mpr member
    simp [others entry.1 different, known]

section Effects

theorem perform_counts (context : Context) (effects : List Effect) {engine : Engine}
    (sorted : Fields.Sorted engine.metrics.nodes) :
    Fields.Sorted (effects.foldl (perform context) engine).metrics.nodes ∧
      (effects.foldl (perform context) engine).metrics.nodesExecuted =
        engine.metrics.nodesExecuted + (effects.map Effect.nodes).sum := by
  induction effects generalizing engine with
  | nil => exact ⟨sorted, rfl⟩
  | cons effect rest ih =>
    have first : Fields.Sorted (perform context engine effect).metrics.nodes ∧
        (perform context engine effect).metrics.nodesExecuted =
          engine.metrics.nodesExecuted + effect.nodes := by
      cases effect with
      | count tally =>
        exact ⟨Metrics.sorted_count sorted tally, Metrics.nodesExecuted_count sorted tally⟩
      | _ => exact ⟨sorted, rfl⟩
    obtain ⟨kept, more⟩ := ih first.1
    rw [List.foldl_cons, List.map_cons, List.sum_cons]
    exact ⟨kept, by omega⟩

theorem perform_reading (context : Context) {effects : List Effect} {tally : Tally}
    (uncounted : .count tally ∉ effects) (engine : Engine) :
    (effects.foldl (perform context) engine).metrics.reading tally =
      engine.metrics.reading tally := by
  induction effects generalizing engine with
  | nil => rfl
  | cons effect rest ih =>
    obtain ⟨other, later⟩ := not_or.mp (mt List.mem_cons.mpr uncounted)
    rw [List.foldl_cons, ih later]
    cases effect with
    | count counted =>
      have different : tally ≠ counted := fun same => other (same ▸ rfl)
      exact (Metrics.reading_count ..).trans (by rw [if_neg different, Nat.add_zero])
    | _ => rfl

end Effects

/-- What may become of an engine in one step, while no act is carried out. -/
inductive Changes (engine : Engine) : Engine → Prop
  /-- Neither the runs nor what is counted, nor what is stored. -/
  | aside {after : Engine} (runs : after.runs = engine.runs)
      (nextRun : after.nextRun = engine.nextRun)
      (metrics : after.metrics = { engine.metrics with pending := after.metrics.pending })
      (ledger : after.ledger = engine.ledger) : Changes engine after
  | step (id : Nat) (task : TaskId) : Changes engine (engine.stepRun id task).1
  | adopt (d : Definition) (context : Context) (limit : Nat) (next : List String)
      (isCancelled : Bool) {before : Engine} (ticked : before = engine ∨ before = engine.tick) :
      Changes engine (before.adopt { Run.start d context limit next with isCancelled }).2
  | close {id : Nat} {run : Run} {conclusion : Conclusion} (found : engine.run? id = some run)
      (concluded : run.drive = .concluded conclusion) : Changes engine (engine.tick.close id)
  | cancel {id : Nat} {run : Run} (found : engine.run? id = some run) :
      Changes engine (engine.setRun id { run with isCancelled := true })

variable {counted : Option Tally}

/-- What the counters of nodes show, and the nodes that are to be announced, have grown by what the
histories have gained; any other counter shows what it showed, but for one that is counted in. -/
structure Tallied (engine : Engine) (counted : Option Tally) (after : Engine) : Prop where
  countable : after.Countable
  nodes : after.metrics.nodesExecuted + after.announcing =
    engine.metrics.nodesExecuted + engine.announcing + (engine.entered after).length
  others : ∀ tally, tally.isNode = false → after.metrics.reading tally =
    engine.metrics.reading tally + if counted = some tally then 1 else 0

section Tallied

/-- Runs that stay as they are gain nothing. -/
theorem tallied_of_runs (countable : engine.Countable) (runs : after.runs = engine.runs)
    (nextRun : after.nextRun = engine.nextRun)
    (nodes : after.metrics.nodes = engine.metrics.nodes)
    (others : ∀ tally, tally.isNode = false → after.metrics.reading tally =
      engine.metrics.reading tally + if counted = some tally then 1 else 0) :
    Tallied engine counted after := by
  refine ⟨⟨⟨runs ▸ countable.numbered.nodup, fun entry member => ?_⟩, runs ▸ countable.tended,
    nodes ▸ countable.sorted⟩, ?_, others⟩
  · rw [nextRun]
    exact countable.numbered.lt entry (runs ▸ member)
  · have nothing : engine.entered after = [] := by
      refine entered_eq_nil countable.numbered fun id run later found there => ?_
      rw [run?_congr runs, found] at there
      exact congrArg Run.context (Option.some.inj there).symm
    rw [nothing, Metrics.nodesExecuted, nodes, Engine.announcing, runs]
    rfl

theorem countable_setRun (countable : engine.Countable) (found : engine.run? id = some run)
    {changed : Run} (tended : changed.Tended)
    (execution : changed.context.execution = run.context.execution) :
    (engine.setRun id changed).Countable ∧
      (engine.setRun id changed).announcing + run.announcing =
        engine.announcing + changed.announcing := by
  refine ⟨⟨(countable.numbered.setRun found execution).numbered, fun entry member => ?_,
    countable.sorted⟩, ?_⟩
  · have updated : entry ∈ Table.update id (fun _ => changed) engine.runs := member
    rcases Table.mem_update updated with old | ⟨_, _, rfl⟩
    · exact countable.tended entry old
    · exact tended
  · exact Table.sum_update countable.numbered.nodup found (fun _ => changed) Run.announcing

/-- What a step of a task enters or announces is accounted for. -/
theorem tallied_stepRun (countable : engine.Countable) (id : Nat) (task : TaskId) :
    Tallied engine none (engine.stepRun id task).1 := by
  cases found : engine.run? id with
  | none =>
    simp only [stepRun, found]
    exact tallied_of_runs countable rfl rfl rfl fun _ _ => rfl
  | some run =>
    have tended : run.Tended := countable.tended _ (Table.mem_of_lookup found)
    have shown : Run.Shows engine.catalog run (run.step engine.surroundings task).run
        (run.step engine.surroundings task).effects :=
      run.move_shows engine.catalog tended (.step task engine.moment engine.clock)
    have happens : Run.Transition engine.catalog run (run.step engine.surroundings task).run :=
      run.move_transition engine.catalog (.step task engine.moment engine.clock)
    have there := run?_stepRun engine id id task
    rw [if_pos rfl, found, Option.map_some] at there
    have gained := length_entered countable.numbered found there fun other different =>
      (run?_stepRun engine id other task).trans (if_neg different)
    have grows := (Run.step_goesOn engine.surroundings run task).history.length_le
    simp only [stepRun, found] at gained ⊢
    generalize run.step engine.surroundings task = progress at *
    have moved := shown.announcing tended
    obtain ⟨set, announces⟩ :=
      countable_setRun countable.tick found (tended.transition happens) happens.execution
    obtain ⟨sorted, counts⟩ := perform_counts run.context progress.effects set.sorted
    have runs := runs_foldl_perform run.context progress.effects
      (engine.tick.setRun id progress.run)
    have numbered := (set.numbered.perform run.context progress.effects).numbered
    refine ⟨⟨numbered, runs ▸ set.tended, sorted⟩, ?_, fun tally other => ?_⟩
    · have same : (engine.tick.setRun id progress.run).metrics = engine.metrics := rfl
      have before : engine.tick.announcing = engine.announcing := rfl
      rw [gained, counts, Engine.announcing, runs, ← Engine.announcing, same]
      omega
    · refine perform_reading run.context (fun counted => ?_) _
      rw [shown.isNode counted] at other
      contradiction

/-- A run that is taken up has entered nothing yet. -/
theorem tallied_open (countable : engine.Countable) (tended : run.Tended)
    (fresh : run.announcing = 0) : Tallied engine none (engine.adopt run).2 := by
  refine ⟨⟨(countable.numbered.adopt run).numbered, fun entry member => ?_, countable.sorted⟩, ?_,
    fun _ _ => rfl⟩
  · rcases List.mem_append.mp member with old | new
    · exact countable.tended entry old
    · rw [List.mem_singleton.mp new]
      exact tended
  · have nothing : engine.entered (engine.adopt run).2 = [] := by
      refine entered_eq_nil countable.numbered fun id before later found there => ?_
      rw [run?_adopt_eq, found] at there
      exact congrArg Run.context (Option.some.inj there).symm
    have announces : (engine.adopt run).2.announcing = engine.announcing := by
      simp [Engine.announcing, Engine.adopt, fresh]
    rw [nothing, announces]
    rfl

/-- A run is closed when it has announced all that it has entered. -/
theorem tallied_close (countable : engine.Countable) (found : engine.run? id = some run)
    {conclusion : Conclusion} (concluded : run.drive = .concluded conclusion) :
    Tallied engine none (engine.tick.close id) := by
  refine ⟨⟨(countable.numbered.tick.numbered.close id).numbered, fun entry member =>
    countable.tended entry (List.mem_filter.mp member).1, countable.sorted⟩, ?_, fun _ _ => rfl⟩
  have nothing : engine.entered (engine.tick.close id) = [] := by
    refine entered_eq_nil countable.numbered fun other before later known there => ?_
    rw [countable.numbered.tick.numbered.run?_close, show engine.tick.run? other = _ from known,
      Option.filter_eq_some_iff] at there
    exact congrArg Run.context (Option.some.inj there.1).symm
  have announces : (engine.tick.close id).announcing = engine.announcing := by
    refine Table.sum_filter_of_zero fun entry member dropped => ?_
    obtain ⟨rfl, alone⟩ : entry.1 = id ∧ entry.2.branches = [] := by simpa using dropped
    cases found.symm.trans ((Table.lookup_eq_some_iff countable.numbered.nodup).mpr member)
    exact Run.announcing_of_concluded concluded alone
  rw [nothing, announces]
  rfl

/-- A run that is asked to be cancelled has entered what it has entered. -/
theorem tallied_cancel (countable : engine.Countable) (found : engine.run? id = some run) :
    Tallied engine none (engine.setRun id { run with isCancelled := true }) := by
  have tended : run.Tended := countable.tended _ (Table.mem_of_lookup found)
  have asked : Run.Transition engine.catalog run { run with isCancelled := true } := .cancel
  obtain ⟨set, announces⟩ := countable_setRun countable found (tended.transition asked) rfl
  refine ⟨set, ?_, fun _ _ => rfl⟩
  have nothing : engine.entered (engine.setRun id { run with isCancelled := true }) = [] := by
    refine entered_eq_nil countable.numbered fun other before later known there => ?_
    rw [run?_setRun] at there
    split at there
    · rename_i same
      subst same
      cases found.symm.trans known
      rw [found, Option.map_some] at there
      obtain rfl := Option.some.inj there
      rfl
    · rw [known] at there
      exact congrArg Run.context (Option.some.inj there).symm
  have still : Run.announcing { run with isCancelled := true } = run.announcing := rfl
  rw [still] at announces
  rw [nothing, List.length_nil]
  show engine.metrics.nodesExecuted + _ = _
  omega

theorem tallied_count (countable : engine.Countable) {tally : Tally}
    (other : tally.isNode = false) : Tallied engine (some tally) (engine.count tally) := by
  refine tallied_of_runs countable rfl rfl ?_ fun asked _ => ?_
  · cases tally with
    | node kind => contradiction
    | _ => rfl
  · simp only [Engine.count, Metrics.reading_count, Option.some.injEq, eq_comm]

/-- Whatever becomes of an engine in one step is accounted for. -/
theorem Changes.tallied (countable : engine.Countable) (changes : engine.Changes after) :
    Tallied engine none after := by
  cases changes with
  | aside runs nextRun metrics ledger =>
    exact tallied_of_runs countable runs nextRun (by rw [metrics]) fun tally other => by
      rw [metrics]
      cases tally <;> rfl
  | step id task => exact tallied_stepRun countable id task
  | adopt d context limit next isCancelled ticked =>
    have tended : Run.Tended { Run.start d context limit next with isCancelled } := by
      have start := Run.Tended.start d context limit next
      cases isCancelled with
      | false => exact start
      | true =>
        have asked : Run.Transition [] (.start d context limit next)
            { Run.start d context limit next with isCancelled := true } := .cancel
        exact start.transition asked
    rcases ticked with rfl | rfl
    · exact tallied_open countable tended rfl
    · have opened := tallied_open countable.tick tended rfl
      exact ⟨opened.countable, opened.nodes, opened.others⟩
  | close found concluded => exact tallied_close countable found concluded
  | cancel found => exact tallied_cancel countable found

end Tallied

/-- Only acts change what is stored. -/
theorem Changes.ledger (changes : engine.Changes after) : after.ledger = engine.ledger := by
  cases changes with
  | aside runs nextRun metrics ledger => exact ledger
  | step id task => exact (engine.stepRun_keeps id task).2
  | adopt d context limit next isCancelled ticked => rcases ticked with rfl | rfl <;> rfl
  | close | cancel => rfl

end Engine

end DurableFlow
