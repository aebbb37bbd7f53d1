import DurableFlow.Proofs.Run.Blocks
import DurableFlow.Proofs.Run.Cutting
import DurableFlow.Proofs.Run.Handling
import DurableFlow.Proofs.Run.Joining

/-!
# The order in which nodes are told to start

A task enters a node into the history with one step and publishes its start with the next, and
between the two any other task may take its own steps. So the starts that have been published
are those of the history but for the nodes that tasks are still about to announce: `Account` is
this invariant, kept by each move of any task.

The order is another matter. The starts follow the history in every schedule just when no two
tasks ever stand before announcing different nodes at the same time; branches for two different
nodes are enough to turn the order round.
-/

namespace DurableFlow

/-- The node whose start an effect publishes. -/
def Effect.started? (effect : Effect) : Option String :=
  match effect.happening? with
  | some (.nodeStarted node) => some node
  | _ => none

namespace Phase

theorem act_starts (around : Surroundings) (context : Context) (node : Node) :
    (act around context node).2.filterMap Effect.started? = [] := by
  rw [act]
  split
  · rfl
  · rw [call]
    repeat' split
    all_goals rfl
  all_goals rfl

/-- A step publishes the start of the node that it announces, and of no other. -/
theorem step_starts (around : Surroundings) (d : Definition) (context : Context) (phase : Phase) :
    (phase.step around d context).2.2.filterMap Effect.started? = phase.untold := by
  cases phase with
  | entering id => cases found : d.node? id <;> simp [step, found, untold]
  | acting node => exact act_starts around context node
  | replying node procedure reply due =>
    simp only [step]
    split <;> rfl
  | settling node ending =>
    simp only [step, settle]
    repeat' split
    all_goals rfl
  | _ => rfl

theorem act_untold (around : Surroundings) (context : Context) (node : Node) :
    (act around context node).1.untold = [] := by
  rw [act]
  split
  · rfl
  · rw [call]
    repeat' split
    all_goals rfl
  all_goals rfl

/-- What a task is about to announce is what it has just entered. -/
theorem step_untold (around : Surroundings) (d : Definition) (context : Context) {phase : Phase}
    (plain : phase.IsPlain) : (phase.step around d context).1.untold = phase.enters d := by
  cases phase with
  | entering id => cases found : d.node? id <;> simp [step, found, enters, untold]
  | acting node => exact act_untold around context node
  | replying node procedure reply due =>
    simp only [step]
    split
    · rfl
    · cases reply <;> rfl
  | settling node ending =>
    simp only [step, settle]
    repeat' split
    all_goals rfl
  | forking => exact plain.elim
  | joining => exact plain.elim
  | ended => exact plain.elim
  | _ => rfl

theorem step_history (around : Surroundings) (d : Definition) (context : Context)
    (phase : Phase) :
    (phase.step around d context).2.1.history = context.history ++ phase.enters d := by
  rw [Context.history, step_trail, List.reverse_append, reverse_enters, Context.history]

/-- Whether a task is about to announce the node with this id. -/
def due (id : String) (phase : Phase) : Nat := phase.untold.count id

theorem due_weighsWork (id : String) : Run.WeighsWork (due id) := by
  intro phase rests
  cases phase <;> first | rfl | cases rests

theorem due_announcing (id : String) (node : Node) :
    due id (.announcing node) = if node.id = id then 1 else 0 := by
  simp [due, untold, List.count_singleton]

/-- Whoever is about to announce a node stands before just that. -/
theorem exists_announcing {phase : Phase} {id : String} (owed : phase.due id ≠ 0) :
    ∃ node, phase = .announcing node ∧ node.id = id := by
  cases phase with
  | announcing node =>
    rw [due_announcing] at owed
    exact ⟨node, rfl, by_contra fun other => owed (if_neg other)⟩
  | _ => exact absurd rfl owed

end Phase

namespace Run

variable {catalog : Catalog} {run after begun : Run} {task other : TaskId} {phase : Phase}
  {base : Context} {told : List String}

/-- The nodes whose starts a move publishes. -/
def startsOf (catalog : Catalog) (run : Run) (m : Move) : List String :=
  (run.effectsOf catalog m).filterMap Effect.started?

/-- The nodes whose starts a schedule publishes, in the order in which it does. -/
def starts (catalog : Catalog) (run : Run) (schedule : List Move) : List String :=
  run.log catalog (startsOf catalog) schedule

section Weights

/-- What no task has on it weighs nothing. -/
theorem tally_eq_zero {weight : Phase → Nat} (tended : run.Tended)
    (weightless : ∀ task phase, run.phase? task = some phase → weight phase = 0) :
    run.tally weight = 0 := by
  have driven : driverWeight weight run.drive = 0 := by
    cases drive : run.drive with
    | running phase => exact weightless .driver phase (by simp [phase?, drive])
    | _ => rfl
  have branched : (run.branches.map fun entry => weight entry.2.phase).sum = 0 := by
    apply List.sum_eq_zero
    intro n member
    obtain ⟨⟨id, branch⟩, there, rfl⟩ := List.mem_map.mp member
    have found : run.branch? id = some branch :=
      (Table.lookup_eq_some_iff tended.unique).mpr there
    exact weightless (.branch id) branch.phase (by simp [phase?, found])
  rw [tally, driven, branched]

/-- What one task has on it is part of the whole. -/
theorem le_tally (weight : Phase → Nat)
    (located : run.phase? task = some phase) : weight phase ≤ run.tally weight := by
  cases task with
  | driver =>
    rw [tally, drive_of_phase? located]
    exact Nat.le_add_right ..
  | branch id =>
    obtain ⟨group, found⟩ := exists_branch_of_phase? located
    have member : weight phase ∈ run.branches.map fun entry => weight entry.2.phase :=
      List.mem_map.mpr ⟨(id, ⟨group, phase⟩), Table.mem_of_lookup found, rfl⟩
    exact (List.le_sum_of_mem member).trans (Nat.le_add_left ..)

end Weights

/-- Each node that has been entered since a pass began has had its start published, unless a task is
still about to publish it. -/
structure Account (base : Context) (told : List String) (run : Run) : Prop where
  tended : run.Tended
  counted : ∀ id, run.context.history.count id =
    base.history.count id + told.count id + run.tally (Phase.due id)

/-- The starts that have been published follow the history: none comes before that of a node which
was entered earlier. -/
def InOrder (base : Context) (told : List String) (run : Run) : Prop :=
  base.history ++ told <+: run.context.history

/-- All tasks that are about to publish the start of a node are about to publish that of the same
node. -/
def AnnouncesOne (run : Run) : Prop :=
  ∀ task other node node', run.phase? task = some (.announcing node) →
    run.phase? other = some (.announcing node') → node.id = node'.id

namespace Account

theorem start (d : Definition) (context : Context) (limit : Nat) (next : List String) :
    (Run.start d context limit next).Account context [] :=
  ⟨.start d context limit next, fun _ => rfl⟩

/-- What a step within a node does to the account. -/
theorem act (account : run.Account base told) (around : Surroundings)
    (located : run.phase? task = some phase) (plain : phase.IsPlain) :
    (({ run with context := (phase.step around run.definition run.context).2.1 } : Run).put task
        (phase.step around run.definition run.context).1).Account base (told ++ phase.untold) := by
  refine ⟨account.tended.transition (.act task phase around rfl located plain), fun id => ?_⟩
  have there := (phase?_context run (phase.step around run.definition run.context).2.1 task).trans
    located
  have moved := tally_put (Phase.due id)
    { run with context := (phase.step around run.definition run.context).2.1 }
    account.tended.unique there (phase.step around run.definition run.context).1
  have before : Run.tally (Phase.due id)
      { run with context := (phase.step around run.definition run.context).2.1 } =
        run.tally (Phase.due id) := rfl
  have entered : (phase.step around run.definition run.context).1.due id =
      (phase.enters run.definition).count id := by
    rw [Phase.due, Phase.step_untold around run.definition run.context plain]
  have counted := account.counted id
  rw [before, entered, Phase.due] at moved
  rw [put_context, Phase.step_history, List.count_append, List.count_append]
  omega

/-- What a move does to the account. -/
theorem move (account : run.Account base told) (catalog : Catalog) (m : Move) :
    (run.move catalog m).Account base (told ++ run.startsOf catalog m) := by
  have shows := move_shows catalog account.tended m
  rw [startsOf]
  generalize run.effectsOf catalog m = effects at shows
  generalize run.move catalog m = after at shows
  cases shows with
  | idle happens still =>
    refine ⟨account.tended.transition happens, fun id => ?_⟩
    rw [still.context, still.tally _ (Phase.due_weighsWork id), List.filterMap_nil,
      List.append_nil]
    exact account.counted id
  | act task phase around known located plain =>
    rw [Phase.step_starts]
    exact account.act around located plain

/-- What a schedule does to the account. -/
theorem play (account : run.Account base told) (catalog : Catalog) (schedule : List Move) :
    (run.play catalog schedule).Account base (told ++ run.starts catalog schedule) := by
  induction schedule generalizing run told with
  | nil =>
    rw [starts, log, List.append_nil]
    exact account
  | cons m rest ih =>
    rw [starts, log, ← List.append_assoc]
    exact ih (account.move catalog m)

/-- No more nodes are told of than have been entered. -/
theorem length_le (account : run.Account base told) :
    (base.history ++ told).length ≤ run.context.history.length := by
  apply List.Subperm.length_le
  rw [List.subperm_ext_iff]
  intro id _
  rw [account.counted id, List.count_append]
  exact Nat.le_add_right ..

/-- What is in the history behind what has been told of is what is still to be announced. -/
theorem count_rest (account : run.Account base told) {rest : List String}
    (split : base.history ++ told ++ rest = run.context.history) (id : String) :
    rest.count id = run.tally (Phase.due id) := by
  have counted := account.counted id
  rw [← split, List.count_append, List.count_append] at counted
  omega

end Account

section Order

variable {node node' : Node}

theorem move_announcing (catalog : Catalog) (located : run.phase? task = some (.announcing node))
    (moment : Moment) (clock : Nat) :
    (run.move catalog (.step task moment clock)).context = run.context ∧
      run.startsOf catalog (.step task moment clock) = [node.id] := by
  refine ⟨?_, ?_⟩
  · rw [move_context, located]
    rfl
  · cases task with
    | driver =>
      have drive := drive_of_phase? located
      simp only [startsOf, effectsOf, step, stepDriver, drive]
      rfl
    | branch id =>
      obtain ⟨group, found⟩ := exists_branch_of_phase? located
      simp only [startsOf, effectsOf, step, stepBranch, found]
      rfl

/-- A task that is about to announce a node is the first to be heard of if no task is about to
announce another. -/
theorem InOrder.next (order : run.InOrder base told) (account : run.Account base told)
    (one : run.AnnouncesOne) (located : run.phase? task = some (.announcing node)) :
    run.InOrder base (told ++ [node.id]) := by
  obtain ⟨rest, split⟩ := order
  have counted := account.count_rest split
  have others : ∀ id, id ≠ node.id → run.tally (Phase.due id) = 0 := by
    intro id other
    apply tally_eq_zero account.tended
    intro task' phase stands
    by_contra due
    obtain ⟨node', rfl, named⟩ := Phase.exists_announcing due
    exact other (named.symm.trans (one task' task node' node stands located))
  have waiting : 1 ≤ run.tally (Phase.due node.id) := by
    have part := le_tally (Phase.due node.id) located
    rwa [Phase.due_announcing, if_pos rfl] at part
  cases rest with
  | nil =>
    rw [← counted, List.count_nil] at waiting
    omega
  | cons first later =>
    have same : first = node.id := by
      by_contra other
      have absent := others first other
      rw [← counted, List.count_cons_self] at absent
      omega
    subst same
    exact ⟨later, by rw [← split]; simp⟩

/-- The order is kept by a move if no two tasks are about to announce different nodes. -/
theorem InOrder.move (order : run.InOrder base told) (account : run.Account base told)
    (one : run.AnnouncesOne) (catalog : Catalog) (m : Move) :
    (run.move catalog m).InOrder base (told ++ run.startsOf catalog m) := by
  have shows := move_shows catalog account.tended m
  rw [startsOf]
  generalize run.effectsOf catalog m = effects at shows
  generalize run.move catalog m = after at shows
  cases shows with
  | idle happens still =>
    rw [InOrder, still.context, List.filterMap_nil, List.append_nil]
    exact order
  | act task phase around known located plain =>
    rw [Phase.step_starts, InOrder, put_context, Phase.step_history]
    apply List.IsPrefix.trans ?_ (List.prefix_append ..)
    by_cases announces : ∃ node, phase = .announcing node
    · obtain ⟨node, rfl⟩ := announces
      exact order.next account one located
    · have silent : phase.untold = [] := by
        cases phase with
        | announcing node => exact absurd ⟨node, rfl⟩ announces
        | _ => rfl
      rw [silent, List.append_nil]
      exact order

/-- An order that has been turned round stays so, whatever happens. -/
theorem InOrder.of_play (account : run.Account base told) {schedule : List Move}
    (order : (run.play catalog schedule).InOrder base (told ++ run.starts catalog schedule)) :
    run.InOrder base told := by
  have earlier : base.history ++ told <+: (run.play catalog schedule).context.history :=
    List.IsPrefix.trans ⟨run.starts catalog schedule, List.append_assoc ..⟩ order
  have grows : run.context.history <+: (run.play catalog schedule).context.history := by
    rw [history_log]
    exact List.prefix_append ..
  exact List.prefix_of_prefix_length_le earlier grows account.length_le

/-- Of two tasks that are about to announce different nodes one can turn the order round. -/
theorem exists_disorder (base : Context) (told : List String)
    (located : run.phase? task = some (.announcing node))
    (at' : run.phase? other = some (.announcing node')) (different : node.id ≠ node'.id)
    (catalog : Catalog) :
    ∃ schedule,
      ¬ (run.play catalog schedule).InOrder base (told ++ run.starts catalog schedule) := by
  by_cases order : run.InOrder base told
  · obtain ⟨rest, split⟩ := order
    -- whoever is not about to announce the node that comes next in the history takes its step
    have early : ∀ task node, run.phase? task = some (.announcing node) →
        rest.head? ≠ some node.id → ∃ schedule,
          ¬ (run.play catalog schedule).InOrder base (told ++ run.starts catalog schedule) := by
      intro task node located later
      obtain ⟨kept, heard⟩ := move_announcing catalog located ⟨⟨0, 0⟩, 0⟩ 0
      refine ⟨[.step task ⟨⟨0, 0⟩, 0⟩ 0], fun ordered => later ?_⟩
      rw [InOrder, play_cons, play_nil, kept, starts, log, log, heard, List.append_nil, ← split,
        ← List.append_assoc, List.prefix_append_right_inj] at ordered
      exact List.head?_eq_some_iff.mpr ⟨_, ordered.choose_spec.symm⟩
    by_cases first : rest.head? = some node.id
    · apply early other node' at'
      rw [first]
      exact fun same => different (Option.some.inj same)
    · exact early task node located first
  · exact ⟨[], by simpa [starts, log] using order⟩

/-- A branch that is set off comes to announce its node. -/
theorem phase?_announcing (catalog : Catalog) {id : String}
    (located : run.phase? task = some (.entering id)) (found : run.definition.node? id = some node)
    (moment : Moment) (clock : Nat) :
    (run.move catalog (.step task moment clock)).phase? task = some (.announcing node) := by
  rw [phase?_move_plain located trivial catalog moment clock]
  simp only [Phase.step, found]

theorem definition_move (catalog : Catalog) (run : Run) (m : Move) :
    (run.move catalog m).definition = run.definition :=
  (move_transition catalog run m).definition.1

/-- A task that sets off branches for two nodes makes for two tasks that are about to announce
different nodes. -/
theorem exists_two_announcing (catalog : Catalog) (tended : run.Tended) {join : Join}
    {ids : List String} (located : run.phase? task = some (.forking join ids)) {x y : String}
    (firstIn : x ∈ ids) (secondIn : y ∈ ids) (different : x ≠ y)
    (found : run.definition.node? x = some node)
    (found' : run.definition.node? y = some node') :
    ∃ schedule left right, (run.play catalog schedule).phase? left = some (.announcing node) ∧
      (run.play catalog schedule).phase? right = some (.announcing node') := by
  obtain ⟨i, inside, rfl⟩ := List.getElem_of_mem firstIn
  obtain ⟨j, inside', rfl⟩ := List.getElem_of_mem secondIn
  have apart : TaskId.branch (run.nextBranch + i) ≠ .branch (run.nextBranch + j) := by
    intro same
    have equal : i = j := Nat.add_left_cancel (TaskId.branch.inj same)
    subst equal
    exact different rfl
  let forked := run.move catalog (.step task ⟨⟨0, 0⟩, 0⟩ 0)
  have forks : forked =
      (run.fork (ids.map .entering)).put task (.joining join run.nextGroup ids.length) :=
    move_step located (fun _ => Phase.noConfusion) catalog _ _
  have begins : ∀ i (inside : i < ids.length),
      forked.phase? (.branch (run.nextBranch + i)) = some (.entering ids[i]) := by
    intro i inside
    rw [forks, phase?, (Gathers.start catalog tended located).2 i _
      (List.getElem?_eq_getElem inside)]
    rfl
  let once := forked.move catalog (.step (.branch (run.nextBranch + i)) ⟨⟨0, 0⟩, 0⟩ 0)
  have first : once.phase? (.branch (run.nextBranch + i)) = some (.announcing node) :=
    phase?_announcing catalog (begins i inside) ((definition_move ..).symm ▸ found) _ _
  have waits : once.phase? (.branch (run.nextBranch + j)) = some (.entering ids[j]) :=
    phase?_step apart.symm (begins j inside') _ _
  have known : once.definition.node? ids[j] = some node' := by
    rw [definition_move, definition_move]
    exact found'
  have second := phase?_announcing catalog waits known ⟨⟨0, 0⟩, 0⟩ 0
  exact ⟨[.step task ⟨⟨0, 0⟩, 0⟩ 0, .step (.branch (run.nextBranch + i)) ⟨⟨0, 0⟩, 0⟩ 0,
    .step (.branch (run.nextBranch + j)) ⟨⟨0, 0⟩, 0⟩ 0], _, _, phase?_step apart first _ _, second⟩

end Order

section Schedules

/-- No two tasks are about to publish the start of a node. -/
def AnnouncesAlone (run : Run) : Prop :=
  ∀ task other node node', run.phase? task = some (.announcing node) →
    run.phase? other = some (.announcing node') → task = other

theorem AnnouncesAlone.one (alone : run.AnnouncesAlone) : run.AnnouncesOne := by
  intro task other node node' located at'
  obtain rfl := alone task other node node' located at'
  rw [located] at at'
  cases at'
  rfl

/-- No move comes between the two steps with which a task enters a node and publishes its start. -/
def Undivided (catalog : Catalog) (run : Run) : List Move → Prop
  | [] => True
  | m :: rest =>
    (∀ task node, run.phase? task = some (.announcing node) →
      ∃ moment clock, m = .step task moment clock) ∧ (run.move catalog m).Undivided catalog rest

/-- When the task that is about to announce a node takes its step, at most one other task can
take its place. -/
theorem announcesAlone_move (tended : run.Tended) {m : Move}
    (undivided : ∀ task node, run.phase? task = some (.announcing node) →
      ∃ moment clock, m = .step task moment clock) :
    (run.move catalog m).AnnouncesAlone := by
  have fresh : ∀ task node, (run.move catalog m).phase? task = some (.announcing node) →
      run.phase? task ≠ some (.announcing node) := by
    intro task node located before
    obtain ⟨moment, clock, rfl⟩ := undivided task node before
    rw [phase?_move_plain before trivial catalog moment clock] at located
    cases located
  have shows := move_shows catalog tended m
  generalize run.effectsOf catalog m = effects at shows
  generalize run.move catalog m = after at shows fresh
  intro task other node node' located at'
  cases shows with
  | idle happens still =>
    rcases still.phases task _ located with before | rests
    · exact absurd before (fresh task node located)
    · cases rests
  | act mover phase around known stands plain =>
    have moves : ∀ task node, (({ run with
        context := (phase.step around run.definition run.context).2.1 } : Run).put mover
          (phase.step around run.definition run.context).1).phase? task =
            some (.announcing node) → task = mover := by
      intro task node located
      by_contra still
      have before := located
      rw [phase?_put (by rw [phase?_context, stands]; rfl), if_neg still, phase?_context]
        at before
      exact fresh task node located before
    rw [moves task node located, moves other node' at']

/-- The order is kept in the course of a schedule as long as no two tasks are about to announce
different nodes. -/
theorem InOrder.play (order : run.InOrder base told) (account : run.Account base told)
    {schedule : List Move}
    (one : ∀ before, before <+: schedule → (run.play catalog before).AnnouncesOne) :
    (run.play catalog schedule).InOrder base (told ++ run.starts catalog schedule) := by
  induction schedule generalizing run told with
  | nil =>
    rw [starts, log, List.append_nil]
    exact order
  | cons m rest ih =>
    rw [starts, log, ← List.append_assoc]
    exact ih (order.move account (one [] (List.nil_prefix ..)) catalog m)
      (account.move catalog m) fun before begins =>
        one (m :: before) ((List.cons_prefix_cons ..).mpr ⟨rfl, begins⟩)

theorem Undivided.one {schedule : List Move} (undivided : run.Undivided catalog schedule)
    (tended : run.Tended) (alone : run.AnnouncesAlone) {before : List Move}
    (begins : before <+: schedule) : (run.play catalog before).AnnouncesOne := by
  induction before generalizing run schedule with
  | nil => exact alone.one
  | cons m rest ih =>
    cases schedule with
    | nil => exact absurd (List.prefix_nil.mp begins) (List.cons_ne_nil m rest)
    | cons first later =>
      obtain ⟨rfl, later⟩ := List.cons_prefix_cons.mp begins
      obtain ⟨next, undivided⟩ := undivided
      exact ih undivided (tended.transition (move_transition catalog run m))
        (announcesAlone_move tended next) later

/-- A definition without parallel nodes, where no node has several successors, has no branches
that could be about to announce anything. -/
theorem announcesOne_of_isSequential {d : Definition} (sequential : d.IsSequential)
    {context : Context} {limit : Nat} {next : List String} (few : next.length ≤ 1)
    (schedule : List Move) :
    ((Run.start d context limit next).play catalog schedule).AnnouncesOne := by
  have begins : (Run.start d context limit next).AtStart := ⟨rfl, next, rfl, fun _ => few⟩
  obtain ⟨told, tells⟩ : ∃ told, Run.Tells (Run.start d context limit next)
      ((Run.start d context limit next).play catalog schedule) told := by
    apply play_induction (P := fun run => ∃ told, Run.Tells _ run told)
    · rintro run m ⟨told, tells⟩
      cases m with
      | cancel => exact ⟨told, tells.definition, tells.execution, tells.branches, tells.blocks⟩
      | step task moment clock => exact ⟨_, tells.step sequential { catalog, moment, clock } task⟩
    · exact ⟨[], begins.tells sequential⟩
  apply AnnouncesAlone.one
  intro task other node node' located at'
  have driven : ∀ task node, ((Run.start d context limit next).play catalog schedule).phase? task =
      some (.announcing node) → task = .driver := by
    intro task node located
    cases task with
    | driver => rfl
    | branch id =>
      obtain ⟨group, found⟩ := exists_branch_of_phase? located
      rw [branch?, tells.branches] at found
      cases found
  rw [driven task node located, driven other node' at']

end Schedules

section Passes

variable {d : Definition} {context : Context} {limit : Nat} {next : List String}

/-- The account of a pass from its start on, over a schedule. -/
theorem account_start (catalog : Catalog) (d : Definition) (context : Context) (limit : Nat)
    (next : List String) (schedule : List Move) :
    ((Run.start d context limit next).play catalog schedule).Account context
      ((Run.start d context limit next).starts catalog schedule) := by
  simpa using (Account.start d context limit next).play catalog schedule

theorem starts_append (run : Run) (first later : List Move) :
    run.starts catalog (first ++ later) =
      run.starts catalog first ++ (run.play catalog first).starts catalog later :=
  log_append ..

/-- A pass in which two tasks are about to announce different nodes goes on in a way that turns
the order round. -/
theorem exists_disorder_of_two {schedule : List Move} {node node' : Node}
    (located : ((Run.start d context limit next).play catalog schedule).phase? task =
      some (.announcing node))
    (at' : ((Run.start d context limit next).play catalog schedule).phase? other =
      some (.announcing node')) (different : node.id ≠ node'.id) :
    ∃ more, ¬ ((Run.start d context limit next).play catalog (schedule ++ more)).InOrder context
      ((Run.start d context limit next).starts catalog (schedule ++ more)) := by
  obtain ⟨more, disorder⟩ := exists_disorder context
    ((Run.start d context limit next).starts catalog schedule) located at' different catalog
  refine ⟨more, ?_⟩
  rwa [play_append, starts_append]

/-- What a finished pass has told of in order is what it has added to the history. -/
theorem history_of_isFinished (schedule : List Move)
    (finished : ((Run.start d context limit next).play catalog schedule).IsFinished)
    (order : ((Run.start d context limit next).play catalog schedule).InOrder context
      ((Run.start d context limit next).starts catalog schedule)) :
    ((Run.start d context limit next).play catalog schedule).context.history =
      context.history ++ (Run.start d context limit next).starts catalog schedule := by
  have account := account_start catalog d context limit next schedule
  obtain ⟨rest, split⟩ := order
  have none_left : rest = [] := by
    rw [List.eq_nil_iff_forall_not_mem]
    intro id member
    have counted := account.count_rest split id
    obtain ⟨⟨conclusion, drive⟩, branches⟩ := finished
    rw [tally, drive, branches] at counted
    exact (List.count_pos_iff.mpr member).ne' counted
  rw [← split, none_left, List.append_nil]

/-- The starts that a pass publishes are the nodes that it adds to the history, each as often,
but for those that tasks are still about to announce. They come in the order of the history in
every schedule just when no two tasks ever are about to announce different nodes; and if every
pass can come to its end, the finished passes alone decide about that. Two branches for different
nodes are enough for a pass to publish them in the wrong order. The order is kept where no move
comes between the two steps of a task, and where the driver is the only task. -/
theorem starts_in_order_iff (catalog : Catalog) (d : Definition) (context : Context) (limit : Nat)
    (next : List String) :
    let begun := Run.start d context limit next
    (∀ schedule id, (begun.play catalog schedule).context.history.count id =
      context.history.count id + (begun.starts catalog schedule).count id +
        (begun.play catalog schedule).tally (Phase.due id)) ∧
    ((∀ schedule, (begun.play catalog schedule).InOrder context (begun.starts catalog schedule)) ↔
      ∀ schedule, (begun.play catalog schedule).AnnouncesOne) ∧
    (d.Valid catalog.knows → d.ForksAcyclic → context.workflow = d.id → d.Offers next →
      ((∀ schedule, (begun.play catalog schedule).IsFinished →
          (begun.play catalog schedule).context.history =
            context.history ++ begun.starts catalog schedule) ↔
        ∀ schedule, (begun.play catalog schedule).AnnouncesOne)) ∧
    (∀ schedule task join ids, (begun.play catalog schedule).phase? task =
      some (.forking join ids) → ∀ x ∈ ids, ∀ y ∈ ids, x ≠ y → (d.node? x).isSome →
        (d.node? y).isSome → ∃ more, ¬ (begun.play catalog (schedule ++ more)).InOrder context
          (begun.starts catalog (schedule ++ more))) ∧
    (∀ schedule, begun.Undivided catalog schedule →
      (begun.play catalog schedule).InOrder context (begun.starts catalog schedule)) ∧
    (d.IsSequential → next.length ≤ 1 → ∀ schedule,
      (begun.play catalog schedule).InOrder context (begun.starts catalog schedule)) := by
  intro begun
  have account := account_start catalog d context limit next
  have initial : begun.InOrder context [] := ⟨[], by simp [begun, Run.start]⟩
  have fresh : begun.Account context [] := .start d context limit next
  have kept : ∀ schedule, (∀ before, before <+: schedule →
      (begun.play catalog before).AnnouncesOne) →
        (begun.play catalog schedule).InOrder context (begun.starts catalog schedule) :=
    fun schedule one => by simpa using initial.play fresh one
  have two : ∀ schedule, ¬ (begun.play catalog schedule).AnnouncesOne → ∃ more,
      ¬ (begun.play catalog (schedule ++ more)).InOrder context
        (begun.starts catalog (schedule ++ more)) := by
    intro schedule differ
    simp only [AnnouncesOne, not_forall] at differ
    obtain ⟨task, other, node, node', located, at', different⟩ := differ
    exact exists_disorder_of_two located at' different
  refine ⟨fun schedule => (account schedule).counted, ⟨fun ordered schedule => ?_, fun one schedule
    => kept schedule fun before _ => one before⟩, fun valid acyclic own offered =>
      ⟨fun equal schedule => ?_, fun one schedule finished => ?_⟩, ?_, fun schedule undivided => ?_,
        fun sequential few schedule => ?_⟩
  · by_contra differ
    obtain ⟨more, disorder⟩ := two schedule differ
    exact disorder (ordered _)
  · by_contra differ
    obtain ⟨more, disorder⟩ := two schedule differ
    -- the order stays as it is until the pass has come to its end
    obtain ⟨rest, -, finished⟩ := exists_finished valid acyclic (.start d context limit next)
      (.start own limit offered) (schedule ++ more)
    rw [← play_append] at finished
    have ordered : ((begun.play catalog (schedule ++ more)).play catalog rest).InOrder context
        (begun.starts catalog (schedule ++ more) ++
          (begun.play catalog (schedule ++ more)).starts catalog rest) := by
      rw [← play_append, ← starts_append, InOrder, equal _ finished]
    exact disorder (ordered.of_play (account (schedule ++ more)))
  · exact history_of_isFinished schedule finished (kept schedule fun before _ => one before)
  · intro schedule task join ids located x firstIn y secondIn different known known'
    obtain ⟨node, found⟩ := Option.isSome_iff_exists.mp known
    obtain ⟨node', found'⟩ := Option.isSome_iff_exists.mp known'
    have same : (begun.play catalog schedule).definition = d :=
      play_induction (fun run m kept => (definition_move catalog run m).trans kept) rfl schedule
    obtain ⟨forked, left, right, located, at'⟩ := exists_two_announcing catalog
      (account schedule).tended located firstIn secondIn different (same ▸ found) (same ▸ found')
    rw [← play_append] at located at'
    obtain ⟨more, disorder⟩ := exists_disorder_of_two located at' (by
      rw [Definition.id_of_node? found, Definition.id_of_node? found']
      exact different)
    exact ⟨forked ++ more, by rwa [← List.append_assoc]⟩
  · apply kept
    intro before begins
    refine undivided.one (.start d context limit next) ?_ begins
    intro task other node node' located
    cases task <;> cases located
  · exact kept schedule fun before _ => announcesOne_of_isSequential sequential few before

/-- A pass over `sharing`, which has two branches. -/
def shared : Run :=
  .start sharing (Context.start "sharing" "run" [] ⟨0, 0⟩) 10 ["both"]

/-- Its driver sets off the branches, and the first of them enters its node and announces it. -/
def orderly : List Move := turns .driver 5 ++ turns (.branch 0) 2

/-- A pass of `sharing` ends in the wrong order on some schedule, and it can come to this once its
driver is about to set off the branches. An undivided schedule keeps the order, and so does every
schedule of a workflow without branches. -/
theorem starts_in_order_sharing :
    (∃ schedule, (shared.play [] schedule).IsFinished ∧
      (shared.play [] schedule).context.history ≠ shared.starts [] schedule) ∧
    (∃ more, ¬ (shared.play [] (turns .driver 4 ++ more)).InOrder
      (Context.start "sharing" "run" [] ⟨0, 0⟩) (shared.starts [] (turns .driver 4 ++ more))) ∧
    (shared.play [] orderly).InOrder (Context.start "sharing" "run" [] ⟨0, 0⟩)
      (shared.starts [] orderly) ∧
    ∀ schedule, ((Run.start welcome (Context.start "welcome" "run" [] ⟨0, 0⟩) 10 ["ask"]).play
        greeting schedule).InOrder (Context.start "welcome" "run" [] ⟨0, 0⟩)
      ((Run.start welcome (Context.start "welcome" "run" [] ⟨0, 0⟩) 10 ["ask"]).starts greeting
        schedule) := by
  have valid : sharing.Valid (Catalog.knows []) := by decide
  obtain ⟨_, _, ends, forks, keeps, _⟩ := starts_in_order_iff [] sharing
    (Context.start "sharing" "run" [] ⟨0, 0⟩) 10 ["both"]
  refine ⟨?_, ?_, keeps orderly ?_, ?_⟩
  · by_contra ordered
    simp only [not_exists, not_and, not_not] at ordered
    have one := (ends valid sharing_forksAcyclic rfl valid.offers_start).mp
      (fun schedule finished => ordered schedule finished)
      (turns .driver 5 ++ turns (.branch 0) 1 ++ turns (.branch 1) 1)
    have same := one (.branch 0) (.branch 1) { id := "left", kind := .sequential }
      { id := "right", kind := .sequential } rfl rfl
    exact absurd same (by decide)
  · exact forks (turns .driver 4) .driver _ ["left", "right"] rfl "left" (by simp) "right" (by simp)
      (by decide) rfl rfl
  · refine ⟨?_, ?_, ?_, ?_, ?_, ?_, ?_, trivial⟩
    all_goals
      rintro (_ | _ | _ | id) node located
      all_goals first
        | exact ⟨_, _, rfl⟩
        | cases located
  · have sequential : welcome.IsSequential := by
      rw [Definition.IsSequential]
      decide
    exact (starts_in_order_iff greeting welcome (Context.start "welcome" "run" [] ⟨0, 0⟩) 10
      ["ask"]).2.2.2.2.2 sequential (Nat.le_refl 1)

/-- The branches of `sharing` enter their nodes in one order and announce them in the other. -/
def crossed : List Move :=
  turns .driver 5 ++ turns (.branch 0) 1 ++ turns (.branch 1) 5 ++ turns (.branch 0) 4 ++
    turns .driver 4

theorem starts_out_of_order_sharing :
    let begun := Run.start sharing (Context.start "sharing" "run" [] ⟨0, 0⟩) 10 ["both"]
    sharing.Valid (Catalog.knows []) ∧ (begun.play [] crossed).IsFinished ∧
      (begun.play [] crossed).context.history = ["both", "left", "right"] ∧
      begun.starts [] crossed = ["both", "right", "left"] := by
  refine ⟨by decide, ⟨⟨_, rfl⟩, rfl⟩, rfl, rfl⟩

end Passes

end Run

end DurableFlow
