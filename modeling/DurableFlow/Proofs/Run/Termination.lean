import DurableFlow.Proofs.Run.Rest
import DurableFlow.Proofs.Run.Work

/-!
# Which passes come to an end

The limit of a run counts the steps of its driver alone. Nodes that parallel nodes set off
are not among them, so the limit bounds a pass exactly when no node comes to set itself off:
then each step takes away some of the work that is left, while on a cycle each node that is
entered leads to another one.
-/

namespace DurableFlow

theorem Phase.step_trail_le (around : Surroundings) (d : Definition) (context : Context)
    (phase : Phase) :
    (phase.step around d context).2.1.trail.length ≤ context.trail.length + 1 := by
  cases phase with
  | entering id =>
    simp only [step]
    split
    · exact Nat.le_succ _
    · exact Nat.le_refl _
  | replying node procedure reply due =>
    simp only [step]
    split <;> exact Nat.le_succ _
  | _ => exact Nat.le_succ _

namespace Run

variable {d : Definition} {weight : String → Nat} {catalog : Catalog} {run after : Run}

/-- No task asks for the run to be cancelled. -/
theorem isCancelled_move_step (catalog : Catalog) (run : Run) (task : TaskId) (moment : Moment)
    (clock : Nat) :
    (run.move catalog (.step task moment clock)).isCancelled = run.isCancelled := by
  have within : ∀ around phase, (run.stepPhase around phase).2.run.isCancelled =
      run.isCancelled := by
    intro around phase
    cases phase with
    | joining join group count =>
      simp only [stepPhase]
      split <;> rfl
    | _ => rfl
  have chosen : ∀ next, (run.choose next).isCancelled = run.isCancelled := by
    intro next
    unfold choose
    repeat' split
    all_goals rfl
  cases task with
  | driver =>
    simp only [move, step, stepDriver]
    split
    · rfl
    · exact chosen _
    · rfl
    · exact within _ _
  | branch id =>
    simp only [move, step, stepBranch]
    split
    · rfl
    · rfl
    · exact within _ _

/-- One step enters one node at most. -/
theorem Transition.trail_le (happens : Transition catalog run after) :
    after.context.trail.length ≤ run.context.trail.length + 1 := by
  have put_context : ∀ (run : Run) task phase, (run.put task phase).context = run.context := by
    intro run task phase
    cases task <;> rfl
  cases happens with
  | act task phase around known located plain =>
    rw [put_context]
    exact Phase.step_trail_le around run.definition run.context phase
  | wait task phase located =>
    rw [put_context]
    omega
  | fork task join ids located =>
    rw [put_context]
    exact Nat.le_succ _
  | join task join group count ending located outcome =>
    rw [put_context]
    exact Nat.le_succ _
  | choose next located =>
    unfold Run.choose
    repeat' split
    all_goals exact Nat.le_succ _
  | _ => exact Nat.le_succ _

/-- One run comes from another by so many steps that each change something. That somebody
asks for the run to be cancelled in between is no step. -/
inductive Reaches (catalog : Catalog) (run : Run) : Nat → Run → Prop where
  | refl : Reaches catalog run 0 run
  | step {n : Nat} {after : Run} (reached : Reaches catalog run n after) (task : TaskId)
      (moment : Moment) (clock : Nat)
      (changes : after.move catalog (.step task moment clock) ≠ after) :
      Reaches catalog run (n + 1) (after.move catalog (.step task moment clock))
  | cancel {n : Nat} {after : Run} (reached : Reaches catalog run n after) :
      Reaches catalog run n (after.move catalog .cancel)

/-- The passes over a definition: from its start on any input, and from wherever a suspended
run is let go on. -/
inductive Begins (catalog : Catalog) (d : Definition) (limit : Nat) : Run → Prop where
  | execute (input : Data) (execution : String) (now : Instant) :
      Begins catalog d limit
        (.start d (Context.start d.id execution (Context.bindInput d.vars input) now) limit
          [d.start])
  | resume {engine : Engine} (equipped : engine.catalog = catalog) {state : Suspended}
      {node : Option String} {next : List String}
      (accepted : Stride.checkResume engine d state node = .ok next) (delta : Fields Data) :
      Begins catalog d limit (.start d (state.toContext delta) limit next)

theorem Begins.exists_start (valid : d.Valid catalog.knows) {limit : Nat}
    (begins : Begins catalog d limit run) :
    ∃ context next, run = .start d context limit next ∧ context.workflow = d.id ∧
      d.Offers next := by
  cases begins with
  | execute input execution now => exact ⟨_, _, rfl, rfl, valid.offers_start⟩
  | resume equipped accepted delta =>
    obtain ⟨offered, own⟩ := Stride.offers_of_checkResume accepted
    exact ⟨_, _, rfl, own, offered⟩

/-- What a pass keeps on its way: its steps so far and the work that is left come to no more
than the work that it began with, and it has entered no more nodes than it took steps. -/
structure Bounded (d : Definition) (weight : String → Nat) (begun : Run) (n : Nat) (run : Run) :
    Prop where
  tended : run.Tended
  grounded : run.Grounded d
  work_le : n + run.work d weight ≤ begun.work d weight
  trail_le : run.context.trail.length ≤ begun.context.trail.length + n

theorem Reaches.bounded (valid : d.Valid catalog.knows) (weighs : d.Weighs weight)
    (tended : run.Tended) (grounded : run.Grounded d) {n : Nat}
    (reaches : run.Reaches catalog n after) : Bounded d weight run n after := by
  induction reaches with
  | refl => exact ⟨tended, grounded, by omega, by omega⟩
  | step reached task moment clock changes ih =>
    rename_i n after
    have happens := move_transition catalog after (.step task moment clock)
    refine ⟨ih.tended.transition happens, ih.grounded.transition valid happens, ?_, ?_⟩
    · have before := ih.work_le
      rcases happens.work_lt weighs ih.tended ih.grounded (isCancelled_move_step ..) with
        same | less
      · exact absurd same changes
      · omega
    · have before := ih.trail_le
      have one := happens.trail_le
      omega
  | cancel reached ih =>
    rename_i n after
    have happens := move_transition catalog after .cancel
    exact ⟨ih.tended.transition happens, ih.grounded.transition valid happens, ih.work_le,
      ih.trail_le⟩

theorem Reaches.trans {middle : Run} {n m : Nat} (first : run.Reaches catalog n middle)
    (second : middle.Reaches catalog m after) : run.Reaches catalog (n + m) after := by
  induction second with
  | refl => exact first
  | step _ task moment clock changes ih => exact ih.step task moment clock changes
  | cancel _ ih => exact ih.cancel

section Cycles

variable {task : TaskId} {phase : Phase}

/-- A task that is within a node and waits for no reply takes a step. -/
theorem reaches_of_isPlain (located : run.phase? task = some phase) (plain : phase.IsPlain)
    (prompt : ∀ node procedure reply due, phase ≠ .replying node procedure reply due)
    (around : Surroundings) :
    ∃ after, run.Reaches around.catalog 1 after ∧
      after.phase? task = some (phase.step around run.definition run.context).1 ∧
      after.context = (phase.step around run.definition run.context).2.1 ∧
      after.definition = run.definition := by
  obtain ⟨catalog, moment, clock⟩ := around
  have unfinished : ∀ ending, phase ≠ .ended ending := by
    rintro ending rfl
    exact plain
  obtain ⟨next, after⟩ := stepPhase_of_isPlain plain ⟨catalog, moment, clock⟩ run
  have moved := move_step located unfinished catalog moment clock
  rw [next, after] at moved
  have there : (({ run with context := (phase.step ⟨catalog, moment, clock⟩ run.definition
      run.context).2.1 } : Run).phase? task).isSome := by
    rw [phase?_context, located, Option.isSome_some]
  have stands := phase?_put there
    (phase.step ⟨catalog, moment, clock⟩ run.definition run.context).1 task
  rw [if_pos rfl, ← moved] at stands
  refine ⟨_, .step .refl task moment clock fun same => ?_, stands, ?_, ?_⟩
  · rw [same, located] at stands
    exact Phase.step_ne_self _ _ _ plain (fun _ _ _ _ same => absurd same (prompt _ _ _ _))
      (Option.some.inj stands).symm
  · rw [moved]
    cases task <;> rfl
  · rw [moved]
    cases task <;> rfl

/-- A task that sets off branches has them enter their nodes. -/
theorem reaches_of_forking {join : Join} {ids : List String}
    (located : run.phase? task = some (.forking join ids)) (tended : run.Tended) {id : String}
    (member : id ∈ ids) (catalog : Catalog) :
    ∃ after branch, run.Reaches catalog 1 after ∧
      after.phase? (.branch branch) = some (.entering id) ∧ after.context = run.context ∧
      after.definition = run.definition := by
  obtain ⟨i, inside, rfl⟩ := List.mem_iff_getElem.mp member
  have moved := move_step located (by simp) catalog ⟨⟨0, 0⟩, 0⟩ 0
  simp only [stepPhase] at moved
  have there : ((run.fork (ids.map .entering)).phase? task).isSome := by
    rw [phase?_fork _ located, Option.isSome_some]
  have stands := phase?_put there (.joining join run.nextGroup ids.length)
  have unused : run.branch? (run.nextBranch + i) = none := by
    apply Table.lookup_eq_none_of_not_mem
    intro used
    obtain ⟨entry, known, same⟩ := List.mem_map.mp used
    have := (tended.numbered entry known).1
    omega
  have new : (run.fork (ids.map .entering)).phase? (.branch (run.nextBranch + i)) =
      some (.entering ids[i]) := by
    simp [phase?, branch?_fork, unused, inside]
  have other : TaskId.branch (run.nextBranch + i) ≠ task := by
    rintro rfl
    obtain ⟨group, found⟩ := exists_branch_of_phase? located
    rw [unused] at found
    contradiction
  refine ⟨_, run.nextBranch + i, .step .refl task ⟨⟨0, 0⟩, 0⟩ 0 fun same => ?_, ?_, ?_, ?_⟩
  · have self := stands task
    rw [if_pos rfl, ← moved, same, located] at self
    simp at self
  · rw [moved, stands, if_neg other, new]
  · rw [moved]
    cases task <;> rfl
  · rw [moved]
    cases task <;> rfl

/-- The run has a task that is about to enter a node on a cycle of forks. -/
def Cycles (d : Definition) (run : Run) : Prop :=
  run.Tended ∧ run.definition = d ∧
    ∃ task id, run.phase? task = some (.entering id) ∧ Relation.TransGen d.Forks id id

theorem Reaches.tended {n : Nat} (reaches : run.Reaches catalog n after) (tended : run.Tended) :
    after.Tended := by
  induction reaches with
  | refl => exact tended
  | step _ task moment clock _ ih =>
    exact ih.transition (move_transition catalog _ (.step task moment clock))
  | cancel _ ih => exact ih.transition (move_transition catalog _ .cancel)

/-- Whoever is on a cycle of forks sets off a branch that is. -/
theorem exists_fork_of_cycle {id : String} (cycle : Relation.TransGen d.Forks id id) :
    ∃ branch, d.Forks id branch ∧ Relation.TransGen d.Forks branch branch := by
  obtain ⟨branch, forks, back⟩ := Relation.TransGen.head'_iff.mp cycle
  exact ⟨branch, forks, .tail' back forks⟩

/-- On a cycle of forks each node that is entered leads to another one. -/
theorem Cycles.again (cycles : Cycles d run) (catalog : Catalog) :
    ∃ n after, run.Reaches catalog n after ∧ Cycles d after ∧
      after.context.trail.length = run.context.trail.length + 1 := by
  obtain ⟨tended, rfl, task, id, located, cycle⟩ := cycles
  obtain ⟨branch, forks, onwards⟩ := exists_fork_of_cycle cycle
  obtain ⟨node, found, member⟩ := forks.node?
  obtain ⟨waitForAll, kind⟩ : ∃ waitForAll, node.kind = .parallel node.branches waitForAll := by
    cases kind : node.kind <;> simp [Node.branches, kind] at member ⊢
  let around : Surroundings := ⟨catalog, ⟨⟨0, 0⟩, 0⟩, 0⟩
  obtain ⟨entered, reached₁, at₁, context₁, d₁⟩ :=
    reaches_of_isPlain located trivial (by simp) around
  simp only [Phase.step, found] at at₁ context₁
  obtain ⟨announced, reached₂, at₂, context₂, d₂⟩ :=
    reaches_of_isPlain at₁ trivial (by simp) around
  simp only [Phase.step] at at₂ context₂
  obtain ⟨acted, reached₃, at₃, context₃, d₃⟩ :=
    reaches_of_isPlain at₂ trivial (by simp) around
  simp only [Phase.step, Phase.act, kind] at at₃ context₃
  have tended₃ := reached₃.tended (reached₂.tended (reached₁.tended tended))
  obtain ⟨forked, other, reached₄, at₄, context₄, d₄⟩ :=
    reaches_of_forking at₃ tended₃ member catalog
  refine ⟨_, forked, ((reached₁.trans reached₂).trans reached₃).trans reached₄,
    ⟨reached₄.tended tended₃, ?_, .branch other, branch, at₄, onwards⟩, ?_⟩
  · rw [d₄, d₃, d₂, d₁]
  · rw [context₄, context₃, context₂, context₁]
    rfl

/-- On a cycle of forks nodes are entered for ever. -/
theorem Cycles.unbounded (cycles : Cycles d run) (catalog : Catalog) (more : Nat) :
    ∃ n after, run.Reaches catalog n after ∧
      after.context.trail.length = run.context.trail.length + more := by
  have onwards : ∃ n after, run.Reaches catalog n after ∧ Cycles d after ∧
      after.context.trail.length = run.context.trail.length + more := by
    induction more with
    | zero => exact ⟨0, run, .refl, cycles, rfl⟩
    | succ more ih =>
      obtain ⟨n, middle, reached, still, entered⟩ := ih
      obtain ⟨m, after, further, again, one⟩ := still.again catalog
      exact ⟨n + m, after, reached.trans further, again, by omega⟩
  obtain ⟨n, after, reached, _, entered⟩ := onwards
  exact ⟨n, after, reached, entered⟩

/-- A pass that may take a step enters the one node that it is to begin with. -/
theorem start_reaches (d : Definition) (context : Context) {limit : Nat} (some_left : 0 < limit)
    (id : String) (catalog : Catalog) :
    ∃ after, (Run.start d context limit [id]).Reaches catalog 1 after ∧
      after.phase? .driver = some (.entering id) ∧ after.definition = d ∧
      after.context = context := by
  have moved : (Run.start d context limit [id]).move catalog (.step .driver ⟨⟨0, 0⟩, 0⟩ 0) =
      { Run.start d context limit [id] with steps := 1, drive := .running (.entering id) } := by
    have unspent : ¬ limit ≤ 0 := by omega
    simp [move, step, stepDriver, choose, Run.start, unspent]
  refine ⟨_, .step .refl .driver ⟨⟨0, 0⟩, 0⟩ 0 fun same => ?_, ?_, ?_, ?_⟩
  · rw [moved] at same
    have driven := congrArg Run.drive same
    simp [Run.start] at driven
  all_goals rw [moved]; rfl

end Cycles

/-- A pass is bounded by the limit and the definition alone when no node comes to set itself
off: it takes boundedly many steps, enters no more nodes, and does not stop short of its end.
When one does, there are passes under every limit that enter any number of nodes. -/
theorem passes_end_unless_forks_cycle (valid : d.Valid catalog.knows) :
    (d.ForksAcyclic → ∀ limit, ∃ bound, ∀ run, Begins catalog d limit run →
      ∀ n after, run.Reaches catalog n after → n ≤ bound ∧
        after.context.trail.length ≤ run.context.trail.length + bound ∧
        (after.Rests catalog → after.IsFinished)) ∧
    (¬ d.ForksAcyclic → ∀ limit, 0 < limit → ∃ run, Begins catalog d limit run ∧
      ∀ more, ∃ n after, run.Reaches catalog n after ∧
        after.context.trail.length = run.context.trail.length + more) := by
  constructor
  · intro acyclic limit
    obtain ⟨weight, weighs⟩ := acyclic.exists_weight
    refine ⟨limit * d.budget weight + 1, fun run begins n after reaches => ?_⟩
    obtain ⟨context, next, rfl, own, offered⟩ := begins.exists_start valid
    have bounded := reaches.bounded valid weighs (.start d context limit next)
      (.start own limit offered)
    have worth : (Run.start d context limit next).work d weight =
        limit * d.budget weight + 1 := by
      simp [Run.start, work, Drive.work]
    have work_le := bounded.work_le
    have trail_le := bounded.trail_le
    rw [worth] at work_le
    exact ⟨by omega, by omega, bounded.tended.isFinished⟩
  · intro cyclic limit some_left
    simp only [Definition.ForksAcyclic, not_forall, not_not] at cyclic
    obtain ⟨id, cycle⟩ := cyclic
    obtain ⟨_, forks, _⟩ := exists_fork_of_cycle cycle
    obtain ⟨node, found, _⟩ := forks.node?
    let engine : Engine := { catalog, epoch := ⟨0, 0⟩ }
    let state : Suspended :=
      { workflow := d.id, execution := "", node := id, vars := [], outputs := [], history := [],
        wait := { names := [] }, pausedAt := ⟨0, 0⟩, startedAt := ⟨0, 0⟩ }
    have point : Stride.resumePoint d state (some id) = .ok [id] := by
      simp only [Stride.resumePoint, found]
    have accepted : Stride.checkResume engine d state (some id) = .ok [id] :=
      Stride.checkResume_eq_ok valid rfl point
    refine ⟨_, .resume rfl accepted [], fun more => ?_⟩
    obtain ⟨after, reached, located, same, context⟩ :=
      start_reaches d (state.toContext []) some_left id catalog
    have tended := reached.tended (.start d _ limit [id])
    obtain ⟨n, last, further, entered⟩ :=
      Cycles.unbounded ⟨tended, same, .driver, id, located, cycle⟩ catalog more
    refine ⟨_, last, reached.trans further, ?_⟩
    rw [entered, context]
    rfl

/-- A workflow whose first node runs two others at the same time. -/
def sharing : Definition where
  id := "sharing"
  name := "sharing"
  start := "both"
  nodes := [
    { id := "both", kind := .parallel ["left", "right"] true },
    { id := "left", kind := .sequential },
    { id := "right", kind := .sequential }]

theorem sharing_forksAcyclic : sharing.ForksAcyclic := by
  intro id cycle
  obtain ⟨branch, forks, onwards⟩ := exists_fork_of_cycle cycle
  obtain ⟨_, further, _⟩ := exists_fork_of_cycle onwards
  have leaf : ∀ id ∈ sharing.ids, ∀ branch ∈ sharing.branchesOf id,
      sharing.branchesOf branch = [] := by decide
  have forked : _ ∈ sharing.branchesOf branch := further
  rw [leaf id forks.mem_ids branch forks] at forked
  contradiction

theorem passes_end_sharing :
    sharing.Valid (Catalog.knows []) ∧ sharing.ForksAcyclic ∧ ∃ bound, ∀ run,
      Begins [] sharing 10 run → ∀ n after, run.Reaches [] n after → n ≤ bound ∧
        after.context.trail.length ≤ run.context.trail.length + bound ∧
        (after.Rests [] → after.IsFinished) := by
  have valid : sharing.Valid (Catalog.knows []) := by decide
  have acyclic := sharing_forksAcyclic
  exact ⟨valid, acyclic, (passes_end_unless_forks_cycle valid).1 acyclic 10⟩

/-- A workflow whose one node sets itself off. -/
def looping : Definition where
  id := "looping"
  name := "looping"
  start := "again"
  nodes := [{ id := "again", kind := .parallel ["again"] true }]

/-- Its pass enters its node more often than any bound says, though its driver may take no
more than one step. -/
theorem looping_unbounded :
    looping.Valid (Catalog.knows []) ∧
      ¬ ∃ bound, ∀ n after,
        (Run.start looping (Context.start "looping" "run" [] ⟨0, 0⟩) 1 ["again"]).Reaches [] n
          after → after.context.trail.length ≤ bound := by
  refine ⟨by decide, ?_⟩
  rintro ⟨bound, bounded⟩
  let context := Context.start "looping" "run" [] ⟨0, 0⟩
  obtain ⟨after, reached, located, same, entered⟩ :=
    start_reaches looping context Nat.one_pos "again" []
  have cycle : "again" ∈ looping.branchesOf "again" := by decide
  obtain ⟨n, last, further, more⟩ := Cycles.unbounded
    ⟨reached.tended (.start looping context 1 ["again"]), same, .driver, "again", located,
      .single cycle⟩ [] (bound + 1)
  have within := bounded _ last (reached.trans further)
  omega

end Run

end DurableFlow
