import DurableFlow.Proofs.Definition.Forks
import DurableFlow.Proofs.Run.Tending
import DurableFlow.Proofs.Run.Soundness

/-!
# The work that is left in a run

Without cycles of forks each task has some work left: eight steps for every node that it will
run, counted by the weights of nodes, and a fixed amount for every step that the driver may
still take. Whatever changes a run takes some of it away.
-/

namespace DurableFlow

/-- The steps that a task in a phase and its branches will take at most. -/
def Phase.work (weight : String → Nat) : Phase → Nat
  | .entering id => 8 * weight id
  | .announcing node => 7 + 8 * (node.branches.map weight).sum
  | .acting node => 6 + 8 * (node.branches.map weight).sum
  | .replying .. => 5
  | .forking _ ids => 5 + 8 * (ids.map weight).sum
  | .joining .. | .recording .. => 4
  | .settling .. => 3
  | .redirecting .. => 2
  | .ended _ => 1

/-- The steps that the driver and its branches will take at most, when it may choose so many
times and each choice is worth a budget. -/
def Drive.work (weight : String → Nat) (budget left : Nat) : Drive → Nat
  | .choosing _ => left * budget + 1
  | .running phase => phase.work weight + 1 + left * budget
  | .concluded _ => 0

/-- What one choice of the driver is worth: no choice sets off more than the breadth of the
definition. -/
def Definition.budget (d : Definition) (weight : String → Nat) : Nat := 8 * d.breadth weight + 6

namespace Run

variable {d : Definition} {weight : String → Nat} {catalog : Catalog} {run : Run}
  {task : TaskId} {phase : Phase}

/-- The steps that a run will take at most. -/
def work (d : Definition) (weight : String → Nat) (run : Run) : Nat :=
  run.drive.work weight (d.budget weight) (run.limit - run.steps) +
    (run.branches.map fun entry => entry.2.phase.work weight).sum

theorem work_put (d : Definition) (weight : String → Nat) (run : Run)
    (unique : (Table.ids run.branches).Nodup) {old : Phase} (located : run.phase? task = some old)
    (phase : Phase) :
    (run.put task phase).work d weight + old.work weight =
      run.work d weight + phase.work weight := by
  cases task with
  | driver =>
    have drive := drive_of_phase? located
    simp only [work, put, drive, Drive.work]
    omega
  | branch id =>
    obtain ⟨group, found⟩ := exists_branch_of_phase? located
    have changed := Table.sum_update unique found (fun branch => { branch with phase })
      fun branch => branch.phase.work weight
    simp only [work, put, setPhase_branches] at changed ⊢
    show Drive.work weight (d.budget weight) (run.limit - run.steps) run.drive + _ + _ = _
    omega

theorem work_fork (d : Definition) (weight : String → Nat) (run : Run) (ids : List String) :
    (run.fork (ids.map .entering)).work d weight =
      run.work d weight + 8 * (ids.map weight).sum := by
  have new : ∀ start, ((Table.enumerate start ((ids.map Phase.entering).map
      (Branch.mk run.nextGroup))).map fun entry => entry.2.phase.work weight).sum =
        8 * (ids.map weight).sum := by
    induction ids with
    | nil => simp
    | cons id rest ih =>
      intro start
      rw [List.map_cons, List.map_cons, Table.enumerate_cons, List.map_cons, List.sum_cons, ih]
      simp only [Phase.work, List.map_cons, List.sum_cons]
      omega
  simp only [work, fork_branches, List.map_append, List.sum_append, new]
  show Drive.work weight (d.budget weight) (run.limit - run.steps) run.drive + _ = _
  omega

theorem work_arrive (d : Definition) (weight : String → Nat)
    (unique : (Table.ids run.branches).Nodup) {id group : Nat} {ending : Ending}
    (located : run.branch? id = some ⟨group, .ended ending⟩) :
    (run.arrive id group ending).work d weight + 1 = run.work d weight := by
  have taken := Table.sum_filter_ne unique located fun branch => branch.phase.work weight
  simp only [work, arrive, Phase.work] at taken ⊢
  omega

end Run

section Steps

variable {d : Definition} {weight : String → Nat}

/-- A step within a node takes some of its work away, unless it waits for a reply. -/
theorem Phase.step_work (weighs : d.Weighs weight) (around : Surroundings) (context : Context)
    {phase : Phase} (plain : phase.IsPlain) :
    phase.step around d context = (phase, context, []) ∨
      (phase.step around d context).1.work weight < phase.work weight := by
  cases phase with
  | entering id =>
    have weighed := weighs id
    refine .inr ?_
    simp only [step]
    split
    · simp only [work]
      omega
    · rename_i node found
      rw [Definition.branchesOf_of_node? found] at weighed
      simp only [work]
      omega
  | announcing node =>
    refine .inr ?_
    simp only [step, work]
    omega
  | acting node =>
    refine .inr ?_
    simp only [step, act, call]
    split
    · simp only [work]
      omega
    · split
      · simp only [work]
        omega
      · split
        · simp only [work]
          omega
        · simp only [work]
          omega
    · simp only [work]
      omega
    · rename_i kind
      simp only [work, Node.branches, kind]
      omega
    · simp only [work]
      omega
    · simp only [work]
      omega
  | replying node procedure reply due =>
    simp only [step]
    split
    · exact .inl rfl
    · refine .inr ?_
      cases reply <;> simp [takeUp, work]
  | recording node output => exact .inr (by simp [step, work])
  | settling node ending =>
    refine .inr ?_
    cases ending with
    | ok step => cases step <;> simp [Phase.step, settle, work]
    | error failure =>
      cases handler : node.onError <;> simp [step, settle, handler, work]
  | redirecting node target failure => exact .inr (by simp [step, work])
  | forking => exact plain.elim
  | joining => exact plain.elim
  | ended => exact plain.elim

theorem Phase.work_joined (weight : String → Nat) (join : Join) (ending : Ending) :
    (Phase.joined join ending).work weight < 4 := by
  cases join <;> simp [Phase.joined, Phase.work]

end Steps

namespace Run

variable {d : Definition} {weight : String → Nat} {catalog : Catalog} {run after : Run}

/-- A choice costs the driver one of those that it may make. -/
theorem work_choose {next : List String} (offered : d.Offers next)
    (located : run.drive = .choosing next) :
    (run.choose next).work d weight < run.work d weight := by
  have fits := offered.weight_le weight
  have before : run.work d weight = (run.limit - run.steps) * d.budget weight + 1 +
      (run.branches.map fun entry => entry.2.phase.work weight).sum := by
    rw [work, located, Drive.work]
  unfold choose
  split
  · simp only [work, Drive.work] at before ⊢
    omega
  · rename_i id rest
    split
    · simp only [work, Drive.work] at before ⊢
      omega
    · split
      · simp only [work, Drive.work] at before ⊢
        omega
      · rename_i some_left
        obtain ⟨left, remaining⟩ : ∃ left, run.limit - run.steps = left + 1 :=
          ⟨run.limit - run.steps - 1, by omega⟩
        have less : run.limit - (run.steps + 1) = left := by omega
        have cost : Phase.work weight
            (if rest.isEmpty then .entering id else .forking .fanOut (id :: rest)) ≤
              8 * d.breadth weight + 5 := by
          cases rest with
          | nil =>
            simp only [List.map_cons, List.map_nil, List.sum_cons, List.sum_nil] at fits
            simp only [List.isEmpty_nil, if_true, Phase.work]
            omega
          | cons second rest =>
            simp only [List.isEmpty_cons, Bool.false_eq_true, if_false, Phase.work]
            omega
        rw [remaining, Nat.succ_mul, Definition.budget] at before
        simp only [work, Drive.work, less, Definition.budget] at before ⊢
        omega

theorem work_follow {ending : Ending} (located : run.drive = .running (.ended ending)) :
    ({ run with drive := follow ending } : Run).work d weight < run.work d weight := by
  simp only [work, located, Drive.work, Phase.work]
  cases ending with
  | error failure =>
    simp only [follow]
    omega
  | ok outcome =>
    cases outcome <;> simp only [follow] <;> omega

/-- Whatever changes a run takes some of its work away, unless it only asks for the run to
be cancelled. -/
theorem Transition.work_lt (weighs : d.Weighs weight) (tended : run.Tended)
    (grounded : run.Grounded d) (happens : Transition catalog run after)
    (unasked : after.isCancelled = run.isCancelled) :
    after = run ∨ after.work d weight < run.work d weight := by
  cases happens with
  | rest => exact .inl rfl
  | wait task phase located => exact .inl (put_self tended.unique located)
  | act task phase around known located plain =>
    obtain rfl := grounded.definition
    rcases Phase.step_work weighs around run.context plain with same | less
    · rw [same]
      exact .inl (put_self tended.unique located)
    · have moved := work_put run.definition weight
        { run with context := (phase.step around run.definition run.context).2.1 } tended.unique
        ((phase?_context ..).trans located) (phase.step around run.definition run.context).1
      have untouched : Run.work run.definition weight { run with
          context := (phase.step around run.definition run.context).2.1 } =
            run.work run.definition weight := rfl
      exact .inr (by omega)
  | fork task join ids located =>
    have moved := work_put d weight _ (tended.fork_entering ids).unique (phase?_fork _ located)
      (.joining join run.nextGroup ids.length)
    rw [work_fork] at moved
    simp only [Phase.work] at moved
    exact .inr (by omega)
  | join task join group count ending located outcome =>
    have there : (run.dismiss group).phase? task = some (.joining join group count) := by
      cases task <;> exact located
    have moved := work_put d weight (run.dismiss group) tended.unique there
      (Phase.joined join ending)
    have waiting : Phase.work weight (.joining join group count) = 4 := rfl
    have untouched : (run.dismiss group).work d weight = run.work d weight := rfl
    have less := Phase.work_joined weight join ending
    exact .inr (by omega)
  | arrive id group ending located =>
    have left := work_arrive d weight tended.unique located
    exact .inr (by omega)
  | follow ending located => exact .inr (work_follow located)
  | choose next located =>
    have offered := grounded.drive
    rw [located] at offered
    exact .inr (work_choose offered located)
  | cancel =>
    have asked : run.isCancelled = true := unasked.symm
    exact .inl (by rw [← asked])

end Run

end DurableFlow
