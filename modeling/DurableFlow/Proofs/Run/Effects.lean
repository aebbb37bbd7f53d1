import DurableFlow.Proofs.Run.Tending

/-!
# What the moves of a run show

Only a step within a node shows anything or writes to the context; every other move is idle.
`move_shows` says what a move does to a run together with its effects, so that what all moves
keep comes down to what a step within a node does to one phase of one task. A number that
depends on what all tasks are at work on is a `tally`.
-/

namespace DurableFlow

/-- The node that a task is at work on, from its entrance until its output is written. -/
def Phase.working? : Phase → Option Node
  | .announcing node | .acting node | .replying node .. | .recording node _ => some node
  | _ => none

namespace Run

variable {catalog : Catalog} {run after : Run} {task : TaskId}

/-- The effects of a move. -/
def effectsOf (catalog : Catalog) (run : Run) : Move → List Effect
  | .step task moment clock => (run.step { catalog, moment, clock } task).effects
  | .cancel => []

section Tally

/-- What the driver weighs. -/
def driverWeight (weight : Phase → Nat) : Drive → Nat
  | .running phase => weight phase
  | _ => 0

/-- The weights of the phases of all tasks. -/
def tally (weight : Phase → Nat) (run : Run) : Nat :=
  driverWeight weight run.drive + (run.branches.map fun entry => weight entry.2.phase).sum

theorem tally_put (weight : Phase → Nat) (run : Run)
    (unique : (Table.ids run.branches).Nodup) {old : Phase}
    (located : run.phase? task = some old) (phase : Phase) :
    (run.put task phase).tally weight + weight old = run.tally weight + weight phase := by
  cases task with
  | driver =>
    have drive := drive_of_phase? located
    simp only [tally, put, drive, driverWeight]
    omega
  | branch id =>
    obtain ⟨group, found⟩ := exists_branch_of_phase? located
    have changed := Table.sum_update unique found (fun branch => { branch with phase })
      fun branch => weight branch.phase
    simp only [tally, put, setPhase_branches] at changed ⊢
    show driverWeight weight run.drive + _ + _ = _
    omega

theorem tally_fork (weight : Phase → Nat) (run : Run) (phases : List Phase) :
    (run.fork phases).tally weight = run.tally weight + (phases.map weight).sum := by
  have new : ∀ start, ((Table.enumerate start (phases.map (Branch.mk run.nextGroup))).map
      fun entry => weight entry.2.phase).sum = (phases.map weight).sum := by
    induction phases with
    | nil => simp
    | cons phase rest ih =>
      intro start
      rw [List.map_cons, Table.enumerate_cons, List.map_cons, List.sum_cons, ih, List.map_cons,
        List.sum_cons]
  simp only [tally, fork_branches, List.map_append, List.sum_append, new]
  show driverWeight weight run.drive + _ = _
  omega

theorem tally_arrive (weight : Phase → Nat) (unique : (Table.ids run.branches).Nodup)
    {id group : Nat} {ending : Ending} (located : run.branch? id = some ⟨group, .ended ending⟩) :
    (run.arrive id group ending).tally weight + weight (.ended ending) = run.tally weight := by
  have taken := Table.sum_filter_ne unique located fun branch => weight branch.phase
  simp only [tally, arrive] at taken ⊢
  omega

/-- Only tasks that are at work on a node weigh something. -/
def WeighsWork (weight : Phase → Nat) : Prop := ∀ phase, phase.working? = none → weight phase = 0

/-- Nothing has been written, and no task has started or stopped to work on a node. -/
structure Idle (run after : Run) : Prop where
  definition : after.definition = run.definition
  context : after.context = run.context
  phases : ∀ task phase, after.phase? task = some phase →
    run.phase? task = some phase ∨ phase.working? = none
  tally : ∀ weight, WeighsWork weight → after.tally weight = run.tally weight

theorem put_definition (run : Run) (task : TaskId) (phase : Phase) :
    (run.put task phase).definition = run.definition := by
  cases task <;> rfl

theorem put_context (run : Run) (task : TaskId) (phase : Phase) :
    (run.put task phase).context = run.context := by
  cases task <;> rfl

/-- The driver stands elsewhere, but it is not at work on a node. -/
theorem idle_driven (drive : Drive) (rested : ∀ phase, run.drive = .running phase →
      phase.working? = none)
    (rests : ∀ phase, drive = .running phase → phase.working? = none) :
    Idle run { run with drive } := by
  have light : ∀ weight, WeighsWork weight → ∀ drive : Drive,
      (∀ phase, drive = .running phase → phase.working? = none) →
        driverWeight weight drive = 0 := by
    intro weight work drive rests
    cases drive with
    | running phase => exact work phase (rests phase rfl)
    | _ => rfl
  refine ⟨rfl, rfl, fun task phase located => ?_, fun weight work => ?_⟩
  · cases task with
    | driver => exact .inr (rests phase (drive_of_phase? located))
    | branch id => exact .inl located
  · rw [tally, tally, light weight work _ rested, light weight work _ rests]

theorem idle_choose {next : List String} (located : run.drive = .choosing next) :
    Idle run (run.choose next) := by
  have rested : ∀ phase, run.drive = .running phase → phase.working? = none := by
    simp [located]
  unfold Run.choose
  split
  · exact idle_driven _ rested (by simp)
  · rename_i id rest
    split
    · exact idle_driven _ rested (by simp)
    · split
      · exact idle_driven _ rested (by simp)
      · have still := idle_driven
          (.running (if rest.isEmpty then .entering id else .forking .fanOut (id :: rest))) rested
          (by rintro _ ⟨⟩; split <;> rfl)
        exact ⟨still.definition, still.context, still.phases, still.tally⟩

theorem idle_follow {ending : Ending} (located : run.drive = .running (.ended ending)) :
    Idle run { run with drive := Run.follow ending } := by
  refine idle_driven _ (fun phase same => ?_) (fun phase same => ?_)
  · rw [located] at same
    cases same
    rfl
  · match ending with
    | .ok (.goOn next) => cases same
    | .ok (.suspend id pause) => cases same
    | .error failure => cases same

/-- A task that is put elsewhere, while no other task is, goes from one phase to another. -/
theorem phases_put {middle : Run} {phase : Phase} (there : (middle.phase? task).isSome)
    (rests : phase.working? = none)
    (before : ∀ task phase, middle.phase? task = some phase →
      run.phase? task = some phase ∨ phase.working? = none) :
    ∀ other stands, (middle.put task phase).phase? other = some stands →
      run.phase? other = some stands ∨ stands.working? = none := by
  intro other stands located
  rw [phase?_put there] at located
  split at located
  · cases located
    exact .inr rests
  · exact before other stands located

theorem idle_fork (tended : run.Tended) {join : Join} {ids : List String}
    (located : run.phase? task = some (.forking join ids)) :
    Idle run
      ((run.fork (ids.map .entering)).put task (.joining join run.nextGroup ids.length)) := by
  refine ⟨put_definition .., put_context .., ?_, fun weight work => ?_⟩
  · refine phases_put (by rw [phase?_fork _ located]; rfl) rfl fun other phase stood => ?_
    cases other with
    | driver => exact .inl stood
    | branch id =>
      obtain ⟨group, found⟩ := exists_branch_of_phase? stood
      rw [branch?_fork] at found
      rcases Option.or_eq_some_iff.mp found with old | ⟨_, new⟩
      · exact .inl (by simp [phase?, old])
      · split at new
        · obtain ⟨entering, member, same⟩ := List.mem_map.mp (List.mem_of_getElem? new)
          obtain ⟨id, _, rfl⟩ := List.mem_map.mp member
          cases same
          exact .inr rfl
        · contradiction
  · have moved := tally_put weight _ (tended.fork_entering ids).unique
      (phase?_fork _ located) (.joining join run.nextGroup ids.length)
    have nothing : ((ids.map Phase.entering).map weight).sum = 0 := by
      apply List.sum_eq_zero
      intro n member
      obtain ⟨phase, among, rfl⟩ := List.mem_map.mp member
      obtain ⟨id, _, rfl⟩ := List.mem_map.mp among
      exact work _ rfl
    rw [tally_fork, nothing, work (.forking join ids) rfl, work (.joining ..) rfl] at moved
    omega

theorem idle_join (tended : run.Tended) {join : Join} {group count : Nat} (ending : Ending)
    (located : run.phase? task = some (.joining join group count)) :
    Idle run ((run.dismiss group).put task (Phase.joined join ending)) := by
  have there : (run.dismiss group).phase? task = some (.joining join group count) := by
    cases task <;> exact located
  have rests : (Phase.joined join ending).working? = none := by cases join <;> rfl
  refine ⟨put_definition .., put_context .., ?_, fun weight work => ?_⟩
  · refine phases_put (by rw [there]; rfl) rests fun other phase stood => .inl ?_
    cases other <;> exact stood
  · have moved :=
      tally_put weight (run.dismiss group) tended.unique there (Phase.joined join ending)
    have same : (run.dismiss group).tally weight = run.tally weight := rfl
    rw [work (.joining ..) rfl, work _ rests] at moved
    omega

theorem idle_arrive (tended : run.Tended) {id group : Nat} {ending : Ending}
    (located : run.branch? id = some ⟨group, .ended ending⟩) :
    Idle run (run.arrive id group ending) := by
  refine ⟨rfl, rfl, fun task phase stood => .inl ?_, fun weight work => ?_⟩
  · cases task with
    | driver => exact stood
    | branch j =>
      obtain ⟨parent, found⟩ := exists_branch_of_phase? stood
      rw [branch?, Run.arrive, Table.lookup_filter_ne] at found
      split at found
      · contradiction
      · simp [phase?, branch?, found]
  · have left := tally_arrive weight tended.unique located
    rw [work (.ended ending) rfl] at left
    exact left

theorem Idle.refl (run : Run) : Idle run run :=
  ⟨rfl, rfl, fun _ _ located => .inl located, fun _ _ => rfl⟩

end Tally

section Shows

/-- What a move does to a run, and what it shows. -/
inductive Shows (catalog : Catalog) (run : Run) : Run → List Effect → Prop where
  | idle {after : Run} (happens : Transition catalog run after) (still : Idle run after) :
      Shows catalog run after []
  | act (task : TaskId) (phase : Phase) (around : Surroundings)
      (known : around.catalog = catalog) (located : run.phase? task = some phase)
      (plain : phase.IsPlain) :
      Shows catalog run
        ({ run with context := (phase.step around run.definition run.context).2.1 }.put task
          (phase.step around run.definition run.context).1)
        (phase.step around run.definition run.context).2.2

theorem stepPhase_shows (tended : run.Tended) {phase : Phase} (around : Surroundings)
    (located : run.phase? task = some phase) (unfinished : ∀ ending, phase ≠ .ended ending) :
    Shows around.catalog run ((run.stepPhase around phase).2.run.put task
      (run.stepPhase around phase).1) (run.stepPhase around phase).2.effects := by
  have happens := stepPhase_transition around located unfinished
  cases phase with
  | forking join ids => exact .idle happens (idle_fork tended located)
  | joining join group count =>
    cases outcome : join.outcome? count (run.endingsOf group) with
    | none =>
      simp only [stepPhase, outcome] at happens ⊢
      rw [put_self tended.unique located] at happens ⊢
      exact .idle happens (.refl run)
    | some ending =>
      simp only [stepPhase, outcome] at happens ⊢
      exact .idle happens (idle_join tended ending located)
  | ended ending => exact absurd rfl (unfinished ending)
  | _ => exact .act task _ around rfl located trivial

theorem stepDriver_shows (tended : run.Tended) (around : Surroundings) :
    Shows around.catalog run (run.stepDriver around).run (run.stepDriver around).effects := by
  rw [stepDriver]
  split
  · exact .idle .rest (.refl run)
  · rename_i next located
    exact .idle (.choose next located) (idle_choose located)
  · rename_i ending located
    exact .idle (.follow ending located) (idle_follow located)
  · rename_i phase unfinished located
    have stands : run.phase? .driver = some phase := by simp only [phase?, located]
    exact stepPhase_shows tended around stands fun ending same => unfinished ending same

theorem stepBranch_shows (tended : run.Tended) (around : Surroundings) (id : Nat) :
    Shows around.catalog run (run.stepBranch around id).run
      (run.stepBranch around id).effects := by
  rw [stepBranch]
  split
  · exact .idle .rest (.refl run)
  · rename_i group ending located
    exact .idle (.arrive id group ending located) (idle_arrive tended located)
  · rename_i group phase unfinished located
    have stands : run.phase? (.branch id) = some phase := by simp [phase?, located]
    exact stepPhase_shows tended around stands fun ending same => unfinished ending same

/-- Whatever a move does and shows is accounted for. -/
theorem move_shows (catalog : Catalog) (tended : run.Tended) (m : Move) :
    Shows catalog run (run.move catalog m) (run.effectsOf catalog m) := by
  cases m with
  | cancel =>
    have same : ∀ task, ({ run with isCancelled := true } : Run).phase? task = run.phase? task := by
      intro task
      cases task <;> rfl
    exact .idle .cancel ⟨rfl, rfl, fun task phase located => .inl (same task ▸ located),
      fun _ _ => rfl⟩
  | step task moment clock =>
    cases task with
    | driver => exact stepDriver_shows tended { catalog, moment, clock }
    | branch id => exact stepBranch_shows tended { catalog, moment, clock } id

end Shows

end Run

end DurableFlow
