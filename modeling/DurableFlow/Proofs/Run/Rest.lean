import DurableFlow.Proofs.Run.Tending

/-!
# Runs at rest

A run rests when none of its tasks can change anything, whatever time it is. The tasks of a
run never wait for each other in vain: a run that rests has come to its end.
-/

namespace DurableFlow

namespace Phase

/-- A step within a node leads on, once the reply that it may wait for has come. -/
theorem step_ne_self (around : Surroundings) (d : Definition) (context : Context)
    {phase : Phase} (plain : phase.IsPlain)
    (late : ∀ node procedure reply due, phase = .replying node procedure reply due →
      due ≤ around.clock) : (phase.step around d context).1 ≠ phase := by
  cases phase with
  | entering id => simp only [step]; split <;> simp
  | acting node =>
    simp only [step, act, call]
    repeat' split
    all_goals simp
  | replying node procedure reply due =>
    have now : ¬ around.clock < due := Nat.not_lt.mpr (late node procedure reply due rfl)
    simp only [step, now, if_false, takeUp]
    split <;> simp
  | settling node ending =>
    simp only [step, settle]
    repeat' split
    all_goals simp
  | forking => exact plain.elim
  | joining => exact plain.elim
  | ended => exact plain.elim
  | _ => simp [step]

end Phase

namespace Join

theorem length_of_collect {endings : List Ending} {steps : List Step}
    (h : collect endings = .ok steps) : steps.length = endings.length := by
  induction endings generalizing steps with
  | nil =>
    cases h
    rfl
  | cons ending rest ih =>
    cases ending with
    | error failure => simp [collect] at h
    | ok step =>
      cases collected : collect rest with
      | error failure => simp [collect, collected] at h
      | ok others =>
        simp only [collect, collected] at h
        cases h
        simp [ih collected]

/-- When all branches have ended, there is nobody left to wait for. -/
theorem outcome?_ne_none {join : Join} {count : Nat} {endings : List Ending}
    (all : endings.length = count) : join.outcome? count endings ≠ none := by
  unfold outcome?
  dsimp only
  split
  · simp
  · rename_i steps collected
    have counted := length_of_collect collected
    cases waits : join.waitForAll with
    | true =>
      rw [waits, if_pos rfl, all] at counted
      simp [counted]
    | false =>
      rw [waits, if_neg Bool.false_ne_true, List.length_take] at counted
      cases steps with
      | nil =>
        have none_set_off : count = 0 := by
          rw [List.length_nil] at counted
          omega
        simp [none_set_off]
      | cons step rest => simp

end Join

namespace Run

variable {run : Run} {task : TaskId} {phase : Phase}

/-- No task can change anything, whatever time it is. -/
def Rests (catalog : Catalog) (run : Run) : Prop :=
  ∀ task moment clock, run.move catalog (.step task moment clock) = run

/-- The pass has come to its end, and no branch goes on behind it. -/
def IsFinished (run : Run) : Prop :=
  (∃ conclusion, run.drive = .concluded conclusion) ∧ run.branches = []

/-- The step of a task that has not ended. -/
theorem move_step (located : run.phase? task = some phase)
    (unfinished : ∀ ending, phase ≠ .ended ending)
    (catalog : Catalog) (moment : Moment) (clock : Nat) :
    run.move catalog (.step task moment clock) =
      (run.stepPhase ⟨catalog, moment, clock⟩ phase).2.run.put task
        (run.stepPhase ⟨catalog, moment, clock⟩ phase).1 := by
  cases task with
  | driver =>
    have drive := drive_of_phase? located
    cases phase with
    | ended ending => exact absurd rfl (unfinished ending)
    | _ => simp only [move, step, stepDriver, drive, put]
  | branch id =>
    obtain ⟨group, found⟩ := exists_branch_of_phase? located
    cases phase with
    | ended ending => exact absurd rfl (unfinished ending)
    | _ => simp only [move, step, stepBranch, found, put]

theorem stepPhase_of_isPlain (plain : phase.IsPlain) (around : Surroundings) (run : Run) :
    (run.stepPhase around phase).1 = (phase.step around run.definition run.context).1 ∧
      (run.stepPhase around phase).2.run =
        { run with context := (phase.step around run.definition run.context).2.1 } := by
  cases phase with
  | forking => exact plain.elim
  | joining => exact plain.elim
  | ended => exact plain.elim
  | _ => exact ⟨rfl, rfl⟩

/-- A step changes the run unless the task waits: for a reply that is not due, or for branches that
are under way. -/
theorem move_ne_self (located : run.phase? task = some phase) (catalog : Catalog) (moment : Moment)
    {clock : Nat}
    (prompt : ∀ node procedure reply due, phase = .replying node procedure reply due → due ≤ clock)
    (gathered : ∀ join group count, phase = .joining join group count →
      join.outcome? count (run.endingsOf group) ≠ none) :
    run.move catalog (.step task moment clock) ≠ run := by
  intro still
  -- a task that has not ended stands in the phase that its step leads to
  have settles (unfinished : ∀ ending, phase ≠ .ended ending)
      (there : ((run.stepPhase ⟨catalog, moment, clock⟩ phase).2.run.phase? task).isSome) :
      (run.stepPhase ⟨catalog, moment, clock⟩ phase).1 = phase := by
    have stands := congrArg (Run.phase? · task) still
    rw [move_step located unfinished, phase?_put there, if_pos rfl, located] at stands
    exact Option.some.inj stands
  by_cases plain : phase.IsPlain
  · obtain ⟨next, after⟩ := stepPhase_of_isPlain plain ⟨catalog, moment, clock⟩ run
    have unfinished : ∀ ending, phase ≠ .ended ending := by
      rintro ending rfl
      exact plain
    have stays := settles unfinished (by rw [after, phase?_context, located, Option.isSome_some])
    exact Phase.step_ne_self _ _ _ plain prompt (next.symm.trans stays)
  cases phase with
  | forking join ids =>
    have stays := settles (by simp) (by simp [stepPhase, phase?_fork _ located])
    simp [stepPhase] at stays
  | joining join group count =>
    obtain ⟨ending, outcome⟩ :=
      Option.ne_none_iff_exists'.mp (gathered join group count rfl)
    have there : ((run.dismiss group).phase? task).isSome := by
      cases task <;> exact Option.isSome_of_eq_some located
    have stays := settles (by simp) (by simpa only [stepPhase, outcome] using there)
    simp only [stepPhase, outcome] at stays
    cases join <;> simp [Phase.joined] at stays
  | ended ending =>
    cases task with
    | driver =>
      have drive := drive_of_phase? located
      have followed := congrArg Run.drive still
      simp only [move, step, stepDriver, drive] at followed
      cases ending with
      | error failure => simp [follow] at followed
      | ok outcome => cases outcome <;> simp [follow] at followed
    | branch id =>
      obtain ⟨group, found⟩ := exists_branch_of_phase? located
      simp only [move, step, stepBranch, found] at still
      have gone : (run.arrive id group ending).branch? id = none := by
        rw [branch?, arrive, Table.lookup_filter_ne, if_pos rfl]
      rw [still, found] at gone
      contradiction
  | _ => exact plain trivial

/-- Every task waits for branches that are under way. -/
def IsStuck (run : Run) : Prop :=
  ∀ task phase, run.phase? task = some phase → ∃ join group count,
    phase = .joining join group count ∧ join.outcome? count (run.endingsOf group) = none

theorem Rests.isStuck {catalog : Catalog} (rests : run.Rests catalog) : run.IsStuck := by
  intro task phase located
  by_contra free
  simp only [not_exists, not_and] at free
  -- no reply is out of time for ever
  obtain ⟨clock, prompt⟩ : ∃ clock, ∀ node procedure reply due,
      phase = .replying node procedure reply due → due ≤ clock := by
    cases phase with
    | replying node procedure reply due =>
      exact ⟨due, fun _ _ _ _ same => by cases same; exact Nat.le_refl due⟩
    | _ => exact ⟨0, by simp⟩
  exact move_ne_self located catalog ⟨⟨0, 0⟩, 0⟩ prompt free (rests task _ clock)

/-- A task of a run that is stuck waits for branches that have not ended. -/
theorem Tended.members_ne_zero (tended : run.Tended) (stuck : run.IsStuck)
    (located : run.phase? task = some phase) :
    ∃ group count, run.Awaits task group count ∧ run.members group ≠ 0 := by
  obtain ⟨join, group, count, rfl, waits⟩ := stuck task phase located
  refine ⟨group, count, ⟨join, located⟩, fun gone => ?_⟩
  obtain ⟨_, all⟩ := tended.complete task group count ⟨join, located⟩
  rw [gone, Nat.zero_add] at all
  exact Join.outcome?_ne_none all waits

/-- A run that is stuck has no branches, and its driver is within no node: none of its branches can
be of the latest group. -/
theorem Tended.alone (tended : run.Tended) (stuck : run.IsStuck) :
    run.branches = [] ∧ ∀ phase, run.drive ≠ .running phase := by
  have later : ∀ left, ∀ entry ∈ run.branches, run.nextGroup - entry.2.group ≤ left → False := by
    intro left
    induction left with
    | zero =>
      intro entry member close
      have := (tended.numbered entry member).2
      omega
    | succ left ih =>
      rintro ⟨id, branch⟩ member close
      have found : run.branch? id = some branch :=
        (Table.lookup_eq_some_iff tended.unique).mpr member
      have located : run.phase? (.branch id) = some branch.phase := by simp [phase?, found]
      obtain ⟨group, count, waits, some_left⟩ := tended.members_ne_zero stuck located
      have nested := tended.nested id branch group count found waits
      obtain ⟨other, there, grouped⟩ : ∃ entry ∈ run.branches, entry.2.group = group := by
        by_contra none_left
        simp only [not_exists, not_and] at none_left
        refine some_left (List.sum_eq_zero fun n there => ?_)
        obtain ⟨entry, known, rfl⟩ := List.mem_map.mp there
        simp [none_left entry known]
      have known := (tended.numbered other there).2
      have closer : run.nextGroup - other.2.group ≤ left := by
        simp only at close
        omega
      exact ih other there closer
  have alone : run.branches = [] := by
    apply List.eq_nil_iff_forall_not_mem.mpr
    intro entry member
    exact later _ entry member (Nat.le_refl _)
  refine ⟨alone, fun phase drive => ?_⟩
  have located : run.phase? .driver = some phase := by simp [phase?, drive]
  obtain ⟨group, count, _, some_left⟩ := tended.members_ne_zero stuck located
  exact absurd (by simp [members, alone]) some_left

/-- A run that rests has come to its end. -/
theorem Tended.isFinished {catalog : Catalog} (tended : run.Tended) (rests : run.Rests catalog) :
    run.IsFinished := by
  obtain ⟨alone, outside⟩ := tended.alone rests.isStuck
  refine ⟨?_, alone⟩
  cases drive : run.drive with
  | concluded conclusion => exact ⟨conclusion, rfl⟩
  | choosing next =>
    have moved := congrArg Run.drive (rests .driver ⟨⟨0, 0⟩, 0⟩ 0)
    simp only [move, step, stepDriver, drive] at moved
    exact absurd moved (drive_choose_ne run next next)
  | running phase => exact absurd drive (outside phase)

end Run

end DurableFlow
