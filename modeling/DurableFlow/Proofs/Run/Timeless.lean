import DurableFlow.Proofs.Run.Tracing

/-!
# Runs at another time

A run tells the time by two things: when a reply is due, and what its procedures are told. Where the
procedures answer in the same way at any time, time does no more than hold a task up
(`Run.isHeldUp`), and a step of a task that is not held up is the same step at any time but for when
the next reply is due (`step_untimed`). So two runs that differ in nothing but this remain so.
-/

namespace DurableFlow

/-- The procedures answer by what they are asked and on whose behalf, not by the time. -/
def Catalog.IsTimeless (catalog : Catalog) : Prop :=
  ∀ name procedure, Fields.get? catalog name = some procedure →
    ∀ moment other invocation input,
      procedure.reply moment invocation input = procedure.reply other invocation input

/-- The phase without the time at which a reply is due. -/
def Phase.untimed : Phase → Phase
  | .replying node procedure reply _ => .replying node procedure reply 0
  | phase => phase

def Drive.untimed : Drive → Drive
  | .running phase => .running phase.untimed
  | drive => drive

def Branch.untimed (branch : Branch) : Branch := { branch with phase := branch.phase.untimed }

/-- The run without the times at which replies are due. -/
def Run.untimed (run : Run) : Run :=
  { run with
    drive := run.drive.untimed
    branches := run.branches.map fun entry => (entry.1, entry.2.untimed) }

/-- What surrounds a step at the start of the clock. -/
def Surroundings.start (around : Surroundings) (moment : Moment) : Surroundings :=
  { around with moment, clock := 0 }

namespace Phase

@[simp] theorem untimed_untimed (phase : Phase) : phase.untimed.untimed = phase.untimed := by
  cases phase <;> rfl

section Steps

variable {around : Surroundings} (timeless : around.catalog.IsTimeless) (moment : Moment)
include timeless

theorem act_untimed (context : Context) (node : Node) :
    (act (around.start moment) context node).1.untimed = (act around context node).1.untimed ∧
      (act (around.start moment) context node).2 = (act around context node).2 := by
  unfold act
  split
  · exact ⟨rfl, rfl⟩
  · rename_i name config _
    simp only [call, Surroundings.start]
    cases known : Fields.get? around.catalog name with
    | none => exact ⟨rfl, rfl⟩
    | some procedure =>
      cases context.input config with
      | error failure => exact ⟨rfl, rfl⟩
      | ok input =>
        have reply := timeless name procedure known moment around.moment
        simp only [untimed, reply, and_self]
  all_goals exact ⟨rfl, rfl⟩

/-- A step from a phase that does not wait for a reply is the same step at any time. -/
theorem step_untimed (d : Definition) (context : Context) {phase : Phase}
    (prompt : ∀ node procedure reply due, phase = .replying node procedure reply due →
      due ≤ around.clock) :
    (phase.untimed.step (around.start moment) d context).1.untimed =
        (phase.step around d context).1.untimed ∧
      (phase.untimed.step (around.start moment) d context).2 = (phase.step around d context).2 := by
  cases phase with
  | acting node =>
    obtain ⟨next, effects⟩ := act_untimed timeless moment context node
    exact ⟨next, congrArg (context, ·) effects⟩
  | replying node procedure reply due =>
    have late := Nat.not_lt_of_le (prompt node procedure reply due rfl)
    simp only [untimed, step, if_neg late, Surroundings.start, Nat.lt_irrefl, if_false, and_self]
  | _ => exact ⟨rfl, rfl⟩

end Steps

end Phase

namespace Run

/-- The task waits for a reply that is not due yet, or for branches that are still under way, or it
is a branch that is gone. -/
def isHeldUp (run : Run) (clock : Nat) (task : TaskId) : Bool :=
  match run.phase? task with
  | some (.replying _ _ _ due) => clock < due
  | some (.joining join group count) => (join.outcome? count (run.endingsOf group)).isNone
  | some _ => false
  | none => task != .driver

section Parts

variable (run : Run)

@[simp] theorem untimed_untimed : run.untimed.untimed = run.untimed := by
  have drive : run.drive.untimed.untimed = run.drive.untimed := by
    cases run.drive <;> simp [Drive.untimed]
  simp only [untimed, drive, List.map_map]
  congr 1
  exact List.map_congr_left fun entry _ => by simp [Branch.untimed]

theorem branch?_untimed (id : Nat) :
    run.untimed.branch? id = (run.branch? id).map Branch.untimed := by
  have mapped : ∀ branches : List (Nat × Branch),
      (branches.map fun entry => (entry.1, entry.2.untimed)).lookup id =
        (branches.lookup id).map Branch.untimed := by
    intro branches
    induction branches with
    | nil => rfl
    | cons entry rest ih =>
      rw [List.map_cons, Table.lookup_cons, Table.lookup_cons, ih]
      split <;> rfl
  exact mapped run.branches

theorem phase?_untimed (task : TaskId) :
    run.untimed.phase? task = (run.phase? task).map Phase.untimed := by
  cases task with
  | driver => cases drive : run.drive <;> simp [phase?, untimed, Drive.untimed, drive]
  | branch id =>
    simp only [phase?, branch?_untimed, Option.map_map]
    rfl

theorem untimed_setPhase (id : Nat) (phase : Phase) :
    (run.setPhase id phase).untimed = run.untimed.setPhase id phase.untimed := by
  simp only [untimed, setPhase, List.map_map]
  congr 1
  refine List.map_congr_left fun entry _ => ?_
  simp only [Function.comp]
  split <;> rfl

theorem untimed_put (task : TaskId) (phase : Phase) :
    (run.put task phase).untimed = run.untimed.put task phase.untimed := by
  cases task with
  | driver => rfl
  | branch id => exact run.untimed_setPhase id phase

theorem untimed_fork (ids : List String) :
    (run.fork (ids.map .entering)).untimed = run.untimed.fork (ids.map .entering) := by
  simp only [untimed, fork, List.map_append]
  congr 2
  refine List.ext_getElem (by simp) fun n _ _ => ?_
  simp [Branch.untimed, Phase.untimed]

theorem untimed_arrive (id group : Nat) (ending : Ending) :
    (run.arrive id group ending).untimed = run.untimed.arrive id group ending := by
  simp only [untimed, arrive, List.filter_map]
  rfl

theorem untimed_choose (next : List String) :
    (run.choose next).untimed = run.untimed.choose next := by
  cases next with
  | nil => rfl
  | cons id rest =>
    simp only [choose, untimed]
    by_cases cancelled : run.isCancelled = true
    · simp only [cancelled, if_true]
      rfl
    · by_cases spent : run.limit ≤ run.steps
      · simp only [cancelled, spent, if_true]
        rfl
      · simp only [cancelled, spent]
        cases rest <;> rfl

end Parts

/-- A step of a task that is held up leaves the run as it is. -/
theorem step_of_isHeldUp {around : Surroundings} {run : Run} {task : TaskId} (tended : run.Tended)
    (heldUp : run.isHeldUp around.clock task = true) :
    (run.step around task).run = run ∧
      (task = .driver → (run.step around task).signal ≠ .finished) := by
  rw [isHeldUp] at heldUp
  cases located : run.phase? task with
  | none =>
    rw [located] at heldUp
    cases task with
    | driver => contradiction
    | branch id =>
      have gone : run.branch? id = none := Option.map_eq_none_iff.mp located
      simp [step, stepBranch, gone]
  | some phase =>
    rw [located] at heldUp
    have still : (run.stepPhase around phase).1 = phase ∧ (run.stepPhase around phase).2.run = run ∧
        (run.stepPhase around phase).2.signal ≠ .finished := by
      cases phase with
      | replying node procedure reply due =>
        have early : around.clock < due := by simpa using heldUp
        simp [stepPhase, Phase.step, Phase.signal, if_pos early]
      | joining join group count =>
        have undecided : join.outcome? count (run.endingsOf group) = none := by simpa using heldUp
        simp [stepPhase, undecided]
      | _ => contradiction
    obtain ⟨stays, left, goesOn⟩ := still
    have unfinished : ∀ ending, phase ≠ .ended ending := by
      rintro ending rfl
      contradiction
    have moved := move_step located unfinished around.catalog around.moment around.clock
    change (run.step around task).run = (run.stepPhase around phase).2.run.put task
      (run.stepPhase around phase).1 at moved
    refine ⟨?_, ?_⟩
    · rw [moved, left, stays, put_self tended.unique located]
    · rintro rfl
      have drive := drive_of_phase? located
      cases phase with
      | ended ending => exact absurd rfl (unfinished ending)
      | _ =>
        simp only [step, stepDriver, drive]
        exact goesOn

/-- A step of a task that is not held up changes the run, unless the run has come to its conclusion.
-/
theorem step_ne_self {around : Surroundings} {run : Run} {task : TaskId}
    (free : run.isHeldUp around.clock task = false)
    (unfinished : task = .driver → ∀ conclusion, run.drive ≠ .concluded conclusion) :
    (run.step around task).run ≠ run := by
  rw [isHeldUp] at free
  cases located : run.phase? task with
  | some phase =>
    rw [located] at free
    refine move_ne_self located around.catalog around.moment ?_ ?_
    · rintro node procedure reply due rfl
      simpa using free
    · rintro join group count rfl
      exact Option.isSome_iff_ne_none.mp (by simpa using free)
  | none =>
    rw [located] at free
    cases task with
    | branch id => contradiction
    | driver =>
      cases drive : run.drive with
      | concluded conclusion => exact absurd drive (unfinished rfl conclusion)
      | running phase => simp [phase?, drive] at located
      | choosing next =>
        intro still
        have moved := congrArg Run.drive still
        simp only [step, stepDriver, drive] at moved
        exact drive_choose_ne run next next moved

/-- Where all tasks are held up however long one waits, each waits for branches. -/
theorem isStuck_of_isHeldUp {run : Run} {clock : Nat}
    (heldUp : ∀ task, (run.phase? task).isSome → ∀ later,
      run.isHeldUp (clock + later) task = true) : run.IsStuck := by
  intro task phase located
  have waits := heldUp task (Option.isSome_of_eq_some located)
  simp only [isHeldUp, located] at waits
  cases phase with
  | joining join group count => exact ⟨join, group, count, rfl, by simpa using waits 0⟩
  | replying node procedure reply due =>
    have early : clock + due < due := by simpa using waits due
    omega
  | _ => cases waits 0

section Steps

variable {around : Surroundings} (timeless : around.catalog.IsTimeless) (moment : Moment)
  (run : Run)
include timeless

theorem stepPhase_untimed {phase : Phase}
    (prompt : ∀ node procedure reply due, phase = .replying node procedure reply due →
      due ≤ around.clock) :
    let stepped := run.stepPhase around phase
    let again := run.untimed.stepPhase (around.start moment) phase.untimed
    again.1.untimed = stepped.1.untimed ∧ again.2.run.untimed = stepped.2.run.untimed := by
  by_cases plain : phase.IsPlain
  · have still : phase.untimed.IsPlain := by cases phase <;> exact plain
    obtain ⟨next, left⟩ := stepPhase_of_isPlain plain around run
    obtain ⟨next', left'⟩ := stepPhase_of_isPlain still (around.start moment) run.untimed
    obtain ⟨same, shown⟩ := Phase.step_untimed timeless moment run.definition run.context prompt
    change (phase.untimed.step (around.start moment) run.untimed.definition
      run.untimed.context).2 = _ at shown
    refine ⟨?_, ?_⟩
    · rw [next', next]
      exact same
    · rw [left', left, shown]
      exact congrArg (fun left => { left with
        context := (phase.step around run.definition run.context).2.1 }) run.untimed_untimed
  · cases phase with
    | forking join ids =>
      refine ⟨rfl, ?_⟩
      change (run.untimed.fork (ids.map .entering)).untimed = (run.fork (ids.map .entering)).untimed
      rw [untimed_fork, untimed_fork, untimed_untimed]
    | joining join group count =>
      simp only [stepPhase, Phase.untimed]
      have same : run.untimed.endingsOf group = run.endingsOf group := rfl
      rw [same]
      cases join.outcome? count (run.endingsOf group) with
      | none => exact ⟨rfl, run.untimed_untimed⟩
      | some ending =>
        exact ⟨rfl, congrArg (fun left => left.dismiss group) run.untimed_untimed⟩
    | ended ending => exact ⟨rfl, run.untimed_untimed⟩
    | _ => exact absurd trivial plain

/-- A step of a task that is not held up is the same step at any time. -/
theorem step_untimed {task : TaskId} (free : run.isHeldUp around.clock task = false) :
    (run.untimed.step (around.start moment) task).run.untimed =
      (run.step around task).run.untimed := by
  cases located : run.phase? task with
  | some phase =>
    have at' : run.untimed.phase? task = some phase.untimed := by
      rw [phase?_untimed, located, Option.map_some]
    rw [isHeldUp, located] at free
    by_cases ended : ∃ ending, phase = .ended ending
    · obtain ⟨ending, rfl⟩ := ended
      cases task with
      | driver =>
        have drive := drive_of_phase? located
        have drive' := drive_of_phase? at'
        simp only [step, stepDriver, drive, drive', Phase.untimed]
        exact congrArg (fun run => { run with drive := (follow ending).untimed })
          run.untimed_untimed
      | branch id =>
        obtain ⟨group, there⟩ := exists_branch_of_phase? located
        have there' : run.untimed.branch? id = some ⟨group, .ended ending⟩ := by
          rw [branch?_untimed, there]
          rfl
        simp only [step, stepBranch, there, there']
        rw [untimed_arrive, untimed_arrive, untimed_untimed]
    · have unfinished : ∀ ending, phase ≠ .ended ending := fun ending is => ended ⟨ending, is⟩
      have unfinished' : ∀ ending, phase.untimed ≠ .ended ending := by
        cases phase with
        | ended ending => exact absurd rfl (unfinished ending)
        | _ => exact fun ending is => by cases is
      have prompt : ∀ node procedure reply due, phase = .replying node procedure reply due →
          due ≤ around.clock := by
        rintro node procedure reply due rfl
        simpa using free
      have now := move_step located unfinished around.catalog around.moment around.clock
      have afterwards := move_step at' unfinished' around.catalog moment 0
      obtain ⟨next, left⟩ := run.stepPhase_untimed timeless moment prompt
      change (run.step around task).run = _ at now
      change (run.untimed.step (around.start moment) task).run = _ at afterwards
      rw [now, afterwards, untimed_put, untimed_put]
      exact congrArg₂ (fun left next => put left task next) left next
  | none =>
    cases task with
    | driver =>
      cases drive : run.drive with
      | running phase => simp [phase?, drive] at located
      | choosing next =>
        have drive' : run.untimed.drive = .choosing next := by
          simp only [untimed, drive, Drive.untimed]
        simp only [step, stepDriver, drive, drive']
        rw [untimed_choose, untimed_choose, untimed_untimed]
      | concluded conclusion =>
        have drive' : run.untimed.drive = .concluded conclusion := by
          simp only [untimed, drive, Drive.untimed]
        simp only [step, stepDriver, drive, drive', untimed_untimed]
    | branch id =>
      rw [isHeldUp, located] at free
      contradiction

end Steps

/-- The task that drives a run has nothing left to do when the run has come to a conclusion. -/
theorem stepDriver_finished (around : Surroundings) (run : Run) :
    (run.stepDriver around).signal = .finished ↔
      ∃ conclusion, (run.stepDriver around).run.drive = .concluded conclusion := by
  rw [stepDriver]
  split
  · rename_i conclusion drive
    simp [drive]
  · rename_i next _
    cases drive : (run.choose next).drive <;> simp [drive]
  · rename_i ending _
    cases follow ending <;> simp
  · rename_i phase unfinished drive
    have goesOn : (run.stepPhase around phase).2.signal ≠ .finished := by
      have plain : ∀ next : Phase, next.signal around.clock ≠ .finished := by
        intro next
        unfold Phase.signal
        repeat' split
        all_goals simp
      unfold stepPhase
      repeat' split
      all_goals first | exact plain _ | simp
    exact iff_of_false goesOn (by simp)

end Run

end DurableFlow
