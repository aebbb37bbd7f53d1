import DurableFlow.Proofs.Run.Mirror
import DurableFlow.Proofs.Run.Transparency

/-!
# Two runs side by side

A run over a definition and a run over the definition without its waits go on in lockstep:
whenever a task of the one takes a step, the task of the other takes its own, and both call the
same procedures with the same input. The branches and groups of the other run are counted from
later numbers, since it goes on in one pass where the one is resumed in a pass of its own.
`Mirrored` relates the two, and a move of the one is answered by at most one move of the other.
-/

namespace DurableFlow

/-- Where the driver stands, and where the driver stands that does not wait. -/
def Drive.Mirrored (d : Definition) (raised : Prop) (offset : Nat) : Drive → Drive → Prop
  | .choosing next, drive => drive = .choosing next
  | .running phase, drive =>
    ∃ phase', drive = .running phase' ∧ phase.Mirrored d raised offset none phase'
  | .concluded .completed, drive => drive = .concluded .completed
  | .concluded (.suspended id pause), drive =>
    ∃ step, drive = Run.follow (.ok step) ∧ (Step.suspend id pause).Mirrored d raised none step
  | .concluded (.failed _), _ => False

def Drive.isFailure : Drive → Bool
  | .running phase => phase.isFailure
  | .concluded (.failed _) => true
  | _ => false

def Drive.isPausing : Drive → Bool
  | .running phase => phase.isPausing
  | _ => false

/-- The same task in a run whose branches are counted from a later number. -/
def TaskId.shift (offset : Nat) : TaskId → TaskId
  | .driver => .driver
  | .branch id => .branch (id + offset)

namespace Run

variable {d : Definition} {catalog : Catalog} {raised : Prop} {before groups : Nat}
  {expected : Nat → Option (List String)} {run other : Run} {task : TaskId} {phase : Phase}

/-- What is expected to follow the node that a task comes to, given this for every group. -/
def expectedOf (run : Run) (expected : Nat → Option (List String)) :
    TaskId → Option (List String)
  | .driver => none
  | .branch id => (run.branch? id).bind fun branch => expected branch.group

/-- The other run does without the waits what the run does with them. -/
structure Mirrored (d : Definition) (raised : Prop) (before groups : Nat)
    (expected : Nat → Option (List String)) (run other : Run) : Prop where
  definition : run.definition = d
  unwaiting : other.definition = d.withoutWaits
  unasked : other.isCancelled = false
  context : ∃ last, other.context = { run.context with node := last }
  drive : run.drive.Mirrored d raised groups other.drive
  branches : ∀ id branch, run.branch? id = some branch →
    ∃ phase, other.branch? (id + before) = some ⟨branch.group + groups, phase⟩ ∧
      branch.phase.Mirrored d raised groups (expected branch.group) phase
  endings : ∀ group, ∃ steps steps', run.endingsOf group = steps.map .ok ∧
    other.endingsOf (group + groups) = steps'.map .ok ∧
      List.Forall₂ (Step.Mirrored d raised (expected group)) steps steps'
  waits : ∀ task join group count, run.phase? task = some (.joining join group count) →
    expected group = join.expected
  nextBranch : other.nextBranch = run.nextBranch + before
  nextGroup : other.nextGroup = run.nextGroup + groups

section Lookup

theorem branch?_setPhase (run : Run) (id other : Nat) (phase : Phase) :
    (run.setPhase id phase).branch? other =
      if other = id then (run.branch? id).map fun branch => { branch with phase }
      else run.branch? other := by
  rw [branch?, setPhase_branches, Table.lookup_update]
  rfl

theorem Tended.branch?_eq_none (tended : run.Tended) {id : Nat} (above : run.nextBranch ≤ id) :
    run.branch? id = none := by
  apply Table.lookup_eq_none_of_not_mem
  intro member
  obtain ⟨entry, there, rfl⟩ := List.mem_map.mp member
  exact absurd (tended.numbered entry there).1 (Nat.not_lt.mpr above)

theorem Tended.endingsOf_eq_nil (tended : run.Tended) {group : Nat}
    (above : run.nextGroup ≤ group) : run.endingsOf group = [] := by
  simp only [Run.endingsOf, List.map_eq_nil_iff, List.filter_eq_nil_iff]
  intro arrival member
  have below := tended.arrived arrival member
  simpa using Nat.ne_of_lt (Nat.lt_of_lt_of_le below above)

theorem endingsOf_dismiss_self (run : Run) (group : Nat) :
    (run.dismiss group).endingsOf group = [] := by
  simp [endingsOf, dismiss, List.filter_filter]

/-- A driver that is not stopped goes on to a node or sets off branches for several. -/
theorem choose_cons {id : String} {rest : List String} (unasked : run.isCancelled = false)
    (left : run.steps < run.limit) : run.choose (id :: rest) =
      { run with
        steps := run.steps + 1
        drive := .running
          (if rest.isEmpty then .entering id else .forking .fanOut (id :: rest)) } := by
  rw [choose, if_neg (by simp [unasked]), if_neg (Nat.not_le.mpr left)]

end Lookup

namespace Mirrored

/-- The other run has the task as well. -/
theorem phase? (mirrored : run.Mirrored d raised before groups expected other)
    (located : run.phase? task = some phase) :
    ∃ phase', other.phase? (task.shift before) = some phase' ∧
      phase.Mirrored d raised groups (run.expectedOf expected task) phase' := by
  cases task with
  | driver =>
    have drive := mirrored.drive
    rw [drive_of_phase? located] at drive
    obtain ⟨phase', stands, same⟩ := drive
    exact ⟨phase', by simp [TaskId.shift, Run.phase?, stands], same⟩
  | branch id =>
    obtain ⟨group, found⟩ := exists_branch_of_phase? located
    obtain ⟨phase', stands, same⟩ := mirrored.branches id _ found
    refine ⟨phase', by simp [TaskId.shift, Run.phase?, stands], ?_⟩
    rw [expectedOf, found]
    exact same

/-- The task of both runs may be put elsewhere. -/
theorem put (mirrored : run.Mirrored d raised before groups expected other)
    (there : (run.phase? task).isSome) {phase' : Phase}
    (same : phase.Mirrored d raised groups (run.expectedOf expected task) phase')
    (fits : ∀ join group count, phase = .joining join group count →
      expected group = join.expected) :
    (run.put task phase).Mirrored d raised before groups expected
      (other.put (task.shift before) phase') := by
  have waits : ∀ stands join group count,
      (run.put task phase).phase? stands = some (.joining join group count) →
        expected group = join.expected := by
    intro stands join group count located
    rw [phase?_put there] at located
    split at located
    · exact fits join group count (Option.some.inj located)
    · exact mirrored.waits stands join group count located
  cases task with
  | driver => exact { mirrored with drive := ⟨phase', rfl, same⟩, waits := waits }
  | branch id =>
    refine { mirrored with branches := ?_, waits := waits }
    intro stands branch found
    simp only [Run.put, TaskId.shift, branch?_setPhase] at found ⊢
    by_cases own : stands = id
    · subst own
      rw [if_pos rfl] at found ⊢
      obtain ⟨old, stood, rfl⟩ := Option.map_eq_some_iff.mp found
      obtain ⟨_, stood', _⟩ := mirrored.branches stands old stood
      refine ⟨phase', by rw [stood']; rfl, ?_⟩
      rw [expectedOf, stood] at same
      exact same
    · rw [if_neg own] at found
      rw [if_neg fun equal => own (Nat.add_right_cancel equal)]
      exact mirrored.branches stands branch found

/-- Both runs may set off branches for the same nodes. -/
theorem fork (mirrored : run.Mirrored d raised before groups expected other)
    (tended : run.Tended) (tended' : other.Tended) {ids : List String}
    {follow : Option (List String)}
    (known : ∀ id ∈ ids, ∀ node, d.node? id = some node → node.Fits follow) :
    (run.fork (ids.map .entering)).Mirrored d raised before groups
      (Function.update expected run.nextGroup follow) (other.fork (ids.map .entering)) := by
  refine
    { mirrored with
      branches := ?_
      endings := ?_
      waits := ?_
      nextBranch := ?_
      nextGroup := ?_ }
  · intro id branch found
    rw [branch?_fork] at found
    rcases Option.or_eq_some_iff.mp found with there | ⟨_, new⟩
    · obtain ⟨phase, there', same⟩ := mirrored.branches id branch there
      refine ⟨phase, ?_, ?_⟩
      · rw [branch?_fork, there', Option.some_or]
      · have old := (tended.numbered _ (Table.mem_of_lookup there)).2
        rw [Function.update_of_ne (Nat.ne_of_lt old)]
        exact same
    · split at new
      · rename_i above
        have above' : other.nextBranch ≤ id + before := by
          rw [mirrored.nextBranch]
          exact Nat.add_le_add_right above before
        have place : id + before - other.nextBranch = id - run.nextBranch := by
          rw [mirrored.nextBranch, Nat.add_sub_add_right]
        rw [List.getElem?_map] at new
        obtain ⟨phase, listed, rfl⟩ := Option.map_eq_some_iff.mp new
        refine ⟨phase, ?_, ?_⟩
        · rw [branch?_fork, tended'.branch?_eq_none above', Option.none_or, if_pos above', place,
            List.getElem?_map, listed, mirrored.nextGroup]
          rfl
        · obtain ⟨id, member, rfl⟩ := List.mem_map.mp (List.mem_of_getElem? listed)
          rw [Function.update_self]
          exact .entering (known id member)
      · contradiction
  · intro group
    by_cases new : group = run.nextGroup
    · subst new
      refine ⟨[], [], ?_, ?_, .nil⟩
      · exact tended.endingsOf_eq_nil (Nat.le_refl _)
      · exact tended'.endingsOf_eq_nil (Nat.le_of_eq mirrored.nextGroup)
    · rw [Function.update_of_ne new]
      exact mirrored.endings group
  · intro task join group count located
    rcases phase?_of_fork located with stood | ⟨_, entering⟩
    · have old := (tended.complete task group count ⟨join, stood⟩).1
      rw [Function.update_of_ne (Nat.ne_of_lt old)]
      exact mirrored.waits task join group count stood
    · contradiction
  · show other.nextBranch + _ = run.nextBranch + _ + before
    rw [mirrored.nextBranch]
    omega
  · show other.nextGroup + 1 = run.nextGroup + 1 + groups
    rw [mirrored.nextGroup]
    omega

/-- Both runs may forget a group. -/
theorem dismiss (mirrored : run.Mirrored d raised before groups expected other) (group : Nat) :
    (run.dismiss group).Mirrored d raised before groups expected
      (other.dismiss (group + groups)) := by
  refine { mirrored with endings := ?_, waits := ?_ }
  · intro asked
    by_cases own : asked = group
    · subst own
      exact ⟨[], [], endingsOf_dismiss_self .., endingsOf_dismiss_self .., .nil⟩
    · rw [endingsOf_dismiss own,
        endingsOf_dismiss fun equal => own (Nat.add_right_cancel equal)]
      exact mirrored.endings asked
  · intro task join group count located
    rw [phase?_dismiss] at located
    exact mirrored.waits task join group count located

/-- A branch of both runs may leave its ending behind. -/
theorem arrive (mirrored : run.Mirrored d raised before groups expected other) (id group : Nat)
    {step step' : Step} (same : step.Mirrored d raised (expected group) step') :
    (run.arrive id group (.ok step)).Mirrored d raised before groups expected
      (other.arrive (id + before) (group + groups) (.ok step')) := by
  refine { mirrored with branches := ?_, endings := ?_, waits := ?_ }
  · intro asked branch found
    rw [branch?_arrive] at found ⊢
    split at found
    · contradiction
    · rename_i different
      rw [if_neg fun equal => different (Nat.add_right_cancel equal)]
      exact mirrored.branches asked branch found
  · intro asked
    obtain ⟨steps, steps', left, left', mirrored⟩ := mirrored.endings asked
    rw [endings_arrive, endings_arrive, left, left']
    by_cases own : group = asked
    · subst own
      refine ⟨steps ++ [step], steps' ++ [step'], ?_, ?_, ?_⟩
      · rw [if_pos rfl, List.map_append]
        rfl
      · rw [if_pos rfl, List.map_append]
        rfl
      · exact List.rel_append mirrored (.cons same .nil)
    · rw [if_neg own, if_neg fun equal => own (Nat.add_right_cancel equal), List.append_nil,
        List.append_nil]
      exact ⟨steps, steps', rfl, rfl, mirrored⟩
  · intro task join asked count located
    cases task with
    | driver => exact mirrored.waits .driver join asked count located
    | branch other =>
      rw [Run.phase?, branch?_arrive] at located
      split at located
      · contradiction
      · exact mirrored.waits (.branch other) join asked count located

/-- The drivers of both runs may take up something else, unless they wait there. -/
theorem driven (mirrored : run.Mirrored d raised before groups expected other)
    {drive drive' : Drive} (same : drive.Mirrored d raised groups drive')
    (active : ∀ join group count, drive ≠ .running (.joining join group count)) :
    ({ run with drive } : Run).Mirrored d raised before groups expected
      { other with drive := drive' } := by
  refine { mirrored with drive := same, waits := ?_ }
  intro task join group count located
  cases task with
  | driver => exact absurd (drive_of_phase? located) (active join group count)
  | branch id => exact mirrored.waits (.branch id) join group count located

theorem follow (mirrored : run.Mirrored d raised before groups expected other)
    {step step' : Step} (same : step.Mirrored d raised none step') :
    ({ run with drive := Run.follow (.ok step) } : Run).Mirrored d raised before groups expected
      { other with drive := Run.follow (.ok step') } := by
  cases step with
  | goOn next =>
    cases same
    exact mirrored.driven rfl (fun _ _ _ => Drive.noConfusion)
  | suspend id pause => exact mirrored.driven ⟨step', rfl, same⟩ (fun _ _ _ => Drive.noConfusion)

/-- Where the one run may go on, the other may. -/
theorem choose (mirrored : run.Mirrored d raised before groups expected other)
    {next : List String} (room : other.steps < other.limit)
    (fine : ∀ failure, (run.choose next).drive ≠ .concluded (.failed failure)) :
    (run.choose next).Mirrored d raised before groups expected (other.choose next) := by
  cases next with
  | nil => exact mirrored.driven rfl (fun _ _ _ => Drive.noConfusion)
  | cons id rest =>
    have unasked : run.isCancelled = false := by
      by_contra asked
      rw [Bool.not_eq_false] at asked
      exact fine .cancelled (by simp [Run.choose, asked])
    have left : ¬ run.limit ≤ run.steps := by
      intro spent
      exact fine (.stepLimit run.limit) (by simp [Run.choose, unasked, spent])
    rw [choose_cons unasked (Nat.not_le.mp left), choose_cons mirrored.unasked room]
    have counted : ({ run with steps := run.steps + 1 } : Run).Mirrored d raised before groups
        expected { other with steps := other.steps + 1 } :=
      { mirrored with definition := mirrored.definition }
    cases rest with
    | nil =>
      have same : Drive.Mirrored d raised groups (.running (.entering id)) _ :=
        ⟨_, rfl, .entering fun node _ => node.fits_none⟩
      exact counted.driven same (by simp)
    | cons second rest =>
      have same : Drive.Mirrored d raised groups
          (.running (.forking .fanOut (id :: second :: rest))) _ :=
        ⟨_, rfl, .forking rfl rfl fun _ _ node _ => node.fits_none⟩
      exact counted.driven same (by simp)

end Mirrored

/-- No task has come to a failure, and the pass has not failed. -/
def isFine (run : Run) : Bool :=
  !run.drive.isFailure && run.branches.all fun entry => !entry.2.phase.isFailure

theorem isFailure_of_isFine (fine : run.isFine = true) (located : run.phase? task = some phase) :
    phase.isFailure = false := by
  rw [isFine, Bool.and_eq_true] at fine
  obtain ⟨driver, branches⟩ := fine
  cases task with
  | driver =>
    rw [drive_of_phase? located] at driver
    simpa [Drive.isFailure] using driver
  | branch id =>
    obtain ⟨group, found⟩ := exists_branch_of_phase? located
    simpa using List.all_eq_true.mp branches _ (Table.mem_of_lookup found)

theorem drive_of_isFine (fine : run.isFine = true) (failure : Failure) :
    run.drive ≠ .concluded (.failed failure) := by
  intro failed
  simp [isFine, failed, Drive.isFailure] at fine

/-- A procedure has replied to some task that the run is to be suspended. -/
def isPausing (run : Run) : Bool :=
  run.drive.isPausing || run.branches.any fun entry => entry.2.phase.isPausing

theorem isPausing_of_phase? (located : run.phase? task = some phase)
    (pauses : phase.isPausing = true) : run.isPausing = true := by
  rw [isPausing, Bool.or_eq_true]
  cases task with
  | driver =>
    left
    rw [drive_of_phase? located]
    exact pauses
  | branch id =>
    right
    obtain ⟨group, found⟩ := exists_branch_of_phase? located
    exact List.any_eq_true.mpr ⟨_, Table.mem_of_lookup found, pauses⟩

theorem callsOf_step (located : run.phase? task = some phase)
    (unfinished : ∀ ending, phase ≠ .ended ending) (catalog : Catalog) (moment : Moment)
    (clock : Nat) : run.callsOf catalog (.step task moment clock) =
      (run.stepPhase ⟨catalog, moment, clock⟩ phase).2.effects.filterMap Effect.call? := by
  cases task with
  | driver =>
    have drive := drive_of_phase? located
    cases phase with
    | ended ending => exact absurd rfl (unfinished ending)
    | _ => simp only [callsOf, step, stepDriver, drive]
  | branch id =>
    obtain ⟨group, found⟩ := exists_branch_of_phase? located
    cases phase with
    | ended ending => exact absurd rfl (unfinished ending)
    | _ => simp only [callsOf, step, stepBranch, found]

/-- The step of a task within a node, and the calls that it makes. -/
theorem move_plain (located : run.phase? task = some phase) (plain : phase.IsPlain)
    (catalog : Catalog) (moment : Moment) (clock : Nat) :
    run.move catalog (.step task moment clock) =
        ({ run with context :=
          (phase.step ⟨catalog, moment, clock⟩ run.definition run.context).2.1 }.put task
            (phase.step ⟨catalog, moment, clock⟩ run.definition run.context).1) ∧
      run.callsOf catalog (.step task moment clock) =
        (phase.step ⟨catalog, moment, clock⟩ run.definition run.context).2.2.filterMap
          Effect.call? := by
  have unfinished : ∀ ending, phase ≠ .ended ending := by
    rintro ending rfl
    exact plain
  rw [move_step located unfinished, callsOf_step located unfinished]
  cases phase with
  | forking => exact plain.elim
  | joining => exact plain.elim
  | ended => exact plain.elim
  | _ => exact ⟨rfl, rfl⟩

/-- The other run answers what the run does by these moves. -/
structure Answers (catalog : Catalog) (d : Definition) (raised : Prop) (before groups : Nat)
    (after : Run) (calls : List Call) (other : Run) (schedule : List Move) : Prop where
  mirrored : ∃ expected, after.Mirrored d raised before groups expected
    (other.play catalog schedule)
  calls : other.calls catalog schedule = calls
  unasked : .cancel ∉ schedule

namespace Mirrored

/-- A move that changes nothing needs no answer. -/
theorem rests (mirrored : run.Mirrored d raised before groups expected other) {m : Move}
    (still : run.move catalog m = run) (silent : run.callsOf catalog m = []) :
    Answers catalog d raised before groups (run.move catalog m) (run.callsOf catalog m) other
      [] := by
  rw [still, silent]
  exact ⟨⟨expected, mirrored⟩, rfl, List.not_mem_nil⟩

/-- A step of a task is answered by a step of the same task. -/
theorem answers {moment : Moment} {clock : Nat} {after : Run} {calls : List Call}
    (mirrored : after.Mirrored d raised before groups expected
      (other.move catalog (.step task moment clock)))
    (same : other.callsOf catalog (.step task moment clock) = calls) :
    Answers catalog d raised before groups after calls other [.step task moment clock] := by
  refine ⟨⟨expected, mirrored⟩, ?_, ?_⟩
  · rw [Run.calls, Run.calls, List.append_nil, same]
  · simp

/-- A step within a node is answered by a step within the same node. -/
theorem step_plain (mirrored : run.Mirrored d raised before groups expected other)
    (all : d.WaitsForAll) (aligned : d.Aligned) (located : run.phase? task = some phase)
    (plain : phase.IsPlain) (pauses : phase.isPausing = true → raised) {moment : Moment}
    {clock : Nat}
    (fine : (run.move catalog (.step task moment clock)).isFine = true) :
    Answers catalog d raised before groups (run.move catalog (.step task moment clock))
      (run.callsOf catalog (.step task moment clock)) other
      [.step (task.shift before) moment clock] := by
  obtain ⟨phase', located', same⟩ := mirrored.phase? located
  obtain ⟨moved, called⟩ := move_plain located plain catalog moment clock
  obtain ⟨moved', called'⟩ := move_plain located' (same.isPlain plain) catalog moment clock
  have unwritten : ∀ context, ({ run with context } : Run).phase? task = some phase :=
    fun context => (phase?_context run context task).trans located
  have stepped : Phase.StepMirrored d raised groups (run.expectedOf expected task)
      (phase.step ⟨catalog, moment, clock⟩ run.definition run.context)
      (phase'.step ⟨catalog, moment, clock⟩ other.definition other.context) := by
    have stands : (run.move catalog (.step task moment clock)).phase? task =
        some (phase.step ⟨catalog, moment, clock⟩ run.definition run.context).1 := by
      rw [moved, phase?_put (by rw [unwritten]; rfl), if_pos rfl]
    have unfailed := isFailure_of_isFine fine stands
    obtain ⟨last, context⟩ := mirrored.context
    rw [mirrored.definition] at unfailed ⊢
    rw [mirrored.unwaiting, context]
    exact same.step all aligned plain pauses ⟨catalog, moment, clock⟩ run.context last unfailed
  have active := Phase.step_ne_joining ⟨catalog, moment, clock⟩ run.definition run.context plain
  generalize phase.step ⟨catalog, moment, clock⟩ run.definition run.context = result at *
  generalize phase'.step ⟨catalog, moment, clock⟩ other.definition other.context = result' at *
  have acted : ({ run with context := result.2.1 } : Run).Mirrored d raised before groups expected
      { other with context := result'.2.1 } :=
    { mirrored with context := stepped.context }
  have unmoved : ({ run with context := result.2.1 } : Run).expectedOf expected task =
      run.expectedOf expected task := by
    cases task <;> rfl
  apply Mirrored.answers
  · rw [moved, moved']
    apply acted.put (by rw [unwritten]; rfl)
    · rw [unmoved]
      exact stepped.phase
    · intro join group count joining
      exact absurd joining (active join group count)
  · rw [called, called']
    exact stepped.calls

/-- Where the one run sets off branches, the other does. -/
theorem step_forking (mirrored : run.Mirrored d raised before groups expected other)
    (tended : run.Tended) (tended' : other.Tended) {join : Join} {ids : List String}
    (located : run.phase? task = some (.forking join ids)) {moment : Moment} {clock : Nat} :
    Answers catalog d raised before groups (run.move catalog (.step task moment clock))
      (run.callsOf catalog (.step task moment clock)) other
      [.step (task.shift before) moment clock] := by
  obtain ⟨phase', located', same⟩ := mirrored.phase? located
  cases same with
  | forking all fits known =>
    have forked := mirrored.fork tended tended' known
    have stood := phase?_fork (ids.map .entering) located
    have unmoved : (run.fork (ids.map .entering)).expectedOf
        (Function.update expected run.nextGroup join.expected) task =
          run.expectedOf expected task := by
      cases task with
      | driver => rfl
      | branch id =>
        obtain ⟨parent, there⟩ := exists_branch_of_phase? located
        have old := (tended.numbered _ (Table.mem_of_lookup there)).2
        simp only [expectedOf, branch?_fork, there, Option.some_or, Option.bind_some]
        exact Function.update_of_ne (Nat.ne_of_lt old) ..
    apply Mirrored.answers
    · rw [move_step located (fun _ => Phase.noConfusion),
        move_step located' (fun _ => Phase.noConfusion)]
      simp only [stepPhase]
      apply forked.put (by rw [stood]; rfl)
      · rw [unmoved, mirrored.nextGroup]
        exact .joining all fits
      · rintro _ _ _ ⟨⟩
        exact Function.update_self ..
    · rw [callsOf_step located (fun _ => Phase.noConfusion),
        callsOf_step located' (fun _ => Phase.noConfusion)]
      rfl

/-- Where the branches of the one run have all ended, those of the other have. -/
theorem step_joining (mirrored : run.Mirrored d raised before groups expected other)
    (tended : run.Tended) {join : Join} {group count : Nat}
    (located : run.phase? task = some (.joining join group count)) {moment : Moment} {clock : Nat} :
    ∃ schedule, schedule.length ≤ 1 ∧
      Answers catalog d raised before groups (run.move catalog (.step task moment clock))
        (run.callsOf catalog (.step task moment clock)) other schedule := by
  obtain ⟨phase', located', same⟩ := mirrored.phase? located
  have moved := move_step located (fun _ => Phase.noConfusion) catalog moment clock
  have called := callsOf_step located (fun _ => Phase.noConfusion) catalog moment clock
  cases same with
  | joining all fits =>
    cases outcome : join.outcome? count (run.endingsOf group) with
    | none =>
      simp only [stepPhase, outcome] at moved called
      rw [put_self tended.unique located] at moved
      exact ⟨[], Nat.zero_le _, mirrored.rests moved called⟩
    | some ending =>
      obtain ⟨steps, steps', left, left', endings⟩ := mirrored.endings group
      rw [mirrored.waits task join group count located] at endings
      have outcome' := outcome
      rw [left] at outcome'
      obtain ⟨step, step', rfl, leads, outcome'⟩ :=
        Join.outcome?_mirrored all fits endings outcome'
      rw [← left'] at outcome'
      simp only [stepPhase, outcome] at moved called
      refine ⟨[.step (task.shift before) moment clock], Nat.le_refl 1, ?_⟩
      apply Mirrored.answers
      · rw [moved, move_step located' (fun _ => Phase.noConfusion)]
        simp only [stepPhase, outcome']
        apply (mirrored.dismiss group).put (by rw [phase?_dismiss, located]; rfl)
        · exact Phase.joined_mirrored join leads
        · cases join <;> exact fun _ _ _ => Phase.noConfusion
      · rw [called, callsOf_step located' (fun _ => Phase.noConfusion)]
        simp only [stepPhase, outcome']

/-- Where a task of the one run ends, the same task of the other does. -/
theorem step_ended (mirrored : run.Mirrored d raised before groups expected other)
    {ending : Ending} (located : run.phase? task = some (.ended ending)) {moment : Moment}
    {clock : Nat} :
    Answers catalog d raised before groups (run.move catalog (.step task moment clock))
      (run.callsOf catalog (.step task moment clock)) other
      [.step (task.shift before) moment clock] := by
  obtain ⟨phase', located', same⟩ := mirrored.phase? located
  cases same with
  | @ended step step' leads =>
    cases task with
    | driver =>
      have drive := drive_of_phase? located
      have drive' := drive_of_phase? located'
      apply Mirrored.answers
      · simp only [Run.move, Run.step, stepDriver, TaskId.shift, drive, drive']
        exact mirrored.follow leads
      · simp only [callsOf, Run.step, stepDriver, TaskId.shift, drive, drive']
    | branch id =>
      obtain ⟨group, there⟩ := exists_branch_of_phase? located
      obtain ⟨phase, there', same⟩ := mirrored.branches id _ there
      have stands : other.phase? (.branch (id + before)) = some phase := by
        simp [Run.phase?, there']
      obtain rfl : phase = .ended (.ok step') := Option.some.inj (stands.symm.trans located')
      simp only [expectedOf, there, Option.bind_some] at leads
      apply Mirrored.answers
      · simp only [Run.move, Run.step, stepBranch, TaskId.shift, there, there']
        exact mirrored.arrive id group leads
      · simp only [callsOf, Run.step, stepBranch, TaskId.shift, there, there']

/-- Whatever the run does next, as long as nothing fails, the other run answers it. -/
theorem move (mirrored : run.Mirrored d raised before groups expected other)
    (tended : run.Tended) (tended' : other.Tended) (all : d.WaitsForAll) (aligned : d.Aligned)
    (pauses : run.isPausing = true → raised)
    (room : other.steps < other.limit) {m : Move}
    (fine : (run.move catalog m).isFine = true) :
    ∃ schedule, schedule.length ≤ 1 ∧ Answers catalog d raised before groups
      (run.move catalog m) (run.callsOf catalog m) other schedule := by
  cases m with
  | cancel =>
    refine ⟨[], Nat.zero_le _, ⟨expected, ?_⟩, rfl, List.not_mem_nil⟩
    refine { mirrored with waits := ?_ }
    intro task join group count located
    cases task with
    | driver => exact mirrored.waits .driver join group count located
    | branch id => exact mirrored.waits (.branch id) join group count located
  | step task moment clock =>
    have once : [Move.step (task.shift before) moment clock].length ≤ 1 := Nat.le_refl 1
    cases located : run.phase? task with
    | some phase =>
      by_cases plain : phase.IsPlain
      · have raises : phase.isPausing = true → raised :=
          fun pausing => pauses (isPausing_of_phase? located pausing)
        exact ⟨_, once, mirrored.step_plain all aligned located plain raises fine⟩
      · cases phase with
        | forking => exact ⟨_, once, mirrored.step_forking tended tended' located⟩
        | joining => exact mirrored.step_joining tended located
        | ended => exact ⟨_, once, mirrored.step_ended located⟩
        | _ => exact absurd trivial plain
    | none =>
      cases task with
      | branch id =>
        have gone : run.branch? id = none := Option.map_eq_none_iff.mp located
        have moved : run.stepBranch ⟨catalog, moment, clock⟩ id = { run, signal := .finished } := by
          simp only [stepBranch, gone]
        refine ⟨[], Nat.zero_le _, mirrored.rests ?_ ?_⟩
        · simp only [Run.move, Run.step, moved]
        · simp only [callsOf, Run.step, moved, List.filterMap_nil]
      | driver =>
        cases drive : run.drive with
        | running phase => simp [Run.phase?, drive] at located
        | concluded conclusion =>
          have moved := stepDriver_of_concluded drive ⟨catalog, moment, clock⟩
          refine ⟨[], Nat.zero_le _, mirrored.rests ?_ ?_⟩
          · simp only [Run.move, Run.step, moved]
          · simp only [callsOf, Run.step, moved, List.filterMap_nil]
        | choosing next =>
          have drive' := mirrored.drive
          rw [drive] at drive'
          have drive' : other.drive = .choosing next := drive'
          refine ⟨_, once, ?_⟩
          apply Mirrored.answers
          · simp only [Run.move, Run.step, stepDriver, TaskId.shift, drive, drive'] at fine ⊢
            exact mirrored.choose room (drive_of_isFine fine)
          · simp only [callsOf, Run.step, stepDriver, TaskId.shift, drive, drive']

end Mirrored

section Play

theorem play_append (catalog : Catalog) (run : Run) (first later : List Move) :
    run.play catalog (first ++ later) = (run.play catalog first).play catalog later :=
  List.foldl_append

theorem calls_append (catalog : Catalog) (run : Run) (first later : List Move) :
    run.calls catalog (first ++ later) =
      run.calls catalog first ++ (run.play catalog first).calls catalog later := by
  induction first generalizing run with
  | nil => rfl
  | cons m rest ih => simp only [List.cons_append, calls, ih, play_cons, List.append_assoc]

theorem Tended.play (tended : run.Tended) (catalog : Catalog) (schedule : List Move) :
    (run.play catalog schedule).Tended :=
  play_induction (fun _ m tended => tended.transition (move_transition catalog _ m)) tended
    schedule

theorem Transition.steps {after : Run} (happens : Transition catalog run after) :
    after.steps ≤ run.steps + 1 := by
  have put : ∀ (run : Run) task phase, (run.put task phase).steps = run.steps := by
    intro run task phase
    cases task <;> rfl
  cases happens with
  | wait task phase located => exact Nat.le_succ_of_le (Nat.le_of_eq (put ..))
  | act task phase around known located plain => exact Nat.le_succ_of_le (Nat.le_of_eq (put ..))
  | fork task join ids located => exact Nat.le_succ_of_le (Nat.le_of_eq (put ..))
  | join task join group count ending located outcome =>
    exact Nat.le_succ_of_le (Nat.le_of_eq (put ..))
  | choose next located =>
    unfold Run.choose
    repeat' split
    all_goals simp
  | _ => exact Nat.le_succ _

/-- A pass may take as many steps as it has moves, and not more. -/
theorem steps_play (catalog : Catalog) (run : Run) (schedule : List Move) :
    (run.play catalog schedule).steps ≤ run.steps + schedule.length ∧
      (run.play catalog schedule).limit = run.limit := by
  induction schedule generalizing run with
  | nil => exact ⟨Nat.le_refl _, rfl⟩
  | cons m rest ih =>
    have happens := move_transition catalog run m
    obtain ⟨steps, limit⟩ := ih (run.move catalog m)
    have once := happens.steps
    rw [play_cons, List.length_cons]
    exact ⟨by omega, limit.trans happens.definition.2⟩

/-- Nothing fails in the run before, between and after these moves. -/
def flawless (catalog : Catalog) (run : Run) : List Move → Bool
  | [] => run.isFine
  | m :: rest => run.isFine && (run.move catalog m).flawless catalog rest

theorem isFine_of_flawless {schedule : List Move}
    (flawless : run.flawless catalog schedule = true) : run.isFine = true := by
  cases schedule with
  | nil => exact flawless
  | cons m rest => exact (Bool.and_eq_true _ _ ▸ flawless).1

/-- At some point a procedure replies that the run is to be suspended. -/
def raisesPause (catalog : Catalog) (run : Run) : List Move → Bool
  | [] => run.isPausing
  | m :: rest => run.isPausing || (run.move catalog m).raisesPause catalog rest

theorem raisesPause_of_isPausing {schedule : List Move} (pauses : run.isPausing = true) :
    run.raisesPause catalog schedule = true := by
  cases schedule with
  | nil => exact pauses
  | cons m rest => rw [raisesPause, pauses, Bool.true_or]

/-- A whole schedule in which nothing fails is answered, as long as the other run has steps
left. -/
theorem Mirrored.play (mirrored : run.Mirrored d raised before groups expected other)
    (tended : run.Tended) (tended' : other.Tended) (all : d.WaitsForAll) (aligned : d.Aligned)
    {schedule : List Move} (flawless : run.flawless catalog schedule = true)
    (pauses : run.raisesPause catalog schedule = true → raised)
    (room : other.steps + schedule.length ≤ other.limit) :
    ∃ answer, answer.length ≤ schedule.length ∧ Answers catalog d raised before groups
      (run.play catalog schedule) (run.calls catalog schedule) other answer := by
  induction schedule generalizing run other expected with
  | nil => exact ⟨[], Nat.le_refl 0, ⟨expected, mirrored⟩, rfl, List.not_mem_nil⟩
  | cons m rest ih =>
    rw [Run.flawless, Bool.and_eq_true] at flawless
    rw [List.length_cons] at room
    have raises : run.isPausing = true → raised :=
      fun pausing => pauses (raisesPause_of_isPausing pausing)
    obtain ⟨first, once, ⟨expected', moved⟩, called, unasked⟩ := mirrored.move tended tended' all
      aligned raises (by omega) (isFine_of_flawless flawless.2)
    obtain ⟨taken, limit⟩ := steps_play catalog other first
    have later : (run.move catalog m).raisesPause catalog rest = true → raised := by
      intro raising
      apply pauses
      rw [raisesPause, raising, Bool.or_true]
    obtain ⟨answer, short, ⟨expected'', played⟩, called', unasked'⟩ := ih moved
      (tended.transition (move_transition catalog run m)) (tended'.play catalog first) flawless.2
      later (by omega)
    refine ⟨first ++ answer, ?_, ⟨expected'', ?_⟩, ?_, ?_⟩
    · rw [List.length_append, List.length_cons]
      omega
    · rw [play_append]
      exact played
    · rw [calls_append, called, called', Run.calls]
    · intro asked
      rcases List.mem_append.mp asked with early | late
      · exact unasked early
      · exact unasked' late

end Play

end Run

end DurableFlow
