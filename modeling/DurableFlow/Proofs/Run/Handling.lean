import DurableFlow.Proofs.Run.Redirect

/-!
# What becomes of the failures of nodes

A task that gives up a node publishes the node's failure. The driver hands control to the node
that is named for this case. A branch only names it, and it is up to the branches of a fan-out
to agree on it, while a parallel node goes on to what follows itself. A failure for which no
node is named, on the way from the task up to the driver, makes the run fail.
-/

namespace DurableFlow

/-- Only a node that is settled with a failure publishes one. -/
theorem Phase.settling_of_nodeFailed {around : Surroundings} {d : Definition} {context : Context}
    {phase : Phase} {id message : String}
    (shown : .publish (.nodeFailed id message) ∈ (phase.step around d context).2.2) :
    ∃ node failure, phase = .settling node (.error failure) ∧ node.id = id ∧
      failure.message = message := by
  cases phase with
  | settling node ending =>
    match ending with
    | .ok (.goOn next) => simp [step, settle] at shown
    | .ok (.suspend id pause) => simp [step, settle] at shown
    | .error failure =>
      simp only [step, settle, List.mem_singleton] at shown
      cases shown
      exact ⟨node, failure, rfl, rfl, rfl⟩
  | acting node =>
    simp only [step, act, call] at shown
    repeat' split at shown
    all_goals simp at shown
  | entering id =>
    simp only [step] at shown
    split at shown <;> contradiction
  | replying node procedure reply due =>
    simp only [step] at shown
    split at shown <;> contradiction
  | announcing node => simp [step] at shown
  | _ => contradiction

namespace Run

variable {d : Definition} {catalog : Catalog} {run : Run} {task : TaskId} {m : Move}
  {node : Node} {failure : Failure} {target : String}

/-- The move is the one at which a task gives up a node that has failed. -/
def GivesUp (run : Run) (m : Move) (task : TaskId) (node : Node) (failure : Failure) : Prop :=
  (∃ moment clock, m = .step task moment clock) ∧
    run.phase? task = some (.settling node (.error failure))

/-- What is shown is shown by a step within a node. -/
theorem exists_phase_of_effect {effect : Effect} (shown : effect ∈ run.effectsOf catalog m) :
    ∃ task moment clock phase, m = .step task moment clock ∧ run.phase? task = some phase ∧
      effect ∈ (phase.step ⟨catalog, moment, clock⟩ run.definition run.context).2.2 := by
  have within : ∀ {around phase}, effect ∈ (run.stepPhase around phase).2.effects →
      effect ∈ (phase.step around run.definition run.context).2.2 := by
    intro around phase shown
    cases phase with
    | joining join group count =>
      simp only [stepPhase] at shown
      split at shown <;> contradiction
    | _ => exact shown
  cases m with
  | cancel => contradiction
  | step task moment clock =>
    cases task with
    | driver =>
      simp only [effectsOf, step, stepDriver] at shown
      split at shown
      · contradiction
      · contradiction
      · contradiction
      · rename_i phase _ drive
        exact ⟨.driver, moment, clock, phase, rfl, by simp [phase?, drive], within shown⟩
    | branch id =>
      simp only [effectsOf, step, stepBranch] at shown
      split at shown
      · contradiction
      · contradiction
      · rename_i group phase _ there
        exact ⟨.branch id, moment, clock, phase, rfl, by simp [phase?, there], within shown⟩

theorem exists_givesUp {id message : String}
    (published : .publish (.nodeFailed id message) ∈ run.effectsOf catalog m) :
    ∃ task node failure, run.GivesUp m task node failure ∧ node.id = id ∧
      failure.message = message := by
  obtain ⟨task, moment, clock, phase, moved, located, shown⟩ := exists_phase_of_effect published
  obtain ⟨node, failure, rfl, named, said⟩ := Phase.settling_of_nodeFailed shown
  exact ⟨task, node, failure, ⟨⟨moment, clock, moved⟩, located⟩, named, said⟩

/-- A task that gives up a node goes to the node that is named for this case. -/
theorem GivesUp.move (givesUp : run.GivesUp m task node failure)
    (handler : node.onError = some target) :
    run.move catalog m = run.put task (.redirecting node target failure) := by
  obtain ⟨⟨moment, clock, rfl⟩, located⟩ := givesUp
  have moved := move_step located (fun _ => Phase.noConfusion) catalog moment clock
  have plain : (Phase.settling node (.error failure)).IsPlain := trivial
  obtain ⟨phase, left⟩ := stepPhase_of_isPlain plain ⟨catalog, moment, clock⟩ run
  rw [moved, phase, left]
  simp only [Phase.step, Phase.settle, handler]

/-- A branch of a fan-out that gives up a node promises to name the node that comes next. -/
theorem GivesUp.promised {id count : Nat} {branch : Branch}
    (givesUp : run.GivesUp m (.branch id) node failure) (handler : node.onError = some target)
    (there : run.branch? id = some branch)
    (waits : run.drive = .running (.joining .fanOut branch.group count)) :
    (run.move catalog m).Promised target branch.group count := by
  have same := branch?_put run (.branch id) (.redirecting node target failure) id
  rw [there] at same
  obtain ⟨branch', found, group⟩ := Option.map_eq_some_iff.mp same
  have stands : (run.put (.branch id) (.redirecting node target failure)).phase? (.branch id) =
      some (.redirecting node target failure) := by
    rw [phase?_put (by rw [givesUp.2]; rfl), if_pos rfl]
  rw [phase?, found] at stands
  rw [givesUp.move handler]
  exact ⟨waits, .inr ⟨id, branch', found, group, .inl ⟨node, failure, Option.some.inj stands⟩⟩⟩

theorem Descends.tended (descends : Descends d catalog run) : run.Tended := by
  induction descends with
  | execute input execution now limit => exact .start ..
  | move _ m ih => exact ih.transition (move_transition catalog _ m)
  | resume _ suspended captured equipped accepted delta limit _ => exact .start ..

theorem Descends.honest (descends : Descends d catalog run) : run.Honest := by
  induction descends with
  | execute input execution now limit => exact .start ..
  | move _ m ih => exact ih.transition (move_transition catalog _ m)
  | resume _ suspended captured equipped accepted delta limit _ => exact .start ..

/-- What is to be expected of a run whose nodes fail. -/
structure HearsFailures (d : Definition) (catalog : Catalog) (run : Run) : Prop where
  /-- Whatever failure is published is that of a node that a task gives up. -/
  published : ∀ m id message, .publish (.nodeFailed id message) ∈ run.effectsOf catalog m →
    ∃ task node failure, run.GivesUp m task node failure ∧ d.Has node ∧ node.id = id ∧
      failure.message = message
  /-- The driver goes to the node that is named for the failure, unless the run is cut short. -/
  redirected : ∀ m node failure target, run.GivesUp m .driver node failure →
    node.onError = some target → ∀ later conclusion,
      ((run.move catalog m).play catalog later).drive = .concluded conclusion →
        conclusion = .failed .cancelled ∨ conclusion = .failed (.stepLimit run.limit) ∨
          Enters target run ((run.move catalog m).play catalog later)
  /-- In a pass that is completed, a fan-out leads to the node that is named for the failure of
  one of its branches, unless another branch names something else. -/
  agreed : ∀ m id branch count node failure target, run.GivesUp m (.branch id) node failure →
    node.onError = some target → run.branch? id = some branch →
    run.drive = .running (.joining .fanOut branch.group count) → ∀ later,
      ((run.move catalog m).play catalog later).drive = .concluded .completed →
        Enters target run ((run.move catalog m).play catalog later) ∨
          ∃ first rest, later = first ++ rest ∧
            ((run.move catalog m).play catalog first).Disagrees target
  /-- A failure for which no node is named on the way up makes the run fail. -/
  unhandled : ∀ m task node failure, run.GivesUp m task node failure → node.onError = none →
    run.Awaited task → ∀ later conclusion,
      ((run.move catalog m).play catalog later).drive = .concluded conclusion →
        ∃ failure, failure.FailsRun ∧ conclusion = .failed failure
  /-- So does an error of the branch that is the first to end, if the first one is enough. -/
  first : ∀ task join group count failure rest,
    run.phase? task = some (.joining join group count) → join.HandsOn → run.Awaited task →
    run.endingsOf group = .error failure :: rest → ∀ later conclusion,
      (run.play catalog later).drive = .concluded conclusion →
        ∃ failure, failure.FailsRun ∧ conclusion = .failed failure

/-- In no run of a valid definition, however its tasks are interleaved, does a failure go
unheard that the run waits for: the driver hands control to the node that is named for it,
a fan-out does so if its branches agree, and where no node is named the run fails. -/
theorem failures_heard (valid : d.Valid catalog.knows) (descends : Descends d catalog run) :
    run.HearsFailures d catalog := by
  have tended := descends.tended
  have grounded := descends.grounded valid
  have known : ∀ {task node failure target},
      run.phase? task = some (.settling node (.error failure)) → node.onError = some target →
        ∃ node, run.definition.node? target = some node := by
    intro task node failure target located handler
    have has : d.Has node := (grounded.phase? located).1
    have reference : target ∈ node.references := by simp [Node.references, handler]
    rw [grounded.definition]
    exact Definition.exists_node_of_mem_ids (valid.reference_mem_ids has.mem_nodes reference)
  constructor
  · intro m id message published
    obtain ⟨task, node, failure, givesUp, named, said⟩ := exists_givesUp published
    exact ⟨task, node, failure, givesUp, (grounded.phase? givesUp.2).1, named, said⟩
  · intro m node failure target givesUp handler later conclusion ended
    have happens := move_transition catalog run m
    obtain ⟨there, found⟩ := known givesUp.2 handler
    have heads : HeadsFor target (run.move catalog m).drive := by
      rw [givesUp.move handler]
      exact .redirecting node failure
    rw [← happens.definition.1] at found
    rw [← happens.definition.2]
    rcases heads.play found (tended.transition happens) ended with cut | cut | entered
    · exact .inl cut
    · exact .inr (.inl cut)
    · exact .inr (.inr (entered.before happens.trail))
  · intro m id branch count node failure target givesUp handler there waits later ended
    have happens := move_transition catalog run m
    obtain ⟨_, found⟩ := known givesUp.2 handler
    rw [← happens.definition.1] at found
    rcases (givesUp.promised handler there waits).play found (tended.transition happens) ended with
      entered | disagrees
    · exact .inl (entered.before happens.trail)
    · exact .inr disagrees
  · intro m task node failure givesUp bare awaited later conclusion ended
    have failing : run.Failing task := .settling bare givesUp.2
    have whole : (run.play catalog (m :: later)).drive = .concluded conclusion := ended
    exact (failing.of_awaited awaited).play tended descends.honest whole
  · intro task join group count failure rest located bare awaited endings later conclusion ended
    have counted : Join.collect (join.awaited (run.endingsOf group)) = .error failure := by
      rw [endings, Join.awaited]
      split <;> rfl
    have failing : run.Failing task := .told bare located counted
    exact (failing.of_awaited awaited).play tended descends.honest ended

/-- A node that fails, with another one to go to in that case: alone, as a branch of a parallel
node and next to another node. -/
def rescuing (start : String) : Definition where
  id := "rescuing"
  name := "rescuing"
  start := start
  nodes := [
    { id := "both", kind := .parallel ["bad"] true },
    { id := "fork", kind := .sequential, next := some (.many ["bad", "good"]) },
    { id := "good", kind := .sequential },
    { id := "bad", kind := .procedure (some "boom") [], onError := some "rescue" },
    { id := "rescue", kind := .sequential }]

/-- One procedure, which always fails. -/
def exploding : Catalog :=
  [("boom", { contract := { name := "boom" }, reply := fun _ _ _ => .failed "boom" })]

/-- A run of `rescuing` up to the point at which the node is given up. -/
def exploded (start : String) (schedule : List Move) : Run :=
  (Run.start (rescuing start) (Context.start "rescuing" "run" [] ⟨0, 0⟩) 10 [start]).play exploding
    schedule

/-- So many steps of one task. -/
def turns (task : TaskId) (n : Nat) : List Move := List.replicate n (.step task ⟨⟨0, 0⟩, 0⟩ 0)

theorem failures_heard_rescuing :
    let run := exploded "bad" (turns .driver 5)
    let after := (run.move exploding (.step .driver ⟨⟨0, 0⟩, 0⟩ 0)).play exploding
      (turns .driver 10)
    (rescuing "bad").Valid exploding.knows ∧ Descends (rescuing "bad") exploding run ∧
      .publish (.nodeFailed "bad" "Procedure boom failed: boom") ∈
        run.effectsOf exploding (.step .driver ⟨⟨0, 0⟩, 0⟩ 0) ∧
      after.drive = .concluded .completed ∧ Enters "rescue" run after := by
  intro run after
  have valid : (rescuing "bad").Valid exploding.knows := by decide
  have descends : Descends (rescuing "bad") exploding run :=
    (Descends.execute .null "run" ⟨0, 0⟩ 10).play (turns .driver 5)
  have completed : after.drive = .concluded .completed := rfl
  refine ⟨valid, descends, List.mem_singleton_self _, completed, ?_⟩
  have heard := (failures_heard valid descends).redirected (.step .driver ⟨⟨0, 0⟩, 0⟩ 0) _ _
    "rescue" ⟨⟨_, _, rfl⟩, rfl⟩ rfl (turns .driver 10) _ completed
  simpa using heard

/-- A node fails at the move and names another one for this case. The pass is completed, and
the other node has not been executed since. -/
def LosesFailure (catalog : Catalog) (run : Run) (m : Move) (later : List Move) : Prop :=
  ∃ id message target, .publish (.nodeFailed id message) ∈ run.effectsOf catalog m ∧
    (run.definition.node? id).bind Node.onError = some target ∧
      ((run.move catalog m).play catalog later).drive = .concluded .completed ∧
        ¬ Enters target run ((run.move catalog m).play catalog later)

/-- A branch that fails names another node in vain if the other branch of its fan-out names
nothing, or if it is a branch of a parallel node. -/
theorem redirect_lost :
    (∃ run m later, (rescuing "fork").Valid exploding.knows ∧
      Descends (rescuing "fork") exploding run ∧ run.LosesFailure exploding m later) ∧
    ∃ run m later, (rescuing "both").Valid exploding.knows ∧
      Descends (rescuing "both") exploding run ∧ run.LosesFailure exploding m later := by
  have descends : ∀ start schedule, Descends (rescuing start) exploding (exploded start schedule) :=
    fun start schedule => (Descends.execute .null "run" ⟨0, 0⟩ 10).play schedule
  constructor
  · refine ⟨exploded "fork" (turns .driver 8 ++ turns (.branch 0) 4),
      .step (.branch 0) ⟨⟨0, 0⟩, 0⟩ 0, turns (.branch 0) 2 ++ turns (.branch 1) 5 ++
        turns .driver 3, by decide, descends .., "bad", "Procedure boom failed: boom", "rescue",
      List.mem_singleton_self _, rfl, rfl, ?_⟩
    rintro ⟨added, entered, member⟩
    have trail : added ++ ["bad", "fork"] = ["good", "bad", "fork"] := entered.symm
    obtain rfl : added = ["good"] := List.append_cancel_right trail
    contradiction
  · refine ⟨exploded "both" (turns .driver 5 ++ turns (.branch 0) 4),
      .step (.branch 0) ⟨⟨0, 0⟩, 0⟩ 0, turns (.branch 0) 2 ++ turns .driver 4, by decide,
      descends .., "bad", "Procedure boom failed: boom", "rescue", List.mem_singleton_self _, rfl,
      rfl, ?_⟩
    rintro ⟨added, entered, member⟩
    have trail : added ++ ["bad", "both"] = ["bad", "both"] := entered.symm
    obtain rfl : added = [] := List.append_cancel_right (trail.trans (List.nil_append _).symm)
    contradiction

end Run

end DurableFlow
