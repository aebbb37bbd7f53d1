import DurableFlow.Proofs.Run.Fate
import DurableFlow.Run.Result

/-!
# Failures that nobody takes care of

A task that waits for all its branches comes to an error as soon as one of them does, and it
cannot come to anything else before: while a branch has not arrived, the endings of its group
are not complete. So an error travels up from task to task until it meets a node that says
where to go on an error, or until it reaches the driver and the run fails. `Failing` says that
a task is bound for an error, and is kept by every move of the run.
-/

namespace DurableFlow

/-- A run that ends with the failure has failed: it has neither been cancelled nor broken
down. -/
def Failure.FailsRun (failure : Failure) : Prop := failure ≠ .cancelled ∧ failure ≠ .dateRange

namespace Join

/-- An error of a branch becomes an error of whoever waits for it: there is no node in between
that says where to go on an error. -/
def HandsOn : Join → Prop
  | parallel node _ => node.onError = none
  | fanOut => True

/-- The endings that count. -/
def awaited (join : Join) (endings : List Ending) : List Ending :=
  if join.waitForAll then endings else endings.take 1

theorem awaited_of_waitForAll {join : Join} (all : join.waitForAll = true)
    (endings : List Ending) : join.awaited endings = endings := by
  rw [awaited, if_pos all]

theorem collect_append {endings : List Ending} {failure : Failure}
    (h : collect endings = .error failure) (more : List Ending) :
    collect (endings ++ more) = .error failure := by
  induction endings with
  | nil => cases h
  | cons ending rest ih =>
    cases ending with
    | error first => exact h
    | ok step =>
      rw [List.cons_append, collect]
      cases collected : collect rest with
      | ok steps => simp [collect, collected] at h
      | error failure' =>
        rw [collect, collected] at h
        cases h
        rw [ih collected]

/-- Where there is an error, there is a first one. -/
theorem exists_collect_of_mem {endings : List Ending} {failure : Failure}
    (h : .error failure ∈ endings) : ∃ first, collect endings = .error first ∧
      .error first ∈ endings := by
  induction endings with
  | nil => contradiction
  | cons ending rest ih =>
    cases ending with
    | error first => exact ⟨first, rfl, List.mem_cons_self⟩
    | ok step =>
      have later : .error failure ∈ rest := by simpa using h
      obtain ⟨first, collected, member⟩ := ih later
      refine ⟨first, ?_, List.mem_cons_of_mem _ member⟩
      rw [collect, collected]

theorem mem_of_collect {endings : List Ending} {failure : Failure}
    (h : collect endings = .error failure) : .error failure ∈ endings := by
  induction endings with
  | nil => cases h
  | cons ending rest ih =>
    cases ending with
    | error first =>
      cases h
      exact List.mem_cons_self
    | ok step =>
      cases collected : collect rest with
      | ok steps => simp [collect, collected] at h
      | error failure' =>
        rw [collect, collected] at h
        cases h
        exact List.mem_cons_of_mem _ (ih collected)

theorem collect_awaited_append {join : Join} {endings : List Ending} {failure : Failure}
    (h : collect (join.awaited endings) = .error failure) (more : List Ending) :
    collect (join.awaited (endings ++ more)) = .error failure := by
  unfold awaited at h ⊢
  cases all : join.waitForAll with
  | true =>
    rw [all, if_pos rfl] at h
    exact collect_append h more
  | false =>
    rw [all, if_neg Bool.false_ne_true] at h
    cases endings with
    | nil => cases h
    | cons ending rest => exact h

theorem mem_of_awaited {join : Join} {endings : List Ending} {ending : Ending}
    (h : ending ∈ join.awaited endings) : ending ∈ endings := by
  unfold awaited at h
  split at h
  · exact h
  · exact List.mem_of_mem_take h

/-- An error that counts is what a task comes to. -/
theorem outcome?_of_error {join : Join} {count : Nat} {endings : List Ending}
    {failure : Failure} (h : collect (join.awaited endings) = .error failure) :
    join.outcome? count endings = some (.error failure) := by
  unfold awaited at h
  simp only [outcome?, h]

theorem collect_of_outcome? {join : Join} {count : Nat} {endings : List Ending}
    {failure : Failure} (outcome : join.outcome? count endings = some (.error failure)) :
    collect (join.awaited endings) = .error failure := by
  unfold outcome? at outcome
  dsimp only at outcome
  split at outcome
  · rename_i first collected
    cases outcome
    exact collected
  · split at outcome <;> cases outcome

/-- While somebody is missing, there is no outcome but an error. -/
theorem error_of_outcome? {join : Join} {count : Nat} {endings : List Ending} {ending : Ending}
    (all : join.waitForAll = true) (missing : endings.length < count)
    (outcome : join.outcome? count endings = some ending) :
    ∃ failure, ending = .error failure ∧ collect endings = .error failure := by
  simp only [outcome?, all, if_true, Bool.not_true, Bool.false_eq_true, false_and,
    or_false] at outcome
  cases collected : collect endings with
  | error failure =>
    simp only [collected] at outcome
    cases outcome
    exact ⟨failure, rfl, rfl⟩
  | ok steps =>
    have counted := length_of_collect collected
    simp only [collected] at outcome
    rw [if_neg (by omega)] at outcome
    contradiction

end Join

section Honest

/-- An error that a node has come to makes the run fail. A task may also have broken down. -/
def Phase.IsHonest : Phase → Prop
  | .settling _ (.error failure) | .redirecting _ _ failure => failure.FailsRun
  | .ended (.error failure) => failure ≠ .cancelled
  | _ => True

variable {node : Node} {context : Context}

theorem Template.RenderFault.failsRun (fault : Template.RenderFault) :
    fault.failure.FailsRun := by
  cases fault <;> constructor <;> simp [Template.RenderFault.failure]

theorem Context.failsRun_of_input {config : Fields Data} {failure : Failure}
    (h : context.input config = .error failure) : failure.FailsRun := by
  rw [Context.input] at h
  split at h
  · cases h
    exact Template.RenderFault.failsRun _
  · contradiction

theorem Node.failsRun_of_route {scope : Data} {failure : Failure}
    (h : node.route scope = .error failure) : failure.FailsRun := by
  rw [route] at h
  split at h
  · rename_i why found
    cases h
    rw [branch?] at found
    repeat' split at found
    all_goals first
      | contradiction
      | (cases found; constructor <;> simp)
  · contradiction
  · contradiction

namespace Phase

theorem call_isHonest (around : Surroundings) (context : Context) (node : Node) (name : String)
    (config : Fields Data) : (call around context node name config).1.IsHonest := by
  rw [call]
  split
  · constructor <;> simp
  · split
    · rename_i failure failed
      exact Context.failsRun_of_input failed
    · trivial

theorem act_isHonest (around : Surroundings) (context : Context) (node : Node) :
    (act around context node).1.IsHonest := by
  rw [act]
  split
  · constructor <;> simp
  · exact call_isHonest ..
  · cases routed : node.route context.expressionScope with
    | ok step => trivial
    | error failure => exact Node.failsRun_of_route routed
  all_goals trivial

theorem takeUp_isHonest (node : Node) (procedure : String) (reply : Reply) :
    (takeUp node procedure reply).IsHonest := by
  cases reply with
  | failed text => constructor <;> simp
  | dateRange => exact Failure.noConfusion
  | _ => trivial

theorem settle_isHonest {ending : Ending} (honest : (settling node ending).IsHonest) :
    (settle context node ending).1.IsHonest := by
  match ending with
  | .ok (.goOn next) => trivial
  | .ok (.suspend id pause) => trivial
  | .error failure =>
    cases handler : node.onError with
    | none =>
      simp only [settle, handler]
      exact honest.1
    | some target =>
      simp only [settle, handler]
      exact honest

theorem step_isHonest (around : Surroundings) (d : Definition) {phase : Phase}
    (honest : phase.IsHonest) : (phase.step around d context).1.IsHonest := by
  cases phase with
  | entering id =>
    simp only [step]
    split
    · exact Failure.noConfusion
    · trivial
  | announcing node => trivial
  | acting node => exact act_isHonest around context node
  | replying node procedure reply due =>
    simp only [step]
    split
    · trivial
    · exact takeUp_isHonest node procedure reply
  | recording node output => trivial
  | settling node ending => exact settle_isHonest honest
  | redirecting node target failure => trivial
  | _ => exact honest

end Phase

end Honest

namespace Run

variable {catalog : Catalog} {run after : Run} {task : TaskId} {phase : Phase}

section Honest

/-- All errors that the tasks have come to make the run fail, and so do all that branches have
left behind. -/
structure Honest (run : Run) : Prop where
  phases : ∀ task phase, run.phase? task = some phase → phase.IsHonest
  arrivals : ∀ arrival ∈ run.arrivals, ∀ failure, arrival.2 = .error failure → failure.FailsRun

namespace Honest

theorem endingsOf (honest : run.Honest) {group : Nat} {failure : Failure}
    (h : .error failure ∈ run.endingsOf group) : failure.FailsRun := by
  obtain ⟨arrival, kept, same⟩ := List.mem_map.mp h
  exact honest.arrivals arrival (List.mem_of_mem_filter kept) failure same

theorem failsRun_of_collect (honest : run.Honest) {join : Join} {group : Nat}
    {failure : Failure}
    (failed : Join.collect (join.awaited (run.endingsOf group)) = .error failure) :
    failure.FailsRun :=
  honest.endingsOf (Join.mem_of_awaited (Join.mem_of_collect failed))

theorem joined {join : Join} {ending : Ending}
    (fails : ∀ failure, ending = .error failure → failure.FailsRun) :
    (Phase.joined join ending).IsHonest := by
  cases ending with
  | ok step => cases join <;> trivial
  | error failure =>
    cases join with
    | parallel node waitForAll => exact fails failure rfl
    | fanOut => exact (fails failure rfl).1

/-- A task may be put into an honest phase. -/
theorem put (honest : run.Honest) (there : (run.phase? task).isSome) (fits : phase.IsHonest) :
    (run.put task phase).Honest := by
  constructor
  · intro other stands located
    rw [phase?_put there] at located
    split at located
    · cases located
      exact fits
    · exact honest.phases other stands located
  · cases task <;> exact honest.arrivals

theorem driven (honest : run.Honest) (drive : Drive)
    (fits : ∀ phase, drive = .running phase → phase.IsHonest) :
    ({ run with drive } : Run).Honest := by
  refine ⟨?_, honest.arrivals⟩
  intro task phase located
  cases task with
  | driver => exact fits phase (drive_of_phase? located)
  | branch id => exact honest.phases (.branch id) phase located

theorem fork (honest : run.Honest) (ids : List String) :
    (run.fork (ids.map .entering)).Honest := by
  refine ⟨?_, honest.arrivals⟩
  intro task phase located
  rcases phase?_of_fork located with old | ⟨id, rfl⟩
  · exact honest.phases task phase old
  · trivial

theorem dismiss (honest : run.Honest) (group : Nat) : (run.dismiss group).Honest := by
  constructor
  · intro task phase located
    exact honest.phases task phase ((phase?_dismiss run group task).symm.trans located)
  · intro arrival member
    exact honest.arrivals arrival (List.mem_of_mem_filter member)

theorem choose (honest : run.Honest) (next : List String) : (run.choose next).Honest := by
  have counted : ({ run with steps := run.steps + 1 } : Run).Honest :=
    ⟨fun task phase located => honest.phases task phase (by cases task <;> exact located),
      honest.arrivals⟩
  unfold Run.choose
  split
  · exact honest.driven _ (by simp)
  · split
    · exact honest.driven _ (by simp)
    · split
      · exact honest.driven _ (by simp)
      · apply counted.driven
        rintro _ ⟨⟩
        split <;> trivial

theorem arrive (honest : run.Honest) {id group : Nat} {ending : Ending}
    (located : run.branch? id = some ⟨group, .ended ending⟩) :
    (run.arrive id group ending).Honest := by
  have ended : (Phase.ended ending).IsHonest :=
    honest.phases (.branch id) _ (by simp [phase?, located])
  constructor
  · intro task phase stood
    cases task with
    | driver => exact honest.phases .driver phase stood
    | branch other =>
      rw [phase?, branch?_arrive] at stood
      split at stood
      · contradiction
      · exact honest.phases (.branch other) phase stood
  · intro arrival member failure same
    rcases List.mem_append.mp member with old | new
    · exact honest.arrivals arrival old failure same
    · rw [List.mem_singleton.mp new] at same
      unfold Run.arrival at same
      split at same
      · cases same
        constructor <;> simp
      · rename_i whole
        subst same
        exact ⟨ended, fun broken => whole (by rw [broken])⟩

/-- Whatever happens to a run, its errors stay errors that make it fail. -/
theorem transition (honest : run.Honest) (happens : Transition catalog run after) :
    after.Honest := by
  cases happens with
  | rest => exact honest
  | wait task phase located =>
    exact honest.put (by rw [located]; rfl) (honest.phases task phase located)
  | act task phase around known located plain =>
    have acted : ({ run with
        context := (phase.step around run.definition run.context).2.1 } : Run).Honest :=
      ⟨fun task phase located => honest.phases task phase ((phase?_context ..).symm.trans located),
        honest.arrivals⟩
    apply acted.put (by rw [phase?_context, located]; rfl)
    exact Phase.step_isHonest around _ (honest.phases task phase located)
  | fork task join ids located =>
    exact (honest.fork ids).put (by rw [phase?_fork _ located]; rfl) trivial
  | join task join group count ending located outcome =>
    apply (honest.dismiss group).put (by rw [phase?_dismiss, located]; rfl)
    apply joined
    rintro failure rfl
    exact honest.failsRun_of_collect (Join.collect_of_outcome? outcome)
  | arrive id group ending located => exact honest.arrive located
  | follow ending located =>
    apply honest.driven
    intro phase same
    match ending with
    | .ok (.goOn next) => cases same
    | .ok (.suspend id pause) => cases same
    | .error failure => cases same
  | choose next located => exact honest.choose next
  | cancel =>
    exact ⟨fun task phase located => honest.phases task phase (by cases task <;> exact located),
      honest.arrivals⟩

theorem start (d : Definition) (context : Context) (limit : Nat) (next : List String) :
    (Run.start d context limit next).Honest := by
  constructor
  · intro task phase located
    cases task <;> simp [Run.start, phase?, branch?] at located
  · intro arrival member
    contradiction

end Honest

end Honest

/-- The task is bound for an error. -/
inductive Failing (run : Run) : TaskId → Prop where
  | ended {task : TaskId} {failure : Failure} (fails : failure.FailsRun)
      (located : run.phase? task = some (.ended (.error failure))) : Failing run task
  | settling {task : TaskId} {node : Node} {failure : Failure} (bare : node.onError = none)
      (located : run.phase? task = some (.settling node (.error failure))) : Failing run task
  /-- One of the endings that it waits for is an error. -/
  | told {task : TaskId} {join : Join} {group count : Nat} {failure : Failure}
      (bare : join.HandsOn) (located : run.phase? task = some (.joining join group count))
      (failed : Join.collect (join.awaited (run.endingsOf group)) = .error failure) :
      Failing run task
  /-- One of the branches that it waits for is bound for an error. -/
  | waits {task : TaskId} {join : Join} {id count : Nat} {branch : Branch}
      (bare : join.HandsOn) (all : join.waitForAll = true)
      (located : run.phase? task = some (.joining join branch.group count))
      (there : run.branch? id = some branch) (fails : Failing run (.branch id)) :
      Failing run task

/-- The task is one that the run waits for, and there is nobody on the way up who says where
to go on an error. -/
inductive Awaited (run : Run) : TaskId → Prop where
  | driver : Awaited run .driver
  | branch {id count : Nat} {branch : Branch} {task : TaskId} {join : Join}
      (there : run.branch? id = some branch)
      (waits : run.phase? task = some (.joining join branch.group count))
      (bare : join.HandsOn) (all : join.waitForAll = true) (awaited : Awaited run task) :
      Awaited run (.branch id)

theorem arrival_of_failsRun {failure : Failure} (fails : failure.FailsRun) :
    arrival (.error failure) = .error failure := by
  unfold arrival
  split
  · rename_i broken
    cases broken
    exact absurd rfl fails.2
  · rfl

theorem Tended.members_pos (tended : run.Tended) {id : Nat} {branch : Branch}
    (there : run.branch? id = some branch) : 0 < run.members branch.group := by
  have counted := Table.sum_filter_ne tended.unique there
    fun other => if other.group = branch.group then 1 else 0
  rw [if_pos rfl] at counted
  show 0 < (run.branches.map _).sum
  omega

namespace Failing

theorem phase? (failing : run.Failing task) : ∃ phase, run.phase? task = some phase := by
  cases failing <;> exact ⟨_, by assumption⟩

/-- An error that a task waits for is one that it hands on. -/
theorem of_joined {join : Join} {failure : Failure} (fails : failure.FailsRun)
    (bare : join.HandsOn) (located : run.phase? task = some (Phase.joined join (.error failure))) :
    run.Failing task := by
  cases join with
  | parallel node waitForAll => exact .settling bare located
  | fanOut => exact .ended fails located

/-- What becomes of a task that is bound for an error. -/
inductive Heads (run after : Run) : TaskId → Prop where
  | fails {task : TaskId} (failing : after.Failing task) : Heads run after task
  | arrived {id group : Nat} {failure : Failure} (fails : failure.FailsRun)
      (located : run.branch? id = some ⟨group, .ended (.error failure)⟩)
      (left : after = run.arrive id group (.error failure)) : Heads run after (.branch id)
  | concluded {failure : Failure} (fails : failure.FailsRun)
      (drive : after.drive = .concluded (.failed failure)) : Heads run after .driver

/-- A task that is bound for an error stays so, until it has come to it. -/
theorem transition (failing : run.Failing task) (tended : run.Tended) (honest : run.Honest)
    (happens : Transition catalog run after) : Heads run after task := by
  induction failing with
  | ended fails located =>
    cases tended.fate happens located with
    | stays still => exact .fails (.ended fails still)
    | acts around known plain context still => exact plain.elim
    | arrives there left => exact .arrived fails there left
    | follows drive => exact .concluded fails drive
  | settling bare located =>
    have fails := honest.phases _ _ located
    cases tended.fate happens located with
    | stays still => exact .fails (.settling bare still)
    | acts around known plain context still =>
      simp only [Phase.step, Phase.settle, bare] at still
      exact .fails (.ended fails still)
  | told bare located failed =>
    cases tended.fate happens located with
    | stays still =>
      obtain ⟨more, grown⟩ := tended.endingsOf happens located still
      have failed' := Join.collect_awaited_append failed more
      rw [← grown] at failed'
      exact .fails (.told bare still failed')
    | acts around known plain context still => exact plain.elim
    | joins outcome still =>
      rw [Join.outcome?_of_error failed] at outcome
      cases outcome
      exact .fails (of_joined (honest.failsRun_of_collect failed) bare still)
  | @waits task join id count branch bare all located there fails ih =>
    cases tended.fate happens located with
    | stays still =>
      rcases happens.group there with ⟨branch', found, same⟩ | ⟨ending, ended, left⟩
      · cases ih with
        | fails failing => exact .fails (.waits bare all (same ▸ still) found failing)
        | arrived fails located' left =>
          rw [left, branch?_arrive, if_pos rfl] at found
          contradiction
      · cases ih with
        | fails failing =>
          obtain ⟨phase, stands⟩ := failing.phase?
          rw [Run.phase?, left, branch?_arrive, if_pos rfl] at stands
          contradiction
        | @arrived _ group failure fails located' left =>
          rw [there] at located'
          cases located'
          have member : .error failure ∈ after.endingsOf group := by
            cases ended
            rw [left, endings_arrive, if_pos rfl, arrival_of_failsRun fails]
            exact List.mem_append_right _ (List.mem_singleton_self _)
          obtain ⟨first, collected, _⟩ := Join.exists_collect_of_mem member
          have counted : join.awaited (after.endingsOf group) = after.endingsOf group :=
            Join.awaited_of_waitForAll all _
          exact .fails (.told bare still (counted.symm ▸ collected))
    | acts around known plain context still => exact plain.elim
    | joins outcome still =>
      obtain ⟨_, counted⟩ := tended.complete _ _ _ ⟨join, located⟩
      have missing := tended.members_pos there
      obtain ⟨failure, rfl, failed⟩ := Join.error_of_outcome? all (by omega) outcome
      exact .fails (of_joined (honest.endingsOf (Join.mem_of_collect failed)) bare still)

/-- Whoever waits for a task that is bound for an error is bound for it as well. -/
theorem of_awaited (failing : run.Failing task) (awaited : run.Awaited task) :
    run.Failing .driver := by
  induction awaited with
  | driver => exact failing
  | branch there waits bare all _ ih => exact ih (.waits bare all waits there failing)

/-- A run whose driver is bound for an error fails, if it comes to an end. -/
theorem play (failing : run.Failing .driver) (tended : run.Tended) (honest : run.Honest)
    {schedule : List Move} {conclusion : Conclusion}
    (ended : (run.play catalog schedule).drive = .concluded conclusion) :
    ∃ failure, failure.FailsRun ∧ conclusion = .failed failure := by
  induction schedule generalizing run with
  | nil =>
    obtain ⟨phase, stands⟩ := failing.phase?
    have drive : run.drive = .concluded conclusion := ended
    rw [drive_of_phase? stands] at drive
    contradiction
  | cons m rest ih =>
    have happens := move_transition catalog run m
    cases failing.transition tended honest happens with
    | fails still => exact ih still (tended.transition happens) (honest.transition happens) ended
    | concluded fails drive =>
      rw [play_cons, play_concluded drive] at ended
      cases ended
      exact ⟨_, fails, rfl⟩

end Failing

end Run

end DurableFlow
