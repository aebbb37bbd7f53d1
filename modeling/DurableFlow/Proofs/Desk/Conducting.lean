import DurableFlow.Proofs.Desk.Narrating
import DurableFlow.Proofs.Desk.Passes

/-!
# What errands do about passes

An errand hands a pass to the engine, lets its driver take steps and removes it from the engine once
it has a conclusion. It publishes notices of the pass before the first step and after the removal.
`decide_conducts` lists what decisions do to the runs of the engine. `Errand.Ready` says of an
errand that is about to publish such a notice that the pass has not taken a step yet, or that it is
gone and has had the result which the notice is about.
-/

namespace DurableFlow

/-- The errand is about to drive a pass, or has the result of one. -/
def Decision.isOfPass : Decision → Bool
  | .drive .. | .finish _ (.ok _) => true
  | _ => false

namespace Stride

/-- What a decision does to the runs of the engine. -/
inductive Conducts (engine : Engine) (errand : Errand) (stride : Stride) : Prop where
  /-- The runs stay as they are, and the errand is not about to publish a notice of a pass. -/
  | rests (runs : stride.engine.runs = engine.runs)
      (undriven : ∀ purpose id, errand.decision ≠ .drive purpose id)
      (quiet : stride.errand.acts = [] ∨ stride.errand.decision.isOfPass = false)
  /-- The engine gets a new run, which the errand is going to drive. -/
  | begins {purpose : Purpose} {run : Run} (begins : run.AtStart)
      (runs : stride.engine.runs = (engine.adopt run).2.runs)
      (undriven : ∀ purpose id, errand.decision ≠ .drive purpose id)
      (decision : stride.errand.decision = .drive purpose engine.nextRun)
      (about : ∀ notice, .publish notice ∈ stride.errand.acts →
        run.context.execution = notice.execution)
  /-- The driver of a run takes a step. -/
  | drives {purpose : Purpose} {id : Nat} (decision : errand.decision = .drive purpose id)
      (engine_eq : stride.engine = (engine.stepRun id .driver).1)
      (silent : stride.errand.acts = [])
  /-- A run that has a conclusion is removed. -/
  | ends {purpose : Purpose} {id : Nat} {run : Run} {conclusion : Conclusion}
      (decision : errand.decision = .conclude purpose id) (found : engine.run? id = some run)
      (concluded : run.drive = .concluded conclusion)
      (runs : stride.engine.runs = (engine.close id).runs)
      (undriven : ∀ purpose id, stride.errand.decision ≠ .drive purpose id)
      (tells : ∀ notice, .publish notice ∈ stride.errand.acts →
        run.context.execution = notice.execution ∧
          ∀ purpose result, stride.errand.decision = .finish purpose (.ok result) →
            conclusion.result engine.moment.now run.context = .ok (result, notice.happening))

variable {engine : Engine} {office : Office} {errand : Errand}

/-- Over a sequential definition a run goes on at one node, or at none. -/
theorem length_resumePoint_le {d : Definition} {state : Suspended} {node : Option String}
    {next : List String} (accepted : checkResume engine d state node = .ok next)
    (sequential : d.IsSequential) : next.length ≤ 1 := by
  have point : resumePoint d state node = .ok next := by
    unfold checkResume at accepted
    split at accepted
    · contradiction
    · split at accepted
      · contradiction
      · split at accepted
        · cases accepted
          assumption
        · contradiction
  unfold resumePoint at point
  split at point
  · split at point
    · cases point
      exact Nat.le_refl _
    · contradiction
  · split at point
    · rename_i found
      cases point
      exact (sequential _ (Definition.mem_nodes_of_node? found)).2
    · contradiction

/-- The end of a wait has nothing to do with passes. -/
theorem expire_rests (engine : Engine) (office : Office) (errand : Errand) (execution : String) :
    (expire engine office errand execution).engine.runs = engine.runs ∧
      (expire engine office errand execution).errand.decision.isOfPass = false := by
  have decides := expire_decides engine office errand execution
  generalize expire engine office errand execution = stride at decides ⊢
  cases decides <;> exact ⟨rfl, rfl⟩

/-- What a decision of a managed errand makes of the passes. -/
theorem decide_conducts (managed : errand.IsManaged engine) (acts : errand.acts = [])
    (office : Office) :
    Conducts engine errand (decide engine office errand) := by
  have allowed := managed.decision
  have decides := decide_decides engine office errand
  generalize decide engine office errand = stride at decides ⊢
  generalize decision : errand.decision = stage at decides allowed
  cases decides with
  | ends | awaitsStop | awaitsReply => exact .rests rfl (by simp [decision]) (.inl acts)
  | @starts purpose d input execution context valid begins =>
    subst begins
    refine .begins ⟨rfl, [d.start], rfl, fun _ => Nat.le_refl _⟩ rfl (by simp [decision]) rfl ?_
    intro notice among
    simp only [enter_errand, Errand.go, List.mem_cons, List.not_mem_nil, or_false] at among
    rcases among with publishes | other
    · cases publishes
      rfl
    · contradiction
  | @resumes purpose d state node delta next accepted =>
    refine .begins ⟨rfl, next, rfl, length_resumePoint_le accepted⟩ rfl (by simp [decision]) rfl ?_
    intro notice among
    simp only [enter_errand, Errand.go, List.mem_cons, List.not_mem_nil, or_false] at among
    rcases among with publishes | other
    · cases publishes
      rfl
    · contradiction
  | drives => exact .drives decision rfl acts
  | drivesHome => exact .drives decision rfl rfl
  | drivesOn => exact .rests rfl (by simp [decision]) (.inl rfl)
  | breaksDown found concluded =>
    exact .ends decision found concluded rfl (fun _ _ => Decision.noConfusion)
      fun notice among => absurd among List.not_mem_nil
  | concludes found concluded told =>
    refine .ends decision found concluded rfl (fun _ _ => Decision.noConfusion) ?_
    intro notice among
    simp only [concluding, Errand.go, List.mem_cons, List.not_mem_nil, or_false] at among
    rcases among with publishes | other | other
    · cases publishes
      refine ⟨(Conclusion.kept_of_result told).1.1.symm, fun purpose result same => ?_⟩
      cases same
      exact told
    · contradiction
    · contradiction
  | attended | attends | expiryMissed | lapses | timesOut | transitions | restoresNothing
  | restoreFailed | restores | adopted | passesOver | adopts | recallsNothing | recallFailed
  | recalls | adoptsSuspended => exact allowed.elim
  | _ => exact .rests rfl (by simp [decision]) (.inr rfl)

end Stride

/-- A notice fits the runs of the engine, where it is to be published before a decision: a pass that
is to be driven has not taken a step and is one of the execution that the notice is about; and a
pass whose result there is has been removed, and it has ended with this result. -/
def Decision.Ready (engine : Engine) (told : List Telling) (notice : Notice) : Decision → Prop
  | drive _ id => ∃ run, engine.run? id = some run ∧ run.AtStart ∧
    run.context.execution = notice.execution
  | finish _ (.ok result) =>
    ∀ pass ∈ (Pass.all told).head?, pass.begun.definition.IsSequential →
      engine.run? pass.id = none ∧ pass.Ends result notice.happening
  | _ => True

/-- All notices that an errand is still to publish fit the runs of the engine. -/
def Errand.Ready (engine : Engine) (told : String → List Telling) (errand : Errand) : Prop :=
  ∀ notice, .publish notice ∈ errand.acts →
    errand.decision.Ready engine (told notice.execution) notice

section Ready

variable {engine after : Engine} {decision : Decision} {notice : Notice}

theorem Decision.Ready.of_not_isOfPass (plain : decision.isOfPass = false) (engine : Engine)
    (told : List Telling) (notice : Notice) : decision.Ready engine told notice := by
  cases decision with
  | drive => contradiction
  | finish purpose result =>
    cases result with
    | ok result => contradiction
    | error failure => trivial
  | _ => trivial

theorem Errand.Ready.of_not_isOfPass {errand : Errand} (plain : errand.decision.isOfPass = false)
    (engine : Engine) (told : String → List Telling) : errand.Ready engine told :=
  fun notice _ => .of_not_isOfPass plain engine (told notice.execution) notice

theorem Errand.Ready.of_silent {errand : Errand} (silent : errand.acts = []) (engine : Engine)
    (told : String → List Telling) : errand.Ready engine told := by
  intro notice publishes
  rw [silent] at publishes
  contradiction

/-- The pass that is yet to begin is left alone, and the one that has come to its end stays
closed, with nothing more told of it. -/
theorem Decision.Ready.later {told told' : List Telling} (ready : decision.Ready engine told notice)
    (runs : ∀ purpose id run, decision = .drive purpose id → engine.run? id = some run →
      run.AtStart → after.run? id = some run)
    (heads : ∀ purpose result, decision = .finish purpose (.ok result) →
      ∀ pass ∈ (Pass.all told').head?, ∃ before ∈ (Pass.all told).head?,
        pass.begun = before.begun ∧ (engine.run? before.id = none →
          after.run? pass.id = none ∧ pass.nodes = before.nodes)) :
    decision.Ready after told' notice := by
  cases decision with
  | drive purpose id =>
    obtain ⟨run, found, begins, own⟩ := ready
    exact ⟨run, runs purpose id run rfl found begins, begins, own⟩
  | finish purpose result =>
    cases result with
    | error failure => trivial
    | ok result =>
      intro pass first sequential
      obtain ⟨before, there, begun, closed⟩ := heads purpose result rfl pass first
      obtain ⟨gone, ids, bare, blocks, history, paused⟩ :=
        ready before there (begun ▸ sequential)
      obtain ⟨still, nodes⟩ := closed gone
      exact ⟨still, ids, bare, nodes ▸ blocks, begun ▸ history, paused⟩
  | _ => trivial

theorem Decision.Ready.congr {told : List Telling} (ready : decision.Ready engine told notice)
    (runs : ∀ purpose id run, decision = .drive purpose id → engine.run? id = some run →
      run.AtStart → after.run? id = some run)
    (gone : ∀ pass ∈ Pass.all told, engine.run? pass.id = none → after.run? pass.id = none) :
    decision.Ready after told notice :=
  ready.later runs fun _ _ _ pass first =>
    ⟨pass, first, rfl, fun closed => ⟨gone pass (List.mem_of_mem_head? first) closed, rfl⟩⟩

/-- What the errand tells itself of the end of a pass changes nothing about it. -/
theorem Decision.Ready.concat {told : List Telling} (ready : decision.Ready engine told notice)
    (other : Notice) :
    decision.Ready engine (told ++ [Errand.telling engine decision other]) notice := by
  refine ready.later (fun _ _ _ _ found _ => found) fun purpose result finishes pass first => ?_
  subst finishes
  rw [Pass.all_concat] at first
  cases passes : Pass.all told with
  | nil =>
    rw [passes] at first
    contradiction
  | cons before rest =>
    rw [passes] at first
    cases first
    exact ⟨before, rfl, rfl, fun closed => ⟨closed, rfl⟩⟩

/-- A step of a task of another pass, or of a branch. -/
theorem Decision.Ready.stepRun {told : List Telling} (ready : decision.Ready engine told notice)
    {id : Nat} {task : TaskId} (execution : String)
    (apart : ∀ purpose, decision = .drive purpose id → task ≠ .driver) :
    decision.Ready (engine.stepRun id task).1
      (told ++ (engine.shown id task).filter (·.execution == execution)) notice := by
  refine ready.later (fun purpose other run drives found begins => ?_) fun _ _ _ pass first => ?_
  · rw [Engine.run?_stepRun]
    split
    · rename_i same
      subst same
      cases task with
      | driver => exact absurd rfl (apart purpose drives)
      | branch branch =>
        rw [found, Option.map_some, Run.step_branch_of_nil begins.1]
    · exact found
  · cases found : engine.run? id with
    | none =>
      have nothing : engine.shown id task = [] := by simp only [Engine.shown, found]
      rw [nothing, List.filter_nil, List.append_nil] at first
      refine ⟨pass, first, rfl, fun closed => ⟨?_, rfl⟩⟩
      rw [Engine.run?_stepRun]
      split
      · rw [found, Option.map_none]
      · exact closed
    | some run =>
      obtain ⟨happenings, all⟩ : ∃ happenings, Pass.all (told ++
          (engine.shown id task).filter (·.execution == execution)) =
            (Pass.all told).map (Pass.showAll id happenings) := by
        rw [Engine.filter_shown found, Engine.shown_eq found]
        split
        · exact ⟨_, Pass.all_append_shows ..⟩
        · refine ⟨[], ?_⟩
          rw [List.append_nil, show Pass.showAll id [] = fun pass => pass from rfl, List.map_id']
      rw [all, List.head?_map] at first
      obtain ⟨before, there, rfl⟩ := Option.map_eq_some_iff.mp first
      obtain ⟨sameId, begun⟩ := before.showAll_keeps id happenings
      refine ⟨before, there, begun, fun closed => ?_⟩
      have different : before.id ≠ id := by
        rintro rfl
        rw [closed] at found
        contradiction
      rw [Pass.showAll_of_ne different, Engine.run?_stepRun, if_neg different]
      exact ⟨closed, rfl⟩

end Ready

end DurableFlow
