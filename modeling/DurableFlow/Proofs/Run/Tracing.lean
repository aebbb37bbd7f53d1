import DurableFlow.Proofs.Data.Merging
import DurableFlow.Proofs.Run.Lockstep
import DurableFlow.Proofs.Run.Redirect

/-!
# What a schedule leaves behind

Each move of a schedule is a step of one task, which leaves all other tasks where they stand.
What it writes into the context is what the phase of that task writes: the node that is entered,
the output that is kept. So the history and the outputs at the end of a schedule are those at its
beginning and a log of its moves, in which each task's share can be told apart.
-/

namespace DurableFlow

namespace Phase

/-- The outputs that the next step keeps, by their nodes. -/
def keeps : Phase → Fields Data
  | .recording node output => [(node.id, output)]
  | _ => []

theorem step_keeps (around : Surroundings) (d : Definition) (context : Context) (phase : Phase) :
    (phase.step around d context).2.1.outputs = Fields.merge context.outputs phase.keeps := by
  cases phase with
  | entering id => cases found : d.node? id <;> simp [step, keeps, found]
  | replying node procedure reply due =>
    simp only [step]
    split <;> rfl
  | _ => rfl

theorem enters_of_ne {d : Definition} {phase : Phase} (elsewhere : ∀ id, phase ≠ .entering id) :
    phase.enters d = [] := by
  cases phase with
  | entering id => exact absurd rfl (elsewhere id)
  | _ => rfl

/-- One node is entered at a time. -/
theorem reverse_enters (d : Definition) (phase : Phase) :
    (phase.enters d).reverse = phase.enters d := by
  cases phase with
  | entering id => cases found : d.node? id <;> simp [enters, found]
  | _ => rfl

/-- No step within a node leads to the beginning of one. -/
theorem step_ne_entering {phase : Phase} (plain : phase.IsPlain) (around : Surroundings)
    (d : Definition) (context : Context) (id : String) :
    (phase.step around d context).1 ≠ .entering id := by
  cases phase with
  | entering other => simp only [step]; split <;> simp
  | acting node =>
    simp only [step, act, call]
    repeat' split
    all_goals simp
  | replying node procedure reply due =>
    simp only [step, takeUp]
    repeat' split
    all_goals simp
  | settling node ending =>
    simp only [step, settle]
    repeat' split
    all_goals simp
  | forking => exact plain.elim
  | joining => exact plain.elim
  | ended => exact plain.elim
  | _ => simp [step]

end Phase

namespace Run

variable {catalog : Catalog} {run after : Run} {task other : TaskId} {phase : Phase}

section Moves

theorem move_of_none (catalog : Catalog) (absent : run.phase? task = none) (moment : Moment)
    (clock : Nat) :
    run.move catalog (.step task moment clock) = run ∨
      ∃ next, task = .driver ∧ run.move catalog (.step task moment clock) = run.choose next := by
  cases task with
  | branch id =>
    have gone : run.branch? id = none := Option.map_eq_none_iff.mp absent
    left
    simp only [move, step, stepBranch, gone]
  | driver =>
    cases drive : run.drive with
    | running phase => simp [phase?, drive] at absent
    | choosing next =>
      right
      exact ⟨next, rfl, by simp only [move, step, stepDriver, drive]⟩
    | concluded conclusion =>
      left
      simp only [move, step, stepDriver, drive]

theorem move_of_ended (catalog : Catalog) {ending : Ending}
    (located : run.phase? task = some (.ended ending)) (moment : Moment) (clock : Nat) :
    (∃ id group, task = .branch id ∧ run.branch? id = some ⟨group, .ended ending⟩ ∧
        run.move catalog (.step task moment clock) = run.arrive id group ending) ∨
      task = .driver ∧
        run.move catalog (.step task moment clock) = { run with drive := follow ending } := by
  cases task with
  | driver =>
    have drive := drive_of_phase? located
    right
    exact ⟨rfl, by simp only [move, step, stepDriver, drive]⟩
  | branch id =>
    obtain ⟨group, there⟩ := exists_branch_of_phase? located
    left
    exact ⟨id, group, rfl, there, by simp only [move, step, stepBranch, there]⟩

theorem choose_context (run : Run) (next : List String) :
    (run.choose next).context = run.context := by
  unfold Run.choose
  repeat' split
  all_goals rfl

theorem phase?_put_self {old : Phase} (located : run.phase? task = some old) (phase : Phase) :
    (run.put task phase).phase? task = some phase := by
  rw [phase?_put (by rw [located]; rfl), if_pos rfl]

/-- With a step within a node a task comes to stand where its phase leads. -/
theorem phase?_move_plain (located : run.phase? task = some phase) (plain : phase.IsPlain)
    (catalog : Catalog) (moment : Moment) (clock : Nat) :
    (run.move catalog (.step task moment clock)).phase? task =
      some (phase.step ⟨catalog, moment, clock⟩ run.definition run.context).1 := by
  rw [(move_plain located plain catalog moment clock).1]
  exact phase?_put_self ((phase?_context ..).trans located) _

/-- A move writes into the context what the phase of the task writes whose step it is. -/
theorem move_context (catalog : Catalog) (run : Run) (task : TaskId) (moment : Moment)
    (clock : Nat) :
    (run.move catalog (.step task moment clock)).context =
      ((run.phase? task).map fun phase =>
        (phase.step ⟨catalog, moment, clock⟩ run.definition run.context).2.1).getD run.context := by
  cases located : run.phase? task with
  | none =>
    rcases move_of_none catalog located moment clock with same | ⟨next, _, same⟩
    · rw [same]
      rfl
    · rw [same, choose_context]
      rfl
  | some phase =>
    rw [Option.map_some, Option.getD_some]
    by_cases plain : phase.IsPlain
    · rw [(move_plain located plain catalog moment clock).1, put_context]
    · cases phase with
      | forking join ids =>
        rw [move_step located (fun _ => Phase.noConfusion), put_context]
        rfl
      | joining join group count =>
        rw [move_step located (fun _ => Phase.noConfusion), put_context, stepPhase]
        split <;> rfl
      | ended ending =>
        rcases move_of_ended catalog located moment clock with
          ⟨id, group, _, _, same⟩ | ⟨_, same⟩ <;> rw [same] <;> rfl
      | _ => exact absurd trivial plain

/-- A step of one task leaves every other task where it stands. -/
theorem phase?_step (different : task ≠ other) (located : run.phase? task = some phase)
    (moment : Moment) (clock : Nat) :
    (run.move catalog (.step other moment clock)).phase? task = some phase := by
  cases stands : run.phase? other with
  | none =>
    rcases move_of_none catalog stands moment clock with same | ⟨next, rfl, same⟩
    · rw [same, located]
    · cases task with
      | driver => exact absurd rfl different
      | branch id =>
        rw [same, phase?, branch?, branches_choose]
        exact located
  | some old =>
    have put : ∀ {middle : Run} {new : Phase}, (∀ {task phase}, run.phase? task = some phase →
        middle.phase? task = some phase) → (middle.put other new).phase? task = some phase := by
      intro middle new same
      rw [phase?_put (by rw [same stands]; rfl), if_neg different]
      exact same located
    by_cases plain : old.IsPlain
    · rw [(move_plain stands plain catalog moment clock).1]
      exact put fun {task phase} there => (phase?_context run _ task).trans there
    · cases old with
      | forking join ids =>
        rw [move_step stands (fun _ => Phase.noConfusion)]
        exact put fun there => phase?_fork _ there
      | joining join group count =>
        rw [move_step stands (fun _ => Phase.noConfusion), stepPhase]
        split
        · exact put fun there => there
        · exact put fun {task phase} there => (phase?_dismiss run group task).trans there
      | ended ending =>
        rcases move_of_ended catalog stands moment clock with
          ⟨id, group, rfl, _, same⟩ | ⟨rfl, same⟩
        · rw [same]
          cases task with
          | driver => exact located
          | branch own =>
            have different : own ≠ id := fun equal => different (congrArg TaskId.branch equal)
            rw [phase?, branch?_arrive, if_neg different]
            exact located
        · rw [same]
          cases task with
          | driver => exact absurd rfl different
          | branch own => exact located
      | _ => exact absurd trivial plain

/-- A task that does not take the step stays where it stands. -/
theorem phase?_move {m : Move} (others : ∀ moment clock, m ≠ .step task moment clock)
    (located : run.phase? task = some phase) : (run.move catalog m).phase? task = some phase := by
  cases m with
  | cancel => cases task <;> exact located
  | step other moment clock =>
    have different : task ≠ other := by
      rintro rfl
      exact others moment clock rfl
    exact phase?_step different located moment clock

end Moves

section Log

variable {α : Type u}

/-- What moves leave, each by the run that it finds. -/
def log (catalog : Catalog) (leaves : Run → Move → List α) (run : Run) : List Move → List α
  | [] => []
  | m :: rest => leaves run m ++ (run.move catalog m).log catalog leaves rest

theorem log_append (leaves : Run → Move → List α) (run : Run) (first later : List Move) :
    run.log catalog leaves (first ++ later) =
      run.log catalog leaves first ++ (run.play catalog first).log catalog leaves later := by
  induction first generalizing run with
  | nil => rfl
  | cons m rest ih => simp only [List.cons_append, log, ih, play_cons, List.append_assoc]

theorem log_concat (leaves : Run → Move → List α) (run : Run) (schedule : List Move) (m : Move) :
    run.log catalog leaves (schedule ++ [m]) =
      run.log catalog leaves schedule ++ leaves (run.play catalog schedule) m := by
  rw [log_append, log, log, List.append_nil]

theorem play_concat (catalog : Catalog) (run : Run) (schedule : List Move) (m : Move) :
    run.play catalog (schedule ++ [m]) = (run.play catalog schedule).move catalog m := by
  rw [play_append, play_cons, play_nil]

/-- What the phase of a task leaves when the task takes its step. -/
def leavesOf (leaves : Run → TaskId → Phase → List α) (run : Run) : Move → List α
  | .step task _ _ => ((run.phase? task).map (leaves run task)).getD []
  | .cancel => []

/-- The nodes that are entered, each by the task that enters it. -/
def entered : Run → Move → List (TaskId × String) :=
  leavesOf fun run task phase => (phase.enters run.definition).map (task, ·)

/-- The outputs that are kept, by their nodes. -/
def kept : Run → Move → List (String × Data) := leavesOf fun _ _ phase => phase.keeps

/-- The nodes that one task enters in the course of a schedule. -/
def enteredBy (catalog : Catalog) (run : Run) (schedule : List Move) (task : TaskId) :
    List String :=
  ((run.log catalog entered schedule).filter (·.1 == task)).map (·.2)

theorem enteredBy_own (catalog : Catalog) (run : Run) (schedule : List Move) (task : TaskId)
    (moment : Moment) (clock : Nat) :
    run.enteredBy catalog (schedule ++ [.step task moment clock]) task =
      run.enteredBy catalog schedule task ++
        (((run.play catalog schedule).phase? task).map
          (Phase.enters (run.play catalog schedule).definition)).getD [] := by
  rw [enteredBy, enteredBy, log_concat, List.filter_append, List.map_append, entered, leavesOf]
  cases (run.play catalog schedule).phase? task with
  | none => rfl
  | some phase => simp [List.filter_map, Function.comp_def]

theorem enteredBy_other (catalog : Catalog) (run : Run) (schedule : List Move) {m : Move}
    (others : ∀ moment clock, m ≠ .step task moment clock) :
    run.enteredBy catalog (schedule ++ [m]) task = run.enteredBy catalog schedule task := by
  rw [enteredBy, enteredBy, log_concat, List.filter_append, List.map_append,
    List.append_right_eq_self, List.map_eq_nil_iff, List.filter_eq_nil_iff]
  rintro ⟨mover, id⟩ member
  cases m with
  | cancel => cases member
  | step other moment clock =>
    have different : other ≠ task := fun same => others moment clock (same ▸ rfl)
    rw [entered, leavesOf] at member
    cases stands : (run.play catalog schedule).phase? other with
    | none =>
      rw [stands] at member
      cases member
    | some phase =>
      rw [stands] at member
      obtain ⟨name, _, same⟩ := List.mem_map.mp member
      cases same
      simpa using different

/-- The history grows by the nodes that the moves enter. -/
theorem history_log (catalog : Catalog) (run : Run) (schedule : List Move) :
    (run.play catalog schedule).context.history =
      run.context.history ++ (run.log catalog entered schedule).map (·.2) := by
  induction schedule generalizing run with
  | nil => simp [log]
  | cons m rest ih =>
    have once : (run.move catalog m).context.history =
        run.context.history ++ (run.entered m).map (·.2) := by
      cases m with
      | cancel => simp [move, entered, leavesOf]
      | step task moment clock =>
        rw [move_context, entered, leavesOf]
        cases located : run.phase? task with
        | none => simp
        | some phase =>
          simp only [Option.map_some, Option.getD_some, Context.history, Phase.step_trail,
            List.reverse_append, List.map_map, Function.comp_def, List.map_id',
            Phase.reverse_enters]
    rw [play_cons, ih, once, log, List.map_append, List.append_assoc]

/-- The outputs are those that the moves keep, over the ones that there were. -/
theorem outputs_log (catalog : Catalog) (run : Run) (schedule : List Move) :
    (run.play catalog schedule).context.outputs =
      Fields.merge run.context.outputs (run.log catalog kept schedule) := by
  induction schedule generalizing run with
  | nil => rfl
  | cons m rest ih =>
    have once : (run.move catalog m).context.outputs =
        Fields.merge run.context.outputs (run.kept m) := by
      cases m with
      | cancel => rfl
      | step task moment clock =>
        rw [move_context, kept, leavesOf]
        cases located : run.phase? task with
        | none => rfl
        | some phase => exact phase.step_keeps ..
    rw [play_cons, ih, once, log, Fields.merge_merge]

end Log

/-- In the course of a schedule the task comes to stand in the phase. -/
def Comes (catalog : Catalog) (run : Run) (schedule : List Move) (task : TaskId)
    (phase : Phase) : Prop :=
  ∃ before, before <+: schedule ∧ (run.play catalog before).phase? task = some phase

theorem comes_nil : run.Comes catalog [] task phase ↔ run.phase? task = some phase := by
  constructor
  · rintro ⟨before, begins, located⟩
    obtain rfl := List.prefix_nil.mp begins
    exact located
  · exact fun located => ⟨[], List.prefix_rfl, located⟩

theorem comes_concat {schedule : List Move} {m : Move} :
    run.Comes catalog (schedule ++ [m]) task phase ↔ run.Comes catalog schedule task phase ∨
      (run.play catalog (schedule ++ [m])).phase? task = some phase := by
  constructor
  · rintro ⟨before, begins, located⟩
    rcases List.prefix_concat_iff.mp begins with rfl | earlier
    · exact .inr located
    · exact .inl ⟨before, earlier, located⟩
  · rintro (⟨before, begins, located⟩ | located)
    · exact ⟨before, begins.trans (List.prefix_append ..), located⟩
    · exact ⟨_, List.prefix_rfl, located⟩

/-- Where a task stands at the end, it has come to stand. -/
theorem comes_of_phase? {schedule : List Move}
    (located : (run.play catalog schedule).phase? task = some phase) :
    run.Comes catalog schedule task phase :=
  ⟨schedule, List.prefix_rfl, located⟩

theorem Comes.later {schedule : List Move} (comes : run.Comes catalog schedule task phase)
    (m : Move) : run.Comes catalog (schedule ++ [m]) task phase :=
  comes_concat.mpr (.inl comes)

end Run

end DurableFlow
