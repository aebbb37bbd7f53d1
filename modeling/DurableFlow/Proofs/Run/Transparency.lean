import DurableFlow.Desk.Step
import DurableFlow.Proofs.Data.Fields
import DurableFlow.Proofs.Run.Completion

/-!
# Suspension and resumption leave no trace

A run over a sequential definition that is suspended and resumed any number of times gets to
where the reference gets that is never cut.

The driver is the only task of such a run. From wherever it stands the rest of the journey
is determined: complete the phase, then go on by the reference. A step of the driver makes
the calls that this journey begins with and leaves the rest of it as it is; a suspended run
leads where its resumption leads, since a captured state keeps the whole context.
-/

namespace DurableFlow

/-- The driver stands where it is the only task. -/
def Drive.IsLone (d : Definition) (context : Context) : Drive → Prop
  | .choosing next => next.length ≤ 1
  | .running phase => phase.IsLone d context
  | .concluded (.suspended id _) => context.node = some id
  | .concluded _ => True

/-- The rest of the journey from where the driver stands. -/
def Drive.onwards (d : Definition) (catalog : Catalog) (moment : Moment) (fuel : Nat)
    (context : Context) (deltas : List (Fields Data)) : Drive → Option Journey
  | .choosing next => d.uninterrupted catalog moment fuel context next deltas
  | .running phase =>
    let visit := phase.complete d catalog moment context
    (d.proceed (d.uninterrupted catalog moment fuel) visit.context visit.ending deltas).map
      (Journey.after visit.calls)
  | .concluded (.suspended id pause) =>
    d.proceed (d.uninterrupted catalog moment fuel) context (.ok (.suspend id pause)) deltas
  | .concluded conclusion => some { context, conclusion }

/-- The pass has used up the steps that it may take. -/
def Conclusion.IsCutShort (conclusion : Conclusion) : Prop :=
  ∃ limit, conclusion = .failed (.stepLimit limit)

namespace Run

variable {d : Definition} {catalog : Catalog} {moment : Moment} {run : Run}

/-- The driver of the run is its only task, and nobody has asked for the run to be
cancelled. -/
structure IsLone (d : Definition) (run : Run) : Prop where
  definition : run.definition = d
  branches : run.branches = []
  unasked : run.isCancelled = false
  drive : run.drive.IsLone d run.context

/-- The run leads to a journey when it is given these bindings at its suspensions. -/
def Leads (d : Definition) (catalog : Catalog) (moment : Moment) (run : Run)
    (deltas : List (Fields Data)) (journey : Journey) : Prop :=
  ∃ fuel, run.drive.onwards d catalog moment fuel run.context deltas = some journey

/-- The calls that a move makes. -/
def callsOf (catalog : Catalog) (run : Run) : Move → List Call
  | .step task moment clock =>
    (run.step { catalog, moment, clock } task).effects.filterMap Effect.call?
  | .cancel => []

/-- The calls that a schedule makes. -/
def calls (catalog : Catalog) (run : Run) : List Move → List Call
  | [] => []
  | m :: rest => run.callsOf catalog m ++ (run.move catalog m).calls catalog rest

/-- A branch that is not there takes no step. -/
theorem stepBranch_of_isLone (lone : run.IsLone d) (around : Surroundings) (id : Nat) :
    run.stepBranch around id = { run, signal := .finished } := by
  simp [stepBranch, branch?, lone.branches]

section Driver

variable {deltas : List (Fields Data)} {journey : Journey}

theorem stepDriver_of_concluded {conclusion : Conclusion}
    (located : run.drive = .concluded conclusion)
    (around : Surroundings) : run.stepDriver around = { run, signal := .finished } := by
  simp only [stepDriver, located]

theorem stepDriver_of_isPlain {phase : Phase} (located : run.drive = .running phase)
    (plain : phase.IsPlain) (around : Surroundings) :
    (run.stepDriver around).run =
        { run with
          context := (phase.step around run.definition run.context).2.1
          drive := .running (phase.step around run.definition run.context).1 } ∧
      (run.stepDriver around).effects = (phase.step around run.definition run.context).2.2 := by
  cases phase with
  | forking => exact plain.elim
  | joining => exact plain.elim
  | ended => exact plain.elim
  | _ =>
    simp only [stepDriver, located]
    exact ⟨rfl, rfl⟩

theorem IsLone.choose (lone : run.IsLone d) {next : List String}
    (located : run.drive = .choosing next) : (run.choose next).IsLone d := by
  unfold Run.choose
  split
  · exact { lone with drive := trivial }
  · rename_i id rest
    split
    · exact { lone with drive := trivial }
    · split
      · exact { lone with drive := trivial }
      · have few := lone.drive
        rw [located] at few
        have alone : rest = [] :=
          List.eq_nil_of_length_eq_zero (Nat.le_zero.mp (Nat.le_of_succ_le_succ few))
        subst alone
        exact { lone with drive := trivial }

/-- What the driver chooses, the reference runs next. -/
theorem Leads.of_choose (lone : run.IsLone d) {next : List String}
    (located : run.drive = .choosing next)
    (leads : (run.choose next).Leads d catalog moment deltas journey)
    (whole : ¬ journey.conclusion.IsCutShort) : run.Leads d catalog moment deltas journey := by
  obtain ⟨fuel, found⟩ := leads
  refine ⟨fuel + 1, ?_⟩
  rw [located]
  unfold Run.choose at found
  cases next with
  | nil => exact found
  | cons id rest =>
    have few := lone.drive
    rw [located] at few
    have alone : rest = [] :=
      List.eq_nil_of_length_eq_zero (Nat.le_zero.mp (Nat.le_of_succ_le_succ few))
    subst alone
    simp only [lone.unasked, Bool.false_eq_true, if_false] at found
    split at found
    · cases found
      exact absurd ⟨_, rfl⟩ whole
    · exact found

theorem IsLone.follow (lone : run.IsLone d) {ending : Ending}
    (located : run.drive = .running (.ended ending)) :
    ({ run with drive := Run.follow ending } : Run).IsLone d := by
  have ended := lone.drive
  rw [located] at ended
  refine { lone with drive := ?_ }
  cases ending with
  | error failure => trivial
  | ok outcome => cases outcome <;> exact ended

theorem Leads.of_follow {ending : Ending} (located : run.drive = .running (.ended ending))
    (leads : ({ run with drive := Run.follow ending } : Run).Leads d catalog moment deltas
      journey) :
    run.Leads d catalog moment deltas journey := by
  obtain ⟨fuel, found⟩ := leads
  refine ⟨fuel, ?_⟩
  rw [located]
  refine Option.map_eq_some_iff.mpr ⟨journey, ?_, rfl⟩
  cases ending with
  | error failure => exact found
  | ok outcome => cases outcome <;> exact found

/-- A step of the driver within a node makes the first of the calls that are left. -/
theorem Leads.of_step (lone : run.IsLone d) {around : Surroundings}
    (functional : around.catalog.IsFunctional) (sequential : d.IsSequential) {phase : Phase}
    (located : run.drive = .running phase)
    (leads : ({ run with
        context := (phase.step around d run.context).2.1
        drive := .running (phase.step around d run.context).1 } : Run).Leads d around.catalog
      moment deltas journey) :
    run.Leads d around.catalog moment deltas
      (journey.after ((phase.step around d run.context).2.2.filterMap Effect.call?)) := by
  obtain ⟨fuel, found⟩ := leads
  refine ⟨fuel, ?_⟩
  have within := lone.drive
  rw [located] at within ⊢
  have completes := Phase.step_complete around functional sequential moment within
  obtain ⟨onwards, proceeds, rfl⟩ := Option.map_eq_some_iff.mp found
  refine Option.map_eq_some_iff.mpr ⟨onwards, ?_, ?_⟩
  · rw [completes]
    exact proceeds
  · rw [completes, Journey.after_after]
    rfl

end Driver

/-- A move of a run whose driver is alone leaves it alone, and what the run leads to after the
move it led to before, with the calls of the move at the beginning. -/
theorem IsLone.move (lone : run.IsLone d) (functional : catalog.IsFunctional)
    (sequential : d.IsSequential) (moment : Moment) {m : Move} (unasked : m ≠ .cancel) :
    (run.move catalog m).IsLone d ∧ ∀ deltas journey, ¬ journey.conclusion.IsCutShort →
      (run.move catalog m).Leads d catalog moment deltas journey →
        run.Leads d catalog moment deltas (journey.after (run.callsOf catalog m)) := by
  cases m with
  | cancel => exact absurd rfl unasked
  | step task moment' clock =>
    cases task with
    | branch id =>
      have still := stepBranch_of_isLone lone { catalog, moment := moment', clock } id
      simp only [Run.move, callsOf, step, still]
      exact ⟨lone, fun deltas journey _ leads => leads⟩
    | driver =>
      cases located : run.drive with
      | concluded conclusion =>
        have still := stepDriver_of_concluded located { catalog, moment := moment', clock }
        simp only [Run.move, callsOf, step, still]
        exact ⟨lone, fun deltas journey _ leads => leads⟩
      | choosing next =>
        simp only [Run.move, callsOf, step, stepDriver, located]
        exact ⟨lone.choose located, fun deltas journey whole leads => leads.of_choose lone located
          whole⟩
      | running phase =>
        by_cases finished : ∃ ending, phase = .ended ending
        · obtain ⟨ending, rfl⟩ := finished
          simp only [Run.move, callsOf, step, stepDriver, located]
          exact ⟨lone.follow located, fun deltas journey _ leads => leads.of_follow located⟩
        · have within := lone.drive
          rw [located] at within
          have plain := within.isPlain fun ending same => finished ⟨ending, same⟩
          obtain ⟨after, effects⟩ :=
            stepDriver_of_isPlain located plain { catalog, moment := moment', clock }
          simp only [Run.move, callsOf, step, after, effects]
          rw [lone.definition]
          refine ⟨⟨rfl, lone.branches, lone.unasked, ?_⟩, fun deltas journey _ leads => ?_⟩
          · exact Phase.step_isLone _ functional sequential within
          · exact leads.of_step lone functional sequential located

/-- What a schedule leads to the run led to before it, with the calls of the schedule at the
beginning. -/
theorem IsLone.play (lone : run.IsLone d) (functional : catalog.IsFunctional)
    (sequential : d.IsSequential) (moment : Moment) {schedule : List Move}
    (unasked : .cancel ∉ schedule) :
    (run.play catalog schedule).IsLone d ∧ ∀ deltas journey, ¬ journey.conclusion.IsCutShort →
      (run.play catalog schedule).Leads d catalog moment deltas journey →
        run.Leads d catalog moment deltas (journey.after (run.calls catalog schedule)) := by
  induction schedule generalizing run with
  | nil => exact ⟨lone, fun _ _ _ leads => leads⟩
  | cons m rest ih =>
    obtain ⟨first, others⟩ := not_or.mp (List.mem_cons.not.mp unasked)
    obtain ⟨moved, before⟩ := lone.move functional sequential moment (Ne.symm first)
    obtain ⟨played, earlier⟩ := ih moved others
    refine ⟨played, fun deltas journey whole leads => ?_⟩
    have led := before deltas (journey.after _) whole (earlier deltas journey whole leads)
    rw [Journey.after_after] at led
    exact led

theorem IsLone.start (context : Context) (limit : Nat) {next : List String}
    (few : next.length ≤ 1) : (Run.start d context limit next).IsLone d :=
  ⟨rfl, rfl, rfl, few⟩

end Run

/-- A captured state keeps the context of the run but for what it is resumed with. -/
theorem Suspended.toContext_of_capture? {now : Instant} {context : Context} {id : String}
    {pause : Pause} {state : Suspended} (h : capture? now context id pause = some state)
    (entered : context.node = some id) (delta : Fields Data) :
    state.node = id ∧ state.toContext delta = context.merge delta := by
  obtain ⟨workflow, execution, vars, outputs, node, trail, startedAt⟩ := context
  obtain rfl : node = some id := entered
  rw [capture?] at h
  cases timeout : pause.timeout with
  | none =>
    simp only [timeout] at h
    cases h
    simp [toContext, Context.merge, Context.history]
  | some wait =>
    simp only [timeout] at h
    obtain ⟨deadline, _, rfl⟩ := Option.map_eq_some_iff.mp h
    simp [toContext, Context.merge, Context.history]

/-- A run that is resumed goes on behind the node that suspended it. -/
theorem Stride.exists_node_of_checkResume {engine : Engine} {d : Definition} {state : Suspended}
    {next : List String} (accepted : checkResume engine d state none = .ok next) :
    ∃ node, d.node? state.node = some node ∧ next = node.successors := by
  unfold checkResume resumePoint at accepted
  cases found : d.node? state.node with
  | none => simp [found] at accepted
  | some node =>
    refine ⟨node, rfl, ?_⟩
    simp only [found] at accepted
    repeat' split at accepted
    all_goals first | contradiction | (cases accepted; rfl)

namespace Run

variable {d : Definition} {catalog : Catalog} {moment : Moment} {run after : Run}
  {deltas : List (Fields Data)} {calls : List Call}

/-- A run that is carried to an end that is no suspension. Whenever a pass is suspended, the
state that is captured is resumed with the next bindings; the calls are those of all passes
in their order. -/
inductive Passes (catalog : Catalog) (d : Definition) :
    Run → List (Fields Data) → List Call → Run → Prop where
  | last {run : Run} {schedule : List Move} (unasked : .cancel ∉ schedule)
      {conclusion : Conclusion}
      (ended : (run.play catalog schedule).drive = .concluded conclusion)
      (final : ∀ id pause, conclusion ≠ .suspended id pause) :
      Passes catalog d run [] (run.calls catalog schedule) (run.play catalog schedule)
  | resumed {run : Run} {schedule : List Move} (unasked : .cancel ∉ schedule) {id : String}
      {pause : Pause}
      (suspended : (run.play catalog schedule).drive = .concluded (.suspended id pause))
      {now : Instant} {state : Suspended}
      (captured : Suspended.capture? now (run.play catalog schedule).context id pause = some state)
      {engine : Engine} (equipped : engine.catalog = catalog) {next : List String}
      (accepted : Stride.checkResume engine d state none = .ok next) {delta : Fields Data}
      {deltas : List (Fields Data)} {calls : List Call} {after : Run}
      (rest : Passes catalog d (.start d (state.toContext delta) engine.limit next) deltas calls
        after) :
      Passes catalog d run (delta :: deltas) (run.calls catalog schedule ++ calls) after

/-- A run that is carried to its end over several passes led there from the beginning. -/
theorem Passes.leads (passes : Passes catalog d run deltas calls after)
    (functional : catalog.IsFunctional) (sequential : d.IsSequential) (lone : run.IsLone d)
    (moment : Moment) :
    ∃ conclusion, after.drive = .concluded conclusion ∧ (¬ conclusion.IsCutShort →
      run.Leads d catalog moment deltas { context := after.context, calls, conclusion }) := by
  induction passes with
  | last unasked ended final =>
    rename_i run schedule conclusion
    obtain ⟨_, earlier⟩ := lone.play functional sequential moment unasked
    refine ⟨conclusion, ended, fun whole => ?_⟩
    have arrived : (run.play catalog schedule).Leads d catalog moment []
        { context := (run.play catalog schedule).context, conclusion } := by
      refine ⟨0, ?_⟩
      rw [ended]
      cases conclusion with
      | suspended id pause => exact absurd rfl (final id pause)
      | _ => rfl
    have led := earlier [] _ whole arrived
    simp only [Journey.after, List.append_nil] at led
    exact led
  | resumed unasked suspended captured equipped accepted rest ih =>
    rename_i run schedule id pause now state engine next delta deltas calls after
    obtain ⟨played, earlier⟩ := lone.play functional sequential moment unasked
    obtain ⟨node, found, rfl⟩ := Stride.exists_node_of_checkResume accepted
    have entered := played.drive
    rw [suspended] at entered
    obtain ⟨rfl, kept⟩ := Suspended.toContext_of_capture? captured entered delta
    have few := (sequential node (Definition.mem_nodes_of_node? found)).2
    obtain ⟨conclusion, ended, leads⟩ := ih (.start _ _ few)
    refine ⟨conclusion, ended, fun whole => ?_⟩
    obtain ⟨fuel, onwards⟩ := leads whole
    have resumed : (run.play catalog schedule).Leads d catalog moment (delta :: deltas)
        { context := after.context, calls, conclusion } := by
      refine ⟨fuel, ?_⟩
      rw [suspended]
      simp only [Drive.onwards, Definition.proceed, found, ← kept]
      exact onwards
    exact earlier _ _ whole resumed

/-- Suspension and resumption leave no trace: a run over a sequential definition that is
carried to its end over any number of passes has the context, the conclusion and the calls of
the reference that is never cut. -/
theorem resumption_transparent (functional : catalog.IsFunctional) (sequential : d.IsSequential)
    {input : Data} {execution : String} {now : Instant} {limit : Nat}
    (passes : Passes catalog d
      (.start d (Context.start d.id execution (Context.bindInput d.vars input) now) limit
        [d.start]) deltas calls after)
    (whole : ∀ limit, after.drive ≠ .concluded (.failed (.stepLimit limit))) (moment : Moment) :
    ∃ conclusion, after.drive = .concluded conclusion ∧ ∃ enough, ∀ fuel, enough ≤ fuel →
      d.uninterrupted catalog moment fuel
        (Context.start d.id execution (Context.bindInput d.vars input) now) [d.start] deltas =
          some { context := after.context, calls, conclusion } := by
  obtain ⟨conclusion, ended, leads⟩ :=
    passes.leads functional sequential (.start _ limit (Nat.le_refl 1)) moment
  refine ⟨conclusion, ended, ?_⟩
  have unlimited : ¬ conclusion.IsCutShort := by
    rintro ⟨limit, rfl⟩
    exact whole limit ended
  obtain ⟨enough, found⟩ := leads unlimited
  exact ⟨enough, fun fuel more => Definition.uninterrupted_mono more found⟩

/-- A workflow that waits to be told something and then calls a procedure with it. -/
def welcome : Definition where
  id := "welcome"
  name := "welcome"
  start := "ask"
  nodes := [
    { id := "ask", kind := .await ["name"] none none, next := some (.one "greet") },
    { id := "greet", kind := .procedure (some "greet") [] }]

/-- One procedure, which answers with what it is given. -/
def greeting : Catalog :=
  [("greet", { contract := { name := "greet" }, reply := fun _ _ input => .output input })]

theorem resumption_transparent_welcome :
    ∃ after, Passes greeting welcome
        (.start welcome (Context.start "welcome" "run" [] ⟨0, 0⟩) 10 ["ask"])
        [[("name", .str "Ada")]]
        [⟨"greet", .obj [("name", .str "Ada")], ⟨"welcome", "run", some "greet"⟩⟩] after ∧
      after.drive = .concluded .completed ∧ ∃ enough, ∀ fuel, enough ≤ fuel →
        welcome.uninterrupted greeting ⟨⟨0, 0⟩, 0⟩ fuel
          (Context.start "welcome" "run" [] ⟨0, 0⟩) ["ask"] [[("name", .str "Ada")]] =
            some
              { context := after.context
                calls := [⟨"greet", .obj [("name", .str "Ada")],
                  ⟨"welcome", "run", some "greet"⟩⟩]
                conclusion := .completed } := by
  have functional : greeting.IsFunctional := by
    intro name procedure found moment other invocation input
    simp only [greeting, Fields.get?_cons, Fields.get?_nil] at found
    split at found
    · cases found
      exact ⟨rfl, by simp⟩
    · contradiction
  have sequential : welcome.IsSequential := by
    rw [Definition.IsSequential]
    decide
  let once (n : Nat) : List Move := List.replicate n (.step .driver ⟨⟨0, 0⟩, 0⟩ 0)
  have unasked : ∀ n, Move.cancel ∉ once n := by
    intro n asked
    cases List.eq_of_mem_replicate asked
  let waiting : Suspended :=
    { workflow := "welcome", execution := "run", node := "ask", vars := [], outputs := []
      history := ["ask"], wait := { names := ["name"] }, reason := "awaiting name"
      pausedAt := ⟨0, 0⟩, startedAt := ⟨0, 0⟩ }
  have second : Passes greeting welcome
      (.start welcome (waiting.toContext [("name", .str "Ada")]) 10 ["greet"]) []
      [⟨"greet", .obj [("name", .str "Ada")], ⟨"welcome", "run", some "greet"⟩⟩] _ :=
    .last (unasked 9) rfl (by simp)
  let engine : Engine := { catalog := greeting, limit := 10, epoch := ⟨0, 0⟩ }
  have accepted : Stride.checkResume engine welcome waiting none = .ok ["greet"] := rfl
  have captured : Suspended.capture? ⟨0, 0⟩
      ((Run.start welcome (Context.start "welcome" "run" [] ⟨0, 0⟩) 10 ["ask"]).play greeting
        (once 6)).context "ask" (.awaiting ["name"] none none) = some waiting := rfl
  have passes : Passes greeting welcome
      (.start welcome (Context.start "welcome" "run" (Context.bindInput [] .null) ⟨0, 0⟩) 10
        ["ask"])
      [[("name", .str "Ada")]]
      [⟨"greet", .obj [("name", .str "Ada")], ⟨"welcome", "run", some "greet"⟩⟩] _ :=
    .resumed (unasked 6) rfl captured rfl accepted second
  have completed : ((Run.start welcome (waiting.toContext [("name", .str "Ada")]) 10
      ["greet"]).play greeting (once 9)).drive = .concluded .completed := rfl
  obtain ⟨conclusion, ended, same⟩ :=
    resumption_transparent functional sequential passes (by simp [completed]) ⟨⟨0, 0⟩, 0⟩
  rw [completed] at ended
  cases ended
  exact ⟨_, passes, completed, same⟩

end Run

end DurableFlow
