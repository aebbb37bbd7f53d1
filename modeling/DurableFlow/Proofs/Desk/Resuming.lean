import DurableFlow.Proofs.Desk.Abreast
import DurableFlow.Proofs.Run.Termination

/-!
# Calls that let a suspended run go on

The call resumes the run of a state that has been captured of a valid definition. It drives a pass
that begins behind the node of the state, or at the node for when its wait is over, and answers with
the result of this pass (`Errand.Completes`). There is no result when a date has left the calendar
(`Conclusion.IsUndatable`), and then the call breaks down.

Each beat with which the call gets on takes some of the work away that is left, as long as no node
comes to set itself off (`Errand.left`), and a run in which no task can go on has come to its end.
So the call is over after boundedly many such beats.
-/

namespace DurableFlow

namespace Conclusion

/-- The conclusion has no result at this instant: the deadline of the pause is no date, or a
procedure has had to compute one that is none. -/
def IsUndatable (now : Instant) : Conclusion → Prop
  | .completed => False
  | .suspended _ pause =>
    ∃ timeout, pause.timeout = some timeout ∧ Suspended.deadlineOf? now timeout = none
  | .failed failure => failure = .dateRange

/-- What a call answers whose pass has come to this conclusion. -/
def answer (now : Instant) (context : Context) (conclusion : Conclusion) : Answer :=
  match conclusion.result now context with
  | .ok (told, _) => .result told
  | .error _ => .failed .dateRange

variable {now : Instant} {context : Context} {conclusion : Conclusion}

theorem answer_of_isUndatable (undatable : conclusion.IsUndatable now) :
    conclusion.answer now context = .failed .dateRange := by
  cases conclusion with
  | completed => exact undatable.elim
  | suspended id pause =>
    obtain ⟨timeout, waits, none_left⟩ := undatable
    simp only [answer, result, Suspended.capture?, waits, none_left, Option.map_none]
  | failed failure =>
    obtain rfl : failure = .dateRange := undatable
    rfl

theorem exists_result (context : Context) (datable : ¬ conclusion.IsUndatable now) :
    ∃ told happening, conclusion.result now context = .ok (told, happening) := by
  cases conclusion with
  | completed => exact ⟨_, _, rfl⟩
  | suspended id pause =>
    cases captured : Suspended.capture? now context id pause with
    | some state =>
      simp only [result, captured]
      exact ⟨_, _, rfl⟩
    | none =>
      refine absurd ?_ datable
      rw [Suspended.capture?] at captured
      split at captured
      · contradiction
      · rename_i timeout waits
        exact ⟨timeout, waits, Option.map_eq_none_iff.mp captured⟩
  | failed failure =>
    cases failure with
    | dateRange => exact absurd rfl datable
    | _ => exact ⟨_, _, rfl⟩

end Conclusion

namespace Run

/-- A pass that begins like this comes to this run. -/
def LeadsTo (begun : Run) (catalog : Catalog) (run : Run) : Prop :=
  ∃ schedule, run = begun.play catalog schedule

/-- A pass that begins like this comes to a conclusion that calls for this answer. The conclusion
is told at some instant that is past, but not before another one. -/
def ComesTo (begun : Run) (engine : Engine) (since : Instant) (answer : Answer) : Prop :=
  ∃ run conclusion now, begun.LeadsTo engine.catalog run ∧ run.drive = .concluded conclusion ∧
    since.atMost now = true ∧ now.atMost engine.moment.now = true ∧
    answer = conclusion.answer now run.context

variable {begun run : Run} {catalog : Catalog} {d : Definition}

namespace LeadsTo

theorem refl (begun : Run) (catalog : Catalog) : begun.LeadsTo catalog begun := ⟨[], rfl⟩

theorem step (leads : begun.LeadsTo catalog run) (around : Surroundings)
    (known : around.catalog = catalog) (task : TaskId) :
    begun.LeadsTo catalog (run.step around task).run := by
  obtain ⟨schedule, rfl⟩ := leads
  subst known
  exact ⟨schedule ++ [.step task around.moment around.clock], by rw [play_append]; rfl⟩

theorem tended (leads : begun.LeadsTo catalog run) (tended : begun.Tended) : run.Tended := by
  obtain ⟨schedule, rfl⟩ := leads
  exact play_induction (fun run m kept => kept.transition (move_transition catalog run m)) tended
    schedule

theorem grounded (leads : begun.LeadsTo catalog run) (valid : d.Valid catalog.knows)
    (grounded : begun.Grounded d) : run.Grounded d := by
  obtain ⟨schedule, rfl⟩ := leads
  exact play_induction (fun run m kept => kept.transition valid (move_transition catalog run m))
    grounded schedule

theorem descends (leads : begun.LeadsTo catalog run) (descends : Descends d catalog begun) :
    Descends d catalog run := by
  obtain ⟨schedule, rfl⟩ := leads
  exact descends.play schedule

theorem execution (leads : begun.LeadsTo catalog run) :
    run.context.execution = begun.context.execution := by
  obtain ⟨schedule, rfl⟩ := leads
  exact play_induction
    (fun run m kept => (move_transition catalog run m).execution.trans kept) rfl schedule

end LeadsTo

/-- Once a conclusion has been told, it remains so. -/
theorem ComesTo.onward {engine after : Engine} {since : Instant} {answer : Answer}
    (comes : begun.ComesTo engine since answer) (means : after.means = engine.means)
    (moments : engine.moments ≤ after.moments) : begun.ComesTo after since answer := by
  have catalog : after.catalog = engine.catalog := congrArg Engine.Means.catalog means
  obtain ⟨run, conclusion, now, leads, drive, late, past, told⟩ := comes
  exact ⟨run, conclusion, now, catalog ▸ leads, drive, late,
    Instant.atMost_trans past (Engine.atMost_now means moments), told⟩

/-- A step takes some of the work away that is left, unless it leaves the run as it is. -/
theorem step_work {weight : String → Nat} (weighs : d.Weighs weight) (tended : run.Tended)
    (grounded : run.Grounded d) (around : Surroundings) (task : TaskId) :
    (run.step around task).run = run ∨
      (run.step around task).run.work d weight < run.work d weight :=
  (move_transition around.catalog run (.step task around.moment around.clock)).work_lt weighs tended
    grounded (isCancelled_move_step ..)

end Run

/-- The decision is one of a call that lets a run go on by a pass that begins like this: up to the
conclusion of the pass, and to what is told of it. -/
def Decision.Completes (engine : Engine) (begun : Run) (since : Instant) : Decision → Prop
  | .resume purpose d state node delta =>
    purpose = .direct ∧ ∃ next, Stride.checkResume engine d state node = .ok next ∧
      begun = { Run.start d (state.toContext delta) engine.limit next with
        isCancelled := begun.isCancelled }
  | .drive purpose run =>
    purpose = .direct ∧ ∃ found, engine.run? run = some found ∧ begun.LeadsTo engine.catalog found
  | .conclude purpose run =>
    purpose = .direct ∧ ∃ found, engine.run? run = some found ∧ begun.LeadsTo engine.catalog found ∧
      ∃ conclusion, found.drive = .concluded conclusion
  | .finish purpose result =>
    purpose = .direct ∧ ∃ told, result = .ok told ∧ begun.ComesTo engine since (.result told)
  | .answer told => begun.ComesTo engine since told
  | _ => False

/-- The errand is a call that lets a run go on, and nobody hands it any further event. -/
structure Errand.Completes (engine : Engine) (begun : Run) (since : Instant) (errand : Errand) :
    Prop where
  alone : errand.delivery = none
  asked : errand.isCancelled = begun.isCancelled
  decision : errand.decision.Completes engine begun since

/-- The turns that the errand will take at most, and the steps of its pass and of its branches. -/
def Decision.left (engine : Engine) (d : Definition) (weight : String → Nat) : Decision → Nat
  | .resume .. => engine.limit * d.budget weight + 11
  | .drive _ run => ((engine.run? run).map (·.work d weight)).getD 0 + 7
  | .conclude _ run => ((engine.run? run).map (·.work d weight)).getD 0 + 6
  | .finish .. => 2
  | .answer _ => 1
  | _ => 0

def Errand.left (engine : Engine) (d : Definition) (weight : String → Nat)
    (errand : Errand) : Nat :=
  errand.acts.length + errand.decision.left engine d weight

section Left

variable {engine : Engine} {run : Nat} {found : Run}

theorem Engine.run?_stepRun_self (there : engine.run? run = some found) (task : TaskId) :
    (engine.stepRun run task).1.run? run =
      some (found.step engine.surroundings task).run := by
  rw [run?_stepRun, if_pos rfl, there, Option.map_some]

theorem Engine.stepRun_finished_iff (there : engine.run? run = some found) :
    (engine.stepRun run .driver).2.2 = .finished ↔
      ∃ conclusion, (found.step engine.surroundings .driver).run.drive = .concluded conclusion := by
  simp only [stepRun, there]
  exact found.stepDriver_finished engine.surroundings

theorem Decision.left_drive (there : engine.run? run = some found) (purpose : Purpose)
    (d : Definition) (weight : String → Nat) :
    (Decision.drive purpose run).left engine d weight = found.work d weight + 7 := by
  rw [left, there]
  rfl

theorem Decision.left_conclude (there : engine.run? run = some found) (purpose : Purpose)
    (d : Definition) (weight : String → Nat) :
    (Decision.conclude purpose run).left engine d weight = found.work d weight + 6 := by
  rw [left, there]
  rfl

theorem Errand.left_go (errand : Errand) (acts : List Act) (decision : Decision)
    (d : Definition) (weight : String → Nat) :
    (errand.go acts decision).left engine d weight =
      acts.length + decision.left engine d weight := rfl

/-- What is left to do depends on the means of the engine and on the run that the errand drives. -/
theorem Errand.left_congr {after : Engine} {errand : Errand} (means : after.means = engine.means)
    (runs : ∀ run, errand.run? = some run → after.run? run = engine.run? run) (d : Definition)
    (weight : String → Nat) : errand.left after d weight = errand.left engine d weight := by
  have limit : after.limit = engine.limit := congrArg Engine.Means.limit means
  rw [Errand.run?] at runs
  rw [Errand.left, Errand.left]
  cases decision : errand.decision with
  | resume => rw [Decision.left, Decision.left, limit]
  | drive purpose run | conclude purpose run =>
    rw [decision] at runs
    rw [Decision.left, Decision.left, runs run rfl]
  | _ => rfl

end Left

section Steps

variable {engine after : Engine} {begun : Run} {since : Instant} {errand : Errand}

namespace Errand.Completes

/-- The call is the same when the engine goes on, as long as its pass does. -/
theorem onward (completes : errand.Completes engine begun since)
    (means : after.means = engine.means) (moments : engine.moments ≤ after.moments)
    (runs : ∀ run found, errand.run? = some run → engine.run? run = some found →
      after.run? run = some found ∨ ∃ task, after.run? run =
        some (found.step engine.surroundings task).run) :
    errand.Completes after begun since := by
  obtain ⟨alone, asked, stage⟩ := completes
  refine ⟨alone, asked, ?_⟩
  have catalog : after.catalog = engine.catalog := congrArg Engine.Means.catalog means
  have passing {run : Nat} {found : Run} (drives : errand.run? = some run)
      (there : engine.run? run = some found) (leads : begun.LeadsTo engine.catalog found) :
      ∃ later, after.run? run = some later ∧ begun.LeadsTo after.catalog later ∧
        ∀ conclusion, found.drive = .concluded conclusion →
          later.drive = .concluded conclusion := by
    rw [catalog]
    rcases runs run found drives there with same | ⟨task, moved⟩
    · exact ⟨found, same, leads, fun _ => id⟩
    · refine ⟨_, moved, leads.step engine.surroundings rfl task, fun conclusion ended => ?_⟩
      exact (Run.move_transition engine.catalog found
        (.step task engine.moment engine.clock)).concluded ended
  rw [Errand.run?] at passing
  cases decision : errand.decision with
  | resume purpose d state node delta =>
    rw [decision] at stage
    obtain ⟨direct, next, accepted, begins⟩ := stage
    have limit : after.limit = engine.limit := congrArg Engine.Means.limit means
    exact ⟨direct, next, by rw [Stride.checkResume_congr means, accepted], limit ▸ begins⟩
  | drive purpose run =>
    rw [decision] at stage passing
    obtain ⟨direct, found, there, leads⟩ := stage
    obtain ⟨later, here, further, _⟩ := passing rfl there leads
    exact ⟨direct, later, here, further⟩
  | conclude purpose run =>
    rw [decision] at stage passing
    obtain ⟨direct, found, there, leads, conclusion, ended⟩ := stage
    obtain ⟨later, here, further, still⟩ := passing rfl there leads
    exact ⟨direct, later, here, further, conclusion, still conclusion ended⟩
  | finish purpose result =>
    rw [decision] at stage
    obtain ⟨direct, told, is, comes⟩ := stage
    exact ⟨direct, told, is, comes.onward means moments⟩
  | answer answer =>
    rw [decision] at stage
    exact Run.ComesTo.onward stage means moments
  | _ =>
    rw [decision] at stage
    exact stage

/-- The call is the same after a step of its pass. -/
theorem stepRun (completes : errand.Completes engine begun since) (numbered : engine.Numbered)
    {purpose : Purpose} {run : Nat} (decision : errand.decision = .drive purpose run) :
    errand.Completes (engine.stepRun run .driver).1 begun since := by
  refine completes.onward (engine.means_stepRun run .driver)
    (numbered.stepRun run .driver).moments_le fun own found drives there => .inr ⟨.driver, ?_⟩
  simp only [Errand.run?, decision, Option.some.injEq] at drives
  subst drives
  exact Engine.run?_stepRun_self there .driver

/-- The run of the call is tended. -/
theorem isTended (completes : errand.Completes engine begun since) (tended : begun.Tended) :
    errand.IsTended engine := by
  obtain ⟨_, _, stage⟩ := completes
  intro run found drives there
  rw [Errand.run?] at drives
  cases decision : errand.decision with
  | drive purpose own | conclude purpose own =>
    rw [decision] at stage drives
    cases drives
    obtain ⟨_, found', there', leads⟩ := stage
    cases there.symm.trans there'
    first
      | exact leads.tended tended
      | exact leads.1.tended tended
  | _ =>
    rw [decision] at stage drives
    contradiction

end Errand.Completes

namespace Stride

variable {office : Office} {acts : List Act} {decision : Decision}

/-- A stride of a call: the call goes on, or it is over and answers what its pass has come to. -/
structure Completes (engine : Engine) (begun : Run) (since : Instant) (stride : Stride) : Prop where
  means : stride.engine.means = engine.means
  errand : stride.errand.Completes stride.engine begun since
  told : stride.signal = .finished → ∃ answer, stride.errand.answer? = some answer ∧
    begun.ComesTo stride.engine since answer

/-- The call goes on with further acts and another decision. -/
theorem Completes.go {signal : Signal} {requests : List Request}
    (completes : errand.Completes engine begun since) (means : after.means = engine.means)
    (goesOn : signal ≠ .finished) (stage : decision.Completes after begun since) :
    Completes engine begun since ⟨after, office, errand.go acts decision, signal, requests⟩ where
  means := means
  errand := ⟨completes.alone, completes.asked, stage⟩
  told ends := absurd ends goesOn

/-- When the end of its pass is told, the call comes to what is told. -/
theorem concludes_comes (recent : since.atMost engine.moment.now = true) {purpose : Purpose}
    {run : Nat} {process : Run} {conclusion : Conclusion}
    (stage : (Decision.conclude purpose run).Completes engine begun since)
    (found : engine.run? run = some process) (concluded : process.drive = .concluded conclusion) :
    purpose = .direct ∧ begun.ComesTo (engine.tick.close run) since
      (conclusion.answer engine.moment.now process.context) := by
  obtain ⟨direct, process', there, leads, _⟩ := stage
  obtain rfl := Option.some.inj (found.symm.trans there)
  exact ⟨direct, process, conclusion, _, leads, concluded, recent,
    Engine.atMost_now rfl (Nat.le_succ _), rfl⟩

/-- A decision of a call. -/
theorem decide_completes (numbered : engine.Numbered)
    (recent : since.atMost engine.moment.now = true)
    (completes : errand.Completes engine begun since) (idle : errand.acts = []) (office : Office) :
    Completes engine begun since (decide engine office errand) := by
  have stage := completes.decision
  have decides := decide_decides engine office errand
  generalize decide engine office errand = stride at decides ⊢
  generalize decision : errand.decision = decision at decides stage
  cases decides with
  | @ends told =>
    refine ⟨rfl, completes, fun _ => ⟨told, ?_, stage⟩⟩
    simp only [Errand.answer?, idle, decision, completes.alone]
  | handsOn more => exact absurd (completes.alone.symm.trans more) (Option.some_ne_none _).symm
  | resumeRefused refused =>
    obtain ⟨_, next, accepted, _⟩ := stage
    exact absurd (refused.symm.trans accepted) (by simp)
  | resumes accepted =>
    obtain ⟨rfl, next, accepted', begins⟩ := stage
    obtain rfl := Except.ok.inj (accepted'.symm.trans accepted)
    simp only [enter, completes.asked]
    refine .go completes rfl (by simp) ⟨rfl, begun, ?_, .refl begun _⟩
    rw [← begins]
    exact Engine.run?_adopt numbered begun
  | @drives _ run goesOn =>
    exact ⟨engine.means_stepRun run .driver, completes.stepRun numbered decision,
      fun ends => absurd ends goesOn⟩
  | @drivesHome _ run finished =>
    obtain ⟨rfl, found, there, leads⟩ := stage
    have means := engine.means_stepRun run .driver
    have catalog : engine.catalog = (engine.stepRun run .driver).1.catalog :=
      congrArg Engine.Means.catalog means.symm
    have further := leads.step engine.surroundings rfl .driver
    rw [catalog] at further
    exact .go completes means (by simp) ⟨rfl, _, Engine.run?_stepRun_self there .driver, further,
      (Engine.stepRun_finished_iff there).mp finished⟩
  | runMissing missing =>
    obtain ⟨_, found, there, _⟩ := stage
    exact absurd (missing.symm.trans there) (Option.some_ne_none _).symm
  | drivesOn found unclosed =>
    obtain ⟨_, process, there, _, conclusion, ended⟩ := stage
    obtain rfl := Option.some.inj (found.symm.trans there)
    exact absurd ended (unclosed conclusion)
  | @breaksDown _ run process conclusion _ found concluded untold =>
    obtain ⟨_, comes⟩ := concludes_comes recent stage found concluded
    rw [Conclusion.answer, untold] at comes
    exact ⟨rfl, ⟨rfl, completes.asked, comes⟩, by simp⟩
  | concludes found concluded told =>
    obtain ⟨rfl, comes⟩ := concludes_comes recent stage found concluded
    rw [Conclusion.answer, told] at comes
    exact .go completes rfl (by simp) ⟨rfl, _, rfl, comes⟩
  | tells =>
    obtain ⟨_, told, is, comes⟩ := stage
    cases is
    exact .go completes rfl (by simp) comes
  | keeps kept =>
    obtain ⟨rfl, _⟩ := stage
    contradiction
  | refuses | abandons =>
    obtain ⟨_, told, is, _⟩ := stage
    contradiction
  | _ => exact stage.elim

/-- A turn of a call: its next act, or its decision when there is none left. -/
theorem step_completes (numbered : engine.Numbered)
    (recent : since.atMost engine.moment.now = true)
    (completes : errand.Completes engine begun since) (office : Office) :
    Completes engine begun since (step engine office errand) := by
  cases idle : errand.acts with
  | nil =>
    simp only [step, idle]
    exact decide_completes numbered recent completes idle office
  | cons act rest =>
    obtain ⟨means, runs, goesOn⟩ := act.aside engine office { errand with acts := rest }
    have moments := (step_extends numbered office errand).moments_le
    simp only [step, idle] at moments ⊢
    refine ⟨means, ?_, fun ends => by rw [goesOn] at ends; contradiction⟩
    rw [act_errand]
    have left : ({ errand with acts := rest } : Errand).Completes engine begun since :=
      ⟨completes.alone, completes.asked, completes.decision⟩
    refine left.onward means moments fun run found _ there => .inl ?_
    rw [Engine.run?_congr runs, there]

section Work

variable {d : Definition} {weight : String → Nat}

/-- A step of a pass that is not held up takes some of its work away, unless the pass is done. -/
theorem stepRun_left (weighs : d.Weighs weight) {run : Nat} {found : Run} (tended : found.Tended)
    (grounded : found.Grounded d) (there : engine.run? run = some found)
    (free : engine.isHeldUp run .driver = false)
    (goesOn : (engine.stepRun run .driver).2.2 ≠ .finished) :
    (found.step engine.surroundings .driver).run.work d weight < found.work d weight := by
  refine (Run.step_work weighs tended grounded engine.surroundings .driver).resolve_left ?_
  simp only [Engine.isHeldUp, there, Option.map_some, Option.getD_some] at free
  refine Run.step_ne_self free fun _ conclusion ended => goesOn ?_
  refine (Engine.stepRun_finished_iff there).mpr ⟨conclusion, ?_⟩
  exact (Run.stepDriver_transition engine.surroundings found).concluded ended

/-- A turn with which a call gets on leaves less to do, or is its last. -/
theorem decide_left (numbered : engine.Numbered) (weighs : d.Weighs weight)
    (valid : d.Valid engine.catalog.knows) (tended : begun.Tended) (grounded : begun.Grounded d)
    (completes : errand.Completes engine begun since) (idle : errand.acts = [])
    (free : errand.isHeldUp engine = false) (office : Office) :
    let stride := decide engine office errand
    stride.signal = .finished ∧ 0 < errand.left engine d weight ∨
      stride.errand.left stride.engine d weight < errand.left engine d weight := by
  have stage := completes.decision
  have left : errand.left engine d weight = errand.decision.left engine d weight := by
    rw [Errand.left, idle, List.length_nil, Nat.zero_add]
  simp only [Errand.isHeldUp, idle] at free
  have decides := decide_decides engine office errand
  generalize decide engine office errand = stride at decides ⊢
  rw [left]
  generalize decision : errand.decision = decision at decides stage free
  cases decides with
  | ends => exact .inl ⟨rfl, Nat.one_pos⟩
  | handsOn more => exact absurd (completes.alone.symm.trans more) (Option.some_ne_none _).symm
  | resumeRefused refused =>
    obtain ⟨_, next, accepted, _⟩ := stage
    exact absurd (refused.symm.trans accepted) (by simp)
  | resumes accepted =>
    obtain ⟨rfl, next, accepted', begins⟩ := stage
    obtain rfl := Except.ok.inj (accepted'.symm.trans accepted)
    have worth : begun.work d weight = engine.limit * d.budget weight + 1 := by
      rw [begins]
      simp [Run.start, Run.work, Drive.work]
    have drives := Decision.left_drive (Engine.run?_adopt numbered begun) .direct d weight
    simp only [enter, completes.asked]
    rw [← begins]
    refine .inr ?_
    change 2 + Decision.left _ d weight (.drive .direct engine.nextRun) < _
    rw [drives, worth, Decision.left]
    omega
  | drives goesOn =>
    obtain ⟨rfl, found, there, leads⟩ := stage
    have less := stepRun_left weighs (leads.tended tended) (leads.grounded valid grounded) there
      free goesOn
    refine .inr ?_
    rw [Errand.left, idle, decision, Decision.left_drive there,
      Decision.left_drive (Engine.run?_stepRun_self there .driver), List.length_nil, Nat.zero_add]
    exact Nat.add_lt_add_right less 7
  | drivesHome =>
    obtain ⟨rfl, found, there, leads⟩ := stage
    have work := Run.step_work weighs (leads.tended tended) (leads.grounded valid grounded)
      engine.surroundings .driver
    refine .inr ?_
    rw [Errand.left_go, Decision.left_drive there,
      Decision.left_conclude (Engine.run?_stepRun_self there .driver), List.length_nil]
    rcases work with still | less
    · rw [still]
      omega
    · omega
  | runMissing missing =>
    obtain ⟨_, found, there, _⟩ := stage
    exact absurd (missing.symm.trans there) (Option.some_ne_none _).symm
  | drivesOn found unclosed =>
    obtain ⟨_, process, there, _, conclusion, ended⟩ := stage
    obtain rfl := Option.some.inj (found.symm.trans there)
    exact absurd ended (unclosed conclusion)
  | breaksDown found =>
    refine .inr ?_
    rw [Decision.left_conclude found]
    change 0 + 1 < _
    omega
  | concludes found =>
    refine .inr ?_
    rw [Decision.left_conclude found]
    change 3 + 2 < _
    omega
  | tells => exact .inr Nat.one_lt_two
  | keeps kept =>
    obtain ⟨rfl, _⟩ := stage
    contradiction
  | refuses | abandons =>
    obtain ⟨_, told, is, _⟩ := stage
    contradiction
  | _ => exact stage.elim

/-- A turn with which a call gets on leaves less to do, or is its last. -/
theorem step_left (numbered : engine.Numbered) (weighs : d.Weighs weight)
    (valid : d.Valid engine.catalog.knows) (tended : begun.Tended) (grounded : begun.Grounded d)
    (completes : errand.Completes engine begun since) (free : errand.isHeldUp engine = false)
    (office : Office) :
    let stride := step engine office errand
    stride.signal = .finished ∧ 0 < errand.left engine d weight ∨
      stride.errand.left stride.engine d weight < errand.left engine d weight := by
  cases idle : errand.acts with
  | nil =>
    simp only [step, idle]
    exact decide_left numbered weighs valid tended grounded completes idle free office
  | cons act rest =>
    obtain ⟨means, runs, _⟩ := act.aside engine office { errand with acts := rest }
    simp only [step, idle, act_errand]
    refine .inr ?_
    rw [Errand.left_congr means fun run _ => Engine.run?_congr runs run, Errand.left, Errand.left,
      idle]
    exact Nat.add_lt_add_right (Nat.lt_succ_self rest.length) _

end Work

end Stride

end Steps

namespace Site

/-- An errand is a call that lets a run go on by a pass that begins like this, or it is over. -/
structure Completing (site : Site) (id : Nat) (begun : Run) (since : Instant) : Prop where
  numbered : site.engine.Numbered
  recent : since.atMost site.engine.moment.now = true
  errand : ∀ errand, site.office.errand? id = some errand →
    errand.Completes site.engine begun since

/-- The call goes on and has not answered, or it comes to its end and has given one answer. -/
structure Leads (site after : Site) (id : Nat) (begun : Run) (since : Instant)
    (answers : List Answer) : Prop where
  completing : after.Completing id begun since
  means : after.engine.means = site.engine.means
  moments : site.engine.moments ≤ after.engine.moments
  gone : site.office.errand? id = none → after.office.errand? id = none
  silent : site.office.errand? id = none ∨ after.office.errand? id ≠ none → answers = []
  told : site.office.errand? id ≠ none → after.office.errand? id = none →
    ∃ answer, answers = [answer] ∧ begun.ComesTo after.engine since answer

variable {site middle after : Site} {id : Nat} {begun : Run} {since : Instant}
  {answers more : List Answer}

namespace Leads

/-- The errand is as it was, and its run is as it was or has taken a step. -/
theorem aside (completing : site.Completing id begun since)
    (extending : site.engine.Extends after.engine) (means : after.engine.means = site.engine.means)
    (runs : ∀ run found, site.drives? id = some run → site.engine.run? run = some found →
      after.engine.run? run = some found ∨ ∃ task, after.engine.run? run =
        some (found.step site.engine.surroundings task).run)
    (same : after.office = site.office) : site.Leads after id begun since [] where
  completing :=
    { numbered := extending.numbered
      recent := Instant.atMost_trans completing.recent
        (Engine.atMost_now means extending.moments_le)
      errand := fun errand found => by
        rw [same] at found
        refine (completing.errand errand found).onward means extending.moments_le
          fun run there drives => runs run there ?_
        rw [drives?, found, Option.bind_some, drives] }
  means := means
  moments := extending.moments_le
  gone gone := same ▸ gone
  silent _ := rfl
  told there gone := absurd (same ▸ gone) there

theorem refl (completing : site.Completing id begun since) : site.Leads site id begun since [] :=
  aside completing completing.numbered.extends_refl rfl (fun _ _ _ => .inl) rfl

theorem trans (first : site.Leads middle id begun since answers)
    (second : middle.Leads after id begun since more) :
    site.Leads after id begun since (answers ++ more) where
  completing := second.completing
  means := second.means.trans first.means
  moments := first.moments.trans second.moments
  gone gone := second.gone (first.gone gone)
  silent still := by
    rcases still with gone | there
    · rw [first.silent (.inl gone), second.silent (.inl (first.gone gone)), List.append_nil]
    · rw [first.silent (.inr fun gone => there (second.gone gone)), second.silent (.inr there),
        List.append_nil]
  told there gone := by
    by_cases done : middle.office.errand? id = none
    · obtain ⟨answer, rfl, comes⟩ := first.told there done
      rw [second.silent (.inl done), List.append_nil]
      exact ⟨answer, rfl, comes.onward second.means second.moments⟩
    · rw [first.silent (.inr done), List.nil_append]
      exact second.told done gone

end Leads

/-- The call takes a turn. -/
theorem Completing.turn (completing : site.Completing id begun since) :
    site.Leads (site.turn id) id begun since (site.answersAt id .turn) := by
  cases found : site.office.errand? id with
  | none =>
    have still : site.turn id = site := by simp only [Site.turn, found]
    have silent : site.answersAt id .turn = [] := by simp [answersAt, answered, found]
    rw [still, silent]
    exact .refl completing
  | some errand =>
    have takes := takesTurn found
    have extending := Stride.step_extends completing.numbered site.office errand
    have turned := Stride.step_completes completing.numbered completing.recent
      (completing.errand errand found) site.office
    have answers : site.answersAt id .turn =
        let stride := Stride.step site.engine site.office errand
        if stride.signal = .finished then stride.errand.answer?.toList else [] := by
      simp only [answersAt, answered, found]
      split
      · cases Errand.answer? _ <;> rfl
      · rfl
    rw [answers]
    generalize Stride.step site.engine site.office errand = stride at *
    obtain ⟨means, completes, told⟩ := turned
    refine ⟨⟨takes.engine ▸ extending.numbered, ?_, fun next there => ?_⟩, takes.engine ▸ means,
      takes.engine ▸ extending.moments_le, fun gone => ?_, fun still => ?_, fun _ gone => ?_⟩
    · rw [takes.engine]
      exact Instant.atMost_trans completing.recent (Engine.atMost_now means extending.moments_le)
    · by_cases ends : stride.signal = .finished
      · rw [takes.ends ends] at there
        contradiction
      · cases (takes.goes ends).symm.trans there
        rw [takes.engine]
        exact completes
    · rw [found] at gone
      contradiction
    · by_cases ends : stride.signal = .finished
      · simp [found, takes.ends ends] at still
      · exact if_neg ends
    · by_cases ends : stride.signal = .finished
      · obtain ⟨answer, is, comes⟩ := told ends
        rw [takes.engine]
        exact ⟨answer, by simp [ends, is], comes⟩
      · rw [takes.goes ends] at gone
        contradiction

/-- Whatever beat it is, the call goes on or has given its answer. -/
theorem Completing.beat (completing : site.Completing id begun since) (next : Beat) :
    site.Leads (site.beat id next) id begun since (site.answersAt id next) := by
  have branch (run task : Nat) :
      site.Leads (site.move (.branch run task)) id begun since [] := by
    refine .aside completing (completing.numbered.stepRun run (.branch task))
      (site.engine.means_stepRun run (.branch task)) (fun own found _ there => ?_) rfl
    by_cases same : own = run
    · subst same
      exact .inr ⟨.branch task, Engine.run?_stepRun_self there (.branch task)⟩
    · refine .inl ?_
      change (site.engine.stepRun run (.branch task)).1.run? own = _
      rw [Engine.run?_stepRun, if_neg same, there]
  cases next with
  | turn => exact completing.turn
  | branch task =>
    cases drives : site.drives? id with
    | none =>
      simp only [Site.beat, move?, drives]
      exact .refl completing
    | some run =>
      simp only [Site.beat, move?, drives]
      exact branch run task
  | pass millis =>
    exact .aside completing (completing.numbered.extends_of_runs rfl rfl (Nat.le_refl _)) rfl
      (fun _ _ _ => .inl) rfl
  | aside run task =>
    by_cases own : site.drives? id = some run
    · simp only [Site.beat, move?, if_pos own]
      exact .refl completing
    · simp only [Site.beat, move?, if_neg own]
      exact branch run task

/-- Through a whole course the call goes on or has given its answer. -/
theorem Completing.beats (completing : site.Completing id begun since) (course : List Beat) :
    site.Leads (site.beats id course) id begun since (site.answersIn id course) := by
  induction course generalizing site with
  | nil => exact .refl completing
  | cons first rest ih =>
    have begins := completing.beat first
    exact begins.trans (ih begins.completing)

section Work

variable {d : Definition} {weight : String → Nat}

/-- The beats with which the errand can still get on, at most. -/
def left (site : Site) (id : Nat) (d : Definition) (weight : String → Nat) : Nat :=
  ((site.office.errand? id).map (·.left site.engine d weight)).getD 0

theorem left_of_found {errand : Errand} (found : site.office.errand? id = some errand) :
    site.left id d weight = errand.left site.engine d weight := by
  rw [left, found]
  rfl

/-- A beat with which the errand does not get on leaves as much to do. -/
theorem left_of_isIdle (completing : site.Completing id begun since) (tended : begun.Tended)
    {next : Beat} (idle : site.isIdle id next = true) :
    (site.beat id next).left id d weight = site.left id d weight := by
  obtain ⟨still, _⟩ := still_of_isIdle
    (fun errand found => (completing.errand errand found).isTended tended) idle
  rw [left, left, still.errand]
  refine congrArg (Option.getD · 0) (Option.map_congr fun errand found => ?_)
  refine Errand.left_congr still.means (fun run drives => still.run run ?_) d weight
  rw [drives?, found, Option.bind_some, drives]

/-- A beat with which the errand gets on leaves less to do. -/
theorem left_of_isBusy (completing : site.Completing id begun since) (weighs : d.Weighs weight)
    (valid : d.Valid site.engine.catalog.knows) (tended : begun.Tended)
    (grounded : begun.Grounded d) {next : Beat} (busy : site.isIdle id next = false) :
    (site.beat id next).left id d weight < site.left id d weight := by
  cases next with
  | pass | aside => contradiction
  | turn =>
    cases found : site.office.errand? id with
    | none => simp [isIdle, found] at busy
    | some errand =>
      rw [isIdle, found, Option.all_some] at busy
      have takes := takesTurn found
      have less := Stride.step_left completing.numbered weighs valid tended grounded
        (completing.errand errand found) busy site.office
      rw [left_of_found found]
      change (site.turn id).left id d weight < _
      generalize Stride.step site.engine site.office errand = stride at *
      by_cases ends : stride.signal = .finished
      · have done : (site.turn id).left id d weight = 0 := by
          rw [left, takes.ends ends]
          rfl
        rw [done]
        exact less.elim And.right (Nat.zero_lt_of_lt ·)
      · rw [left_of_found (takes.goes ends), takes.engine]
        exact less.resolve_left fun last => ends last.1
  | branch task =>
    cases drives : site.drives? id with
    | none => simp [isIdle, drives] at busy
    | some run =>
      rw [isIdle, drives, Option.all_some] at busy
      obtain ⟨errand, found, own⟩ := Option.bind_eq_some_iff.mp drives
      have stage := (completing.errand errand found).decision
      have there : (site.beat id (.branch task)).office.errand? id = some errand := by
        simp only [Site.beat, move?, drives]
        exact found
      have engine : (site.beat id (.branch task)).engine =
          (site.engine.stepRun run (.branch task)).1 := by
        simp only [Site.beat, move?, drives]
        rfl
      have less : ∀ process, site.engine.run? run = some process →
          begun.LeadsTo site.engine.catalog process →
            (process.step site.engine.surroundings (.branch task)).run.work d weight <
              process.work d weight := by
        intro process present leads
        rw [Engine.isHeldUp, present] at busy
        exact (Run.step_work weighs (leads.tended tended) (leads.grounded valid grounded)
          site.engine.surroundings (.branch task)).resolve_left
            (Run.step_ne_self busy (by simp))
      rw [left_of_found found, left_of_found there, engine, Errand.left, Errand.left]
      rw [Errand.run?] at own
      refine Nat.add_lt_add_left ?_ _
      cases decision : errand.decision with
      | drive purpose other =>
        rw [decision] at stage own
        cases own
        obtain ⟨_, process, present, leads⟩ := stage
        rw [Decision.left_drive present,
          Decision.left_drive (Engine.run?_stepRun_self present (.branch task))]
        exact Nat.add_lt_add_right (less process present leads) 7
      | conclude purpose other =>
        rw [decision] at stage own
        cases own
        obtain ⟨_, process, present, leads, _⟩ := stage
        rw [Decision.left_conclude present,
          Decision.left_conclude (Engine.run?_stepRun_self present (.branch task))]
        exact Nat.add_lt_add_right (less process present leads) 6
      | _ =>
        rw [decision] at stage own
        contradiction

/-- The beats with which the errand gets on are no more than what is left to do. -/
theorem length_progress_le (completing : site.Completing id begun since)
    (weighs : d.Weighs weight) (valid : d.Valid site.engine.catalog.knows) (tended : begun.Tended)
    (grounded : begun.Grounded d) (course : List Beat) :
    (site.progress id course).length ≤ site.left id d weight := by
  induction course generalizing site with
  | nil => exact Nat.zero_le _
  | cons next rest ih =>
    have leads := completing.beat next
    have catalog : (site.beat id next).engine.catalog = site.engine.catalog :=
      congrArg Engine.Means.catalog leads.means
    have later := ih leads.completing (catalog ▸ valid)
    cases idle : site.isIdle id next with
    | true =>
      rw [progress_of_isIdle idle]
      exact later.trans_eq (left_of_isIdle completing tended idle)
    | false =>
      rw [progress_of_isBusy idle]
      exact later.trans_lt (left_of_isBusy completing weighs valid tended grounded idle)

end Work

/-- A call that is not over can get on, if only after some time. -/
theorem Completing.exists_busy (completing : site.Completing id begun since)
    (tended : begun.Tended) {errand : Errand} (found : site.office.errand? id = some errand) :
    ∃ millis next, (site.beat id (.pass millis)).isIdle id next = false := by
  by_contra held
  simp only [not_exists, Bool.not_eq_false] at held
  have turns (millis : Nat) : errand.isHeldUp (site.beat id (.pass millis)).engine = true := by
    have idle := held millis .turn
    rw [isIdle, show (site.beat id (.pass millis)).office.errand? id = some errand from found,
      Option.all_some] at idle
    exact idle
  obtain ⟨purpose, run, _, decision, _⟩ := errand.isHeldUp_iff.mp (turns 0)
  have stage := (completing.errand errand found).decision
  rw [decision] at stage
  obtain ⟨_, process, present, leads⟩ := stage
  have timed (millis : Nat) (task : TaskId) :
      (site.beat id (.pass millis)).engine.isHeldUp run task =
        process.isHeldUp (site.engine.clock + millis) task := by
    rw [Engine.isHeldUp,
      show (site.beat id (.pass millis)).engine.run? run = some process from present]
    rfl
  have heldUp (task : TaskId) (later : Nat) :
      process.isHeldUp (site.engine.clock + later) task = true := by
    cases task with
    | driver =>
      obtain ⟨_, other, _, same, waits⟩ := errand.isHeldUp_iff.mp (turns later)
      cases decision.symm.trans same
      exact (timed later .driver).symm.trans waits
    | branch branch =>
      have idle := held later (.branch branch)
      have drives : (site.beat id (.pass later)).drives? id = some run := by
        change (site.office.errand? id).bind Errand.run? = some run
        rw [found, Option.bind_some, Errand.run?, decision]
      rw [isIdle, drives, Option.all_some] at idle
      exact (timed later (.branch branch)).symm.trans idle
  -- all tasks of the pass wait for branches, so that there are none, and its driver can go on
  obtain ⟨_, outside⟩ := (leads.tended tended).alone (Run.isStuck_of_isHeldUp
    fun task _ later => heldUp task later)
  have waits := heldUp .driver 0
  cases drive : process.drive with
  | running phase => exact outside phase drive
  | _ => simp [Run.isHeldUp, Run.phase?, drive] at waits

/-- What comes of a call that lets a run go on by a pass that begins like this. -/
structure Completes (site : Site) (id : Nat) (begun : Run) : Prop where
  /-- Up to its end the call is silent, and then it answers what its pass has come to. -/
  answers : ∀ course,
    (site.beats id course).office.errand? id ≠ none ∧ site.answersIn id course = [] ∨
      (site.beats id course).office.errand? id = none ∧
        ∃ answer, site.answersIn id course = [answer] ∧
          begun.ComesTo (site.beats id course).engine site.engine.moment.now answer
  /-- The call and its pass get on boundedly often, and they can as long as the call is not over. -/
  ends : begun.definition.ForksAcyclic → ∃ bound, ∀ course,
    (site.progress id course).length ≤ bound ∧
      ((site.beats id course).office.errand? id = none ∨
        ∃ millis next, (site.beats id (course ++ [.pass millis])).isIdle id next = false)

/-- A call that has begun is completed. -/
theorem Completing.completes {d : Definition}
    (completing : site.Completing id begun site.engine.moment.now)
    (valid : d.Valid site.engine.catalog.knows) (tended : begun.Tended)
    (grounded : begun.Grounded d) {errand : Errand}
    (found : site.office.errand? id = some errand) : site.Completes id begun where
  answers course := by
    have leads := completing.beats course
    by_cases done : (site.beats id course).office.errand? id = none
    · exact .inr ⟨done, leads.told (by simp [found]) done⟩
    · exact .inl ⟨done, leads.silent (.inr done)⟩
  ends acyclic := by
    rw [grounded.definition] at acyclic
    obtain ⟨weight, weighs⟩ := acyclic.exists_weight
    refine ⟨_, fun course =>
      ⟨length_progress_le completing weighs valid tended grounded course, ?_⟩⟩
    cases there : (site.beats id course).office.errand? id with
    | none => exact .inl rfl
    | some later =>
      obtain ⟨millis, next, busy⟩ :=
        (completing.beats course).completing.exists_busy tended there
      refine .inr ⟨millis, next, ?_⟩
      rw [Site.beats, List.foldl_append]
      exact busy

/-- What comes of a call that lets the run of a state go on, behind its node or at another one. -/
structure LetsGoOn (site : Site) (id : Nat) (d : Definition) (state : Suspended)
    (node : Option String) (delta : Fields Data) (isCancelled : Bool) (begun : Run) : Prop
    extends site.Completes id begun where
  /-- The call is not refused, and its pass begins with what the state has kept. -/
  begins : ∃ next, Stride.checkResume site.engine d state node = .ok next ∧
    begun = { Run.start d (state.toContext delta) site.engine.limit next with isCancelled }
  /-- What the pass has come to has a result, unless a date has left the calendar. A state that
  comes with the result has been captured of a run of the definition, too. -/
  tells : ∀ run conclusion now, begun.LeadsTo site.engine.catalog run →
    run.drive = .concluded conclusion → ¬ conclusion.IsUndatable now →
    ∃ told, conclusion.answer now run.context = .result told ∧
      told.execution = state.execution ∧ told.workflow = d.id ∧
      ∀ again ∈ told.suspended, again.StemsFrom d site.engine.catalog

end Site

section Soundness

variable {d : Definition} {catalog : Catalog}

/-- A result of a run tells of this run, and so does a state that comes with it. -/
theorem Run.Descends.tells (valid : d.Valid catalog.knows) {run : Run}
    (descends : run.Descends d catalog) {conclusion : Conclusion}
    (ended : run.drive = .concluded conclusion) {now : Instant}
    (datable : ¬ conclusion.IsUndatable now) :
    ∃ told, conclusion.answer now run.context = .result told ∧
      told.execution = run.context.execution ∧ told.workflow = d.id ∧
      ∀ again ∈ told.suspended, again.StemsFrom d catalog := by
  obtain ⟨told, happening, is⟩ := Conclusion.exists_result run.context datable
  obtain ⟨execution, workflow, _⟩ := Conclusion.told_of_result is
  refine ⟨told, by simp only [Conclusion.answer, is], execution,
    workflow.trans (descends.grounded valid).workflow, fun again suspended => ?_⟩
  obtain ⟨id, pause, rfl, captured⟩ := Conclusion.suspended_of_result is suspended
  exact ⟨run, id, pause, now, descends, ended, captured⟩

/-- Validation is sound for whole runs. Under a valid definition no task of a run is sent to a node
that is not there, and nothing fails for want of a node or a procedure. Every state that is captured
of such a run is accepted again, behind its node and at the node for when its wait is over: the call
answers with the result of its pass, unless a date has left the calendar, and it does so after
boundedly many beats, unless a node comes to set itself off. -/
theorem validation_sound (valid : d.Valid catalog.knows) :
    (∀ run, Run.Descends d catalog run → run.LacksNothing d) ∧
      ∀ state : Suspended, state.StemsFrom d catalog →
        (∀ target, state.Expects d target → state.deadlineNode = some target) ∧
          ∀ (site : Site) (id : Nat) (node : Option String) (delta : Fields Data)
            (isCancelled : Bool), site.engine.catalog = catalog → site.engine.Numbered →
            (∀ target ∈ node, state.Expects d target) →
            site.office.errand? id =
              some { decision := .resume .direct d state node delta, isCancelled } →
            ∃ begun, site.LetsGoOn id d state node delta isCancelled begun := by
  refine ⟨fun run descends => (descends.grounded valid).lacksNothing, fun state stems => ?_⟩
  obtain ⟨expected, accepted⟩ := stems.accepted valid
  refine ⟨expected, fun site id node delta isCancelled equipped numbered expects found => ?_⟩
  subst equipped
  obtain ⟨next, accepted⟩ := accepted site.engine rfl node expects
  obtain ⟨offered, own⟩ := Stride.offers_of_checkResume accepted
  obtain ⟨run, pausing, pause, now, descends, suspended, captured⟩ := stems
  have starts : Run.Descends d site.engine.catalog
      (.start d (state.toContext delta) site.engine.limit next) :=
    .resume descends suspended captured rfl accepted delta site.engine.limit
  have opens : (Run.start d (state.toContext delta) site.engine.limit next).LeadsTo
      site.engine.catalog { Run.start d (state.toContext delta) site.engine.limit next with
        isCancelled } := by
    cases isCancelled with
    | false => exact .refl _ _
    | true => exact ⟨[.cancel], rfl⟩
  have calls : site.Completing id { Run.start d (state.toContext delta) site.engine.limit next with
      isCancelled } site.engine.moment.now := by
    refine ⟨numbered, Instant.atMost_refl _, fun errand there => ?_⟩
    cases found.symm.trans there
    exact ⟨rfl, rfl, rfl, next, accepted, rfl⟩
  exact ⟨_, {
    toCompletes := calls.completes valid (opens.tended (.start d _ _ next))
      (opens.grounded valid (.start own _ offered)) found
    begins := ⟨next, accepted, rfl⟩
    tells := fun process conclusion now leads ended datable => by
      obtain ⟨told, is, execution, workflow, again⟩ :=
        (leads.descends (opens.descends starts)).tells valid ended datable
      exact ⟨told, is, execution.trans leads.execution, workflow, again⟩ }⟩

/-- A pass over a workflow without procedures, up to some step of its driver. -/
def Run.after (d : Definition) (steps : Nat) : Run :=
  (Run.start d (Context.start d.id "run" (Context.bindInput d.vars .null) ⟨0, 0⟩) 10
    [d.start]).play [] (List.replicate steps (.step .driver ⟨⟨0, 0⟩, 0⟩ 0))

theorem Run.descends_after (d : Definition) (steps : Nat) : (Run.after d steps).Descends d [] :=
  (Run.Descends.execute .null "run" ⟨0, 0⟩ 10).play _

/-- A site with nothing but a call that lets the run of a state go on. -/
def Site.resuming (d : Definition) (state : Suspended) (node : Option String) : Site where
  engine := { catalog := [], epoch := ⟨0, 0⟩ }
  office := { errands := [(0, { decision := .resume .direct d state node [] })], nextErrand := 1 }

/-- A workflow that waits for an approval and goes elsewhere when there is none in time. -/
def approval : Definition where
  id := "approval"
  name := "approval"
  start := "ask"
  nodes := [
    { id := "ask", kind := .await ["approve"] none (some ⟨1000, some "late"⟩),
      next := some (.one "done") },
    { id := "late", kind := .sequential },
    { id := "done", kind := .sequential }]

/-- What is kept of a run of it while it waits. -/
def asked : Suspended where
  workflow := "approval"
  execution := "run"
  node := "ask"
  vars := []
  outputs := []
  history := ["ask"]
  wait := { names := ["approve"] }
  reason := "awaiting approve"
  deadline := some ⟨1, 0⟩
  deadlineNode := some "late"
  pausedAt := ⟨0, 0⟩
  startedAt := ⟨0, 0⟩

theorem validation_sound_approval :
    approval.Valid (Catalog.knows []) ∧ asked.StemsFrom approval [] ∧
      asked.Expects approval "late" ∧
      (∃ begun, (Site.resuming approval asked none).LetsGoOn 0 approval asked none [] false begun) ∧
      ∃ begun, (Site.resuming approval asked (some "late")).LetsGoOn 0 approval asked
        (some "late") [] false begun := by
  have valid : approval.Valid (Catalog.knows []) := by decide
  have stems : asked.StemsFrom approval [] :=
    ⟨_, "ask", .awaiting ["approve"] none (some ⟨1000, some "late"⟩), ⟨0, 0⟩,
      Run.descends_after approval 6, rfl, by decide +kernel⟩
  have expects : asked.Expects approval "late" := ⟨_, ["approve"], none, 1000, rfl, rfl⟩
  have numbered (node : Option String) : (Site.resuming approval asked node).engine.Numbered :=
    ⟨List.nodup_nil, List.forall_mem_nil _⟩
  have resumes := ((validation_sound valid).2 asked stems).2
  refine ⟨valid, stems, expects, ?_, ?_⟩
  · exact resumes _ 0 none [] false rfl (numbered none) (by simp) rfl
  · exact resumes _ 0 (some "late") [] false rfl (numbered _) (by simpa using expects) rfl

/-- A workflow that waits a second time, beyond all dates. -/
def overlong : Definition where
  id := "overlong"
  name := "overlong"
  start := "hold"
  nodes := [
    { id := "hold", kind := .await ["go"] none none, next := some (.one "again") },
    { id := "again", kind := .await ["go"] none (some ⟨2 ^ (63 : Nat) - 1, none⟩) }]

/-- What is kept of a run of it while it waits for the first time. -/
def held : Suspended where
  workflow := "overlong"
  execution := "run"
  node := "hold"
  vars := []
  outputs := []
  history := ["hold"]
  wait := { names := ["go"] }
  reason := "awaiting go"
  pausedAt := ⟨0, 0⟩
  startedAt := ⟨0, 0⟩

/-- The state of a run that waits for the first time is accepted, but the call breaks down at the
second wait instead of answering with a result. -/
theorem resumption_without_result :
    overlong.Valid (Catalog.knows []) ∧ held.StemsFrom overlong [] ∧
      let site := Site.resuming overlong held none
      (site.beats 0 (List.replicate 11 .turn)).office.errand? 0 = none ∧
        site.answersIn 0 (List.replicate 11 .turn) = [.failed .dateRange] := by
  refine ⟨by decide, ⟨_, "hold", .awaiting ["go"] none none, ⟨0, 0⟩,
    Run.descends_after overlong 6, rfl, by decide +kernel⟩, rfl, rfl⟩

end Soundness

end DurableFlow
