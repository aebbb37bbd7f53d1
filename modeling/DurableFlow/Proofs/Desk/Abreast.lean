import DurableFlow.Proofs.Desk.Accord
import DurableFlow.Proofs.Desk.Pursuit

/-!
# Two errands abreast

An errand that pursues a run may be at work at different times and in different surroundings. What
it does there differs in nothing but the timestamps, and in the number that its run goes by, as long
as its own turns and those of its branches come in the same order, however long they are held up
(`Site.progress`, `Site.Abreast`). Where one of the two breaks down because a date has left the
calendar, the other one need not.
-/

namespace DurableFlow

/-- The outcome without the time at which the run has finished. -/
def RunOutcome.undated (outcome : RunOutcome) : RunOutcome :=
  { outcome with
    finishedAt := outcome.finishedAt.map fun _ => .undated
    durationMs := outcome.durationMs.map fun _ => 0 }

/-- The record without the time at which the run has finished. -/
def RunRecord.undated (record : RunRecord) : RunRecord :=
  { record with
    finishedAt := record.finishedAt.map fun _ => .undated
    durationMs := record.durationMs.map fun _ => 0 }

def Happening.undated : Happening → Happening
  | .paused node state => .paused node state.undated
  | happening => happening

def Notice.undated (notice : Notice) : Notice :=
  { notice with happening := notice.happening.undated }

def Act.undated : Act → Act
  | .settleRun execution outcome => .settleRun execution outcome.undated
  | .saveSuspended state => .saveSuspended state.undated
  | .publish notice => .publish notice.undated
  | .arm d state => .arm d state.undated
  | act => act

def Answer.undated : Answer → Answer
  | .result told => .result told.undated
  | .handled outcome told => .handled outcome (told.map RunResult.undated)
  | .suspended state => .suspended state.undated
  | answer => answer

/-- Results are the same up to timestamps when the states that are kept are, and all else is the
same. -/
theorem RunResult.undated_eq_iff {result other : RunResult} : result.undated = other.undated ↔
    result.execution = other.execution ∧ result.workflow = other.workflow ∧
      result.status = other.status ∧ result.outputs = other.outputs ∧
      result.history = other.history ∧
      result.suspended.map Suspended.undated = other.suspended.map Suspended.undated ∧
      result.error = other.error := by
  simp only [undated, RunResult.mk.injEq]

namespace Act

theorem amend_undated (execution : String) (record : RunRecord) (act : Act) :
    (act.amend execution record).undated = act.undated.amend execution record.undated := by
  cases act with
  | settleRun settled outcome =>
    simp only [amend, undated]
    split <;> rfl
  | _ => rfl

theorem suspend_undated (execution : String) (states : List Suspended) (act : Act) :
    (act.suspend execution states).map Suspended.undated =
      act.undated.suspend execution (states.map Suspended.undated) := by
  cases act with
  | arm d state =>
    simp only [suspend, undated]
    have same : state.undated.execution = state.execution := rfl
    rw [same]
    split <;> rfl
  | _ => rfl

end Act

/-- The decisions are the same up to timestamps and up to the number of the run. -/
inductive Decision.Matches : Decision → Decision → Prop
  | claim (d : Definition) (event : Event) : Matches (.claim d event) (.claim d event)
  | resume (purpose : Purpose) (d : Definition) (state : Suspended) (node : Option String)
      (delta : Fields Data) :
    Matches (.resume purpose d state node delta) (.resume purpose d state node delta)
  | drive (purpose : Purpose) (run other : Nat) :
    Matches (.drive purpose run) (.drive purpose other)
  | conclude (purpose : Purpose) (run other : Nat) :
    Matches (.conclude purpose run) (.conclude purpose other)
  | finish (purpose : Purpose) {result other : Except Failure RunResult}
      (same : other.map RunResult.undated = result.map RunResult.undated) :
    Matches (.finish purpose result) (.finish purpose other)
  | answer {answer other : Answer} (same : other.undated = answer.undated) :
    Matches (.answer answer) (.answer other)

/-- The errands have come to the same point, up to timestamps and up to the number of the run. -/
structure Errand.Matches (errand other : Errand) : Prop where
  acts : other.acts.map Act.undated = errand.acts.map Act.undated
  decision : errand.decision.Matches other.decision
  delivery : other.delivery = errand.delivery
  isCancelled : other.isCancelled = errand.isCancelled

theorem Errand.Matches.answer? {errand other : Errand} (alike : errand.Matches other) :
    other.answer?.map Answer.undated = errand.answer?.map Answer.undated := by
  obtain ⟨acts, decision, delivery, isCancelled⟩ := errand
  obtain ⟨acts', decision', delivery', isCancelled'⟩ := other
  obtain ⟨same, decisions, rfl, _⟩ := alike
  cases acts with
  | cons act rest =>
    cases acts' with
    | nil => contradiction
    | cons => rfl
  | nil =>
    cases acts' with
    | cons => contradiction
    | nil =>
      cases decisions with
      | answer told => cases delivery' <;> simp [Errand.answer?, told]
      | _ => rfl

/-- A run without the times at which its replies are due. -/
def Engine.untimed? (engine : Engine) (run : Nat) : Option Run :=
  (engine.run? run).map Run.untimed

/-- A task of a run is held up, or it is a branch of a run that is not there. -/
def Engine.isHeldUp (engine : Engine) (run : Nat) (task : TaskId) : Bool :=
  ((engine.run? run).map (·.isHeldUp engine.clock task)).getD (task != .driver)

/-- The errand cannot go on for now, since the pass that it drives is held up. -/
def Errand.isHeldUp (engine : Engine) (errand : Errand) : Bool :=
  match errand.acts, errand.decision with
  | [], .drive _ run => engine.isHeldUp run .driver
  | _, _ => false

theorem Errand.isHeldUp_iff {engine : Engine} (errand : Errand) :
    errand.isHeldUp engine = true ↔ ∃ purpose run, errand.acts = [] ∧
      errand.decision = .drive purpose run ∧ engine.isHeldUp run .driver = true := by
  obtain ⟨acts, decision, delivery, isCancelled⟩ := errand
  cases acts with
  | nil => cases decision <;> simp [isHeldUp]
  | cons act rest => simp [isHeldUp]

theorem Drive.untimed_eq_concluded_iff {drive : Drive} {conclusion : Conclusion} :
    drive.untimed = .concluded conclusion ↔ drive = .concluded conclusion := by
  cases drive <;> simp [untimed]

namespace Engine

variable {engine other : Engine} {run own : Nat} {task : TaskId}

/-- A step of a task that is not held up is the same step at any time. -/
theorem untimed?_stepRun (timeless : engine.catalog.IsTimeless)
    (free : engine.isHeldUp run task = false) :
    (engine.stepRun run task).1.untimed? run = (engine.untimed? run).map fun found =>
      (found.step ⟨engine.catalog, ⟨⟨0, 0⟩, 0⟩, 0⟩ task).run.untimed := by
  rw [untimed?, run?_stepRun, if_pos rfl, untimed?, Option.map_map, Option.map_map]
  refine Option.map_congr fun found there => ?_
  rw [isHeldUp, show engine.run? run = some found from there] at free
  have around : engine.surroundings.catalog.IsTimeless := timeless
  exact (found.step_untimed around ⟨⟨0, 0⟩, 0⟩ free).symm

/-- A step of a task that is held up leaves the run as it is. -/
theorem run?_of_isHeldUp (tended : ∀ found, engine.run? run = some found → found.Tended)
    (heldUp : engine.isHeldUp run task = true) :
    (engine.stepRun run task).1.run? run = engine.run? run ∧
      (task = .driver → (engine.stepRun run task).2.2 ≠ .finished) := by
  rw [run?_stepRun, if_pos rfl]
  cases there : engine.run? run with
  | none =>
    rw [isHeldUp, there] at heldUp
    exact ⟨rfl, fun is => by simp [is] at heldUp⟩
  | some found =>
    rw [isHeldUp, there] at heldUp
    have waits : found.isHeldUp engine.surroundings.clock task = true := heldUp
    obtain ⟨same, goesOn⟩ := Run.step_of_isHeldUp (tended found there) waits
    refine ⟨congrArg some same, fun is => ?_⟩
    simp only [stepRun, there]
    exact goesOn is

/-- The task that drives a run is done when the run is there no more or has come to a conclusion. -/
theorem finished_stepRun (engine : Engine) (run : Nat) :
    (engine.stepRun run .driver).2.2 = .finished ↔
      ∀ found, (engine.stepRun run .driver).1.untimed? run = some found →
        ∃ conclusion, found.drive = .concluded conclusion := by
  have after : (engine.stepRun run .driver).1.untimed? run = (engine.run? run).map fun found =>
      (found.stepDriver engine.surroundings).run.untimed := by
    rw [untimed?, run?_stepRun, if_pos rfl, Option.map_map]
    rfl
  rw [after]
  cases there : engine.run? run with
  | none => simp [stepRun, there]
  | some found =>
    simp only [Option.map_some, Option.some.injEq, forall_eq', stepRun, there]
    exact (found.stepDriver_finished engine.surroundings).trans
      (exists_congr fun _ => Drive.untimed_eq_concluded_iff).symm

end Engine

namespace Stride

/-- Two errands of engines with the same means have come to the same point, and their runs are the
same but for when replies are due. -/
structure Abreast (engine other : Engine) (errand partner : Errand) : Prop where
  means : other.means = engine.means
  alike : errand.Matches partner
  run : partner.run?.bind other.untimed? = errand.run?.bind engine.untimed?

variable {engine other : Engine} {errand partner : Errand} {d : Definition}
  {state : Suspended} {since late : Instant}

theorem checkResume_congr (means : other.means = engine.means) (d : Definition)
    (state : Suspended) (node : Option String) :
    checkResume other d state node = checkResume engine d state node := by
  have catalog : other.catalog = engine.catalog := congrArg Engine.Means.catalog means
  have valid : other.validate d = engine.validate d := by
    rw [Engine.validate, Engine.validate, catalog]
  rw [checkResume, checkResume, valid]

/-- What is told of passes that have come to the same conclusion. -/
theorem result_alike {now later : Instant} {context : Context} {conclusion : Conclusion}
    {result told : RunResult} {happening happened : Happening}
    (ends : conclusion.result now context = .ok (result, happening))
    (ended : conclusion.result later context = .ok (told, happened)) :
    told.undated = result.undated ∧ happened.undated = happening.undated := by
  refine ⟨Conclusion.undated_of_result rfl ended ends, ?_⟩
  cases conclusion with
  | completed =>
    cases ends
    cases ended
    rfl
  | suspended id pause =>
    simp only [Conclusion.result] at ends ended
    split at ends
    · contradiction
    rename_i state captured
    split at ended
    · contradiction
    rename_i state' captured'
    cases ends
    cases ended
    exact congrArg (Happening.paused id) (Suspended.undated_of_capture? rfl captured' captured)
  | failed failure =>
    cases failure <;> first
      | contradiction
      | (cases ends; cases ended; rfl)

theorem keep_undated (d : Definition) {result told : RunResult}
    (same : told.undated = result.undated) :
    (keep d told).map Act.undated = (keep d result).map Act.undated := by
  obtain ⟨_, _, _, _, _, kept, _⟩ := RunResult.undated_eq_iff.mp same
  cases suspended : result.suspended <;> cases suspended' : told.suspended <;>
    simp_all [keep, Act.undated]

theorem concluding_undated {context : Context} {now later : Instant} {result told : RunResult}
    {happening happened : Happening} (same : told.undated = result.undated)
    (same' : happened.undated = happening.undated) :
    (concluding context later told happened).map Act.undated =
      (concluding context now result happening).map Act.undated := by
  obtain ⟨execution, workflow, status, outputs, _, _, error⟩ := RunResult.undated_eq_iff.mp same
  have outcome (status : Status) (output : Option Data) (error : Option String) :
      (context.outcome later status output error).undated =
        (context.outcome now status output error).undated := by
    cases terminal : status.isTerminal <;> simp [Context.outcome, RunOutcome.undated, terminal]
  simp only [concluding, List.map_cons, List.map_nil, Act.undated, Notice.undated, same', workflow,
    execution, status, outputs, error, outcome]

/-- Two engines that work with the same limit open the same pass. -/
theorem opens_alike {run run' : Run} (numbered : engine.Numbered) (numbered' : other.Numbered)
    (same : run' = run) :
    (other.adopt run').2.untimed? other.nextRun = (engine.adopt run).2.untimed? engine.nextRun := by
  rw [Engine.untimed?, Engine.untimed?, Engine.run?_adopt numbered, Engine.run?_adopt numbered',
    same]

/-- Where two runs are the same but for when replies are due, they tell the same. -/
theorem untimed?_alike {run own : Nat} {found found' : Run}
    (same : other.untimed? own = engine.untimed? run) (there : engine.run? run = some found)
    (there' : other.run? own = some found') :
    found'.context = found.context ∧ found'.drive.untimed = found.drive.untimed := by
  rw [Engine.untimed?, Engine.untimed?, there, there'] at same
  have same : found'.untimed = found.untimed := Option.some.inj same
  have context : found'.untimed.context = found.untimed.context := congrArg Run.context same
  exact ⟨context, congrArg Run.drive same⟩

/-- The same step is taken of two runs that are the same but for when replies are due. -/
theorem stepRun_alike {run own : Nat} (timeless : engine.catalog.IsTimeless)
    (means : other.means = engine.means) (free : engine.isHeldUp run .driver = false)
    (free' : other.isHeldUp own .driver = false)
    (same : other.untimed? own = engine.untimed? run) :
    (other.stepRun own .driver).1.means = (engine.stepRun run .driver).1.means ∧
      (other.stepRun own .driver).1.untimed? own = (engine.stepRun run .driver).1.untimed? run ∧
      ((engine.stepRun run .driver).2.2 = .finished ↔
        (other.stepRun own .driver).2.2 = .finished) := by
  have catalog : other.catalog = engine.catalog := congrArg Engine.Means.catalog means
  have later : (other.stepRun own .driver).1.untimed? own =
      (engine.stepRun run .driver).1.untimed? run := by
    rw [Engine.untimed?_stepRun timeless free, Engine.untimed?_stepRun (catalog ▸ timeless) free',
      same, catalog]
  refine ⟨?_, later, ?_⟩
  · rw [Engine.means_stepRun, Engine.means_stepRun, means]
  · rw [other.finished_stepRun, engine.finished_stepRun, later]

/-- Decisions of two errands abreast leave them abreast, unless one of them is held up or breaks
down. -/
theorem decide_abreast (timeless : engine.catalog.IsTimeless)
    (numbered : engine.Numbered) (numbered' : other.Numbered)
    (abreast : Abreast engine other errand partner)
    (pursues : errand.Pursues engine d state since) (pursues' : partner.Pursues other d state late)
    (acts : errand.acts = []) (acts' : partner.acts = [])
    (free : errand.isHeldUp engine = false) (free' : partner.isHeldUp other = false)
    (office office' : Office)
    (whole : (decide engine office errand).signal ≠ .finished →
      (decide engine office errand).errand.decision.isBroken = false)
    (whole' : (decide other office' partner).signal ≠ .finished →
      (decide other office' partner).errand.decision.isBroken = false) :
    Abreast (decide engine office errand).engine (decide other office' partner).engine
        (decide engine office errand).errand (decide other office' partner).errand ∧
      ((decide other office' partner).signal = .finished ↔
        (decide engine office errand).signal = .finished) := by
  obtain ⟨means, ⟨_, decisions, _, isCancelled⟩, run⟩ := abreast
  obtain ⟨alone, _, stage⟩ := pursues
  obtain ⟨alone', _, stage'⟩ := pursues'
  obtain ⟨_, decision, _, cancelled⟩ := errand
  obtain ⟨_, decision', _, cancelled'⟩ := partner
  cases alone
  cases alone'
  cases acts
  cases acts'
  obtain rfl : cancelled' = cancelled := isCancelled
  have idle {decision decision' : Decision} (alike : decision.Matches decision')
      {delivery : Option Delivery} {acts acts' : List Act}
      (same : acts'.map Act.undated = acts.map Act.undated) :
      Errand.Matches ⟨acts, decision, delivery, cancelled'⟩
        ⟨acts', decision', delivery, cancelled'⟩ :=
    ⟨same, alike, rfl, rfl⟩
  have decides := decide_decides engine office ⟨[], decision, none, cancelled'⟩
  have decides' := decide_decides other office' ⟨[], decision', none, cancelled'⟩
  generalize decide engine office ⟨[], decision, none, cancelled'⟩ = stride at *
  generalize decide other office' ⟨[], decision', none, cancelled'⟩ = stride' at *
  cases decisions with
  | claim => exact stage.elim
  | answer same =>
    cases decides with
    | handsOn more => contradiction
    | ends =>
      cases decides' with
      | handsOn more => contradiction
      | ends => exact ⟨⟨means, idle (.answer same) rfl, rfl⟩, Iff.rfl⟩
  | resume purpose d claimed node delta =>
    have same := checkResume_congr means d claimed node
    cases decides with
    | resumeRefused refused =>
      cases decides' with
      | resumes accepted => exact absurd (accepted.symm.trans (same.trans refused)) (by simp)
      | resumeRefused refused' =>
        obtain rfl := Except.error.inj (refused'.symm.trans (same.trans refused))
        exact ⟨⟨means, idle (.finish purpose rfl) rfl, rfl⟩, by simp⟩
    | resumes accepted =>
      cases decides' with
      | resumeRefused refused => exact absurd (refused.symm.trans (same.trans accepted)) (by simp)
      | resumes accepted' =>
        obtain rfl := Except.ok.inj (accepted'.symm.trans (same.trans accepted))
        refine ⟨⟨means, idle (.drive purpose _ _) rfl, ?_⟩, by simp [enter]⟩
        refine opens_alike numbered numbered' ?_
        rw [show other.limit = engine.limit from congrArg Engine.Means.limit means]
  | drive purpose former own =>
    obtain ⟨means, later, ends⟩ := stepRun_alike timeless means free free' run
    cases decides with
    | drives goesOn =>
      cases decides' with
      | drivesHome finished => exact absurd (ends.mpr finished) goesOn
      | drives goesOn' =>
        exact ⟨⟨means, idle (.drive purpose former own) rfl, later⟩, iff_of_false goesOn' goesOn⟩
    | drivesHome finished =>
      cases decides' with
      | drives goesOn => exact absurd (ends.mp finished) goesOn
      | drivesHome => exact ⟨⟨means, idle (.conclude purpose former own) rfl, later⟩, by simp⟩
  | conclude purpose former own =>
    -- an errand that breaks down is out of the question
    cases decides with
    | runMissing | breaksDown => exact absurd (whole (by simp)) (by simp [Decision.isBroken])
    | drivesOn found unclosed =>
      cases decides' with
      | runMissing | breaksDown => exact absurd (whole' (by simp)) (by simp [Decision.isBroken])
      | drivesOn => exact ⟨⟨means, idle (.drive purpose former own) rfl, run⟩, by simp⟩
      | concludes found' concluded =>
        obtain ⟨_, drive⟩ := untimed?_alike run found found'
        rw [concluded] at drive
        exact absurd (Drive.untimed_eq_concluded_iff.mp drive.symm) (unclosed _)
    | @concludes _ _ _ _ result _ found concluded told =>
      cases decides' with
      | runMissing | breaksDown => exact absurd (whole' (by simp)) (by simp [Decision.isBroken])
      | drivesOn found' unclosed =>
        obtain ⟨_, drive⟩ := untimed?_alike run found found'
        rw [concluded] at drive
        exact absurd (Drive.untimed_eq_concluded_iff.mp drive) (unclosed _)
      | @concludes _ _ _ _ result' _ found' concluded' told' =>
        obtain ⟨context, drive⟩ := untimed?_alike run found found'
        rw [concluded, concluded'] at drive
        obtain rfl := Drive.concluded.inj drive
        rw [context] at told' ⊢
        obtain ⟨same, same'⟩ := result_alike told told'
        have results : Except.map RunResult.undated (.ok result' : Except Failure RunResult) =
            Except.map RunResult.undated (.ok result) := congrArg Except.ok same
        exact ⟨⟨means, idle (.finish purpose results) (concluding_undated same same'), rfl⟩,
          by simp⟩
  | @finish purpose result result' same =>
    obtain ⟨rfl, _⟩ := stage
    cases decides with
    | refuses unclaimed => contradiction
    | abandons claimed =>
      cases claimed
      cases decides' with
      | keeps | refuses => contradiction
      | abandons claimed =>
        cases claimed
        obtain rfl := Except.error.inj same
        exact ⟨⟨means, idle (.answer rfl) rfl, rfl⟩, Iff.rfl⟩
    | keeps kept =>
      cases kept
      cases decides' with
      | refuses | abandons => contradiction
      | keeps kept =>
        cases kept
        have undated := Except.ok.inj same
        refine ⟨⟨means, idle (.answer ?_) ?_, rfl⟩, Iff.rfl⟩
        · exact congrArg (Answer.handled .resumed ∘ some) undated
        · exact keep_undated d undated

/-- Acts of two errands abreast leave them abreast, and what is recorded and pending of their
execution remains the same up to timestamps. -/
theorem act_abreast (abreast : Abreast engine other errand partner)
    (pursues : errand.Pursues engine d state since) (pursues' : partner.Pursues other d state late)
    {act act' : Act} {rest rest' : List Act} (acts : errand.acts = act :: rest)
    (acts' : partner.acts = act' :: rest') {office office' : Office}
    (record : (other.book state.execution).map RunRecord.undated =
      (engine.book state.execution).map RunRecord.undated)
    (paused : (office'.desk.paused state.execution).map Suspended.undated =
      (office.desk.paused state.execution).map Suspended.undated) :
    let stride := Stride.act engine office { errand with acts := rest } act
    let stride' := Stride.act other office' { partner with acts := rest' } act'
    Abreast stride.engine stride'.engine stride.errand stride'.errand ∧
      (stride'.signal = .finished ↔ stride.signal = .finished) ∧
      (stride'.engine.book state.execution).map RunRecord.undated =
        (stride.engine.book state.execution).map RunRecord.undated ∧
      (stride'.office.desk.paused state.execution).map Suspended.undated =
        (stride.office.desk.paused state.execution).map Suspended.undated := by
  obtain ⟨means, ⟨same, decision, delivery, isCancelled⟩, run⟩ := abreast
  rw [acts, acts', List.map_cons, List.map_cons, List.cons.injEq] at same
  obtain ⟨first, left⟩ := same
  obtain ⟨still, runs, goes⟩ := act.aside engine office { errand with acts := rest }
  obtain ⟨still', runs', goes'⟩ := act'.aside other office' { partner with acts := rest' }
  have book := (pursues.acts act (acts ▸ List.mem_cons_self)).book engine office
    { errand with acts := rest } state.execution
  have book' := (pursues'.acts act' (acts' ▸ List.mem_cons_self)).book other office'
    { partner with acts := rest' } state.execution
  refine ⟨⟨still'.trans (means.trans still.symm), ?_, ?_⟩, by rw [goes, goes'], ?_, ?_⟩
  · rw [act_errand, act_errand]
    exact ⟨left, decision, delivery, isCancelled⟩
  · have untimed {engine after : Engine} (runs : after.runs = engine.runs) :
        after.untimed? = engine.untimed? := by
      funext run
      rw [Engine.untimed?, Engine.untimed?, Engine.run?_congr runs]
    rw [act_errand, act_errand, untimed runs, untimed runs']
    exact run
  · have amended (engine : Engine) (act : Act) :
        ((engine.book state.execution).map fun record =>
            if engine.means.settles then act.amend state.execution record else record).map
              RunRecord.undated =
          ((engine.book state.execution).map RunRecord.undated).map fun record =>
            if engine.means.settles then act.undated.amend state.execution record else record := by
      rw [Option.map_map, Option.map_map]
      refine Option.map_congr fun record _ => ?_
      simp only [Function.comp]
      split
      · exact act.amend_undated state.execution record
      · rfl
    rw [book, book', amended, amended, record, first, means]
  · rw [act_paused, act_paused, Act.suspend_undated, Act.suspend_undated, paused, first]

end Stride

namespace Site

/-- The errand has not broken down. -/
def IsSound (site : Site) (id : Nat) : Bool :=
  (site.office.errand? id).all fun errand => !errand.decision.isBroken

/-- The errand does not break down in a course. -/
def StaysSound (site : Site) (id : Nat) : List Beat → Bool
  | [] => true
  | first :: rest => (site.beat id first).IsSound id && (site.beat id first).StaysSound id rest

/-- What the errand answers at a beat. -/
def answersAt (site : Site) (id : Nat) : Beat → List Answer
  | .turn => (site.answered (.move (.turn id))).map (·.2)
  | _ => []

/-- What the errand answers in a course. -/
def answersIn (site : Site) (id : Nat) : List Beat → List Answer
  | [] => []
  | first :: rest => site.answersAt id first ++ (site.beat id first).answersIn id rest

/-- The errand does not get on with a beat, and neither does its run. -/
def isIdle (site : Site) (id : Nat) : Beat → Bool
  | .turn => (site.office.errand? id).all (·.isHeldUp site.engine)
  | .branch task => (site.drives? id).all (site.engine.isHeldUp · (.branch task))
  | .pass _ | .aside .. => true

/-- The beats of a course that get the errand or its run on. -/
def progress (site : Site) (id : Nat) : List Beat → List Beat
  | [] => []
  | first :: rest =>
    let later := (site.beat id first).progress id rest
    if site.isIdle id first then later else first :: later

/-- An errand at one site has come to the same point as one at another site, and so has what is
recorded and pending of the execution that they are about. -/
structure Abreast (site other : Site) (id own : Nat) (execution : String) : Prop where
  means : other.engine.means = site.engine.means
  errands : Option.Rel (Stride.Abreast site.engine other.engine) (site.office.errand? id)
    (other.office.errand? own)
  record : (other.engine.book execution).map RunRecord.undated =
    (site.engine.book execution).map RunRecord.undated
  paused : (other.office.desk.paused execution).map Suspended.undated =
    (site.office.desk.paused execution).map Suspended.undated

variable {site other : Site} {id own : Nat} {d : Definition} {event : Event}
  {state : Suspended} {since late : Instant}

/-- A step of both errands leaves them abreast, unless one of them is held up or breaks down. -/
theorem Abreast.step (timeless : site.engine.catalog.IsTimeless)
    (abreast : site.Abreast other id own state.execution)
    (pursues : site.Pursues id d event state since)
    (pursues' : other.Pursues own d event state late)
    {errand partner : Errand} (found : site.office.errand? id = some errand)
    (found' : other.office.errand? own = some partner)
    (even : Stride.Abreast site.engine other.engine errand partner)
    (free : errand.isHeldUp site.engine = false) (free' : partner.isHeldUp other.engine = false) :
    let stride := Stride.step site.engine site.office errand
    let stride' := Stride.step other.engine other.office partner
    (stride.signal ≠ .finished → stride.errand.decision.isBroken = false) →
    (stride'.signal ≠ .finished → stride'.errand.decision.isBroken = false) →
    Stride.Abreast stride.engine stride'.engine stride.errand stride'.errand ∧
      (stride'.signal = .finished ↔ stride.signal = .finished) ∧
      (stride'.engine.book state.execution).map RunRecord.undated =
        (stride.engine.book state.execution).map RunRecord.undated ∧
      (stride'.office.desk.paused state.execution).map Suspended.undated =
        (stride.office.desk.paused state.execution).map Suspended.undated := by
  intro stride stride' whole whole'
  rcases pursues.errand errand found with ⟨rfl, matched⟩ | follows
  · rcases pursues'.errand partner found' with ⟨rfl, matched'⟩ | follows'
    · -- both of them claim the run
      simp only [stride, stride', Stride.step, Stride.decide, Stride.claim, matched, matched']
      have taken (site : Site) : (site.office.release state.execution).desk.paused
          state.execution = [] := by
        rw [Desk.paused, Office.pending?_release, if_pos rfl]
        rfl
      refine ⟨⟨abreast.means, ⟨rfl, .resume .., rfl, rfl⟩, rfl⟩, trivial, abreast.record, ?_⟩
      rw [taken, taken]
    · have stage := follows'.decision
      have alike : (Decision.claim d event).Matches partner.decision := even.alike.decision
      generalize partner.decision = decision at alike stage
      cases alike
      exact stage.elim
  · rcases pursues'.errand partner found' with ⟨rfl, matched'⟩ | follows'
    · have stage := follows.decision
      have alike : errand.decision.Matches (.claim d event) := even.alike.decision
      generalize errand.decision = decision at alike stage
      cases alike
      exact stage.elim
    · have same := even.alike.acts
      cases acts : errand.acts with
      | nil =>
        rw [acts, List.map_nil, List.map_eq_nil_iff] at same
        simp only [stride, stride', Stride.step, acts, same] at whole whole' ⊢
        obtain ⟨turns, _⟩ :=
          Stride.decide_pursues pursues.numbered pursues.recent follows site.office
        obtain ⟨turns', _⟩ :=
          Stride.decide_pursues pursues'.numbered pursues'.recent follows' other.office
        obtain ⟨even, ends⟩ := Stride.decide_abreast timeless pursues.numbered pursues'.numbered
          even follows follows' acts same free free' site.office other.office whole whole'
        refine ⟨even, ends, ?_, ?_⟩
        · rw [Engine.book_of_ledger turns.ledger, Engine.book_of_ledger turns'.ledger]
          exact abreast.record
        · rw [turns.office, turns'.office]
          exact abreast.paused
      | cons act rest =>
        cases acts' : partner.acts with
        | nil =>
          rw [acts, acts'] at same
          contradiction
        | cons act' rest' =>
          simp only [stride, stride', Stride.step, acts, acts']
          exact Stride.act_abreast even follows follows' acts acts' abreast.record abreast.paused

/-- A turn of both errands leaves them abreast, unless one of them is held up or breaks down. -/
theorem Abreast.turn (timeless : site.engine.catalog.IsTimeless)
    (abreast : site.Abreast other id own state.execution)
    (pursues : site.Pursues id d event state since)
    (pursues' : other.Pursues own d event state late)
    (free : site.isIdle id .turn = false) (free' : other.isIdle own .turn = false)
    (sound : (site.turn id).IsSound id = true) (sound' : (other.turn own).IsSound own = true) :
    (site.turn id).Abreast (other.turn own) id own state.execution ∧
      (other.answersAt own .turn).map Answer.undated =
        (site.answersAt id .turn).map Answer.undated := by
  have errands := abreast.errands
  rw [isIdle] at free free'
  cases found : site.office.errand? id with
  | none =>
    rw [found] at free
    contradiction
  | some errand =>
    rw [found] at errands free
    cases found' : other.office.errand? own with
    | none =>
      rw [found'] at free'
      contradiction
    | some partner =>
      rw [found'] at errands free'
      obtain ⟨even⟩ := errands
      have takes := takesTurn found
      have takes' := takesTurn found'
      have step := abreast.step timeless pursues pursues' found found' even free free'
      simp only [answersAt, answered, found, found']
      generalize Stride.step site.engine site.office errand = stride at *
      generalize Stride.step other.engine other.office partner = stride' at *
      obtain ⟨even, ends, record, paused⟩ := step
        (fun goes => by simpa [IsSound, takes.goes goes] using sound)
        (fun goes => by simpa [IsSound, takes'.goes goes] using sound')
      have answers := even.alike.answer?
      refine ⟨⟨?_, ?_, ?_, ?_⟩, ?_⟩
      · rw [takes.engine, takes'.engine]
        exact even.means
      · by_cases finished : stride.signal = .finished
        · rw [takes.ends finished, takes'.ends (ends.mpr finished)]
          exact .none
        · rw [takes.goes finished, takes'.goes (mt ends.mp finished), takes.engine, takes'.engine]
          exact .some even
      · rw [takes.engine, takes'.engine]
        exact record
      · rw [takes.desk, takes'.desk]
        exact paused
      · by_cases finished : stride.signal = .finished
        · simp only [finished, ends.mpr finished, if_true]
          cases told : stride.errand.answer? <;> cases told' : stride'.errand.answer? <;>
            simp_all
        · simp only [finished, mt ends.mp finished, if_false]

/-- Nothing has changed that an errand and its run depend on. -/
structure Still (site after : Site) (id : Nat) : Prop where
  means : after.engine.means = site.engine.means
  book : after.engine.book = site.engine.book
  desk : after.office.desk = site.office.desk
  errand : after.office.errand? id = site.office.errand? id
  run : ∀ run, site.drives? id = some run → after.engine.run? run = site.engine.run? run

theorem Still.refl (site : Site) (id : Nat) : site.Still site id :=
  ⟨rfl, rfl, rfl, rfl, fun _ _ => rfl⟩

theorem Still.untimed? {after : Site} (still : site.Still after id) {errand : Errand}
    (found : site.office.errand? id = some errand) :
    errand.run?.bind after.engine.untimed? = errand.run?.bind site.engine.untimed? := by
  cases drives : errand.run? with
  | none => rfl
  | some run =>
    have own : site.drives? id = some run := by rw [drives?, found, Option.bind_some, drives]
    exact congrArg (Option.map Run.untimed) (still.run run own)

/-- A step of a run that leaves the run of the errand as it is. -/
theorem still_branch {run : Nat} {task : TaskId}
    (same : ∀ own, site.drives? id = some own →
      (site.engine.stepRun run task).1.run? own = site.engine.run? own) :
    site.Still ⟨(site.engine.stepRun run task).1, site.office⟩ id where
  means := site.engine.means_stepRun run task
  book := Engine.book_of_ledger (site.engine.stepRun_keeps run task).2
  desk := rfl
  errand := rfl
  run := same

/-- A beat with which an errand does not get on leaves the errand and its run as they are. -/
theorem still_of_isIdle (tended : ∀ errand, site.office.errand? id = some errand →
      errand.IsTended site.engine) {next : Beat} (idle : site.isIdle id next = true) :
    site.Still (site.beat id next) id ∧ site.answersAt id next = [] := by
  have mine {run : Nat} (drives : site.drives? id = some run) (found : Run)
      (there : site.engine.run? run = some found) : found.Tended := by
    obtain ⟨errand, here, drives⟩ := Option.bind_eq_some_iff.mp drives
    exact tended errand here run found drives there
  cases next with
  | pass millis => exact ⟨⟨rfl, rfl, rfl, rfl, fun _ _ => rfl⟩, rfl⟩
  | aside run task =>
    refine ⟨?_, rfl⟩
    by_cases own : site.drives? id = some run
    · simp only [Site.beat, move?, if_pos own]
      exact .refl site id
    · simp only [Site.beat, move?, if_neg own]
      refine still_branch fun other drives => ?_
      rw [Engine.run?_stepRun, if_neg]
      rintro rfl
      exact own drives
  | branch task =>
    refine ⟨?_, rfl⟩
    cases drives : site.drives? id with
    | none =>
      simp only [Site.beat, move?, drives]
      exact .refl site id
    | some run =>
      simp only [Site.beat, move?, drives]
      rw [isIdle, drives] at idle
      refine still_branch fun other again => ?_
      cases drives.symm.trans again
      exact (Engine.run?_of_isHeldUp (mine drives) idle).1
  | turn =>
    change site.Still (site.turn id) id ∧ _
    cases found : site.office.errand? id with
    | none =>
      have still : site.turn id = site := by simp only [Site.turn, found]
      rw [still]
      exact ⟨.refl site id, by simp [answersAt, answered, found]⟩
    | some errand =>
      rw [isIdle, found] at idle
      obtain ⟨purpose, run, acts, decision, heldUp⟩ := errand.isHeldUp_iff.mp idle
      have drives : site.drives? id = some run := by
        rw [drives?, found, Option.bind_some, Errand.run?, decision]
      have step : Stride.step site.engine site.office errand =
          Stride.drive site.engine site.office errand purpose run := by
        simp only [Stride.step, acts, Stride.decide, decision]
      obtain ⟨same, goesOn⟩ := Engine.run?_of_isHeldUp (mine drives) heldUp
      obtain ⟨engine, office, unfinished, stays⟩ :=
        Stride.drive_eq site.engine site.office errand purpose run
      rw [if_neg (goesOn rfl)] at stays
      have takes := takesTurn found
      rw [step] at takes
      refine ⟨⟨?_, ?_, ?_, ?_, fun own drives' => ?_⟩, ?_⟩
      · rw [takes.engine, engine]
        exact site.engine.means_stepRun run .driver
      · rw [takes.engine, engine]
        exact Engine.book_of_ledger (site.engine.stepRun_keeps run .driver).2
      · rw [takes.desk, office]
      · rw [takes.goes unfinished, stays, found]
      · cases drives.symm.trans drives'
        rw [takes.engine, engine]
        exact same
      · simp only [answersAt, answered, found, step, if_neg unfinished]
        rfl

/-- Errands remain abreast where nothing changes that they depend on. -/
theorem Abreast.still {execution : String} (abreast : site.Abreast other id own execution)
    {after after' : Site} (still : site.Still after id) (still' : other.Still after' own) :
    after.Abreast after' id own execution := by
  have means := still'.means.trans (abreast.means.trans still.means.symm)
  refine ⟨means, ?_, ?_, ?_⟩
  · have errands := abreast.errands
    rw [still.errand, still'.errand]
    cases found : site.office.errand? id with
    | none =>
      rw [found] at errands
      cases found' : other.office.errand? own with
      | none => exact .none
      | some partner =>
        rw [found'] at errands
        cases errands
    | some errand =>
      rw [found] at errands
      cases found' : other.office.errand? own with
      | none =>
        rw [found'] at errands
        cases errands
      | some partner =>
        rw [found'] at errands
        obtain ⟨even⟩ := errands
        refine .some ⟨means, even.alike, ?_⟩
        rw [still.untimed? found, still'.untimed? found']
        exact even.run
  · rw [still.book, still'.book]
    exact abreast.record
  · rw [still.desk, still'.desk]
    exact abreast.paused

section Beats

variable {next : Beat} {rest : List Beat}

theorem progress_of_isIdle (idle : site.isIdle id next = true) :
    site.progress id (next :: rest) = (site.beat id next).progress id rest := if_pos idle

theorem progress_of_isBusy (busy : site.isIdle id next = false) :
    site.progress id (next :: rest) = next :: (site.beat id next).progress id rest := by
  simp only [progress, busy]
  rfl

theorem answersIn_of_silent (silent : site.answersAt id next = []) :
    site.answersIn id (next :: rest) = (site.beat id next).answersIn id rest := by
  rw [answersIn, silent, List.nil_append]

/-- A step of both runs leaves the errands abreast, unless one of them is held up. -/
theorem Abreast.branch (timeless : site.engine.catalog.IsTimeless) {execution : String}
    (abreast : site.Abreast other id own execution) {task : Nat}
    (free : site.isIdle id (.branch task) = false)
    (free' : other.isIdle own (.branch task) = false) :
    (site.beat id (.branch task)).Abreast (other.beat own (.branch task)) id own execution := by
  rw [isIdle] at free free'
  cases drives : site.drives? id with
  | none =>
    rw [drives] at free
    contradiction
  | some run =>
    cases drives' : other.drives? own with
    | none =>
      rw [drives'] at free'
      contradiction
    | some run' =>
      rw [drives, Option.all_some] at free
      rw [drives', Option.all_some] at free'
      simp only [Site.beat, move?, drives, drives']
      have catalog : other.engine.catalog = site.engine.catalog :=
        congrArg Engine.Means.catalog abreast.means
      have means := (other.engine.means_stepRun run' (.branch task)).trans
        (abreast.means.trans (site.engine.means_stepRun run (.branch task)).symm)
      refine ⟨means, ?_, ?_, abreast.paused⟩
      · obtain ⟨errand, found, own⟩ := Option.bind_eq_some_iff.mp drives
        obtain ⟨partner, found', own'⟩ := Option.bind_eq_some_iff.mp drives'
        have errands := abreast.errands
        rw [found, found'] at errands
        obtain ⟨even⟩ := errands
        have former := even.run
        rw [own, own', Option.bind_some, Option.bind_some] at former
        change Option.Rel _ (site.office.errand? id) (other.office.errand? _)
        rw [found, found']
        refine .some ⟨means, even.alike, ?_⟩
        rw [own, own', Option.bind_some, Option.bind_some]
        refine (Engine.untimed?_stepRun (catalog ▸ timeless) free').trans ?_
        rw [former, catalog]
        exact (Engine.untimed?_stepRun timeless free).symm
      · have book (site : Site) (run : Nat) :
            (site.engine.stepRun run (.branch task)).1.book = site.engine.book :=
          Engine.book_of_ledger (site.engine.stepRun_keeps run _).2
        change ((other.engine.stepRun run' (.branch task)).1.book execution).map _ =
          ((site.engine.stepRun run (.branch task)).1.book execution).map _
        rw [book, book]
        exact abreast.record

theorem Pursues.isTimeless_beat (pursues : site.Pursues id d event state since)
    (timeless : site.engine.catalog.IsTimeless) (next : Beat) :
    (site.beat id next).engine.catalog.IsTimeless := by
  have catalog : (site.beat id next).engine.catalog = site.engine.catalog :=
    congrArg Engine.Means.catalog (pursues.beat next).2.means
  rw [catalog]
  exact timeless

/-- The same beat of both errands leaves them abreast, unless one of them is idle or breaks down. -/
theorem Abreast.beat (timeless : site.engine.catalog.IsTimeless)
    (abreast : site.Abreast other id own state.execution)
    (pursues : site.Pursues id d event state since)
    (pursues' : other.Pursues own d event state late)
    (free : site.isIdle id next = false) (free' : other.isIdle own next = false)
    (sound : (site.beat id next).IsSound id = true)
    (sound' : (other.beat own next).IsSound own = true) :
    (site.beat id next).Abreast (other.beat own next) id own state.execution ∧
      (other.answersAt own next).map Answer.undated =
        (site.answersAt id next).map Answer.undated := by
  cases next with
  | turn => exact abreast.turn timeless pursues pursues' free free' sound sound'
  | branch task => exact ⟨abreast.branch timeless free free', rfl⟩
  | _ => contradiction

/-- Through two courses that get the errands on by the same beats they remain abreast, unless one of
them breaks down. -/
theorem Abreast.beats (timeless : site.engine.catalog.IsTimeless)
    (abreast : site.Abreast other id own state.execution)
    (pursues : site.Pursues id d event state since)
    (pursues' : other.Pursues own d event state late)
    {course course' : List Beat} (same : other.progress own course' = site.progress id course)
    (sound : site.StaysSound id course = true) (sound' : other.StaysSound own course' = true) :
    (site.beats id course).Abreast (other.beats own course') id own state.execution ∧
      (other.answersIn own course').map Answer.undated =
        (site.answersIn id course).map Answer.undated := by
  -- on what happens at the first site; each beat that gets the errand on is met by the next one
  -- that does so at the other site
  induction course generalizing site other course' with
  | nil =>
    induction course' generalizing other with
    | nil => exact ⟨abreast, rfl⟩
    | cons next rest ih =>
      cases idle : other.isIdle own next with
      | false =>
        rw [progress_of_isBusy idle] at same
        contradiction
      | true =>
        obtain ⟨still, silent⟩ := still_of_isIdle pursues'.tended idle
        obtain ⟨_, sound'⟩ := Bool.and_eq_true_iff.mp sound'
        rw [progress_of_isIdle idle] at same
        rw [answersIn_of_silent silent]
        exact ih (abreast.still (.refl site id) still) (pursues'.beat next).1 same sound'
  | cons first rest outer =>
    have onward := pursues.isTimeless_beat timeless first
    obtain ⟨now, sound⟩ := Bool.and_eq_true_iff.mp sound
    cases idle : site.isIdle id first with
    | true =>
      obtain ⟨still, silent⟩ := still_of_isIdle pursues.tended idle
      rw [progress_of_isIdle idle] at same
      rw [answersIn_of_silent silent]
      exact outer onward (abreast.still still (.refl other own)) (pursues.beat first).1 pursues'
        same sound sound'
    | false =>
      rw [progress_of_isBusy idle] at same
      induction course' generalizing other with
      | nil => contradiction
      | cons next rest' inner =>
        obtain ⟨now', sound'⟩ := Bool.and_eq_true_iff.mp sound'
        cases idle' : other.isIdle own next with
        | true =>
          obtain ⟨still, silent⟩ := still_of_isIdle pursues'.tended idle'
          rw [progress_of_isIdle idle'] at same
          rw [answersIn_of_silent silent]
          exact inner (abreast.still (.refl site id) still) (pursues'.beat next).1 same sound'
        | false =>
          rw [progress_of_isBusy idle'] at same
          obtain ⟨rfl, same⟩ := List.cons.inj same
          obtain ⟨even, answers⟩ :=
            abreast.beat timeless pursues pursues' idle idle' now now'
          obtain ⟨further, more⟩ := outer onward even (pursues.beat next).1 (pursues'.beat next).1
            same sound sound'
          refine ⟨further, ?_⟩
          rw [answersIn, answersIn, List.map_append, List.map_append, answers, more]

/-- Nothing gets an errand on that is done. -/
theorem progress_of_done (done : site.office.errand? id = none) (course : List Beat) :
    site.progress id course = [] := by
  induction course generalizing site with
  | nil => rfl
  | cons next rest ih =>
    have idle : site.isIdle id next = true := by cases next <;> simp [isIdle, drives?, done]
    obtain ⟨still, _⟩ := still_of_isIdle (fun errand found => by simp [done] at found) idle
    rw [progress_of_isIdle idle]
    exact ih (still.errand.trans done)

theorem Abreast.done {execution : String} (abreast : site.Abreast other id own execution) :
    other.office.errand? own = none ↔ site.office.errand? id = none := by
  have errands := abreast.errands
  generalize site.office.errand? id = errand at errands
  generalize other.office.errand? own = partner at errands
  cases errands <;> simp

/-- Where no branch takes part, the errands get on by the same beats in any two courses in which
both of them come to their end, unless one of them breaks down. -/
theorem Abreast.progress_eq (timeless : site.engine.catalog.IsTimeless)
    (abreast : site.Abreast other id own state.execution)
    (pursues : site.Pursues id d event state since)
    (pursues' : other.Pursues own d event state late)
    {course course' : List Beat} (alone : ∀ next ∈ site.progress id course, next = .turn)
    (alone' : ∀ next ∈ other.progress own course', next = .turn)
    (done : (site.beats id course).office.errand? id = none)
    (done' : (other.beats own course').office.errand? own = none)
    (sound : site.StaysSound id course = true) (sound' : other.StaysSound own course' = true) :
    other.progress own course' = site.progress id course := by
  induction course generalizing site other course' with
  | nil => exact progress_of_done (abreast.done.mpr done) course'
  | cons first rest outer =>
    have onward := pursues.isTimeless_beat timeless first
    obtain ⟨now, sound⟩ := Bool.and_eq_true_iff.mp sound
    cases idle : site.isIdle id first with
    | true =>
      obtain ⟨still, _⟩ := still_of_isIdle pursues.tended idle
      rw [progress_of_isIdle idle] at alone ⊢
      exact outer onward (abreast.still still (.refl other own)) (pursues.beat first).1 pursues'
        alone alone' done done' sound sound'
    | false =>
      rw [progress_of_isBusy idle] at alone ⊢
      obtain ⟨rfl, alone⟩ := List.forall_mem_cons.mp alone
      induction course' generalizing other with
      | nil => simp [isIdle, abreast.done.mp done'] at idle
      | cons next rest' inner =>
        obtain ⟨now', sound'⟩ := Bool.and_eq_true_iff.mp sound'
        cases idle' : other.isIdle own next with
        | true =>
          obtain ⟨still, _⟩ := still_of_isIdle pursues'.tended idle'
          rw [progress_of_isIdle idle'] at alone' ⊢
          exact inner (abreast.still (.refl site id) still) (pursues'.beat next).1 alone' done'
            sound'
        | false =>
          rw [progress_of_isBusy idle'] at alone' ⊢
          obtain ⟨rfl, alone'⟩ := List.forall_mem_cons.mp alone'
          obtain ⟨even, _⟩ := abreast.beat timeless pursues pursues' idle idle' now now'
          exact congrArg _ (outer onward even (pursues.beat .turn).1 (pursues'.beat .turn).1 alone
            alone' done done' sound sound')

end Beats

end Site

end DurableFlow
