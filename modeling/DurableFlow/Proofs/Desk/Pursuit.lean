import DurableFlow.Proofs.Desk.Attempts
import DurableFlow.Proofs.Run.Timeless
import DurableFlow.Proofs.Run.Undated

/-!
# An errand that pursues one run

An errand that has claimed a run for an event has to do with nothing else up to its answer.
`Site.beats` lets it take its turns, while branches take theirs and time passes, and nothing else is
asked of the office. Then all that is recorded and pending of other executions remains as it is, and
if the run becomes pending again, it has been suspended no earlier than the errand began.
-/

namespace DurableFlow

namespace Engine

/-- What an engine works with: its procedures, the limit of a pass, the instant that it counts from,
and what its ledger refuses. -/
structure Means where
  catalog : Catalog
  limit : Nat
  epoch : Instant
  failing : Option (List LedgerCall)

def means (engine : Engine) : Means :=
  ⟨engine.catalog, engine.limit, engine.epoch, engine.ledger.map Ledger.failing⟩

/-- The outcomes of runs are not refused. -/
def Means.settles (means : Means) : Bool :=
  means.failing.all fun failing => !failing.contains .settleRun

variable {engine : Engine}

theorem means_write {change : Ledger → Except Failure Ledger}
    (still : ∀ ledger next, change ledger = .ok next → next.failing = ledger.failing) :
    (engine.write change).means = engine.means := by
  rw [write]
  split
  · rfl
  · rename_i ledger known
    split
    · rename_i next written
      simp only [means, known, Option.map_some, still ledger next written]
    · rfl

theorem runs_write (engine : Engine) (change : Ledger → Except Failure Ledger) :
    (engine.write change).runs = engine.runs := by
  rw [write]
  repeat' split
  all_goals rfl

/-- A step of a run does not change the means of its engine. -/
theorem means_stepRun (engine : Engine) (id : Nat) (task : TaskId) :
    (engine.stepRun id task).1.means = engine.means := by
  have performed (context : Context) (effects : List Effect) (engine : Engine) :
      (effects.foldl (perform context) engine).means = engine.means := by
    induction effects generalizing engine with
    | nil => rfl
    | cons effect rest ih =>
      have first : (perform context engine effect).means = engine.means := by
        cases effect <;> rfl
      exact (ih _).trans first
  rw [stepRun]
  split
  · rfl
  · exact performed _ _ _

/-- The outcome of a run is recorded unless outcomes are refused. -/
theorem book_settleRun (engine : Engine) (execution : String) (outcome : RunOutcome) :
    (engine.write (·.settleRun execution outcome)).book =
      if engine.means.settles then engine.book.settle execution outcome else engine.book := by
  cases known : engine.ledger with
  | none =>
    have nothing : engine.book = fun _ => none := by
      funext other
      simp [book, known]
    simp [write, known, nothing, Book.settle]
  | some ledger =>
    have serves : engine.means.settles = ledger.serves .settleRun := by
      simp [means, Means.settles, known, Ledger.serves]
    rw [serves]
    by_cases served : ledger.serves .settleRun = true
    · rw [book_settleRun_of_serves known served, if_pos served]
    · simp only [write, known, Ledger.settleRun, served]
      rfl

/-- The instants that are given out never decrease. -/
theorem atMost_now {after : Engine} (means : after.means = engine.means)
    (later : engine.moments ≤ after.moments) :
    engine.moment.now.atMost after.moment.now = true := by
  have epoch : after.epoch = engine.epoch := congrArg Means.epoch means
  rw [Instant.atMost_iff]
  simp only [moment, epoch]
  omega

end Engine

namespace Act

/-- What an act makes of the record of an execution. -/
def amend (execution : String) (record : RunRecord) : Act → RunRecord
  | .settleRun settled outcome =>
    if execution = settled then record.settle outcome else record
  | _ => record

/-- The act enters no record and settles that of one execution at most, and what it makes pending is
that execution, suspended at some instant or later. -/
def Pursues (execution : String) (since : Instant) : Act → Prop
  | .saveRun _ => False
  | .settleRun settled _ => settled = execution
  | .arm _ state => state.execution = execution ∧ since.atMost state.pausedAt = true
  | _ => True

variable {execution : String} {since : Instant} {act : Act}

/-- Whatever act is carried out, what the engine works with is the same, and so are its runs. -/
theorem aside (act : Act) (engine : Engine) (office : Office) (errand : Errand) :
    let stride := Stride.act engine office errand act
    stride.engine.means = engine.means ∧ stride.engine.runs = engine.runs ∧
      stride.signal = .proceed := by
  have written : ∀ change : Ledger → Except Failure Ledger,
      (∀ ledger next, change ledger = .ok next → next.failing = ledger.failing) →
      (engine.write change).means = engine.means ∧ (engine.write change).runs = engine.runs ∧
        Signal.proceed = .proceed :=
    fun change still => ⟨Engine.means_write still, engine.runs_write change, rfl⟩
  cases act with
  | saveRun | settleRun | saveSuspended | deleteSuspended | saveSubscription
  | deleteSubscription =>
    refine written _ fun ledger next done => ?_
    simp only [Ledger.saveRun, Ledger.settleRun, Ledger.saveSuspended, Ledger.deleteSuspended,
      Ledger.saveSubscription, Ledger.deleteSubscription] at done
    repeat' split at done
    all_goals cases done
    rfl
  | arm d state =>
    let learned : Office := { office with desk := office.desk.learnNew d }
    have armed : (Stride.armed engine learned state).1.means = engine.means ∧
        (Stride.armed engine learned state).1.runs = engine.runs := by
      rw [Stride.armed]
      split <;> exact ⟨rfl, rfl⟩
    exact ⟨armed.1, armed.2, rfl⟩
  | publish | count | register | unregister => exact ⟨rfl, rfl, rfl⟩

/-- What an act leaves of the record of an execution. -/
theorem Pursues.book (pursues : act.Pursues execution since) (engine : Engine) (office : Office)
    (errand : Errand) (other : String) :
    (Stride.act engine office errand act).engine.book other =
      (engine.book other).map fun record =>
        if engine.means.settles then act.amend other record else record := by
  have same : (engine.book other).map (fun record =>
      if engine.means.settles then record else record) = engine.book other := by
    simp
  have aside (change : Ledger → Except Failure Ledger)
      (still : ∀ ledger next, change ledger = .ok next → next.runs = ledger.runs) :
      (engine.write change).book other = engine.book other := by
    rw [Engine.write]
    split
    · rfl
    · rename_i ledger known
      split
      · rename_i next written
        simp [Engine.book, known, Ledger.book, still ledger next written]
      · rfl
  cases act with
  | saveRun record => exact pursues.elim
  | settleRun settled outcome =>
    refine (congrFun (engine.book_settleRun settled outcome) other).trans ?_
    cases engine.means.settles with
    | false => simp
    | true =>
      simp only [if_true, Book.settle, Function.update_apply, amend]
      split
      · rename_i is
        rw [is]
      · simp
  | saveSuspended | deleteSuspended | saveSubscription | deleteSubscription =>
    refine (aside _ fun ledger next done => ?_).trans same.symm
    simp only [Ledger.saveSuspended, Ledger.deleteSuspended, Ledger.saveSubscription,
      Ledger.deleteSubscription] at done
    split at done <;> cases done
    rfl
  | arm d state =>
    refine Eq.trans ?_ same.symm
    exact congrFun (Engine.book_of_ledger (Stride.armed_keeps engine
      { office with desk := office.desk.learnNew d } state).2) other
  | publish | count | register | unregister => exact same.symm

end Act

/-- The decision is one of an errand that has claimed a run with this state for a definition. The
pass is one of the same execution, and so is the state that it has come to. -/
def Decision.Pursues (engine : Engine) (d : Definition) (state : Suspended) (since : Instant) :
    Decision → Prop
  | .resume purpose _ claimed _ _ => purpose = .resumed d state ∧ claimed = state
  | .drive purpose run | .conclude purpose run =>
    purpose = .resumed d state ∧ run < engine.nextRun ∧
      ∀ execution, engine.owner? run = some execution → execution = state.execution
  | .finish purpose result =>
    purpose = .resumed d state ∧ ∀ told kept, result = .ok told → told.suspended = some kept →
      kept.execution = state.execution ∧ since.atMost kept.pausedAt = true
  | .answer _ => True
  | _ => False

/-- The errand has claimed a run with this state, and has to do with no other. -/
structure Errand.Pursues (engine : Engine) (d : Definition) (state : Suspended) (since : Instant)
    (errand : Errand) : Prop where
  alone : errand.delivery = none
  acts : ∀ act ∈ errand.acts, act.Pursues state.execution since
  decision : errand.decision.Pursues engine d state since

/-- Whatever the engine does, the errand pursues its run. -/
theorem Errand.Pursues.extending {engine after : Engine} {d : Definition} {state : Suspended}
    {since : Instant} {errand : Errand} (pursues : errand.Pursues engine d state since)
    (extending : engine.Extends after) : errand.Pursues after d state since := by
  obtain ⟨alone, acts, stage⟩ := pursues
  refine ⟨alone, acts, ?_⟩
  have owned {run : Nat} (old : run < engine.nextRun)
      (own : ∀ execution, engine.owner? run = some execution → execution = state.execution) :
      run < after.nextRun ∧
        ∀ execution, after.owner? run = some execution → execution = state.execution := by
    refine ⟨old.trans_le extending.nextRun_le, fun execution owner => own execution ?_⟩
    rcases extending.owner run old with same | closed
    · rw [← same, owner]
    · rw [closed] at owner
      contradiction
  cases decision : errand.decision with
  | drive purpose run | conclude purpose run =>
    rw [decision] at stage
    exact ⟨stage.1, owned stage.2.1 stage.2.2⟩
  | _ =>
    rw [decision] at stage
    exact stage

/-- The run that the errand drives is tended. -/
def Errand.IsTended (engine : Engine) (errand : Errand) : Prop :=
  ∀ run found, errand.run? = some run → engine.run? run = some found → found.Tended

theorem Errand.isTended_of_idle {engine : Engine} {errand : Errand} (idle : errand.run? = none) :
    errand.IsTended engine := fun run found drives => by simp [idle] at drives

theorem Errand.IsTended.of_run? {engine : Engine} {errand later : Errand}
    (tended : errand.IsTended engine) (same : later.run? = errand.run?) : later.IsTended engine :=
  fun run found drives => tended run found (same ▸ drives)

theorem Errand.IsTended.stepRun {engine : Engine} {errand : Errand}
    (tended : errand.IsTended engine) (run : Nat) (task : TaskId) :
    errand.IsTended (engine.stepRun run task).1 := by
  intro own found drives there
  rw [Engine.run?_stepRun] at there
  split at there
  · rename_i same
    obtain ⟨before, here, rfl⟩ := Option.map_eq_some_iff.mp there
    have steps := Run.move_transition engine.catalog before
      (.step task engine.surroundings.moment engine.surroundings.clock)
    exact (tended own before drives (same ▸ here)).transition steps
  · exact tended own found drives there

namespace Stride

variable {engine : Engine} {office : Office} {errand : Errand} {d : Definition}
  {state : Suspended} {since : Instant}

/-- What a decision is about leaves the desk, the ledger and the means of the engine as they are. -/
structure Turns (engine : Engine) (office : Office) (stride : Stride) : Prop where
  office : stride.office = office
  ledger : stride.engine.ledger = engine.ledger
  means : stride.engine.means = engine.means

/-- What is done with a result of the run concerns its execution only. -/
theorem keep_pursues {execution : String} (other : Definition) {told : RunResult}
    (late : ∀ kept, told.suspended = some kept →
      kept.execution = execution ∧ since.atMost kept.pausedAt = true) :
    ∀ act ∈ keep other told, act.Pursues execution since := by
  intro act member
  cases suspended : told.suspended with
  | none => simp [keep, suspended] at member
  | some kept =>
    have about := late kept suspended
    simp only [keep, suspended, List.mem_cons, List.not_mem_nil, or_false] at member
    rcases member with rfl | rfl
    · trivial
    · exact about

/-- A decision of an errand that pursues a run. -/
theorem decide_pursues (numbered : engine.Numbered)
    (recent : since.atMost engine.moment.now = true)
    (pursues : errand.Pursues engine d state since) (office : Office) :
    Turns engine office (decide engine office errand) ∧
      (decide engine office errand).errand.Pursues (decide engine office errand).engine d state
        since := by
  have whole := pursues
  obtain ⟨alone, _, stage⟩ := pursues
  have goes {after : Engine} {acts : List Act} {decision : Decision}
      (about : ∀ act ∈ acts, act.Pursues state.execution since)
      (stage : decision.Pursues after d state since) :
      (errand.go acts decision).Pursues after d state since := ⟨alone, about, stage⟩
  have idle : ∀ act ∈ ([] : List Act), act.Pursues state.execution since :=
    fun act member => absurd member List.not_mem_nil
  have means (run : Nat) := engine.means_stepRun run .driver
  have ledger (run : Nat) := (engine.stepRun_keeps run .driver).2
  have later (run : Nat) := whole.extending (numbered.stepRun run .driver)
  have decides := decide_decides engine office errand
  generalize decide engine office errand = stride at decides ⊢
  generalize decision : errand.decision = decision at decides stage
  cases decides with
  | ends => exact ⟨⟨rfl, rfl, rfl⟩, whole⟩
  | handsOn more => exact absurd (alone.symm.trans more) (Option.some_ne_none _).symm
  | resumeRefused =>
    obtain ⟨rfl, rfl⟩ := stage
    refine ⟨⟨rfl, rfl, rfl⟩, goes idle ⟨rfl, fun told kept is => ?_⟩⟩
    cases is
  | resumes =>
    obtain ⟨rfl, rfl⟩ := stage
    refine ⟨⟨rfl, rfl, rfl⟩, goes ?_ ⟨rfl, Nat.lt_succ_self _, fun execution owner => ?_⟩⟩
    · simp [Act.Pursues]
    · exact (Option.some.inj ((numbered.owner?_adopt _).symm.trans owner)).symm
  | @drives _ run => exact ⟨⟨rfl, ledger run, means run⟩, later run⟩
  | @drivesHome _ run =>
    have stage := (later run).decision
    rw [decision] at stage
    exact ⟨⟨rfl, ledger run, means run⟩, goes idle stage⟩
  | runMissing => exact ⟨⟨rfl, rfl, rfl⟩, rfl, idle, trivial⟩
  | drivesOn => exact ⟨⟨rfl, rfl, rfl⟩, goes idle stage⟩
  | breaksDown => exact ⟨⟨rfl, rfl, rfl⟩, rfl, idle, trivial⟩
  | @concludes _ run process _ result happening found concluded told =>
    obtain ⟨rfl, _, own⟩ := stage
    have mine : process.context.execution = state.execution :=
      own _ (by rw [Engine.owner?, found]; rfl)
    have same : result.execution = state.execution :=
      (Conclusion.kept_of_result told).1.1.trans mine
    refine ⟨⟨rfl, rfl, rfl⟩, goes (by simp [concluding, Act.Pursues, same]) ⟨rfl, ?_⟩⟩
    intro _ kept is suspended
    cases is
    obtain ⟨_, paused⟩ := captured_of_result told suspended
    exact ⟨(execution_of_result told suspended).trans mine, paused ▸ recent⟩
  | tells | refuses => exact ⟨⟨rfl, rfl, rfl⟩, goes idle trivial⟩
  | keeps =>
    exact ⟨⟨rfl, rfl, rfl⟩, goes (keep_pursues _ fun kept => stage.2 _ kept rfl) trivial⟩
  | abandons claimed =>
    obtain ⟨rfl, _⟩ := stage
    cases claimed
    exact ⟨⟨rfl, rfl, rfl⟩, goes (by simp [abandon, fail, Act.Pursues]) trivial⟩
  | _ => exact stage.elim

/-- The pass of an errand goes on until there is nothing left to do. -/
theorem drive_eq (engine : Engine) (office : Office) (errand : Errand) (purpose : Purpose)
    (run : Nat) :
    (drive engine office errand purpose run).engine = (engine.stepRun run .driver).1 ∧
      (drive engine office errand purpose run).office = office ∧
      (drive engine office errand purpose run).signal ≠ .finished ∧
      (drive engine office errand purpose run).errand =
        if (engine.stepRun run .driver).2.2 = .finished then errand.go [] (.conclude purpose run)
        else errand := by
  simp only [drive]
  cases (engine.stepRun run .driver).2.2 <;> simp

/-- A decision of an errand that pursues a run leaves its run tended. -/
theorem decide_isTended (numbered : engine.Numbered) (tended : errand.IsTended engine)
    (pursues : errand.Pursues engine d state since) (office : Office) :
    (decide engine office errand).errand.IsTended (decide engine office errand).engine := by
  have stage := pursues.decision
  have decides := decide_decides engine office errand
  generalize decide engine office errand = stride at decides ⊢
  generalize decision : errand.decision = decision at decides stage
  cases decides with
  | ends => exact tended
  | drives => exact tended.stepRun _ .driver
  | drivesHome =>
    exact (tended.stepRun _ .driver).of_run? (by rw [Errand.run?, Errand.run?, decision]; rfl)
  | drivesOn => exact tended.of_run? (by rw [Errand.run?, Errand.run?, decision]; rfl)
  | @resumes _ other claimed _ delta next =>
    intro run found drives there
    cases drives
    cases (Engine.run?_adopt numbered _).symm.trans there
    obtain ⟨unique, numbered, arrived, complete, single, nested⟩ :=
      Run.Tended.start other (claimed.toContext delta) engine.limit next
    exact ⟨unique, numbered, arrived, complete, single, nested⟩
  | handsOn | resumeRefused | runMissing | breaksDown | concludes | tells | refuses | keeps
  | abandons => exact Errand.isTended_of_idle rfl
  | _ => exact stage.elim

/-- What an act that is about one execution leaves of what is pending. -/
theorem pending?_act {execution : String} {act : Act} (pursues : act.Pursues execution since)
    (engine : Engine) (office : Office) (errand : Errand) :
    let desk := (Stride.act engine office errand act).office.desk
    (∀ other, other ≠ execution → desk.pending? other = office.desk.pending? other) ∧
      ∀ pending, desk.pending? execution = some pending →
        office.desk.pending? execution = some pending ∨
          since.atMost pending.state.pausedAt = true := by
  obtain ⟨_, still, arms⟩ := act_desk engine office errand act
  intro desk
  by_cases arming : ∃ d state, act = .arm d state
  · obtain ⟨d, state, rfl⟩ := arming
    obtain ⟨rfl, late⟩ := pursues
    have held (other : String) : desk.pending? other = if other = state.execution then
        some ⟨state, office.nextAlarm? state⟩ else office.desk.pending? other := by
      rw [show desk = _ from arms d state rfl, Desk.pending?_hold]
      exact congrArg (ite _ _) ((learnNew_agrees office d).toSamePauses.pending? other)
    refine ⟨fun other foreign => by rw [held, if_neg foreign], fun pending found => .inr ?_⟩
    rw [held, if_pos rfl] at found
    cases found
    exact late
  · rw [show desk = _ from still fun d state is => arming ⟨d, state, is⟩]
    exact ⟨fun _ _ => rfl, fun _ => .inl⟩

end Stride

namespace Site

/-- What happens while an errand is at work, and nothing else is asked of its office. -/
inductive Beat where
  /-- The errand takes a turn. -/
  | turn
  /-- A branch of the run that the errand drives takes a step. -/
  | branch (id : Nat)
  /-- Some milliseconds pass. -/
  | pass (millis : Nat)
  /-- A branch of another run takes a step, one that nobody waits for any more. -/
  | aside (run id : Nat)
deriving DecidableEq

/-- The run that an errand drives. -/
def drives? (site : Site) (id : Nat) : Option Nat := (site.office.errand? id).bind Errand.run?

/-- The move that a beat comes to. -/
def move? (site : Site) (id : Nat) : Beat → Option Move
  | .turn => some (.turn id)
  | .branch task => (site.drives? id).map (.branch · task)
  | .pass millis => some (.pass (site.engine.clock + millis))
  | .aside run task => if site.drives? id = some run then none else some (.branch run task)

/-- The site after a beat. -/
def beat (site : Site) (id : Nat) (beat : Beat) : Site :=
  ((site.move? id beat).map site.move).getD site

/-- The site after all beats of a course. -/
def beats (site : Site) (id : Nat) (course : List Beat) : Site := course.foldl (beat · id ·) site

/-- The errand is about to handle an event that is meant for a run with this state, or has claimed
this run. The instant is past. -/
structure Pursues (site : Site) (id : Nat) (d : Definition) (event : Event) (state : Suspended)
    (since : Instant) : Prop where
  numbered : site.engine.Numbered
  recent : since.atMost site.engine.moment.now = true
  errand : ∀ errand, site.office.errand? id = some errand →
    errand = { decision := .claim d event } ∧
        site.office.desk.match? d.id event = some state ∨
      errand.Pursues site.engine d state since
  tended : ∀ errand, site.office.errand? id = some errand → errand.IsTended site.engine

/-- Nothing has changed in what is recorded and pending of other executions, and what has become
pending of this one has been suspended at some instant or later. -/
structure KeepsTo (site after : Site) (execution : String) (since : Instant) : Prop where
  means : after.engine.means = site.engine.means
  records : ∀ other, other ≠ execution → after.engine.book other = site.engine.book other
  pauses : ∀ other, other ≠ execution →
    after.office.desk.pending? other = site.office.desk.pending? other
  late : ∀ pending, after.office.desk.pending? execution = some pending →
    site.office.desk.pending? execution = some pending ∨ since.atMost pending.state.pausedAt = true

variable {site middle after : Site} {id : Nat} {d : Definition} {event : Event}
  {state : Suspended} {execution : String} {since : Instant}

namespace KeepsTo

/-- Neither the desk nor the ledger is touched. -/
theorem aside (means : after.engine.means = site.engine.means)
    (ledger : after.engine.ledger = site.engine.ledger)
    (desk : after.office.desk = site.office.desk) : site.KeepsTo after execution since where
  means := means
  records other _ := congrFun (Engine.book_of_ledger ledger) other
  pauses other _ := by rw [desk]
  late pending found := .inl (desk ▸ found)

theorem refl (site : Site) : site.KeepsTo site execution since := .aside rfl rfl rfl

theorem trans (first : site.KeepsTo middle execution since)
    (second : middle.KeepsTo after execution since) : site.KeepsTo after execution since where
  means := second.means.trans first.means
  records other foreign := (second.records other foreign).trans (first.records other foreign)
  pauses other foreign := (second.pauses other foreign).trans (first.pauses other foreign)
  late pending found := (second.late pending found).elim (first.late pending) .inr

end KeepsTo

namespace Pursues

/-- Something happens in which the errand has no part. -/
theorem aside (pursues : site.Pursues id d event state since)
    (extending : site.engine.Extends after.engine) (means : after.engine.means = site.engine.means)
    (runs : ∀ errand : Errand, errand.IsTended site.engine → errand.IsTended after.engine)
    (same : after.office = site.office) : after.Pursues id d event state since where
  numbered := extending.numbered
  recent := Instant.atMost_trans pursues.recent (Engine.atMost_now means extending.moments_le)
  errand errand found := by
    rw [same] at found ⊢
    exact (pursues.errand errand found).imp_right (·.extending extending)
  tended errand found := runs errand (pursues.tended errand (same ▸ found))

/-- What a step of the errand makes of the site. -/
theorem step {errand : Errand} (pursues : site.Pursues id d event state since)
    (found : site.office.errand? id = some errand) :
    let stride := Stride.step site.engine site.office errand
    stride.errand.Pursues stride.engine d state since ∧ stride.errand.IsTended stride.engine ∧
      site.KeepsTo ⟨stride.engine, stride.office⟩ state.execution since := by
  have extending := Stride.step_extends pursues.numbered site.office errand
  rcases pursues.errand errand found with ⟨rfl, matched⟩ | follows
  · -- the run is claimed
    simp only [Stride.step, Stride.decide, Stride.claim, matched]
    refine ⟨⟨rfl, by simp [Errand.go, Act.Pursues], rfl, rfl⟩, Errand.isTended_of_idle rfl, rfl,
      fun _ _ => rfl, fun other foreign => ?_, fun pending there => ?_⟩
    · exact (Office.pending?_release site.office state.execution other).trans (if_neg foreign)
    · rw [Office.pending?_release, if_pos rfl] at there
      contradiction
  · cases acts : errand.acts with
    | nil =>
      obtain ⟨turns, later⟩ :=
        Stride.decide_pursues pursues.numbered pursues.recent follows site.office
      simp only [Stride.step, acts]
      have tended := Stride.decide_isTended pursues.numbered (pursues.tended errand found) follows
        site.office
      exact ⟨later, tended, .aside turns.means turns.ledger (congrArg Office.desk turns.office)⟩
    | cons act rest =>
      have about := follows.acts act (acts ▸ List.mem_cons_self)
      have left : ({ errand with acts := rest } : Errand).Pursues site.engine d state since :=
        ⟨follows.alone,
          fun other member => follows.acts other (acts ▸ List.mem_cons_of_mem _ member),
          follows.decision⟩
      obtain ⟨pauses, late⟩ := Stride.pending?_act about site.engine site.office
        { errand with acts := rest }
      have book := about.book site.engine site.office { errand with acts := rest }
      obtain ⟨means, runs, _⟩ := act.aside site.engine site.office { errand with acts := rest }
      simp only [Stride.step, acts] at extending ⊢
      refine ⟨?_, ?_, means, fun other foreign => ?_, pauses, late⟩
      · rw [Stride.act_errand]
        exact left.extending extending
      · rw [Stride.act_errand]
        intro run process drives there
        rw [Engine.run?_congr runs] at there
        exact pursues.tended errand found run process drives there
      · have same : ∀ record, act.amend other record = record := by
          intro record
          cases act with
          | settleRun settled outcome => exact if_neg fun is => foreign (is.trans about)
          | _ => rfl
        rw [book]
        simp only [same, ite_self, Option.map_id']

/-- The errand takes a turn. -/
theorem turn (pursues : site.Pursues id d event state since) :
    (site.turn id).Pursues id d event state since ∧
      site.KeepsTo (site.turn id) state.execution since := by
  cases found : site.office.errand? id with
  | none =>
    have still : site.turn id = site := by simp only [Site.turn, found]
    rw [still]
    exact ⟨pursues, .refl site⟩
  | some errand =>
    have takes := takesTurn found
    have extending := Stride.step_extends pursues.numbered site.office errand
    have turned := pursues.step found
    generalize Stride.step site.engine site.office errand = stride at *
    obtain ⟨follows, tended, keepsTo⟩ := turned
    refine ⟨⟨takes.engine ▸ extending.numbered, ?_, fun next there => ?_, fun next there => ?_⟩, ?_⟩
    · rw [takes.engine]
      exact Instant.atMost_trans pursues.recent
        (Engine.atMost_now keepsTo.means extending.moments_le)
    · by_cases ends : stride.signal = .finished
      · rw [takes.ends ends] at there
        contradiction
      · cases (takes.goes ends).symm.trans there
        rw [takes.engine]
        exact .inr follows
    · by_cases ends : stride.signal = .finished
      · rw [takes.ends ends] at there
        contradiction
      · cases (takes.goes ends).symm.trans there
        rw [takes.engine]
        exact tended
    · obtain ⟨means, records, pauses, late⟩ := keepsTo
      exact ⟨takes.engine ▸ means, takes.engine ▸ records, takes.desk ▸ pauses,
        takes.desk ▸ late⟩

/-- Whatever beat it is, the errand keeps to its run. -/
theorem beat (pursues : site.Pursues id d event state since) (beat : Beat) :
    (site.beat id beat).Pursues id d event state since ∧
      site.KeepsTo (site.beat id beat) state.execution since := by
  have branch (run task : Nat) :
      (site.move (.branch run task)).Pursues id d event state since ∧
        site.KeepsTo (site.move (.branch run task)) state.execution since := by
    have means := site.engine.means_stepRun run (.branch task)
    have tended := fun errand (tended : Errand.IsTended site.engine errand) =>
      tended.stepRun run (.branch task)
    exact ⟨pursues.aside (pursues.numbered.stepRun run (.branch task)) means tended rfl,
      .aside means (site.engine.stepRun_keeps run (.branch task)).2 rfl⟩
  cases beat with
  | turn => exact pursues.turn
  | branch task =>
    cases drives : site.drives? id with
    | none =>
      simp only [Site.beat, move?, drives]
      exact ⟨pursues, .refl site⟩
    | some run =>
      simp only [Site.beat, move?, drives]
      exact branch run task
  | pass millis =>
    exact ⟨pursues.aside (pursues.numbered.extends_of_runs rfl rfl (Nat.le_refl _)) rfl
      (fun _ tended => tended) rfl, .aside rfl rfl rfl⟩
  | aside run task =>
    by_cases own : site.drives? id = some run
    · simp only [Site.beat, move?, if_pos own]
      exact ⟨pursues, .refl site⟩
    · simp only [Site.beat, move?, if_neg own]
      exact branch run task

/-- Through a whole course the errand keeps to its run. -/
theorem beats (pursues : site.Pursues id d event state since) (course : List Beat) :
    (site.beats id course).Pursues id d event state since ∧
      site.KeepsTo (site.beats id course) state.execution since := by
  induction course generalizing site with
  | nil => exact ⟨pursues, .refl site⟩
  | cons first rest ih =>
    obtain ⟨later, keeps⟩ := pursues.beat first
    obtain ⟨last, further⟩ := ih later
    exact ⟨last, keeps.trans further⟩

end Pursues

end Site

end DurableFlow
