import DurableFlow.Proofs.Desk.Aftercare
import DurableFlow.Proofs.Desk.Routing

/-!
# What becomes of a run when its wait is over

The errand that ends a wait takes the run out of the pending ones and out of the ledger. What it
does then is up to the policy: the run is dropped, or is recorded as failed, or goes on at the node
that its wait names. `waits_lapse` says so case by case, and that a run which is not dropped is not
lost: once the errand is done, the run is pending again or its record tells of an end. That is so
unless the errand breaks down because the deadline of a further wait leaves the calendar, and
`lapsed_run_lost` is a case of that. All this holds wherever an alarm may ring
(`expiring_undergone`).
-/

namespace DurableFlow

namespace Engine

variable {engine middle after : Engine} {execution : String}

/-- An engine has forgotten a suspended run. Nothing else has changed but what is counted. -/
structure Forgets (engine after : Engine) (execution : String) : Prop where
  same : after = { engine with ledger := after.ledger, metrics := after.metrics }
  book : engine.Serves → after.Serves ∧ after.book = engine.book
  stored : engine.Serves → ∀ other,
    after.stored other = if other = execution then [] else engine.stored other

/-- An engine has recorded a suspended run as failed, with the outputs and the history that it was
suspended with, and has published one event that tells of the failure. Nothing else has changed but
what is counted. -/
structure Fails (engine after : Engine) (state : Suspended) (error : String) : Prop where
  same : after = { engine with
    ledger := after.ledger
    metrics := after.metrics
    notices := ⟨state.workflow, state.execution, .failed error⟩ :: engine.notices }
  book : engine.Serves → after.book = engine.book.settle state.execution
    (Stride.endOutcome engine.moment.now state .failed error)

theorem Forgets.moment (forgets : engine.Forgets after execution) :
    after.moment = engine.moment := by
  rw [forgets.same]
  rfl

/-- A run may be recorded as failed once it is forgotten. -/
theorem Forgets.fails {state : Suspended} {error : String}
    (forgets : engine.Forgets middle execution) (fails : middle.Fails after state error) :
    engine.Fails after state error where
  same := by
    have later := fails.same
    rw [forgets.same] at later
    exact later
  book serves := by
    obtain ⟨serving, book⟩ := forgets.book serves
    rw [fails.book serving, book, forgets.moment]

/-- A write changes nothing but the ledger. -/
theorem exists_write (engine : Engine) (change : Ledger → Except Failure Ledger) :
    ∃ ledger, engine.write change = { engine with ledger } := by
  rw [write]
  repeat' split
  all_goals exact ⟨_, rfl⟩

end Engine

/-- The policy has a run dropped: in any case, or because its wait names no node to go on at, or
because nobody knows its workflow any more. -/
def Desk.Drops (desk : Desk) (state : Suspended) : Prop :=
  desk.policy = .drop ∨
    desk.policy = .transition ∧
      (state.deadlineNode = none ∨ desk.definition? state.workflow = none)

namespace Stride

/-- The acts that are queued first whenever a wait is over. -/
def forget (policy : TimeoutPolicy) (execution : String) : List Act :=
  [.deleteSuspended execution, .count (.timeout policy)]

/-- The acts that the policy adds, and the decision that comes after them. -/
def lapse (desk : Desk) (now : Instant) (state : Suspended) : List Act × Decision :=
  match desk.policy with
  | .drop => ([], .answer .nothing)
  | .fail => (fail now state (timeoutText state), .answer .nothing)
  | .transition =>
    match state.deadlineNode, desk.definition? state.workflow with
    | some node, some d => ([], .resume (.expired d state) d state (some node) [])
    | _, _ => ([], .answer .nothing)

variable {engine : Engine} {office : Office} {errand : Errand} {execution : String}
  {state : Suspended} {alarm : Option Nat} {now : Instant}

theorem lapse_of_drops {desk : Desk} (dropped : desk.Drops state) :
    lapse desk now state = ([], .answer .nothing) := by
  rcases dropped with policy | ⟨policy, nowhere | unknown⟩
  · simp only [lapse, policy]
  · simp only [lapse, policy, nowhere]
  · simp only [lapse, policy, unknown]
    cases state.deadlineNode <;> rfl

theorem lapse_of_fail {desk : Desk} (policy : desk.policy = .fail) :
    lapse desk now state = (fail now state (timeoutText state), .answer .nothing) := by
  simp only [lapse, policy]

theorem lapse_of_transition {desk : Desk} {node : String} {d : Definition}
    (policy : desk.policy = .transition) (named : state.deadlineNode = some node)
    (known : desk.definition? state.workflow = some d) :
    lapse desk now state = ([], .resume (.expired d state) d state (some node) []) := by
  simp only [lapse, policy, named, known]

theorem expire_eq (found : office.desk.pending? execution = some ⟨state, alarm⟩) :
    expire engine office errand execution =
      ⟨showPending engine (office.release execution), office.release execution,
        errand.go (forget office.desk.policy execution ++
            (lapse office.desk engine.moment.now state).1)
          (lapse office.desk engine.moment.now state).2, .proceed, []⟩ := by
  have known : (office.release execution).desk.definition? state.workflow =
      office.desk.definition? state.workflow := by
    rw [Desk.definition?, Office.definitions_release]
    rfl
  simp only [expire, found, policy_release, known, lapse]
  cases office.desk.policy with
  | drop | fail => rfl
  | transition => cases state.deadlineNode <;> cases office.desk.definition? state.workflow <;> rfl

/-- The engine that has forgotten a run whose wait is over. -/
theorem forgets (engine : Engine) (office : Office) (policy : TimeoutPolicy) (execution : String) :
    engine.Forgets ((forget policy execution).foldl Act.carried (showPending engine office))
      execution := by
  let shown := showPending engine office
  have shows : engine.Serves → shown.Serves := fun serves => serves.of_ledger rfl
  refine ⟨?_, fun serves => ?_, fun serves other => ?_⟩
  · obtain ⟨ledger, written⟩ := shown.exists_write (·.deleteSuspended execution)
    have after : (forget policy execution).foldl Act.carried shown =
        { shown with ledger }.count (.timeout policy) := congrArg (Engine.count · _) written
    rw [after]
    rfl
  · exact Engine.write_book (shows serves) fun ledger next done => by
      rw [Ledger.deleteSuspended] at done
      split at done <;> cases done
      exact ⟨rfl, rfl⟩
  · exact (Engine.deleteSuspended_stored (shows serves) execution).2 other

/-- The engine that has recorded and told that a run has failed. -/
theorem fails (engine : Engine) (state : Suspended) (error : String) :
    engine.Fails ((fail engine.moment.now state error).foldl Act.carried engine) state error := by
  let outcome := endOutcome engine.moment.now state .failed error
  refine ⟨?_, fun serves => (Engine.settleRun_book serves state.execution outcome).2⟩
  obtain ⟨ledger, written⟩ := engine.exists_write (·.settleRun state.execution outcome)
  have after : (fail engine.moment.now state error).foldl Act.carried engine =
      ({ engine with ledger }.count (.run .failed)).publish
        ⟨state.workflow, state.execution, .failed error⟩ :=
    congrArg (fun engine => (Engine.count engine _).publish _) written
  rw [after]
  rfl

end Stride

namespace Site

variable {site : Site} {id : Nat} {execution : String} {state : Suspended} {alarm : Option Nat}
  {isCancelled : Bool}

/-- An errand is next to end the wait of a run, and the tables of the desk are keyed as they should
be. -/
structure Expiring (site : Site) (id : Nat) (execution : String) (isCancelled : Bool) : Prop where
  numbered : site.engine.Numbered
  map : site.office.desk.IsMap
  known : ∀ workflow d, site.office.desk.definition? workflow = some d → d.id = workflow
  used : id < site.office.nextErrand
  asked : site.office.errand? id = some { decision := .expire execution, isCancelled }

/-- The run is taken out of the pending ones and out of the ledger. However the errand goes on,
other pauses stay as they are, and so do the deployments and the known definitions. -/
structure Lapses (site : Site) (id : Nat) (execution : String) : Prop where
  takes : (site.turned id 1).office.desk = site.office.desk.take execution
  forgets : site.engine.Forgets (site.turned id 3).engine execution
  others : LeavesAlone site.office.desk (site.turned id 1) id
    (fun d => (site.office.desk.definition? d.id).isSome) (· = execution)
  known : ∀ schedule, (∀ m ∈ schedule, m.IsOf id) → ∀ workflow,
    ((site.turned id 1).play schedule).office.desk.definition? workflow =
      site.office.desk.definition? workflow

/-- After some turns more, the run is recorded as failed and the errand has nothing left to do. -/
structure GivesUp (site : Site) (id turns : Nat) (state : Suspended) (error : String) : Prop where
  settles : (site.turned id 1).Settles id turns .nothing (site.turned id (turns + 1)).engine
  fails : site.engine.Fails (site.turned id (turns + 1)).engine state error

/-- After three turns the run is pending and stored, an alarm is set if its wait has an end, and the
errand has nothing left to do. -/
structure Pauses (site : Site) (id : Nat) (again : Suspended) : Prop where
  settles : (site.turned id 3).Settles id 0 .nothing (site.turned id 3).engine
  pending : (site.turned id 3).office.desk.pending? again.execution =
    some ⟨again, site.office.nextAlarm? again⟩
  stored : site.engine.Serves → again ∈ (site.turned id 3).engine.stored again.execution
  alarm : ∀ alarm, site.office.nextAlarm? again = some alarm →
    ⟨alarm, again.execution⟩ ∈ (site.turned id 3).office.alarms
  /-- The alarm is to ring when the wait is over. -/
  timer : ∃ errand, (site.turned id 2).office.errand? id = some errand ∧
    ∀ nanos, again.remaining site.engine.moment.now = some nanos →
      (Stride.step (site.turned id 2).engine (site.turned id 2).office errand).requests =
        [.alarm site.office.nextAlarm (Stride.millisCovering nanos)]

/-- The errand lets the run go on at the node, with nothing to put over its variables, as the engine
does when it is asked for that and for nothing else. If the run may not go on there, the errand
gives it up. When the run has gone on and is suspended again, it becomes pending. -/
structure Continues (site : Site) (id : Nat) (d : Definition) (state : Suspended) (node : String)
    (isCancelled : Bool) : Prop where
  resumes : (site.turned id 3).Requests id (.expired d state)
    (fun purpose => .resume purpose d state (some node) []) isCancelled
  begins : (d.node? node).isSome → d.problems site.engine.catalog.knows = [] →
    (site.turned id 4).engine.runs = site.engine.runs ++ [(site.engine.nextRun,
      { Run.start d (state.toContext []) site.engine.limit [node] with isCancelled })]
  unknown : d.node? node = none →
    site.GivesUp id 7 state ("resume failed: " ++ (Failure.unknownNode node).message)
  invalid : (d.node? node).isSome → ∀ problems, d.problems site.engine.catalog.knows = problems →
    problems ≠ [] →
      site.GivesUp id 7 state ("resume failed: " ++ (Failure.invalid problems).message)
  ends : ∀ schedule result isCancelled, let after := (site.turned id 3).play schedule
    after.office.errand? id =
        some { decision := .finish (.expired d state) (.ok result), isCancelled } →
      (result.suspended = none → after.Settles id 1 .nothing after.engine) ∧
        ∀ again, result.suspended = some again →
          again.execution = state.execution ∧ after.Pauses id again

/-- A run that is suspended again becomes pending. -/
theorem pauses {site : Site} {d : Definition} {result : RunResult} {again : Suspended}
    (found : site.office.errand? id =
      some { decision := .finish (.expired d state) (.ok result), isCancelled })
    (suspended : result.suspended = some again) : site.Pauses id again := by
  let learned : Office := { site.office with desk := site.office.desk.learnNew d }
  let saved := site.engine.write (·.saveSuspended again)
  let answer : Errand := { decision := .answer .nothing, isCancelled }
  let arms : Errand := { answer with acts := [.arm d again] }
  have there : (site.office.errand? id).isSome := Option.isSome_of_eq_some found
  have keeps : Stride.step site.engine site.office
      { decision := .finish (.expired d state) (.ok result), isCancelled } =
        ⟨site.engine, site.office, { arms with acts := [.saveSuspended again, .arm d again] },
          .proceed, []⟩ := by
    simp only [Stride.step, Stride.decide, Stride.finish, Stride.keep, suspended]
    rfl
  have one : site.turned id 1 = ⟨site.engine, site.office.setErrand id
      { arms with acts := [.saveSuspended again, .arm d again] }⟩ := (move_found found keeps).1
  have two : site.turned id 2 = ⟨saved, site.office.setErrand id arms⟩ := by
    rw [turned_add site id 1 1, one]
    exact move_set there rfl
  let armed := Stride.armed saved learned again
  have steps : Stride.step saved site.office arms =
      ⟨Stride.showPending armed.1 armed.2.1, armed.2.1, answer, .proceed, armed.2.2⟩ := rfl
  have three : site.turned id 3 =
      ⟨Stride.showPending armed.1 armed.2.1, armed.2.1.setErrand id answer⟩ := by
    rw [turned_add site id 2 1, two]
    exact move_set there steps
  have office : armed.2.1 = learned.arm again := Stride.armed_office saved learned again
  have held : (armed.2.1.errand? id).isSome := by
    rw [office]
    exact Office.isSome_errand?_of_errands there (learned.arm_errands again)
  have ledger : (Stride.showPending armed.1 armed.2.1).ledger = saved.ledger :=
    (Stride.armed_keeps saved learned again).2
  have now : saved.moment = site.engine.moment := by
    obtain ⟨ledger, written⟩ := site.engine.exists_write (·.saveSuspended again)
    have same := congrArg Engine.moment written
    exact same
  refine ⟨?_, ?_, fun serves => ?_, fun alarm set => ?_, arms, ?_, fun nanos remaining => ?_⟩
  · rw [three]
    exact settles_set held rfl
  · rw [three]
    show armed.2.1.desk.pending? again.execution = _
    rw [office, Office.pending?_arm, if_pos rfl]
    rfl
  · rw [three, Engine.stored_of_ledger ledger, (Engine.saveSuspended_stored serves again).2,
      if_pos rfl]
    exact List.mem_cons_self
  · rw [three]
    show _ ∈ armed.2.1.alarms
    obtain ⟨due, deadline, rfl⟩ := Option.map_eq_some_iff.mp set
    rw [office]
    simp [Office.arm, deadline, learned]
  · rw [two]
    exact errand?_set there arms
  · have timed : armed.2.2 = [.alarm site.office.nextAlarm (Stride.millisCovering nanos)] := by
      simp only [armed, Stride.armed, now, remaining]
      rfl
    rw [two, step_set]
    exact timed

/-- Whatever error it is that the errand is to record of a run that is forgotten, it does so. -/
theorem givesUp (turns : Nat) {office : Office} {start middle : Engine} {errand : Errand}
    {error : String} (there : (office.errand? id).isSome)
    (one : site.turned id 1 = ⟨start, office.setErrand id errand⟩)
    (forgets : site.engine.Forgets middle execution)
    (fails : site.turned id (1 + turns) = ⟨middle, office.setErrand id
      { acts := Stride.fail site.engine.moment.now state error, decision := .answer .nothing,
        isCancelled }⟩) : site.GivesUp id (turns + 3) state error := by
  let after := (Stride.fail site.engine.moment.now state error).foldl Act.carried middle
  have failed : middle.Fails after state error := by
    have failed := Stride.fails middle state error
    rw [forgets.moment] at failed
    exact failed
  have ends : site.turned id (1 + (turns + 3)) =
      ⟨after, office.setErrand id { decision := .answer .nothing, isCancelled }⟩ := by
    rw [← Nat.add_assoc, turned_add site id (1 + turns) 3, fails]
    exact play_acts middle (by simp [Stride.fail, Act.isPlain]) there
      { decision := .answer .nothing, isCancelled }
  have engine : (site.turned id (turns + 3 + 1)).engine = after := by
    rw [Nat.add_comm (turns + 3) 1, ends]
  refine ⟨?_, engine ▸ forgets.fails failed⟩
  rw [engine]
  rw [turned_add, one] at ends
  rw [one]
  exact settles_set there ends

namespace Expiring

variable (expiring : site.Expiring id execution isCancelled)
include expiring

/-- If nothing waits, nothing is done. -/
theorem idle (absent : site.office.desk.pending? execution = none) :
    site.Settles id 1 .nothing site.engine := by
  have nothing : Stride.step site.engine site.office
      { decision := .expire execution, isCancelled } =
        ⟨site.engine, site.office, { decision := .answer .nothing, isCancelled }, .proceed,
          []⟩ := by
    simp only [Stride.step, Stride.decide, Stride.expire, absent]
    rfl
  obtain ⟨one, there⟩ := move_found expiring.asked nothing
  exact settles one there

variable (found : site.office.desk.pending? execution = some ⟨state, alarm⟩)
include found

/-- The run is taken out of the pending ones, and the errand has the acts and the decision before it
that the policy asks for. -/
theorem turned_one : site.turned id 1 =
    ⟨Stride.showPending site.engine (site.office.release execution),
      (site.office.release execution).setErrand id
        { acts := Stride.forget site.office.desk.policy execution ++
            (Stride.lapse site.office.desk site.engine.moment.now state).1
          decision := (Stride.lapse site.office.desk site.engine.moment.now state).2
          isCancelled }⟩ ∧ ((site.office.release execution).errand? id).isSome :=
  move_found expiring.asked (Stride.expire_eq found)

/-- The run is forgotten. -/
theorem turned_three : site.engine.Forgets (site.turned id 3).engine execution ∧ site.turned id 3 =
    ⟨(site.turned id 3).engine, (site.office.release execution).setErrand id
      { acts := (Stride.lapse site.office.desk site.engine.moment.now state).1
        decision := (Stride.lapse site.office.desk site.engine.moment.now state).2
        isCancelled }⟩ := by
  obtain ⟨one, there⟩ := expiring.turned_one found
  let shown := Stride.showPending site.engine (site.office.release execution)
  let forget := Stride.forget site.office.desk.policy execution
  let lapsed := Stride.lapse site.office.desk site.engine.moment.now state
  have three : site.turned id 3 = ⟨forget.foldl Act.carried shown,
      (site.office.release execution).setErrand id
        { acts := lapsed.1, decision := lapsed.2, isCancelled }⟩ := by
    rw [turned_add site id 1 2, one]
    exact play_acts_append shown lapsed.1 (by simp [Stride.forget, Act.isPlain]) there
      { decision := lapsed.2, isCancelled }
  rw [three]
  exact ⟨Stride.forgets .., rfl⟩

/-- The errand has to do with no run but this. -/
theorem confines : (site.turned id 1).Confines id
    (fun d => (site.office.desk.definition? d.id).isSome) (· = execution) := by
  obtain ⟨one, there⟩ := expiring.turned_one found
  rw [one]
  refine ⟨(Stride.showPending_extends expiring.numbered _).numbered,
    (Office.release_nextErrand ..).symm ▸ expiring.used, fun errand asked => ?_⟩
  cases (errand?_set there _).symm.trans asked
  unfold Stride.lapse
  split
  · exact .answer rfl _ _
  · exact .answer rfl _ _
  · split
    · rename_i node d _ known
      refine .resume rfl _ (expiring.map.execution found) fun own is => ?_
      cases is
      rw [expiring.known _ d known, known]
      rfl
    · exact .answer rfl _ _

theorem lapses : site.Lapses id execution := by
  obtain ⟨one, there⟩ := expiring.turned_one found
  have takes : (site.turned id 1).office.desk = site.office.desk.take execution := by
    rw [one]
    exact Office.release_desk found
  have leaves : site.office.desk.Leaves (site.turned id 1).office.desk
      (fun d => (site.office.desk.definition? d.id).isSome) (· = execution) := by
    rw [takes]
    exact .take rfl
  have others := (expiring.confines found).leavesAlone leaves
  exact ⟨takes, (expiring.turned_three found).1, others, fun schedule own =>
    (others.whole schedule own).definition?_eq fun _ known => known⟩

/-- A run that the policy drops is forgotten and nothing else. -/
theorem drops (dropped : site.office.desk.Drops state) :
    (site.turned id 1).Settles id 2 .nothing (site.turned id 3).engine := by
  obtain ⟨one, there⟩ := expiring.turned_one found
  have three := (expiring.turned_three found).2
  rw [Stride.lapse_of_drops dropped] at three
  rw [turned_add site id 1 2] at three ⊢
  rw [one] at three ⊢
  exact settles_set there three

/-- Under the policy that fails such runs, the run is given up. -/
theorem fails (policy : site.office.desk.policy = .fail) :
    site.GivesUp id 5 state (Stride.timeoutText state) := by
  obtain ⟨one, there⟩ := expiring.turned_one found
  obtain ⟨forgets, three⟩ := expiring.turned_three found
  rw [Stride.lapse_of_fail policy] at three
  exact givesUp 2 there one forgets three

variable {node : String} {d : Definition}

/-- A run that may not go on is given up. -/
theorem refused (policy : site.office.desk.policy = .transition)
    (named : state.deadlineNode = some node)
    (known : site.office.desk.definition? state.workflow = some d) {failure : Failure}
    (refuses : Stride.checkResume site.engine d state (some node) = .error failure) :
    site.GivesUp id 7 state ("resume failed: " ++ failure.message) := by
  obtain ⟨one, there⟩ := expiring.turned_one found
  obtain ⟨forgets, three⟩ := expiring.turned_three found
  rw [Stride.lapse_of_transition policy named known] at three
  generalize (site.turned id 3).engine = middle at forgets three
  -- forgetting the run changes nothing that it is checked against
  have again : Stride.checkResume middle d state (some node) = .error failure := by
    rw [← refuses, forgets.same]
    rfl
  have four : site.turned id 4 = ⟨middle, (site.office.release execution).setErrand id
      { decision := .finish (.expired d state) (.error failure), isCancelled }⟩ := by
    have finishes : Stride.step middle (site.office.release execution)
        { decision := .resume (.expired d state) d state (some node) [], isCancelled } =
          ⟨middle, site.office.release execution,
            { decision := .finish (.expired d state) (.error failure), isCancelled }, .proceed,
            []⟩ := by
      simp only [Stride.step, Stride.decide, Stride.resume, again]
      rfl
    rw [turned_add site id 3 1, three]
    exact move_set there finishes
  have five : site.turned id 5 = ⟨middle, (site.office.release execution).setErrand id
      { acts := Stride.abandon site.engine.moment.now state failure, decision := .answer .nothing,
        isCancelled }⟩ := by
    rw [turned_add site id 4 1, four, ← forgets.moment]
    exact move_set there rfl
  exact givesUp 4 there one forgets five

/-- Under the policy that has such runs go on, the run goes on at its node. -/
theorem continues (policy : site.office.desk.policy = .transition)
    (named : state.deadlineNode = some node)
    (known : site.office.desk.definition? state.workflow = some d) :
    site.Continues id d state node isCancelled := by
  obtain ⟨_, there⟩ := expiring.turned_one found
  obtain ⟨forgets, three⟩ := expiring.turned_three found
  have own : state.workflow = d.id := (expiring.known _ d known).symm
  have mine : state.execution = execution := expiring.map.execution found
  rw [Stride.lapse_of_transition policy named known] at three
  refine ⟨?_, fun stands fine => ?_, fun missing => ?_, fun stands problems wrong nonempty => ?_,
    ?_⟩
  · refine requests (three ▸ ?_) rfl rfl (three ▸ errand?_set there _)
    exact (Office.release_nextErrand ..).symm ▸ expiring.used
  · obtain ⟨target, stands⟩ := Option.isSome_iff_exists.mp stands
    generalize (site.turned id 3).engine = middle at forgets three
    have valid : middle.validate d = .ok () := by
      rw [forgets.same]
      exact (site.engine.validate_eq d).trans (if_pos fine)
    let run (limit : Nat) := { Run.start d (state.toContext []) limit [node] with isCancelled }
    obtain ⟨next, steps⟩ : ∃ next, Stride.step middle (site.office.release execution)
        { decision := .resume (.expired d state) d state (some node) [], isCancelled } =
          ⟨(middle.adopt (run middle.limit)).2, site.office.release execution, next, .proceed,
            []⟩ := by
      simp only [Stride.step, Stride.decide, Stride.resume, Stride.checkResume, Stride.resumePoint,
        stands, valid, if_pos own]
      exact ⟨_, rfl⟩
    rw [turned_add site id 3 1, three]
    refine (congrArg (fun site => site.engine.runs) (move_set there steps)).trans ?_
    rw [forgets.same]
    rfl
  · refine expiring.refused found policy named known ?_
    simp only [Stride.checkResume, Stride.resumePoint, missing]
  · refine expiring.refused found policy named known ?_
    obtain ⟨target, stands⟩ := Option.isSome_iff_exists.mp stands
    have invalid : site.engine.validate d = .error (.invalid problems) := by
      rw [Engine.validate_eq, if_neg (wrong ▸ nonempty), wrong]
    simp only [Stride.checkResume, Stride.resumePoint, stands, invalid]
  · intro schedule result isCancelled after asked
    refine ⟨fun done => ?_, fun again suspended => ⟨?_, pauses asked suspended⟩⟩
    · have answers : Stride.step after.engine after.office
          { decision := .finish (.expired d state) (.ok result), isCancelled } =
            ⟨after.engine, after.office, { decision := .answer .nothing, isCancelled }, .proceed,
              []⟩ := by
        simp only [Stride.step, Stride.decide, Stride.finish, Stride.keep, done]
        rfl
      obtain ⟨one, there⟩ := move_found asked answers
      exact settles one there
    · -- the errand is still about the one run that it has taken out in its first turn
      have confines := ((expiring.confines found).play (List.replicate 2 (.turn id))).play schedule
      have confined := confines.errand _ asked
      have charged : { execution := again.execution } ∈ Errand.charges after.engine
          { decision := .finish (.expired d state) (.ok result), isCancelled } := by
        rw [Errand.charges]
        simp [Decision.charge?, suspended]
      exact (confined.charges _ charged).trans mine.symm

/-- A run that is not dropped is seen to. -/
theorem tended (kept : ¬ site.office.desk.Drops state) (serves : site.engine.Serves)
    (recorded : (site.engine.book execution).isSome) : (site.turned id 1).Tended id execution := by
  obtain ⟨one, there⟩ := expiring.turned_one found
  have mine : state.execution = execution := expiring.map.execution found
  rw [one]
  refine ⟨serves.of_ledger rfl, fun errand asked => ?_, fun gone => ?_⟩
  · cases (errand?_set there _).symm.trans asked
    cases policy : site.office.desk.policy with
    | drop => exact absurd (.inl policy) kept
    | fail =>
      rw [Stride.lapse_of_fail policy]
      subst mine
      exact .inr (.inl (Book.ended_settle recorded rfl))
    | transition =>
      cases named : state.deadlineNode with
      | none => exact absurd (.inr ⟨policy, .inl named⟩) kept
      | some node =>
        cases known : site.office.desk.definition? state.workflow with
        | none => exact absurd (.inr ⟨policy, .inr known⟩) kept
        | some d =>
          rw [Stride.lapse_of_transition policy named known]
          exact ⟨congrArg some mine, mine, recorded⟩
  · rw [errand?_set there] at gone
    contradiction

end Expiring

/-- Wherever an office has come to, when an alarm rings that has not been stopped, an errand ends
the wait of its run and takes its first turn at once. -/
theorem expiring_undergone (catalog : Catalog) (limit : Nat) (ledger : Option Ledger)
    (epoch : Instant) (policy : TimeoutPolicy) (history : List Occurrence) (asked : Nat)
    {alarm : Alarm} :
    let site := (opened catalog limit ledger epoch policy).undergo history
    let due := takeOn ⟨site.engine, site.office.silence (some asked)⟩
      { decision := .expire alarm.execution }
    site.office.alarms.find? (·.id == asked) = some alarm →
      (site.office.silence (some asked)).isOpen = true →
        due.Expiring site.office.nextErrand alarm.execution false ∧
          site.ring asked = due.turned site.office.nextErrand 1 := by
  intro site due rings isOpen
  have coherent : due.Coherent :=
    (((Coherent.opened catalog limit ledger epoch policy).undergo history).silence
      (some asked)).takeOn (.free rfl trivial trivial rfl)
  have counted := (Counted.opened catalog limit ledger epoch policy).undergo history
  have asks : due.office.errand? site.office.nextErrand =
      some { decision := .expire alarm.execution, isCancelled := false } := by
    have absent : site.office.errands.lookup site.office.nextErrand = none :=
      counted _ (Nat.le_refl _)
    simp [due, takeOn, Office.takeOn, Office.errand?, Office.silence, List.lookup_append, absent]
  refine ⟨⟨coherent.numbered, coherent.desk.isMap, coherent.desk.definitions,
    ((counted.silence _).takeOn _).used asks, asks⟩, ?_⟩
  rw [ring, rings]
  exact if_pos isOpen

/-- An errand is next to end the wait of a run. If the run is not pending, nothing is changed and
nothing published. If it is, it is taken out of the pending runs and out of the ledger, and nothing
else that is pending, deployed or known is touched. Where the policy drops the run, no more is done.
Where the policy fails it, it is recorded and told of as failed. Where the policy has it go on at a
node, it does so as when the engine is asked for that, unless it may not go on there; then it is
recorded and told of as failed too; and if it is suspended again, it becomes pending again. So a run
that is not dropped is pending again or has an end on record once the errand is done, unless the
errand breaks down. -/
theorem waits_lapse (expiring : site.Expiring id execution isCancelled) :
    let desk := site.office.desk
    (desk.pending? execution = none → site.Settles id 1 .nothing site.engine) ∧
      ∀ state alarm, desk.pending? execution = some ⟨state, alarm⟩ →
        site.Lapses id execution ∧
        (desk.Drops state → (site.turned id 1).Settles id 2 .nothing (site.turned id 3).engine) ∧
        (desk.policy = .fail → site.GivesUp id 5 state (Stride.timeoutText state)) ∧
        (∀ node d, desk.policy = .transition → state.deadlineNode = some node →
          desk.definition? state.workflow = some d → site.Continues id d state node isCancelled) ∧
        (¬ desk.Drops state → site.engine.Serves → (site.engine.book execution).isSome →
          ∀ schedule, (site.turned id 1).Along (Attends id) schedule →
            let after := (site.turned id 1).play schedule
            after.office.errand? id = none →
              (after.office.desk.pending? execution).isSome ∨
                after.engine.book.Ended execution) := by
  refine ⟨expiring.idle, fun state alarm found => ⟨expiring.lapses found, expiring.drops found,
    expiring.fails found, fun node d => expiring.continues found, ?_⟩⟩
  intro kept serves recorded schedule attends after done
  have tended := expiring.tended found kept serves recorded
  exact (tended.play (expiring.confines found) attends).done done

/-- A workflow that waits a second time when nothing has answered the first time. -/
def persistent (durationMs : Nat) : Definition where
  id := "persistent"
  name := "persistent"
  start := "first"
  nodes := [
    { id := "first", kind := .await ["go"] none (some ⟨1000, some "again"⟩) },
    { id := "again", kind := .await ["go"] none (some ⟨durationMs, none⟩) }]

/-- What a run of it waits for at first. -/
def patience : Suspended :=
  { firstWait with workflow := "persistent", deadlineNode := some "again" }

/-- The run is pending, stored and recorded, and an errand is next to end a wait. -/
def overdue (policy : TimeoutPolicy) (durationMs : Nat) (execution : String) : Site where
  engine :=
    { catalog := []
      ledger := some
        { runs := [{ RunRecord.started patience.execution "persistent" patience.startedAt with
            status := .paused }]
          suspended := [patience] }
      epoch := ⟨1, 7⟩ }
  office :=
    { desk :=
        { policy
          definitions := [("persistent", persistent durationMs)]
          pending := [(patience.execution, ⟨patience, some 0⟩)] }
      errands := [(0, { decision := .expire execution })]
      nextErrand := 1
      nextAlarm := 1 }

theorem expiring_overdue (policy : TimeoutPolicy) (durationMs : Nat) (execution : String) :
    (overdue policy durationMs execution).Expiring 0 execution false where
  numbered := ⟨List.nodup_nil, List.forall_mem_nil _⟩
  map := ⟨List.nodup_singleton _, by simp [overdue]⟩
  known workflow d found := by
    have only : ∀ fields, Fields.get? [("persistent", fields)] workflow = some d →
        fields = d ∧ "persistent" = workflow := by
      simp [Fields.get?_cons, eq_comm]
    obtain ⟨rfl, rfl⟩ := only (persistent durationMs) found
    rfl
  used := Nat.zero_lt_one
  asked := rfl

/-- Nothing happens to a run that does not wait; and one that does is dropped, given up, or waits
once more. -/
theorem waits_lapse_overdue :
    (overdue .fail 1000 "nobody").Settles 0 1 .nothing (overdue .fail 1000 "nobody").engine ∧
      ((overdue .drop 1000 patience.execution).turned 0 1).Settles 0 2 .nothing
        ((overdue .drop 1000 patience.execution).turned 0 3).engine ∧
      (overdue .fail 1000 patience.execution).GivesUp 0 5 patience "timed out waiting for go" ∧
      (overdue .transition 1000 patience.execution).Continues 0 (persistent 1000) patience "again"
        false ∧
      (let after := ((overdue .transition 1000 patience.execution).turned 0 1).play
          (List.replicate 20 (.turn 0));
        (after.office.desk.pending? patience.execution).isSome ∨
          after.engine.book.Ended patience.execution) := by
  have lapse := fun policy => (waits_lapse
    (expiring_overdue policy 1000 patience.execution)).2 patience (some 0) rfl
  refine ⟨(waits_lapse (expiring_overdue .fail 1000 "nobody")).1 (by decide +kernel),
    (lapse .drop).2.1 (.inl rfl), (lapse .fail).2.2.1 rfl,
    (lapse .transition).2.2.2.1 "again" _ rfl rfl rfl, ?_⟩
  refine (lapse .transition).2.2.2.2 ?_ ⟨_, rfl, rfl⟩ rfl _ (by decide +kernel) (by decide +kernel)
  rintro (drop | ⟨_, nowhere | unknown⟩) <;> contradiction

/-- A valid workflow whose second wait would end beyond the last date. When its first wait is over,
the run goes on to the second one, and there the errand breaks down: the run is neither pending nor
stored, and its record says for ever that it is running. -/
theorem lapsed_run_lost :
    (persistent (2 ^ (63 : Nat))).problems (fun _ => false) = [] ∧
      let after := (overdue .transition (2 ^ (63 : Nat)) patience.execution).turned 0 13
      (after.office.errand? 0).bind Errand.answer? = some (.failed .dateRange) ∧
        (after.turned 0 1).office.errand? 0 = none ∧
        (after.turned 0 1).office.desk.pending? patience.execution = none ∧
        (after.turned 0 1).engine.stored patience.execution = [] ∧
        ((after.turned 0 1).engine.book patience.execution).map RunRecord.status =
          some .running := by
  refine ⟨by decide +kernel, rfl, rfl, by decide +kernel, by decide +kernel, by decide +kernel⟩

end Site

end DurableFlow
