import DurableFlow.Proofs.Desk.Dealing
import DurableFlow.Proofs.Desk.Paper

/-!
# What the steps of errands do about the ledger

`step_files` goes through all acts and decisions once and says which suspended states are stored
after a step, which of them the errand holds or is going to delete, and which definitions are known.
A step changes what is stored of the run in the charge of the errand only, or of a run whose state
the errand was to delete.
-/

namespace DurableFlow

theorem Suspended.pausedAt_of_capture? {now : Instant} {context : Context} {id : String}
    {pause : Pause} {state : Suspended} (h : capture? now context id pause = some state) :
    state.pausedAt = now := by
  rw [capture?] at h
  cases timeout : pause.timeout with
  | none =>
    simp only [timeout] at h
    cases h
    rfl
  | some wait =>
    simp only [timeout] at h
    obtain ⟨deadline, _, rfl⟩ := Option.map_eq_some_iff.mp h
    rfl

namespace Stride

/-- What a step makes of the suspended states that are stored, and of those that the errand holds or
is to delete. -/
structure Files (engine : Engine) (office : Office) (errand : Errand) (stride : Stride) :
    Prop where
  keeps : engine.Keeps stride.engine
  serves : stride.engine.Serves
  filed : stride.errand.IsFiled stride.engine
  knowing : stride.office.desk.Knowing
  /-- What is stored changes for a run in the charge of the errand only, or for one whose state the
  errand was to delete. -/
  stored : ∀ execution, stride.engine.stored execution = engine.stored execution ∨
    ((∃ charge ∈ errand.charges engine, charge.execution = execution) ∨
        execution ∈ errand.forgets) ∧
      (stride.engine.stored execution = [] ∨
        ∃ state ∈ errand.inHand, stride.engine.stored execution = [state])
  /-- A state that the errand holds then was held by it before, was pending, or has been captured at
  this step. -/
  inHand : ∀ state ∈ stride.errand.inHand, state ∈ errand.inHand ∨
    (∃ alarm, office.desk.pending? state.execution = some ⟨state, alarm⟩) ∨
      state.pausedAt = engine.moment.now ∧ engine.moments < stride.engine.moments
  /-- A state that is to be deleted from now on was pending and is so no more. -/
  forgets : ∀ execution ∈ stride.errand.forgets, execution ∈ errand.forgets ∨
    (office.desk.pending? execution).isSome ∧ stride.office.desk.pending? execution = none
  /-- Of a run that goes on nothing is stored any more. -/
  resumes : ∀ state, errand.deed = .resume state →
    stride.engine.stored state.execution = [] ∧ stride.errand.inHand = []

/-- What holds before a step: the states of the pending runs are stored, nothing is stored of a run
that is yet to begin, and what is stored of the run in the charge of the errand is what the stage of
the errand calls for. -/
structure Filed (engine : Engine) (office : Office) (errand : Errand) : Prop where
  serves : engine.Serves
  unused : engine.stored (Id.fresh engine.moments) = []
  pending : ∀ execution state alarm, office.desk.pending? execution = some ⟨state, alarm⟩ →
    engine.stored execution = [state]
  knowing : office.desk.Knowing
  errand : errand.IsFiled engine

variable {engine : Engine} {office : Office} {errand : Errand}

section Acts

variable {act : Act} {rest : List Act}

theorem deed_of_acts (acts : errand.acts = act :: rest) {state : Suspended} :
    errand.deed ≠ .resume state := by
  cases act <;> simp [Errand.deed, acts]

/-- An act that keeps and forgets nothing. -/
theorem act_aside (errand : Errand) (serves : engine.Serves) (knowing : office.desk.Knowing)
    (plain : act.isKeeping = false) (forgets : act.forgets? = none) :
    let stride := Stride.act engine office errand act
    stride.errand = errand ∧ engine.Keeps stride.engine ∧ stride.engine.Serves ∧
      stride.engine.stored = engine.stored ∧ stride.office.desk.Knowing := by
  have written : ∀ change : Ledger → Except Failure Ledger,
      (∀ ledger next, change ledger = .ok next →
        next.suspended = ledger.suspended ∧ next.failing = ledger.failing) →
      (engine.write change).Serves ∧ (engine.write change).stored = engine.stored := by
    intro change still
    obtain ⟨serving, rows⟩ := Engine.write_rows serves still
    exact ⟨serving, Engine.stored_congr rows⟩
  cases act with
  | saveSuspended state => contradiction
  | arm d state => contradiction
  | deleteSuspended execution => contradiction
  | saveRun record =>
    obtain ⟨serving, stored⟩ := written (·.saveRun record) fun ledger next done => by
      rw [Ledger.saveRun] at done
      split at done <;> cases done
      exact ⟨rfl, rfl⟩
    exact ⟨rfl, engine.keeps_write _, serving, stored, knowing⟩
  | settleRun execution outcome =>
    obtain ⟨serving, stored⟩ := written (·.settleRun execution outcome) fun ledger next done => by
      rw [Ledger.settleRun] at done
      repeat' split at done
      all_goals cases done
      exact ⟨rfl, rfl⟩
    exact ⟨rfl, engine.keeps_write _, serving, stored, knowing⟩
  | saveSubscription subscription =>
    obtain ⟨serving, stored⟩ := written (·.saveSubscription subscription)
      fun ledger next done => by
        rw [Ledger.saveSubscription] at done
        split at done <;> cases done
        exact ⟨rfl, rfl⟩
    exact ⟨rfl, engine.keeps_write _, serving, stored, knowing⟩
  | deleteSubscription workflow =>
    obtain ⟨serving, stored⟩ := written (·.deleteSubscription workflow)
      fun ledger next done => by
        rw [Ledger.deleteSubscription] at done
        split at done <;> cases done
        exact ⟨rfl, rfl⟩
    exact ⟨rfl, engine.keeps_write _, serving, stored, knowing⟩
  | publish | count =>
    exact ⟨rfl, .of_runs rfl rfl rfl (Nat.le_refl _), serves, rfl, knowing⟩
  | register provider handler => exact ⟨rfl, .refl engine, serves, rfl, knowing⟩
  | unregister provider handler => exact ⟨rfl, .refl engine, serves, rfl, knowing⟩

theorem charges_of_answer (errand : Errand) {answer : Answer}
    (answers : errand.decision = .answer answer) (engine : Engine) :
    errand.charges engine = errand.acts.filterMap Act.charge? := by
  rw [Errand.charges, answers]
  exact List.append_nil _

theorem charge?_of_plain {acts : List Act} (plain : ∀ act ∈ acts, act.isKeeping = false) :
    acts.filterMap Act.charge? = [] := by
  rw [List.filterMap_eq_nil_iff]
  intro act among
  have calm := plain act among
  cases act <;> first | rfl | contradiction

theorem inHand?_of_plain {acts : List Act} (plain : ∀ act ∈ acts, act.isKeeping = false) :
    acts.filterMap Act.inHand? = [] := by
  rw [List.filterMap_eq_nil_iff]
  intro act among
  have calm := plain act among
  cases act <;> first | rfl | contradiction

theorem charges_of_plain (plain : ∀ act ∈ errand.acts, act.isKeeping = false) :
    errand.charges engine = (errand.decision.charge? engine).toList := by
  rw [Errand.charges, charge?_of_plain plain, List.nil_append]

/-- What is read off the acts that are left is read off all acts. -/
theorem filterMap_rest {β : Type} (acts : errand.acts = act :: rest) (f : Act → Option β)
    {later more : List β} (sub : later.Sublist more) :
    (rest.filterMap f ++ later).Sublist (errand.acts.filterMap f ++ more) := by
  rw [acts]
  exact ((List.sublist_cons_self act rest).filterMap f).append sub

theorem charges_rest (managed : errand.IsManaged engine) (acts : errand.acts = act :: rest)
    {after : Engine} (extending : engine.Extends after) :
    (({ errand with acts := rest } : Errand).charges after).Sublist (errand.charges engine) :=
  filterMap_rest acts Act.charge? (Decision.charge?_extends managed.decision extending)

/-- An act that keeps and forgets nothing leaves the errand where it is. -/
theorem act_files_aside (numbered : engine.Numbered) (managed : errand.IsManaged engine)
    (given : Filed engine office errand) (acts : errand.acts = act :: rest)
    (plain : act.isKeeping = false) (forgets : act.forgets? = none) {paper : Option Suspended}
    (charged : ∀ charge ∈ errand.charges engine, engine.stored charge.execution = paper.toList)
    (stage : ({ errand with acts := rest } : Errand).Stage engine paper) :
    Files engine office errand (Stride.act engine office { errand with acts := rest } act) := by
  have deals : Deals engine office errand _ _ := act_deals numbered managed acts
  have extending := deals.extending
  obtain ⟨same, keeps, serves, stored, knowing⟩ :=
    act_aside { errand with acts := rest } given.serves given.knowing plain forgets
  generalize Stride.act engine office { errand with acts := rest } act = stride at *
  obtain ⟨after, office', errand', signal, requests⟩ := stride
  obtain rfl : errand' = { errand with acts := rest } := same
  refine ⟨keeps, serves, ⟨paper, stage.keeps managed.decision keeps, fun charge member => ?_⟩,
    knowing, fun execution => .inl (by rw [stored]), fun state member => .inl ?_,
    fun execution member => .inl ?_, fun state goes => ?_⟩
  · rw [stored]
    exact charged charge ((charges_rest managed acts extending).subset member)
  · exact (filterMap_rest acts Act.inHand? (.refl _)).subset member
  · exact (filterMap_rest acts Act.forgets? (.refl _)).subset member
  · exact absurd goes (deed_of_acts acts)

/-- The errand forgets a run. -/
theorem act_files_delete (numbered : engine.Numbered) (managed : errand.IsManaged engine)
    (given : Filed engine office errand) {deleted : String}
    (acts : errand.acts = .deleteSuspended deleted :: rest)
    (charged : ∀ charge ∈ errand.charges engine, charge.execution = deleted)
    (stage : ({ errand with acts := rest } : Errand).Stage engine none) :
    Files engine office errand
      (Stride.act engine office { errand with acts := rest } (.deleteSuspended deleted)) := by
  obtain ⟨serves, stored⟩ := Engine.deleteSuspended_stored given.serves deleted
  have keeps := engine.keeps_write (·.deleteSuspended deleted)
  have extending := numbered.write (·.deleteSuspended deleted)
  have forgotten : deleted ∈ errand.forgets := by
    rw [Errand.forgets, acts]
    exact List.mem_append_left _ List.mem_cons_self
  refine ⟨keeps, serves, ⟨none, stage.keeps managed.decision keeps, fun charge member => ?_⟩,
    given.knowing, fun execution => ?_, fun state member => .inl ?_,
    fun execution member => .inl ?_, fun state goes => ?_⟩
  · have own := charged charge ((charges_rest managed acts extending).subset member)
    show (engine.write _).stored charge.execution = []
    rw [stored, if_pos own]
  · have now := stored execution
    by_cases same : execution = deleted
    · rw [if_pos same] at now
      exact .inr ⟨.inr (same ▸ forgotten), .inl now⟩
    · rw [if_neg same] at now
      exact .inl now
  · exact (filterMap_rest acts Act.inHand? (.refl _)).subset member
  · exact (filterMap_rest acts Act.forgets? (.refl _)).subset member
  · exact absurd goes (deed_of_acts acts)

/-- The errand saves the state of the run in its charge. -/
theorem act_files_save (numbered : engine.Numbered) (managed : errand.IsManaged engine)
    (given : Filed engine office errand) {d : Definition} {state : Suspended}
    (acts : errand.acts = [.saveSuspended state, .arm d state]) (own : state.workflow = d.id)
    {answer : Answer} (answers : errand.decision = .answer answer)
    (charged : ∀ charge ∈ errand.charges engine, engine.stored charge.execution = []) :
    Files engine office errand
      (Stride.act engine office { errand with acts := [.arm d state] } (.saveSuspended state)) := by
  obtain ⟨serves, stored⟩ := Engine.saveSuspended_stored given.serves state
  have extending := numbered.write (·.saveSuspended state)
  have charge : { execution := state.execution } ∈ errand.charges engine := by
    simp [Errand.charges, acts, Act.charge?]
  have inHand : state ∈ errand.inHand := by
    simp [Errand.inHand, acts, Act.inHand?]
  refine ⟨engine.keeps_write (·.saveSuspended state), serves,
    ⟨some state, .arming d state rfl own answer answers, fun charge member => ?_⟩,
    given.knowing, fun execution => ?_, fun held member => .inl ?_,
    fun execution member => .inl ?_, fun state goes => ?_⟩
  · have before := charged charge ((charges_rest managed acts extending).subset member)
    change charge ∈ Errand.charges _ { errand with acts := [.arm d state] } at member
    rw [charges_of_answer { errand with acts := [.arm d state] } answers] at member
    have there : charge = { execution := state.execution } := List.mem_singleton.mp member
    show (engine.write _).stored charge.execution = [state]
    rw [stored, if_pos (by rw [there]), before]
    rfl
  · have now := stored execution
    by_cases same : state.execution = execution
    · subst same
      rw [if_pos rfl, charged _ charge] at now
      exact .inr ⟨.inl ⟨_, charge, rfl⟩, .inr ⟨state, inHand, now⟩⟩
    · rw [if_neg same] at now
      exact .inl now
  · exact (filterMap_rest acts Act.inHand? (.refl _)).subset member
  · exact (filterMap_rest acts Act.forgets? (.refl _)).subset member
  · exact absurd goes (deed_of_acts acts)

theorem armed_keeps (engine : Engine) (office : Office) (state : Suspended) :
    engine.Keeps (armed engine office state).1 ∧
      (armed engine office state).1.ledger = engine.ledger := by
  rw [armed]
  split
  · exact ⟨.refl engine, rfl⟩
  · exact ⟨engine.keeps_tick, rfl⟩

/-- The run in the charge of the errand becomes pending. -/
theorem act_files_arm (given : Filed engine office errand) {d : Definition} {state : Suspended}
    (acts : errand.acts = [.arm d state]) (own : state.workflow = d.id)
    {answer : Answer} (answers : errand.decision = .answer answer) :
    Files engine office errand
      (Stride.act engine office { errand with acts := [] } (.arm d state)) := by
  let learned : Office := { office with desk := office.desk.learnNew d }
  obtain ⟨sameRuns, ledger⟩ := armed_keeps engine learned state
  have shown : (armed engine learned state).1.Keeps (showPending (armed engine learned state).1
      (armed engine learned state).2.1) := .of_runs rfl rfl rfl (Nat.le_refl _)
  have stored : (showPending (armed engine learned state).1
      (armed engine learned state).2.1).stored = engine.stored := Engine.stored_of_ledger ledger
  have knowing : (learned.arm state).desk.Knowing := by
    rw [Office.arm_desk]
    exact (given.knowing.learnNew d).hold _ (own ▸ office.desk.isSome_learnNew d)
  refine ⟨sameRuns.trans shown, given.serves.of_ledger ledger,
    ⟨none, .free (List.forall_mem_nil _) rfl ?_, fun charge member => ?_⟩, ?_,
    fun execution => .inl (congrFun stored execution), fun held member => .inl ?_,
    fun execution member => .inl ?_, fun state goes => ?_⟩
  · show errand.decision.Fits _
    rw [answers]
    trivial
  · change charge ∈ Errand.charges _ { errand with acts := [] } at member
    rw [charges_of_answer { errand with acts := [] } answers] at member
    contradiction
  · show (armed engine learned state).2.1.desk.Knowing
    rw [armed_office]
    exact knowing
  · exact (filterMap_rest acts Act.inHand? (.refl _)).subset member
  · exact (filterMap_rest acts Act.forgets? (.refl _)).subset member
  · exact absurd goes (deed_of_acts acts)

/-- What an act does about the ledger is what the stage of its errand asks for. -/
theorem act_files (numbered : engine.Numbered) (managed : errand.IsManaged engine)
    (given : Filed engine office errand) (acts : errand.acts = act :: rest) :
    Files engine office errand (Stride.act engine office { errand with acts := rest } act) := by
  obtain ⟨paper, stage, charged⟩ := given.errand
  have left : ∀ other ∈ rest, other ∈ errand.acts := fun other among =>
    acts ▸ List.mem_cons_of_mem act among
  have first : act ∈ errand.acts := acts ▸ List.mem_cons_self
  cases stage with
  | free plain forgets fits =>
    rw [acts, List.filterMap_cons] at forgets
    cases erased : act.forgets? with
    | some deleted => simp [erased] at forgets
    | none =>
      rw [erased] at forgets
      exact act_files_aside numbered managed given acts (plain act first) erased charged
        (.free (fun other among => plain other (left other among)) forgets fits)
  | forgetting plain answer answers =>
    have stage : ({ errand with acts := rest } : Errand).Stage engine none :=
      .forgetting (fun other among => plain other (left other among)) answer answers
    cases act with
    | deleteSuspended deleted =>
      refine act_files_delete numbered managed given acts (fun charge member => ?_) stage
      rw [charges_of_plain plain, answers] at member
      contradiction
    | saveSuspended | arm => cases plain _ first
    | _ => exact act_files_aside numbered managed given acts rfl rfl charged stage
  | releasing state plain forgets claims fits =>
    have calm : ∀ other ∈ rest, other.isKeeping = false :=
      fun other among => plain other (left other among)
    rw [acts, List.filterMap_cons] at forgets
    cases erased : act.forgets? with
    | none =>
      rw [erased] at forgets
      exact act_files_aside numbered managed given acts (plain act first) erased charged
        (.releasing state calm forgets claims fits)
    | some deleted =>
      rw [erased, List.cons.injEq] at forgets
      obtain ⟨rfl, done⟩ := forgets
      have deletes : act = .deleteSuspended state.execution := by
        cases act <;> simp_all [Act.forgets?]
      subst deletes
      refine act_files_delete numbered managed given acts (fun charge member => ?_)
        (.free calm done fits)
      rw [charges_of_plain plain, Option.mem_toList] at member
      exact Decision.execution_of_inHand? claims member
  | saving d state same own answer answers =>
    rw [acts, List.cons.injEq] at same
    obtain ⟨rfl, rfl⟩ := same
    exact act_files_save numbered managed given acts own answers charged
  | arming d state same own answer answers =>
    rw [acts, List.cons.injEq] at same
    obtain ⟨rfl, rfl⟩ := same
    exact act_files_arm given acts own answers

end Acts

section Decisions

/-- An errand that is about to decide has nothing in the ledger. -/
theorem Filed.rested (given : Filed engine office errand) (acts : errand.acts = []) :
    errand.decision.Fits engine ∧
      ∀ charge ∈ errand.charges engine, engine.stored charge.execution = [] := by
  obtain ⟨paper, stage, charged⟩ := given.errand
  cases stage with
  | free plain forgets fits => exact ⟨fits, charged⟩
  | forgetting plain answer answers =>
    rw [answers]
    exact ⟨trivial, charged⟩
  | releasing state plain forgets claims fits => simp [acts] at forgets
  | saving d state same own answer answers => simp [acts] at same
  | arming d state same own answer answers => simp [acts] at same

/-- Whoever goes on or begins has nothing in the ledger. -/
theorem Deals.charged {deed : Deed} {stride : Stride}
    (deals : Deals engine office errand deed stride) (calm : ∀ exit, deed ≠ .release exit)
    (unused : engine.stored (Id.fresh engine.moments) = [])
    (charged : ∀ charge ∈ errand.charges engine, engine.stored charge.execution = []) :
    ∀ charge ∈ stride.errand.charges stride.engine, engine.stored charge.execution = [] := by
  intro charge member
  cases deals.dealing with
  | keep _ agrees charges => exact charged charge (charges.subset member)
  | start agrees moments charges =>
    rw [charges, List.mem_singleton] at member
    rw [member]
    exact unused
  | pause state charge' agrees charges =>
    rw [charges] at member
    contradiction
  | resume state held agrees charges =>
    rw [List.mem_singleton.mp (charges.subset member)]
    have nothing := charged _ held
    exact nothing
  | release exit state alarm found fits agrees charges => exact absurd rfl (calm exit)
  | detach workflow agrees charges => exact absurd rfl (calm .stop)

/-- A decision that leaves the ledger alone, of an errand that then has nothing in it. -/
theorem files_of_ledger (given : Filed engine office errand) {stride : Stride}
    (keeps : engine.Keeps stride.engine) (ledger : stride.engine.ledger = engine.ledger)
    (knowing : stride.office.desk.Knowing) (stage : stride.errand.Stage stride.engine none)
    (charged : ∀ charge ∈ stride.errand.charges stride.engine,
      engine.stored charge.execution = [])
    (inHand : ∀ state ∈ stride.errand.inHand, state ∈ errand.inHand ∨
      state.pausedAt = engine.moment.now ∧ engine.moments < stride.engine.moments)
    (forgets : ∀ execution ∈ stride.errand.forgets, execution ∈ errand.forgets ∨
      (office.desk.pending? execution).isSome ∧ stride.office.desk.pending? execution = none)
    (resumes : ∀ state, errand.deed = .resume state →
      engine.stored state.execution = [] ∧ stride.errand.inHand = []) :
    Files engine office errand stride := by
  have same := Engine.stored_of_ledger ledger
  refine ⟨keeps, given.serves.of_ledger ledger, ⟨none, stage, ?_⟩, knowing,
    fun execution => .inl (congrFun same execution),
    fun state member => (inHand state member).imp_right .inr, forgets, ?_⟩
  · rw [same]
    exact charged
  · rw [same]
    exact resumes

/-- A decision after which the errand has nothing to do with any suspended run. -/
theorem files_idle (given : Filed engine office errand) {stride : Stride}
    (keeps : engine.Keeps stride.engine) (ledger : stride.engine.ledger = engine.ledger)
    (knowing : stride.office.desk.Knowing) (stage : stride.errand.Stage stride.engine none)
    (charges : stride.errand.charges stride.engine = []) (inHand : stride.errand.inHand = [])
    (forgets : ∀ execution ∈ stride.errand.forgets, execution ∈ errand.forgets ∨
      (office.desk.pending? execution).isSome ∧ stride.office.desk.pending? execution = none)
    (resumes : ∀ state, errand.deed = .resume state → engine.stored state.execution = []) :
    Files engine office errand stride := by
  refine files_of_ledger given keeps ledger knowing stage (fun charge member => ?_)
    (fun state member => ?_) forgets fun state goes => ⟨resumes state goes, inHand⟩
  · rw [charges] at member
    contradiction
  · rw [inHand] at member
    contradiction

/-- The errand has no suspended run in its charge, holds no suspended state and is not going to
delete one. -/
structure IsFree (engine : Engine) (errand : Errand) : Prop where
  plain : ∀ act ∈ errand.acts, act.isKeeping = false
  forgets : errand.acts.filterMap Act.forgets? = []
  fits : errand.decision.Fits engine
  charge : errand.decision.charge? engine = none
  inHand : errand.decision.inHand? = none
  drops : errand.decision.drops = []

theorem IsFree.stage (free : IsFree engine errand) :
    errand.Stage engine none ∧ errand.charges engine = [] ∧ errand.inHand = [] ∧
      errand.forgets = [] := by
  refine ⟨.free free.plain free.forgets free.fits, ?_, ?_, ?_⟩
  · rw [charges_of_plain free.plain, free.charge]
    rfl
  · rw [Errand.inHand, inHand?_of_plain free.plain, free.inHand]
    rfl
  · rw [Errand.forgets, free.forgets, free.drops]
    rfl

theorem files_free (given : Filed engine office errand) {stride : Stride}
    (keeps : engine.Keeps stride.engine) (ledger : stride.engine.ledger = engine.ledger)
    (knowing : stride.office.desk.Knowing) (free : IsFree stride.engine stride.errand)
    (goes : ∀ state, errand.deed ≠ .resume state) : Files engine office errand stride := by
  obtain ⟨stage, charges, inHand, forgets⟩ := free.stage
  refine files_idle given keeps ledger knowing stage charges inHand (fun execution member => ?_)
    fun state same => absurd same (goes state)
  rw [forgets] at member
  contradiction

/-- An errand that has nothing but its answer left is free. -/
theorem isFree_answer (engine : Engine) (errand : Errand) (answer : Answer) :
    IsFree engine (errand.go [] (.answer answer)) :=
  ⟨List.forall_mem_nil _, rfl, trivial, rfl, rfl, rfl⟩

/-- A step that changes nothing but that the errand has its answer. -/
theorem files_answer (given : Filed engine office errand)
    (goes : ∀ state, errand.deed ≠ .resume state) (answer : Answer) :
    Files engine office errand
      ⟨engine, office, errand.go [] (.answer answer), .proceed, []⟩ :=
  files_free given (.refl engine) rfl given.knowing (isFree_answer engine errand answer) goes

/-- A step that changes nothing but the signal. -/
theorem files_stay (given : Filed engine office errand) (acts : errand.acts = [])
    (goes : ∀ state, errand.deed ≠ .resume state) (signal : Signal) (requests : List Request) :
    Files engine office errand ⟨engine, office, errand, signal, requests⟩ := by
  obtain ⟨fits, charged⟩ := given.rested acts
  refine files_of_ledger given (.refl engine) rfl given.knowing
    (.free (by simp [acts]) (by simp [acts]) fits) charged (fun _ member => .inl member)
    (fun _ member => .inl member) fun state same => absurd same (goes state)

section Passes

variable {purpose : Purpose}

theorem workflow_of_checkResume {d : Definition} {state : Suspended} {node : Option String}
    {next : List String} (accepted : checkResume engine d state node = .ok next) :
    state.workflow = d.id := by
  rw [checkResume] at accepted
  split at accepted
  · contradiction
  · split at accepted
    · contradiction
    · split at accepted
      · assumption
      · contradiction

/-- A run that is suspended keeps its workflow, and the instant is told. -/
theorem captured_of_result {now : Instant} {context : Context} {conclusion : Conclusion}
    {result : RunResult} {happening : Happening} {state : Suspended}
    (told : conclusion.result now context = .ok (result, happening))
    (suspended : result.suspended = some state) :
    state.workflow = context.workflow ∧ state.pausedAt = now := by
  obtain ⟨_, _, _, captured⟩ := Conclusion.suspended_of_result told suspended
  exact ⟨(Suspended.capture?_eq_some captured).1, Suspended.pausedAt_of_capture? captured⟩

/-- The errand of a pass that is taken up has the run in its charge, which is one of the
workflow that the pass is for. -/
theorem enter_stage (numbered : engine.Numbered) (office : Office) (errand : Errand) {run : Run}
    {acts : List Act} (plain : ∀ act ∈ acts, act.isKeeping = false)
    (forgets : acts.filterMap Act.forgets? = [])
    (own : ∀ d, purpose.definition? = some d → run.context.workflow = d.id) :
    let stride := enter engine office errand purpose run acts
    stride.errand.Stage stride.engine none := by
  refine .free plain forgets fun d named found there => ?_
  have taken := Engine.run?_adopt numbered { run with isCancelled := errand.isCancelled }
  cases taken.symm.trans there
  exact own d named

/-- An errand that has been told that its run is suspended goes on to save it. -/
theorem keep_stage (engine : Engine) (errand : Errand) {d : Definition} {result : RunResult}
    (answer : Answer)
    (own : ∀ state, result.suspended = some state → state.workflow = d.id) :
    (errand.go (keep d result) (.answer answer)).Stage engine none ∧
      (keep d result).filterMap Act.inHand? = result.suspended.toList ∧
      (keep d result).filterMap Act.forgets? = [] := by
  cases suspended : result.suspended with
  | none =>
    have nothing : keep d result = [] := by simp only [keep, suspended]
    rw [nothing]
    exact ⟨.free (List.forall_mem_nil _) rfl trivial, rfl, rfl⟩
  | some state =>
    have saves : keep d result = [.saveSuspended state, .arm d state] := by
      simp only [keep, suspended]
    rw [saves]
    exact ⟨.saving d state rfl (own state suspended) answer rfl, rfl, rfl⟩

end Passes

section Releases

/-- A run is taken out of the pending ones, and the errand is going to let it go on or to delete its
state. -/
theorem files_release (given : Filed engine office errand) {stride : Stride} {state : Suspended}
    {alarm : Option Nat} (found : office.desk.pending? state.execution = some ⟨state, alarm⟩)
    (keeps : engine.Keeps stride.engine) (ledger : stride.engine.ledger = engine.ledger)
    (released : stride.office = office.release state.execution) {paper : Option Suspended}
    (stage : stride.errand.Stage stride.engine paper)
    (charges : ∀ charge ∈ stride.errand.charges stride.engine,
      charge.execution = state.execution ∧ paper = some state)
    (inHand : ∀ held ∈ stride.errand.inHand, held = state)
    (forgets : ∀ execution ∈ stride.errand.forgets, execution = state.execution)
    (goes : ∀ held, errand.deed ≠ .resume held) : Files engine office errand stride := by
  have same := Engine.stored_of_ledger ledger
  refine ⟨keeps, given.serves.of_ledger ledger, ⟨paper, stage, fun charge member => ?_⟩, ?_,
    fun execution => .inl (congrFun same execution),
    fun held member => .inr (.inl ⟨alarm, inHand held member ▸ found⟩),
    fun execution member => .inr ?_, fun held same => absurd same (goes held)⟩
  · obtain ⟨there, rfl⟩ := charges charge member
    rw [same, there]
    exact given.pending _ state alarm found
  · rw [released]
    exact Office.knowing_release given.knowing state.execution
  · rw [forgets execution member, released, Office.pending?_release, if_pos rfl, found]
    exact ⟨rfl, rfl⟩

theorem showPending_keeps (engine : Engine) (office : Office) :
    engine.Keeps (showPending engine office) :=
  .of_runs rfl rfl rfl (Nat.le_refl _)

section Taken

variable {state : Suspended} {alarm : Option Nat} {acts : List Act}

/-- The errand takes a run out of the pending ones that does not go on. -/
theorem files_drop (given : Filed engine office errand)
    (found : office.desk.pending? state.execution = some ⟨state, alarm⟩)
    (plain : ∀ act ∈ acts, act.isKeeping = false)
    (forgets : acts.filterMap Act.forgets? = [state.execution]) (answer : Answer)
    (goes : ∀ held, errand.deed ≠ .resume held) :
    Files engine office errand ⟨showPending engine (office.release state.execution),
      office.release state.execution, errand.go acts (.answer answer), .proceed, []⟩ := by
  refine files_release given found (showPending_keeps engine _) rfl rfl
    (.forgetting plain answer rfl) (fun charge member => ?_) (fun held member => ?_)
    (fun execution member => ?_) goes
  · rw [charges_of_plain plain] at member
    contradiction
  · change held ∈ acts.filterMap Act.inHand? ++ [] at member
    rw [inHand?_of_plain plain] at member
    contradiction
  · change execution ∈ acts.filterMap Act.forgets? ++ [] at member
    rw [forgets] at member
    exact List.mem_singleton.mp member

/-- The errand takes a run out of the pending ones and is going to resume it. -/
theorem files_take (given : Filed engine office errand)
    (found : office.desk.pending? state.execution = some ⟨state, alarm⟩)
    (plain : ∀ act ∈ acts, act.isKeeping = false)
    (forgets : acts.filterMap Act.forgets? = [state.execution]) {purpose : Purpose}
    {d : Definition} (fits : purpose.definition? = some d) (node : Option String)
    (delta : Fields Data) (goes : ∀ held, errand.deed ≠ .resume held) :
    Files engine office errand ⟨showPending engine (office.release state.execution),
      office.release state.execution, errand.go acts (.resume purpose d state node delta),
      .proceed, []⟩ := by
  refine files_release given found (showPending_keeps engine _) rfl rfl
    (.releasing state plain forgets rfl fun own named => ?_) (fun charge member => ?_)
    (fun held member => ?_) (fun execution member => ?_) goes
  · exact Option.some.inj (named.symm.trans fits)
  · rw [charges_of_plain plain] at member
    rw [List.mem_singleton.mp member]
    exact ⟨rfl, rfl⟩
  · change held ∈ acts.filterMap Act.inHand? ++ [state] at member
    rw [inHand?_of_plain plain] at member
    exact List.mem_singleton.mp member
  · change execution ∈ acts.filterMap Act.forgets? ++ [] at member
    rw [forgets] at member
    exact List.mem_singleton.mp member

end Taken

/-- The wait of a run is over. -/
theorem expire_files (orderly : office.Orderly) (given : Filed engine office errand)
    (acts : errand.acts = []) {execution : String}
    (decision : errand.decision = .expire execution) :
    Files engine office errand (expire engine office errand execution) := by
  have goes : ∀ state, errand.deed ≠ .resume state := by simp [Errand.deed, acts, decision]
  have decides := expire_decides engine office errand execution
  generalize expire engine office errand execution = stride at decides ⊢
  cases decides with
  | expiryMissed => exact files_answer given goes _
  | @lapses _ state alarm found =>
    obtain rfl : state.execution = execution := orderly.keyed _ _ found
    exact files_drop given found (by simp [Act.isKeeping]) rfl _ goes
  | @timesOut _ state alarm found =>
    obtain rfl : state.execution = execution := orderly.keyed _ _ found
    exact files_drop given found (by simp [Act.isKeeping, fail]) rfl _ goes
  | @transitions _ state alarm node d found =>
    obtain rfl : state.execution = execution := orderly.keyed _ _ found
    exact files_take given found (by simp [Act.isKeeping]) rfl rfl _ _ goes

/-- The pending runs of a workflow are taken out together, and are to be forgotten later. -/
theorem files_detach (orderly : office.Orderly) (given : Filed engine office errand)
    {workflow : String} {acts : List Act} (subscription : Subscription)
    (plain : ∀ act ∈ acts, act.isKeeping = false) (forgets : acts.filterMap Act.forgets? = [])
    (goes : ∀ state, errand.deed ≠ .resume state) :
    Files engine office errand ⟨showPending engine (office.detach workflow),
      office.detach workflow,
      errand.go acts (.callStop subscription
        ((office.desk.pendingOf workflow).map Suspended.execution)), .proceed, []⟩ := by
  refine files_idle given (showPending_keeps engine _) rfl
    (Office.knowing_detach orderly given.knowing workflow) (.free plain forgets trivial)
    ?_ ?_ (fun execution member => .inr ?_) fun state same => absurd same (goes state)
  · rw [charges_of_plain plain]
    rfl
  · show acts.filterMap Act.inHand? ++ [] = []
    rw [inHand?_of_plain plain]
    rfl
  · change execution ∈ acts.filterMap Act.forgets? ++
      (office.desk.pendingOf workflow).map Suspended.execution at member
    rw [forgets, List.nil_append] at member
    obtain ⟨state, dropped, rfl⟩ := List.mem_map.mp member
    obtain ⟨own, alarm, found⟩ := Desk.exists_of_mem_pendingOf orderly.sorted dropped
    obtain rfl : state.execution = own := orderly.keyed _ _ found
    have foreign : state.workflow = workflow := by
      simpa using (List.mem_filter.mp dropped).2
    refine ⟨by rw [found]; rfl, ?_⟩
    show (office.detach workflow).desk.pending? state.execution = none
    rw [orderly.pending?_detach, found]
    simp [foreign]

end Releases

section Deployments

theorem forgetWorkflow_stage (engine : Engine) (errand : Errand) (workflow : String)
    (dropped : List String) :
    (forgetWorkflow errand workflow dropped).Stage engine none ∧
      (forgetWorkflow errand workflow dropped).inHand = [] ∧
      (forgetWorkflow errand workflow dropped).forgets = dropped := by
  have plain : ∀ act ∈ (forgetWorkflow errand workflow dropped).acts, act.isKeeping = false :=
    forall_forgetWorkflow errand (fun _ _ => rfl) rfl
  refine ⟨.forgetting plain .nothing rfl, ?_, ?_⟩
  · show _ ++ [] = []
    rw [List.append_nil]
    exact inHand?_of_plain plain
  · have all : (dropped.map Act.deleteSuspended).filterMap Act.forgets? = dropped := by
      rw [List.filterMap_map]
      exact List.filterMap_some
    simp [forgetWorkflow, Errand.forgets, Errand.go, all, Act.forgets?, Decision.drops]

/-- What has been dropped with its workflow is forgotten. -/
theorem files_forgetWorkflow (given : Filed engine office errand) {dropped : List String}
    (drops : errand.decision.drops = dropped) (workflow : String)
    (goes : ∀ state, errand.deed ≠ .resume state) :
    Files engine office errand
      ⟨engine, office, forgetWorkflow errand workflow dropped, .proceed, []⟩ := by
  obtain ⟨stage, inHand, forgets⟩ := forgetWorkflow_stage engine errand workflow dropped
  refine files_idle given (.refl engine) rfl given.knowing stage (forgetWorkflow_charges ..) inHand
    (fun execution member => .inl ?_) fun state same => absurd same (goes state)
  rw [forgets] at member
  exact List.mem_append_right _ (drops ▸ member)

end Deployments

/-- What a decision does about the ledger: nothing, but what it takes out of the pending runs
is to be forgotten, and what it resumes has been. -/
theorem decide_files (numbered : engine.Numbered) (orderly : office.Orderly)
    (managed : errand.IsManaged engine) (given : Filed engine office errand)
    (acts : errand.acts = []) : Files engine office errand (decide engine office errand) := by
  obtain ⟨fits, charged⟩ := given.rested acts
  have allowed := managed.decision
  have decides := decide_decides engine office errand
  have deals := decide_deals numbered orderly managed acts
  generalize decide engine office errand = stride at decides deals ⊢
  generalize decision : errand.decision = stage at decides allowed fits
  have goes : (∀ purpose d state node delta, stage ≠ .resume purpose d state node delta) →
      ∀ state, errand.deed ≠ .resume state := by
    intro others state
    cases stage with
    | resume purpose d state node delta => exact (others _ _ _ _ _ rfl).elim
    | _ => simp [Errand.deed, acts, decision]
  have later (calm : ∀ exit, errand.deed ≠ .release exit) :
      ∀ charge ∈ stride.errand.charges stride.engine, engine.stored charge.execution = [] :=
    deals.charged calm given.unused charged
  cases decides with
  | ends | awaitsStop | awaitsReply => exact files_stay given acts (goes (by simp)) _ _
  | starts valid begins =>
    subst begins
    refine files_of_ledger given (engine.keeps_tick.trans (engine.tick.keeps_adopt _)) rfl
      given.knowing ?_ (later (by simp [Errand.deed, acts, decision])) (List.forall_mem_nil _)
      (List.forall_mem_nil _) fun state same => absurd same (goes (by simp) state)
    exact enter_stage numbered.tick.numbered office errand (by simp [Act.isKeeping]) rfl
      fun own named => congrArg Definition.id (fits own named).symm
  | @resumeRefused purpose d state =>
    have claimed : engine.stored state.execution = [] :=
      charged { execution := state.execution, claimed := some state }
        (by simp [charges_of_acts acts, decision, Decision.charge?])
    refine files_idle given (.refl engine) rfl given.knowing
      (.free (List.forall_mem_nil _) rfl trivial) rfl rfl (List.forall_mem_nil _)
      fun other goes => ?_
    simp only [Errand.deed, acts, decision, Deed.resume.injEq] at goes
    exact goes ▸ claimed
  | @resumes purpose d state node delta next accepted =>
    have claimed : engine.stored state.execution = [] :=
      charged { execution := state.execution, claimed := some state }
        (by simp [charges_of_acts acts, decision, Decision.charge?])
    refine files_of_ledger given (engine.keeps_adopt _) rfl given.knowing ?_
      (later (by simp [Errand.deed, acts, decision])) (List.forall_mem_nil _)
      (List.forall_mem_nil _) fun other goes => ⟨?_, rfl⟩
    · exact enter_stage numbered office errand (by simp [Act.isKeeping]) rfl fun own named =>
        (workflow_of_checkResume accepted).trans (congrArg Definition.id (fits own named).symm)
    · simp only [Errand.deed, acts, decision, Deed.resume.injEq] at goes
      exact goes ▸ claimed
  | @drives purpose run =>
    obtain ⟨keeps, ledger⟩ := engine.stepRun_keeps run .driver
    have driven : errand.decision.Fits (engine.stepRun run .driver).1 :=
      decision ▸ fits.keeps allowed keeps
    exact files_of_ledger given keeps ledger given.knowing
      (.free (by simp [acts]) (by simp [acts]) driven)
      (later (by simp [Errand.deed, acts, decision])) (fun _ member => .inl member)
      (fun _ member => .inl member) fun state same => absurd same (goes (by simp) state)
  | @drivesHome purpose run =>
    obtain ⟨keeps, ledger⟩ := engine.stepRun_keeps run .driver
    exact files_of_ledger given keeps ledger given.knowing
      (.free (List.forall_mem_nil _) rfl (fits.keeps allowed keeps))
      (later (by simp [Errand.deed, acts, decision])) (List.forall_mem_nil _)
      (List.forall_mem_nil _) fun state same => absurd same (goes (by simp) state)
  | drivesOn =>
    exact files_of_ledger given (.refl engine) rfl given.knowing
      (.free (List.forall_mem_nil _) rfl fits) (later (by simp [Errand.deed, acts, decision]))
      (List.forall_mem_nil _) (List.forall_mem_nil _)
      fun state same => absurd same (goes (by simp) state)
  | @breaksDown purpose run =>
    exact files_free given
      (engine.keeps_tick.trans (engine.tick.keeps_close run numbered.tick.numbered)) rfl
      given.knowing ⟨List.forall_mem_nil _, rfl, trivial, rfl, rfl, rfl⟩ (goes (by simp))
  | @concludes purpose run process conclusion result happening found concluded told =>
    refine files_of_ledger given
      (engine.keeps_tick.trans (engine.tick.keeps_close run numbered.tick.numbered)) rfl
      given.knowing ?_ (later (by simp [Errand.deed, acts, decision])) (fun state member => ?_)
      (List.forall_mem_nil _) fun state same => absurd same (goes (by simp) state)
    · refine .free (by simp [Errand.go, concluding, Act.isKeeping]) rfl
        fun own named state suspended => ?_
      exact (captured_of_result told suspended).1.trans (fits own named process found)
    · have suspended : result.suspended = some state := Option.mem_toList.mp member
      exact .inr ⟨(captured_of_result told suspended).2, Nat.lt_succ_self _⟩
  | @keeps purpose d result kept =>
    obtain ⟨stage, inHand, forgets⟩ :=
      keep_stage engine errand (purpose.answer result) (fits d kept)
    refine files_of_ledger given (.refl engine) rfl given.knowing stage
      (later (by simp [Errand.deed, acts, decision])) (fun state member => .inl ?_)
      (fun execution member => ?_) fun state same => absurd same (goes (by simp) state)
    · change state ∈ (keep d result).filterMap Act.inHand? ++ [] at member
      rw [List.append_nil, inHand] at member
      rw [Errand.inHand, decision]
      exact List.mem_append_right _ member
    · change execution ∈ (keep d result).filterMap Act.forgets? ++ [] at member
      rw [forgets] at member
      contradiction
  | @claims d event state matched =>
    obtain ⟨alarm, found⟩ := orderly.pending?_of_match? matched
    exact files_take given found (by simp [Act.isKeeping]) rfl rfl none event.delta (goes (by simp))
  | startsFor =>
    exact files_free given (.refl engine) rfl given.knowing
      ⟨by simp [Errand.go, Act.isKeeping], rfl, fun own named => (Option.some.inj named).symm,
        rfl, rfl, rfl⟩ (goes (by simp))
  | @cancels execution state alarm found =>
    obtain rfl : state.execution = execution := orderly.keyed _ _ found
    exact files_drop given found (by simp [Act.isKeeping]) rfl _ (goes (by simp))
  | stops => exact files_detach orderly given _ (by simp [Act.isKeeping]) rfl (goes (by simp))
  | forgets | stopped =>
    exact files_forgetWorkflow given (by rw [decision, Decision.drops]) _ (goes (by simp))
  | callsStop =>
    refine files_idle given (.of_runs rfl rfl rfl (Nat.le_succ _)) rfl given.knowing
      (.free (List.forall_mem_nil _) rfl trivial) rfl rfl
      (fun execution member => .inl (List.mem_append_right _ ?_))
      fun state same => absurd same (goes (by simp) state)
    rw [decision]
    exact member
  | callsTrigger =>
    exact files_free given (.of_runs rfl rfl rfl (Nat.le_add_right _ 2)) rfl given.knowing
      ⟨List.forall_mem_nil _, rfl, trivial, rfl, rfl, rfl⟩ (goes (by simp))
  | subscribeRefused | subscribes =>
    exact files_free given engine.keeps_tick rfl given.knowing
      ⟨List.forall_mem_nil _, rfl, trivial, rfl, rfl, rfl⟩ (goes (by simp))
  | @installs d =>
    exact files_free given (.refl engine) rfl (given.knowing.learn d)
      ⟨by simp [Errand.go, Act.isKeeping], rfl, trivial, rfl, rfl, rfl⟩ (goes (by simp))
  | attended | attends | expiryMissed | lapses | timesOut | transitions | restoresNothing
  | restoreFailed | restores | adopted | passesOver | adopts | recallsNothing | recallFailed
  | recalls | adoptsSuspended => exact allowed.elim
  | _ =>
    exact files_free given (.refl engine) rfl given.knowing
      ⟨by simp [Errand.go, abandon, fail, Act.isKeeping], rfl, trivial, rfl, rfl, rfl⟩
      (goes (by simp))

/-- What a step of a managed errand does about the ledger. -/
theorem step_files (numbered : engine.Numbered) (orderly : office.Orderly)
    (managed : errand.IsManaged engine) (given : Filed engine office errand) :
    Files engine office errand (step engine office errand) := by
  rw [step]
  split
  · rename_i first rest acts
    exact act_files numbered managed given acts
  · rename_i acts
    exact decide_files numbered orderly managed given acts

/-- What becomes pending has been saved, and its errand forgets nothing. -/
theorem step_pauses (given : Filed engine office errand) {state : Suspended}
    (pauses : errand.deed = .pause state) :
    (step engine office errand).engine.stored state.execution = [state] ∧
      errand.forgets = [] := by
  have arms : ∃ d rest, errand.acts = .arm d state :: rest := by
    rw [Errand.deed] at pauses
    split at pauses <;> cases pauses
    exact ⟨_, _, by assumption⟩
  obtain ⟨d, rest, acts⟩ := arms
  have charge : { execution := state.execution } ∈ errand.charges engine := by
    simp [Errand.charges, acts, Act.charge?]
  have same : (step engine office errand).engine.ledger = engine.ledger := by
    simp only [step, acts]
    exact (armed_keeps engine { office with desk := office.desk.learnNew d } state).2
  rw [Engine.stored_of_ledger same]
  obtain ⟨paper, stage, charged⟩ := given.errand
  have first : Act.arm d state ∈ errand.acts := acts ▸ List.mem_cons_self
  cases stage with
  | free plain | forgetting plain | releasing _ plain => cases plain _ first
  | saving d held same => simp [acts] at same
  | arming d' held same own answer answers =>
    rw [acts, List.cons.injEq, Act.arm.injEq] at same
    obtain ⟨⟨rfl, rfl⟩, rfl⟩ := same
    refine ⟨charged _ charge, ?_⟩
    rw [Errand.forgets, acts, answers]
    rfl

end Decisions

end Stride

end DurableFlow
