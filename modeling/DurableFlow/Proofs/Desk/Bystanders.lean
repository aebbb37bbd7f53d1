import DurableFlow.Proofs.Desk.Sequence
import DurableFlow.Proofs.Desk.Stopping

/-!
# What a call leaves alone

A call is for the workflow that it names, or whose run it cancels or lets expire, and an event
that is dispatched is for the workflows of all handlers that are registered for its provider.
`Errand.Concerns` says that an errand is about these workflows only. Each step keeps this and leaves
the deployments and the pending runs of all other workflows alone (`Stride.Minds`). What is
registered and stored is in accord with them before the call and after it, and so it is left alone
as well.
-/

namespace DurableFlow

/-- The deployment of a workflow and its pending runs are the same at both desks. -/
structure Desk.Spares (desk after : Desk) (workflow : String) : Prop where
  deployment : after.deployment? workflow = desk.deployment? workflow
  pending : ∀ execution, (after.pending? execution).filter (·.state.workflow == workflow) =
    (desk.pending? execution).filter (·.state.workflow == workflow)

namespace Desk.Spares

variable {desk middle after : Desk} {workflow : String}

theorem of_same (pending : after.pending = desk.pending)
    (deployments : after.deployments = desk.deployments) : desk.Spares after workflow where
  deployment := congrFun (deployment?_congr deployments) workflow
  pending execution := by rw [pending?, pending?, pending]

theorem trans (first : desk.Spares middle workflow) (second : middle.Spares after workflow) :
    desk.Spares after workflow where
  deployment := second.deployment.trans first.deployment
  pending execution := (second.pending execution).trans (first.pending execution)

/-- A run of another workflow is pending no more. -/
theorem take {execution : String}
    (foreign : ∀ pending, desk.pending? execution = some pending →
      pending.state.workflow ≠ workflow) : desk.Spares (desk.take execution) workflow where
  deployment := rfl
  pending other := by
    rw [pending?_take]
    split
    · rename_i same
      cases found : desk.pending? other with
      | none => rfl
      | some pending => simp [Option.filter, foreign pending (same ▸ found)]
    · rfl

/-- A run of another workflow becomes pending that has not been pending. -/
theorem hold {state : Suspended} (foreign : state.workflow ≠ workflow)
    (absent : desk.pending? state.execution = none) (alarm : Option Nat) :
    desk.Spares (desk.hold state alarm) workflow where
  deployment := rfl
  pending other := by
    rw [pending?_hold]
    split
    · rename_i same
      rw [same, absent]
      simp [Option.filter, foreign]
    · rfl

/-- Another workflow is deployed. -/
theorem deploy {changed : String} (foreign : changed ≠ workflow) (d : Definition)
    (deployment : Deployment) :
    desk.Spares ((desk.learn d).deploy changed deployment) workflow where
  deployment := by
    have entered : ((desk.learn d).deploy changed deployment).deployments =
        Fields.insert desk.deployments changed deployment := rfl
    rw [deployment?_of_insert entered, if_neg foreign.symm]
  pending _ := rfl

/-- Another workflow is forgotten. -/
theorem detach (sorted : Fields.Sorted desk.pending) {changed : String}
    (foreign : changed ≠ workflow) : desk.Spares (desk.detach changed) workflow where
  deployment := (Fields.get?_erase desk.deployments changed workflow).trans
    (if_neg foreign.symm)
  pending other := by
    rw [pending?_detach sorted]
    cases desk.pending? other with
    | none => rfl
    | some pending =>
      by_cases mine : pending.state.workflow = workflow
      · simp [Option.filter, mine, foreign.symm]
      · by_cases gone : pending.state.workflow = changed <;>
          simp [Option.filter, mine, gone, foreign]

end Desk.Spares

/-- The decision can change the deployments and the pending runs of the workflows `among` only. -/
def Decision.Concerns (office : Office) (among : String → Prop) : Decision → Prop
  | .start purpose .. | .resume purpose .. | .drive purpose _ | .conclude purpose _
  | .finish purpose _ => ∀ d, purpose.definition? = some d → among d.id
  | .claim d _ | .deploy d _ _ | .awaitDeploy d _ _ _ | .install d _ => among d.id
  | .expire execution | .cancel execution =>
    ∀ pending, office.desk.pending? execution = some pending → among pending.state.workflow
  | .stop workflow => among workflow
  | .dispatch event => ∀ handler ∈ office.board.handlersOf event.provider, among handler.workflow
  | _ => True

theorem Decision.Concerns.of_restores {office : Office} {among : String → Prop}
    {decision : Decision} (restores : decision.restores = true) :
    decision.Concerns office among := by
  cases decision <;> trivial

/-- What the errand is still going to do can change the deployments and the pending runs of the
workflows `among` only. -/
structure Errand.Concerns (office : Office) (among : String → Prop) (errand : Errand) : Prop where
  acts : ∀ d state, .arm d state ∈ errand.acts → among d.id
  decision : errand.decision.Concerns office among
  /-- Whatever the acts do, the decision will be about these workflows. -/
  lasting : errand.acts ≠ [] → ∀ changed, errand.decision.Concerns changed among
  delivery : ∀ delivery, errand.delivery = some delivery →
    ∀ handler ∈ delivery.handlers, among handler.workflow

/-- An errand that has no acts left. -/
theorem Errand.Concerns.of_acts {office : Office} {among : String → Prop} {errand : Errand}
    (acts : errand.acts = []) (about : errand.decision.Concerns office among)
    (delivery : ∀ delivery, errand.delivery = some delivery →
      ∀ handler ∈ delivery.handlers, among handler.workflow) : errand.Concerns office among where
  acts d state member := by
    rw [acts] at member
    contradiction
  decision := about
  lasting further := absurd acts further
  delivery := delivery

/-- An errand that has no acts left and delivers nothing. -/
theorem Errand.Concerns.of_decision {office : Office} {among : String → Prop} {errand : Errand}
    (acts : errand.acts = []) (about : errand.decision.Concerns office among)
    (free : errand.delivery = none) : errand.Concerns office among :=
  .of_acts acts about fun delivery handed => by
    rw [free] at handed
    contradiction

/-- Which workflows an errand is about depends on the desk and the switchboard only. -/
theorem Errand.Concerns.congr {office changed : Office} {among : String → Prop} {errand : Errand}
    (concerns : errand.Concerns office among) (desk : changed.desk = office.desk)
    (board : changed.board = office.board) : errand.Concerns changed among := by
  refine { concerns with decision := ?_ }
  have about := concerns.decision
  cases decision : errand.decision with
  | expire | cancel =>
    rw [decision, Decision.Concerns] at about
    rw [Decision.Concerns, desk]
    exact about
  | dispatch =>
    rw [decision, Decision.Concerns] at about
    rw [Decision.Concerns, board]
    exact about
  | _ =>
    rw [decision] at about
    exact about

namespace Stride

variable {engine : Engine} {office : Office} {errand : Errand} {stride : Stride}
  {among : String → Prop}

/-- A step leaves the deployments and the pending runs of all workflows but those `among` as they
are, and after it the errand is still about these only. -/
structure Minds (office : Office) (among : String → Prop) (stride : Stride) : Prop where
  spares : ∀ workflow, ¬ among workflow → office.desk.Spares stride.office.desk workflow
  concerns : stride.errand.Concerns stride.office among

section Decisions

variable (concerns : errand.Concerns office among)
include concerns

/-- The errand goes on with acts that make no run pending. -/
theorem goes_concerns (changed : Office) {acts : List Act} {decision : Decision}
    (free : acts.filterMap Act.charge? = [])
    (about : ∀ changed, decision.Concerns changed among) :
    (errand.go acts decision).Concerns changed among where
  acts _ _ member := absurd (List.filterMap_eq_nil_iff.mp free _ member) (Option.some_ne_none _)
  decision := about changed
  lasting _ := about
  delivery := concerns.delivery

/-- The step leaves the deployments and the pending runs as they are. -/
theorem minds_aside {acts : List Act} {decision : Decision}
    (pending : stride.office.desk.pending = office.desk.pending)
    (deployments : stride.office.desk.deployments = office.desk.deployments)
    (goes : stride.errand = errand.go acts decision)
    (free : acts.filterMap Act.charge? = [])
    (about : ∀ changed, decision.Concerns changed among) : Minds office among stride :=
  ⟨fun _ _ => .of_same pending deployments,
    goes ▸ goes_concerns concerns stride.office free about⟩

/-- The step takes a run out of the pending ones, one of the workflows `among`. -/
theorem minds_release {execution : String} (about : ∀ pending,
      office.desk.pending? execution = some pending → among pending.state.workflow)
    {acts : List Act} {decision : Decision} (free : acts.filterMap Act.charge? = [])
    (next : ∀ changed, decision.Concerns changed among) :
    Minds office among ⟨showPending engine (office.release execution), office.release execution,
      errand.go acts decision, .proceed, []⟩ := by
  refine ⟨fun workflow other => ?_, goes_concerns concerns _ free next⟩
  show office.desk.Spares (office.release execution).desk workflow
  rw [Office.release]
  split
  · exact .of_same rfl rfl
  · exact .take fun pending found same => other (same ▸ about pending found)

/-- A pass is over, and what becomes pending is a run of its workflow. -/
theorem keep_concerns {d : Definition} (about : among d.id) (result : RunResult)
    (answer : Answer) : (errand.go (keep d result) (.answer answer)).Concerns office among where
  acts other state member := by
    have named : other = d := by
      rw [show (errand.go (keep d result) (.answer answer)).acts = keep d result from rfl, keep]
        at member
      split at member
      · contradiction
      · simpa using And.left <| Act.arm.inj <| by simpa using member
    rw [named]
    exact about
  decision := trivial
  lasting _ _ := trivial
  delivery := concerns.delivery

/-- A decision of an errand that is about the workflows `among`. -/
theorem decide_minds (acts : errand.acts = []) (coherent : office.desk.Coherent)
    (numbered : engine.Numbered) (listed : errand.Listed engine office.desk) :
    Minds office among (decide engine office errand) := by
  have about := concerns.decision
  have restoring : errand.decision.restores = true →
      Minds office among (decide engine office errand) := by
    intro restores
    have rests := (restoring_rests numbered listed restores).2
    rw [Stride.step, acts] at rests
    refine ⟨fun _ _ => ?_, fun _ _ member => ?_, ?_, fun further => absurd rests.acts further,
      rests.delivery ▸ concerns.delivery⟩
    · rw [rests.office]
      exact .of_same rfl rfl
    · rw [rests.acts] at member
      contradiction
    · rcases rests.goes with restores | ⟨answer, answers⟩
      · exact .of_restores restores
      · rw [answers]
        trivial
  have same : ∀ workflow, ¬ among workflow → office.desk.Spares office.desk workflow :=
    fun _ _ => .of_same rfl rfl
  have decides := decide_decides engine office errand
  generalize decide engine office errand = stride at decides restoring ⊢
  generalize errand.decision = decision at decides restoring about
  cases decides with
  | ends | drives | attends | awaitsStop | awaitsReply => exact ⟨same, concerns⟩
  | runMissing | breaksDown => exact ⟨same, .of_decision rfl trivial rfl⟩
  | startRefused | starts | resumeRefused | resumes | drivesHome | drivesOn | concludes =>
    exact minds_aside concerns rfl rfl rfl rfl fun _ => about
  | keeps kept => exact ⟨same, keep_concerns concerns (about _ kept) _ _⟩
  | claims matched =>
    obtain ⟨foreign, alarm, there⟩ :=
      coherent.mem_pendingOf.mp (Event.mem_of_findMatch matched)
    refine minds_release concerns (fun pending same => ?_) rfl fun _ => ?_
    · rw [there] at same
      cases same
      exact foreign.symm ▸ about
    · rintro _ ⟨⟩
      exact about
  | startsFor =>
    refine minds_aside concerns rfl rfl rfl rfl fun _ => ?_
    rintro _ ⟨⟩
    exact about
  | lapses | timesOut | cancels => exact minds_release concerns about rfl fun _ => trivial
  | @transitions execution state alarm node d found policy leads known =>
    have named : d.id = state.workflow := by
      rw [Desk.definition?, Office.definitions_release] at known
      exact coherent.definitions _ d known
    refine minds_release concerns about rfl fun _ => ?_
    rintro _ ⟨⟩
    exact named ▸ about _ found
  | stops =>
    refine ⟨fun other foreign => ?_, goes_concerns concerns _ rfl fun _ => trivial⟩
    show office.desk.Spares (office.detach _).desk other
    rw [Office.detach_desk]
    exact .detach coherent.sorted.1 fun same => foreign (same ▸ about)
  | forgets | stopped =>
    exact minds_aside concerns rfl rfl rfl
      (List.filterMap_eq_nil_iff.mpr (forall_forgetWorkflow errand (fun _ _ => rfl) rfl))
      fun _ => trivial
  | callsTrigger | subscribes => exact minds_aside concerns rfl rfl rfl rfl fun _ => about
  | installs =>
    refine ⟨fun workflow foreign => .deploy ?_ _ _, goes_concerns concerns _ rfl fun _ => trivial⟩
    rintro rfl
    exact foreign about
  | restoresNothing | restoreFailed | restores | adopted | passesOver | adopts | recallsNothing
  | recallFailed | recalls | adoptsSuspended => exact restoring rfl
  | dispatches listen =>
    refine ⟨same, .of_acts rfl trivial ?_⟩
    rintro _ ⟨⟩
    exact listen ▸ about
  | delivered => exact ⟨same, .of_decision rfl trivial rfl⟩
  | skips more =>
    refine ⟨same, .of_acts rfl trivial ?_⟩
    rintro _ ⟨⟩ other member
    exact concerns.delivery _ more other (List.mem_cons_of_mem _ member)
  | @hands event handler rest count d more known =>
    have handed := concerns.delivery _ more
    have named : d.id = handler.workflow := coherent.definitions _ d known
    have about : among d.id := named.symm ▸ handed handler List.mem_cons_self
    refine ⟨same, .of_acts rfl about ?_⟩
    rintro _ ⟨⟩ other member
    exact handed other (List.mem_cons_of_mem _ member)
  | _ => exact minds_aside concerns rfl rfl rfl rfl fun _ => trivial

/-- An act of an errand that is about the workflows `among`. A run that it makes pending has not
been pending. -/
theorem act_minds {first : Act} {rest : List Act} (acts : errand.acts = first :: rest)
    (own : first.IsOwn)
    (absent : ∀ d state, first = .arm d state → office.desk.pending? state.execution = none) :
    Minds office among (Stride.act engine office { errand with acts := rest } first) := by
  obtain ⟨same, deployments, board⟩ :=
    act_wires engine office { errand with acts := rest } first
  obtain ⟨_, still, arms⟩ := act_desk engine office { errand with acts := rest } first
  have about := concerns.decision
  refine ⟨fun workflow foreign => ?_, ?_⟩
  · cases first with
    | arm d state =>
      rw [arms d state rfl]
      have learns : office.desk.Spares (office.desk.learnNew d) workflow := by
        refine .of_same (learnNew_agrees office d).pending ?_
        rw [Desk.learnNew]
        split <;> rfl
      have named : state.workflow = d.id := own
      have mine : among state.workflow :=
        named.symm ▸ concerns.acts d state (acts ▸ List.mem_cons_self)
      refine learns.trans (.hold ?_ ?_ _)
      · rintro rfl
        exact foreign mine
      rw [Desk.pending?, (learnNew_agrees office d).pending]
      exact absent d state rfl
    | _ =>
      rw [still (by simp)]
      exact .of_same rfl rfl
  · rw [same]
    have lasting := concerns.lasting (acts ▸ List.cons_ne_nil _ _)
    exact ⟨fun d state member => concerns.acts d state (acts ▸ List.mem_cons_of_mem _ member),
      lasting _, fun _ => lasting, concerns.delivery⟩

/-- A step of an errand that is about the workflows `among`. -/
theorem step_minds (coherent : office.desk.Coherent) (numbered : engine.Numbered)
    (listed : errand.Listed engine office.desk) (own : ∀ act ∈ errand.acts, act.IsOwn)
    (absent : ∀ d state rest, errand.acts = .arm d state :: rest →
      office.desk.pending? state.execution = none) :
    Minds office among (step engine office errand) := by
  rw [step]
  split
  · rename_i first rest acts
    refine act_minds concerns acts (own first (acts ▸ List.mem_cons_self)) ?_
    rintro d state rfl
    exact absent d state rest acts
  · rename_i acts
    exact decide_minds concerns acts coherent numbered listed

end Decisions

end Stride

namespace Site

/-- The workflows that a call is for. -/
def Concerns (site : Site) (call : Occurrence) (workflow : String) : Prop :=
  match call with
  | .demand (.move (.order (.run d _))) | .demand (.move (.order (.handle d _)))
  | .demand (.move (.order (.deploy d _ _))) | .demand (.move (.learn d)) => d.id = workflow
  | .demand (.move (.order (.stop stopped))) => stopped = workflow
  | .demand (.move (.order (.cancel execution))) =>
    ∃ pending, site.pending? execution = some pending ∧ pending.state.workflow = workflow
  | .demand (.move (.ring id)) => ∃ alarm pending,
    site.office.alarms.find? (·.id == id) = some alarm ∧
      site.pending? alarm.execution = some pending ∧ pending.state.workflow = workflow
  | .demand (.move (.order (.dispatch event))) =>
    ∃ handler ∈ site.office.board.handlersOf event.provider, handler.workflow = workflow
  | _ => False

variable {site : Site} {id : Nat} {errand : Errand} {among : String → Prop}

/-- The deployments and the pending runs of all workflows but those `among` are as they were, and
the errand that is under way is about these workflows only. -/
structure Heeds (site : Site) (among : String → Prop) (after : Site) : Prop where
  spares : ∀ workflow, ¬ among workflow → site.office.desk.Spares after.office.desk workflow
  concerns : after.office.current.Concerns after.office among

/-- The only errand that is under way takes a step. -/
theorem turn_heeds (busy : site.office.errands = [(id, errand)])
    (minds : Stride.Minds site.office among (Stride.step site.engine site.office errand)) :
    site.Heeds among (site.turn id) := by
  obtain ⟨⟨_, desk, board⟩, landed⟩ := turn_alone busy
  generalize Stride.step site.engine site.office errand = stride at *
  refine ⟨desk ▸ minds.spares, ?_⟩
  rcases landed with ⟨_, none⟩ | alone
  · rw [Office.current_of_idle none]
    exact .of_decision rfl trivial rfl
  · rw [Office.current_of_busy alone]
    exact minds.concerns.congr desk board

theorem Heeds.trans {middle after : Site} (first : site.Heeds among middle)
    (second : middle.Heeds among after) : site.Heeds among after where
  spares workflow foreign := (first.spares workflow foreign).trans (second.spares workflow foreign)
  concerns := second.concerns

namespace Sequential

/-- What is about to become pending is not pending. -/
theorem absent (sequential : site.Sequential) (busy : site.office.errands = [(id, errand)])
    {d : Definition} {state : Suspended} {rest : List Act}
    (acts : errand.acts = .arm d state :: rest) :
    site.office.desk.pending? state.execution = none := by
  have current : site.office.current = errand := Office.current_of_busy busy
  have calm : site.office.current.decision.restores = false := by
    rw [← Bool.not_eq_true]
    intro restores
    have none := (Stride.restoring_rests sequential.coherent.numbered sequential.owing.listed
      restores).1
    rw [current, acts] at none
    contradiction
  obtain ⟨lives, kept⟩ := sequential.accounted.kept calm
  have charged : { execution := state.execution } ∈ errand.charges site.engine := by
    rw [Errand.charges, acts]
    exact List.mem_append_left _ List.mem_cons_self
  have away := kept.charged _ (busy ▸ List.mem_singleton_self _) _ charged
  exact kept.pending?_eq_none fun other alarm waits =>
    Charge.life_ne_waiting _ other alarm (away.symm.trans waits)

/-- Something happens that is no call. -/
theorem heeds (sequential : site.Sequential)
    (concerns : site.office.current.Concerns site.office among)
    {occurrence : Occurrence} (goes : occurrence.isCall = false) :
    site.Heeds among (site.occur occurrence) := by
  have still : site.Heeds among site := ⟨fun _ _ => .of_same rfl rfl, concerns⟩
  cases occurrence with
  | demand demand =>
    cases demand with
    | move m =>
      cases m with
      | turn id =>
        show site.Heeds among (site.turn id)
        rcases sequential.turn_cases id with same | ⟨errand, busy⟩
        · rwa [same]
        · have listed := sequential.owing.listed
          have apt := sequential.coherent.errands _ (busy ▸ List.mem_singleton_self _)
          rw [Office.current_of_busy busy] at concerns listed
          exact turn_heeds busy (Stride.step_minds concerns sequential.coherent.desk
            sequential.coherent.numbered listed apt.acts
              fun _ _ _ acts => sequential.absent busy acts)
      | branch | pass => exact ⟨fun _ _ => .of_same rfl rfl, concerns⟩
      | order | ring | learn => contradiction
    | execute | resume | cancelRun => contradiction
  | restore | outage => contradiction

theorem heeds_undergo (sequential : site.Sequential)
    (concerns : site.office.current.Concerns site.office among)
    {history : List Occurrence} (goes : ∀ occurrence ∈ history, occurrence.isCall = false) :
    site.Heeds among (site.undergo history) := by
  induction history generalizing site with
  | nil => exact ⟨fun _ _ => .of_same rfl rfl, concerns⟩
  | cons occurrence rest ih =>
    have calm := goes occurrence List.mem_cons_self
    have first := sequential.heeds concerns calm
    exact first.trans (ih (sequential.occur (inTurn_of_goes calm)) first.concerns
      fun other member => goes other (List.mem_cons_of_mem _ member))

/-- A call is made while nothing is under way. -/
theorem heeds_call (sequential : site.Sequential) {call : Occurrence} (calls : call.isCall = true)
    (inTurn : site.InTurn call) (about : ∀ workflow, site.Concerns call workflow → among workflow) :
    site.Heeds among (site.occur call) := by
  obtain ⟨idle, accepts⟩ := inTurn calls
  have nothing : ∀ office : Office, office.errands = [] → office.current.Concerns office among := by
    intro office none
    rw [Office.current_of_idle none]
    exact .of_decision rfl trivial rfl
  have takes : ∀ decision : Decision, decision.Concerns site.office among →
      site.Heeds among (site.takeOn { decision }) := by
    intro decision about
    have busy : (site.takeOn { decision }).office.errands =
        [(site.office.nextErrand, { decision })] := by
      rw [takeOn, Office.takeOn, idle]
      rfl
    have concerns : Errand.Concerns site.office among { decision } :=
      .of_decision rfl about rfl
    refine ⟨fun _ _ => .of_same rfl rfl, ?_⟩
    rw [Office.current_of_busy busy]
    exact concerns.congr rfl rfl
  cases call with
  | demand demand =>
    cases demand with
    | move m =>
      cases m with
      | order order =>
        refine takes order.decision ?_
        cases order with
        | run d input =>
          rintro _ ⟨⟩
          exact about d.id rfl
        | handle d event => exact about d.id rfl
        | cancel execution => exact fun pending found => about _ ⟨pending, found, rfl⟩
        | stop workflow => exact about workflow rfl
        | deploy d url config => exact about d.id rfl
        | dispatch event => exact fun handler member => about _ ⟨handler, member, rfl⟩
      | ring id =>
        have still : site.office.desk = (site.office.silence (some id)).desk :=
          (Office.silence_desk _ _).symm
        show site.Heeds among (site.ring id)
        rw [Site.ring]
        split
        · exact ⟨fun _ _ => .of_same rfl rfl, nothing _ idle⟩
        · rename_i alarm found
          dsimp only
          split
          · have expires : Errand.Concerns (site.office.silence (some id)) among
                { decision := .expire alarm.execution } := by
              refine .of_decision rfl (fun pending there => ?_) rfl
              rw [← still] at there
              exact about _ ⟨alarm, pending, found, there, rfl⟩
            let silent : Site := ⟨site.engine, site.office.silence (some id)⟩
            have busy : (silent.takeOn { decision := .expire alarm.execution }).office.errands =
                [((site.office.silence (some id)).nextErrand,
                  { decision := .expire alarm.execution })] := by
              show (site.office.silence (some id)).errands ++ _ = _
              rw [Office.silence_errands, idle]
              rfl
            have desk : (site.office.silence (some id)).desk.Coherent :=
              still ▸ sequential.coherent.desk
            have heeds := turn_heeds busy (Stride.step_minds (expires.congr rfl rfl) desk
              sequential.coherent.numbered trivial (fun _ member => absurd member List.not_mem_nil)
              fun _ _ _ acts => absurd acts.symm (List.cons_ne_nil _ _))
            exact ⟨fun workflow foreign => still ▸ heeds.spares workflow foreign, heeds.concerns⟩
          · refine ⟨fun _ _ => still ▸ .of_same rfl rfl, nothing _ ?_⟩
            rw [Office.silence_errands, idle]
      | learn d => exact ⟨fun _ _ => .of_same rfl rfl, nothing _ idle⟩
      | turn | branch | pass => contradiction
    | execute | resume | cancelRun => exact accepts.elim
  | restore => exact takes .restore trivial
  | outage => exact accepts.elim

end Sequential

/-- The deployment of a workflow, its handlers, its stored subscription, its pending runs and their
stored states are the same at both sites. -/
structure Spares (site after : Site) (workflow : String) : Prop where
  desk : site.office.desk.Spares after.office.desk workflow
  handlers : ∀ provider, after.office.board.handling provider workflow =
    site.office.board.handling provider workflow
  subscribed : after.engine.subscribed workflow = site.engine.subscribed workflow
  stored : ∀ execution, (after.engine.stored execution).filter (·.workflow == workflow) =
    (site.engine.stored execution).filter (·.workflow == workflow)

/-- Where the ledger and the switchboard agree with the desk before and after, a workflow of which
the desk has the same is spared altogether. -/
theorem Spares.of_accord {after : Site} {workflow : String}
    (desk : site.office.desk.Spares after.office.desk workflow)
    (before : Stride.Accord site.engine site.office)
    (later : Stride.Accord after.engine after.office) : site.Spares after workflow where
  desk := desk
  handlers provider := by
    rw [before.registered, later.registered, Desk.handling, Desk.handling, desk.deployment]
  subscribed := by
    rw [before.subscribed, later.subscribed, Desk.subscribed, Desk.subscribed, desk.deployment]
  stored execution := by
    have paused : ∀ desk : Desk, (desk.paused execution).filter (·.workflow == workflow) =
        (((desk.pending? execution).filter (·.state.workflow == workflow)).map
          Pending.state).toList := by
      intro desk
      rw [Desk.paused, ← Option.toList_filter, Option.filter_map]
      rfl
    rw [before.stored, later.stored, paused, paused, desk.pending]

/-- An office whose store is empty at first and serves every call is asked to make known, deploy,
run, handle and dispatch, cancel, stop and restore, and alarms ring, one after another: each of
these calls begins when the one before is over. Whenever all calls are over, the subscriptions that
are stored are those of the deployments, the handlers of each provider are one for each deployment
whose subscription is with the provider, and the states that are stored are those of the pending
runs. And the next call, once it is over as well, has left all workflows alone that it is not
for. -/
theorem accord_between_calls (catalog : Catalog) (limit : Nat) (epoch : Instant)
    (policy : TimeoutPolicy) (history : List Occurrence)
    (oneByOne : (opened catalog limit (some {}) epoch policy).OneByOne history)
    (idle : ((opened catalog limit (some {}) epoch policy).undergo history).office.errands = []) :
    let site := (opened catalog limit (some {}) epoch policy).undergo history
    site.engine.subscriptions.Perm site.office.desk.subscriptions ∧
      (∀ provider, (site.office.board.handlersOf provider).Perm
        (site.office.desk.handlers provider)) ∧
      site.engine.rows.Perm site.office.desk.pausedRuns ∧
      ∀ call rest, call.isCall = true → site.InTurn call →
        (∀ occurrence ∈ rest, occurrence.isCall = false) →
        ((site.occur call).undergo rest).office.errands = [] →
        ∀ workflow, ¬ site.Concerns call workflow →
          site.Spares ((site.occur call).undergo rest) workflow := by
  intro site
  have sequential : site.Sequential :=
    (Sequential.opened catalog limit epoch policy).undergo oneByOne
  have accord := sequential.accord idle
  have coherent := sequential.coherent.desk
  refine ⟨accord.subscriptions_perm coherent, accord.handlers_perm coherent,
    accord.rows_perm coherent, fun call rest calls inTurn goes ended workflow foreign => ?_⟩
  have called := sequential.occur inTurn
  have begins := sequential.heeds_call calls inTurn fun _ concerned => concerned
  have ends := called.heeds_undergo begins.concerns goes
  have further : (site.occur call).OneByOne rest := oneByOne_of_goes goes
  exact .of_accord ((begins.trans ends).spares workflow foreign) accord
    ((called.undergo further).accord ended)

/-- An errand takes some turns. -/
def turns (errand number : Nat) : List Occurrence :=
  List.replicate number (.demand (.move (.turn errand)))

theorem goes_of_turns {errand number : Nat} : ∀ occurrence ∈ turns errand number,
    occurrence.isCall = false := by
  intro occurrence member
  rw [List.eq_of_mem_replicate member]
  rfl

/-- An office restores, which comes to nothing, a workflow is deployed, and a run of another one
comes to wait. -/
def keeping : List Occurrence :=
  (.restore :: turns 0 6) ++
    ((.demand (.move (.order (.deploy watched "http://here" []))) :: turns 1 6) ++
      (.demand (.move (.order (.run twice .null))) :: turns 2 20))

/-- The workflow that is deployed is stopped. -/
def stopping : Occurrence := .demand (.move (.order (.stop "watched")))

theorem oneByOne_keeping : watching.OneByOne keeping := by
  have first : (watching.undergo (.restore :: turns 0 6)).office.errands = [] :=
    List.isEmpty_iff.mp (by decide +kernel)
  have second : ((watching.undergo (.restore :: turns 0 6)).undergo
      (.demand (.move (.order (.deploy watched "http://here" []))) ::
        turns 1 6)).office.errands = [] := List.isEmpty_iff.mp (by decide +kernel)
  refine .append ⟨fun _ => ⟨rfl, fun _ => nofun, fun _ => nofun⟩, oneByOne_of_goes goes_of_turns⟩ ?_
  refine .append ⟨fun _ => ⟨first, trivial⟩, oneByOne_of_goes goes_of_turns⟩ ?_
  exact ⟨fun _ => ⟨second, trivial⟩, oneByOne_of_goes goes_of_turns⟩

/-- The run of the other workflow waits on. -/
theorem accord_between_calls_stopping :
    (watching.undergo keeping).engine.subscriptions.map Subscription.workflow = ["watched"] ∧
      (watching.undergo keeping).engine.rows.map Suspended.workflow = ["twice"] ∧
      (watching.undergo keeping).engine.rows.Perm
        (watching.undergo keeping).office.desk.pausedRuns ∧
      (watching.undergo keeping).Spares
        (((watching.undergo keeping).occur stopping).undergo (turns 3 6)) "twice" := by
  have idle : (watching.undergo keeping).office.errands = [] :=
    List.isEmpty_iff.mp (by decide +kernel)
  have ended : (((watching.undergo keeping).occur stopping).undergo (turns 3 6)).office.errands =
      [] := List.isEmpty_iff.mp (by decide +kernel)
  have foreign : ¬ (watching.undergo keeping).Concerns stopping "twice" := by
    simp [Concerns, stopping]
  have subscriptions : (watching.undergo keeping).engine.subscriptions.map
      Subscription.workflow = ["watched"] := by decide +kernel
  have rows : (watching.undergo keeping).engine.rows.map Suspended.workflow = ["twice"] := by
    decide +kernel
  obtain ⟨_, _, same, spares⟩ := accord_between_calls [("watch", subscribing)] 10 ⟨0, 0⟩ .drop
    keeping oneByOne_keeping idle
  exact ⟨subscriptions, rows, same,
    spares stopping (turns 3 6) rfl (fun _ => ⟨idle, trivial⟩) goes_of_turns ended "twice" foreign⟩

end Site

end DurableFlow
