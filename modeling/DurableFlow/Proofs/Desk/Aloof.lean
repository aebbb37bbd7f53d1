import DurableFlow.Proofs.Desk.Accord
import DurableFlow.Proofs.Desk.Attempts

/-!
# Most errands leave a deployment alone

An errand is aloof from a workflow if it neither stops nor restores it and has no act left that
changes its handlers or its stored subscription; it may be a call to deploy the workflow that has
not entered its deployment yet. A step of such an errand either leaves the deployment, the handlers
and the subscription of the workflow as they are, or enters a deployment where there was none
(`Stride.Vies`). So where all errands but one are aloof, whatever happens besides the turns of this
one leaves the workflow as it is up to a turn at which it is deployed (`Site.Vies`), as long as
nothing is stopped or restored and the ledger does not fail.
-/

namespace DurableFlow

/-- The subscription that an answer returns, if it is one of this workflow. -/
def Answer.subscription? (workflow : String) : Answer → Option Subscription
  | .subscription made => if made.workflow = workflow then some made else none
  | _ => none

/-- The workflow that is going to be deployed, or whose subscription is going to be returned. -/
def Decision.deploys? : Decision → Option String
  | .deploy d .. | .awaitDeploy d .. | .install d _ => some d.id
  | .answer (.subscription subscription) => some subscription.workflow
  | _ => none

/-- The workflow whose handlers or whose stored subscription an act changes. -/
def Act.plugs? : Act → Option String
  | .register _ handler | .unregister _ handler => some handler.workflow
  | .saveSubscription subscription => some subscription.workflow
  | .deleteSubscription workflow => some workflow
  | _ => none

/-- The decision neither stops nor restores a workflow, and its errand has not entered a deployment
of it. It may be one of a call to deploy the workflow. -/
def Decision.IsAloof (workflow : String) : Decision → Prop
  | .answer (.subscription subscription) | .callStop subscription _ =>
    subscription.workflow ≠ workflow
  | .install d subscription => subscription.workflow = d.id
  | .awaitStop other _ _ => other ≠ workflow
  | .stop _ | .restore | .adoptSubscriptions _ | .recallSuspended | .adoptSuspended _ => False
  | _ => True

/-- The errand neither stops nor restores a workflow, and has no act left that changes its handlers
or its stored subscription. It may be a call to deploy the workflow, which delivers no event and has
not entered the deployment yet. -/
structure Errand.Aloof (workflow : String) (errand : Errand) : Prop where
  acts : ∀ act ∈ errand.acts, act.plugs? ≠ some workflow
  decision : errand.decision.IsAloof workflow
  alone : errand.decision.deploys?.isSome → errand.delivery = none

namespace Stride

variable {engine : Engine} {office : Office} {errand : Errand} {stride : Stride}
  {workflow : String}

/-- What a step of an aloof errand does to a workflow. -/
inductive Vies (workflow : String) (engine : Engine) (office : Office) (stride : Stride) : Prop
  /-- Its deployment, its stored subscription and its handlers stay as they are. -/
  | aside (serves : engine.Serves → stride.engine.Serves)
      (deployment : stride.office.desk.deployment? workflow = office.desk.deployment? workflow)
      (subscribed : stride.engine.subscribed workflow = engine.subscribed workflow)
      (handling : ∀ provider, stride.office.board.handling provider workflow =
        office.board.handling provider workflow)
      (aloof : stride.errand.Aloof workflow) : Vies workflow engine office stride
  /-- It was not deployed, and the step has entered a deployment. The errand has the acts left that
  register its handler and save its subscription. -/
  | enters (deployment : Deployment)
      (own : deployment.subscription.workflow = workflow ∧ deployment.handler.workflow = workflow)
      (absent : office.desk.deployment? workflow = none)
      (entered : stride.office.desk.deployment? workflow = some deployment)
      (ledger : stride.engine.ledger = engine.ledger)
      (board : stride.office.board = office.board)
      (acts : stride.errand.acts = deployment.announcements)
      (grants : stride.errand.Grants deployment.subscription)
      (goes : stride.signal = .proceed) : Vies workflow engine office stride

/-- An act of an aloof errand leaves the handlers and the stored subscription of the workflow as
they are. -/
theorem act_vies (serves : engine.Serves) (singular : (engine.subscribed workflow).length ≤ 1)
    (aloof : errand.Aloof workflow) {act : Act} {rest : List Act}
    (acts : errand.acts = act :: rest) :
    Vies workflow engine office (Stride.act engine office { errand with acts := rest } act) := by
  have foreign : act.plugs? ≠ some workflow := aloof.acts act (acts ▸ List.mem_cons_self)
  obtain ⟨same, deployments, board⟩ :=
    act_wires engine office { errand with acts := rest } act
  refine .aside (fun _ => act_serves serves office _ act)
    (congrFun (Desk.deployment?_congr deployments) workflow) ?_ (fun provider => ?_) ?_
  · rw [act_subscribed serves office _ singular]
    cases act with
    | saveSubscription saved => exact if_neg fun own => foreign (congrArg some own)
    | deleteSubscription deleted => exact if_neg fun own => foreign (congrArg some own.symm)
    | _ => rfl
  · rw [board]
    cases act with
    | register other handler =>
      exact (office.board.handling_register other provider workflow handler).trans
        (if_neg fun own => foreign (congrArg some own.2))
    | unregister other handler =>
      refine (office.board.handling_unregister other provider workflow handler).trans ?_
      split
      · rename_i matching
        rw [List.filter_eq_self.mpr, matching]
        intro kept member
        have own : kept.workflow = workflow := by simpa using (List.mem_filter.mp member).2
        refine decide_eq_true fun gone => foreign (congrArg some ?_)
        exact gone ▸ own
      · rfl
    | _ => rfl
  · rw [same]
    exact { aloof with
      acts := fun other member => aloof.acts other (acts ▸ List.mem_cons_of_mem _ member) }

section Decisions

/-- What acts make of the handlers of a workflow depends on these handlers only. -/
theorem handling_foldl {first second : Switchboard Handler}
    (same : ∀ provider, first.handling provider workflow = second.handling provider workflow)
    (acts : List Act) (provider : String) :
    (acts.foldl rewire first).handling provider workflow =
      (acts.foldl rewire second).handling provider workflow := by
  induction acts generalizing first second with
  | nil => exact same provider
  | cons act rest ih =>
    refine ih fun other => ?_
    cases act with
    | register _ handler | unregister _ handler =>
      simp only [rewire, Switchboard.handling_register, Switchboard.handling_unregister, same]
    | _ => exact same other

/-- The step changes neither the ledger nor the deployments nor the handlers. -/
theorem vies_aside (ledger : stride.engine.ledger = engine.ledger)
    (deployments : stride.office.desk.deployments = office.desk.deployments)
    (board : stride.office.board = office.board) (aloof : stride.errand.Aloof workflow) :
    Vies workflow engine office stride :=
  .aside (·.of_ledger ledger) (congrFun (Desk.deployment?_congr deployments) workflow)
    (congrFun (subscribed_of_ledger ledger) workflow) (fun _ => by rw [board]) aloof

/-- The errand goes on with acts that change nothing of the workflow. -/
theorem aloof_goes {acts : List Act} {decision : Decision}
    (foreign : ∀ act ∈ acts, act.plugs? ≠ some workflow) (aloof : decision.IsAloof workflow)
    (idle : decision.deploys? = none) : (errand.go acts decision).Aloof workflow where
  acts := foreign
  decision := aloof
  alone there := by
    have none : decision.deploys?.isSome = true := there
    rw [idle] at none
    contradiction

/-- The acts that save a suspended run and make it pending change no handlers and no subscriptions.
-/
theorem plugs_of_keep (d : Definition) (result : RunResult) :
    ∀ act ∈ keep d result, act.plugs? ≠ some workflow := by
  rw [keep]
  split <;> simp [Act.plugs?]

/-- The acts by which a stop forgets another workflow. -/
theorem aloof_forgetWorkflow {other : String} (foreign : other ≠ workflow)
    (dropped : List String) : (forgetWorkflow errand other dropped).Aloof workflow := by
  refine aloof_goes (forall_forgetWorkflow errand (fun _ _ => ?_) ?_) trivial rfl
  · exact (Option.some_ne_none workflow).symm
  · exact fun own => foreign (Option.some.inj own)

/-- The workflow is not deployed at the second look at the desk, and its deployment is entered. -/
theorem installs_vies {d : Definition} {subscription : Subscription}
    (free : office.desk.isDeployed d.id = false) (own : subscription.workflow = d.id)
    (alone : errand.delivery = none) :
    let deployment : Deployment := ⟨subscription, ⟨office.nextHandler, d.id⟩⟩
    Vies workflow engine office
      ⟨engine,
        { office with
          desk := (office.desk.learn d).deploy d.id deployment
          nextHandler := office.nextHandler + 1 },
        errand.go deployment.announcements (.answer (.subscription subscription)), .proceed,
        []⟩ := by
  intro deployment
  have entered (other : String) :
      ((office.desk.learn d).deploy d.id deployment).deployment? other =
        if other = d.id then some deployment else office.desk.deployment? other :=
    Desk.deployment?_of_insert rfl other
  by_cases mine : d.id = workflow
  · have absent : office.desk.deployment? workflow = none := by
      subst mine
      simpa [Desk.deployment?, Desk.isDeployed, Fields.contains] using free
    exact .enters deployment ⟨own.trans mine, mine⟩ absent
      ((entered workflow).trans (if_pos mine.symm)) rfl rfl rfl ⟨alone, rfl⟩ rfl
  · have foreign : subscription.workflow ≠ workflow := fun same => mine (own.symm.trans same)
    refine .aside id ((entered workflow).trans (if_neg (Ne.symm mine))) rfl (fun _ => rfl)
      ⟨fun act member => ?_, foreign, fun _ => alone⟩
    rcases List.mem_pair.mp member with rfl | rfl
    · exact fun same => mine (Option.some.inj same)
    · exact fun same => foreign (Option.some.inj same)

/-- A decision of an aloof errand. -/
theorem decide_vies (aloof : errand.Aloof workflow) :
    Vies workflow engine office (decide engine office errand) := by
  have allowed := aloof.decision
  have single := aloof.alone
  have decides := decide_decides engine office errand
  generalize decide engine office errand = stride at decides ⊢
  generalize errand.decision = decision at decides allowed single
  cases decides with
  | ends | attends | awaitsStop | awaitsReply => exact vies_aside rfl rfl rfl aloof
  | drives => exact vies_aside (engine.stepRun_keeps _ .driver).2 rfl rfl aloof
  | drivesHome =>
    exact vies_aside (engine.stepRun_keeps _ .driver).2 rfl rfl
      (aloof_goes (by simp) trivial rfl)
  | runMissing | breaksDown =>
    exact vies_aside rfl rfl rfl
      ⟨fun _ member => absurd member List.not_mem_nil, trivial, fun _ => rfl⟩
  | @keeps purpose =>
    cases purpose <;>
      exact vies_aside rfl rfl rfl (aloof_goes (plugs_of_keep _ _) trivial rfl)
  | @abandons purpose =>
    cases purpose <;>
      exact vies_aside rfl rfl rfl (aloof_goes (by simp [Act.plugs?, abandon, fail]) trivial rfl)
  | claims | lapses | timesOut | transitions | cancels =>
    exact vies_aside rfl (by simp) (by simp) (aloof_goes (by simp [Act.plugs?, fail]) trivial rfl)
  | forgets | stopped => exact vies_aside rfl rfl rfl (aloof_forgetWorkflow allowed _)
  | callsStop => exact vies_aside rfl rfl rfl (aloof_goes (by simp) allowed rfl)
  | callsTrigger =>
    exact vies_aside rfl rfl rfl
      ⟨fun _ member => absurd member List.not_mem_nil, trivial, single⟩
  | subscribes late made =>
    exact vies_aside rfl rfl rfl ⟨fun _ member => absurd member List.not_mem_nil,
      Subscription.workflow_of_ofOutput made, single⟩
  | installs free => exact installs_vies free allowed (single rfl)
  | dispatches | delivered | skips | hands =>
    exact vies_aside rfl rfl rfl ⟨fun _ member => absurd member List.not_mem_nil, trivial,
      fun there => absurd there Bool.false_ne_true⟩
  | stopMissed | stops | restoresNothing | restoreFailed | restores | adopted | passesOver
  | adopts | recallsNothing | recallFailed | recalls | adoptsSuspended => exact allowed.elim
  | _ =>
    exact vies_aside rfl rfl rfl (aloof_goes (by simp [Act.plugs?, concluding]) trivial rfl)

end Decisions

/-- A step of an aloof errand. -/
theorem step_vies (office : Office) (serves : engine.Serves)
    (singular : (engine.subscribed workflow).length ≤ 1) (aloof : errand.Aloof workflow) :
    Vies workflow engine office (step engine office errand) := by
  cases acts : errand.acts with
  | nil =>
    simp only [step, acts]
    exact decide_vies aloof
  | cons act rest =>
    simp only [step, acts]
    exact act_vies serves singular aloof acts

end Stride

namespace Site

/-- The occurrence is a call to stop some workflow or to restore, or a change in which operations of
the ledger fail. -/
def Occurrence.upsets : Occurrence → Bool
  | .demand (.move (.order (.stop _))) | .restore | .outage _ => true
  | _ => false

/-- The subscriptions of a workflow among the answers that have been returned. -/
def granted (workflow : String) (returned : List (Nat × Answer)) : List Subscription :=
  returned.filterMap (·.2.subscription? workflow)

theorem granted_append (workflow : String) (first second : List (Nat × Answer)) :
    granted workflow (first ++ second) = granted workflow first ++ granted workflow second :=
  List.filterMap_append

variable {site middle after : Site} {id : Nat} {errand : Errand} {workflow : String}
  {but : Option Nat}

/-- The errands are aloof from a workflow, but for the one with the id `but`, if it is given. The
ledger does not fail, and at most one subscription of the workflow is stored. -/
structure Aloof (site : Site) (workflow : String) (but : Option Nat) : Prop where
  serves : site.engine.Serves
  counted : site.Counted
  singular : (site.engine.subscribed workflow).length ≤ 1
  there : ∀ id, but = some id → (site.office.errand? id).isSome
  others : ∀ entry ∈ site.office.errands, but ≠ some entry.1 → entry.2.Aloof workflow

/-- The deployment, the stored subscription and the handlers of a workflow are what they were, all
errands but `but` are aloof, and this one is what it was. -/
structure PassesBy (workflow : String) (but : Option Nat) (site after : Site) : Prop where
  aloof : after.Aloof workflow but
  subscribed : after.engine.subscribed workflow = site.engine.subscribed workflow
  deployment : after.office.desk.deployment? workflow = site.office.desk.deployment? workflow
  handling : ∀ provider, after.office.board.handling provider workflow =
    site.office.board.handling provider workflow
  stays : ∀ id errand, but = some id → site.office.errand? id = some errand →
    ∃ isCancelled, after.office.errand? id = some { errand with isCancelled }

theorem PassesBy.trans (first : PassesBy workflow but site middle)
    (second : PassesBy workflow but middle after) : PassesBy workflow but site after := by
  refine ⟨second.aloof, second.subscribed.trans first.subscribed,
    second.deployment.trans first.deployment,
    fun provider => (second.handling provider).trans (first.handling provider),
    fun id errand exempt found => ?_⟩
  obtain ⟨isCancelled, still⟩ := first.stays id errand exempt found
  exact second.stays id { errand with isCancelled } exempt still

/-- What happens besides the turns of the errand `but` leaves the workflow as it is, or it does so
up to the last turn of an errand, which enters a deployment of the workflow where there was none. -/
inductive Vies (workflow : String) (but : Option Nat) (site after : Site) : Prop
  | passes (passes : PassesBy workflow but site after) : Vies workflow but site after
  | enters {middle : Site} {id : Nat} {stride : Stride} {deployment : Deployment}
      (first : PassesBy workflow but site middle) (turn : middle.TakesTurn after id stride)
      (counted : after.Counted)
      (own : deployment.subscription.workflow = workflow ∧ deployment.handler.workflow = workflow)
      (absent : middle.office.desk.deployment? workflow = none)
      (entered : stride.office.desk.deployment? workflow = some deployment)
      (ledger : stride.engine.ledger = middle.engine.ledger)
      (board : stride.office.board = middle.office.board)
      (acts : stride.errand.acts = deployment.announcements)
      (grants : stride.errand.Grants deployment.subscription)
      (goes : stride.signal = .proceed) : Vies workflow but site after

theorem PassesBy.vies (first : PassesBy workflow but site middle)
    (second : Vies workflow but middle after) : Vies workflow but site after := by
  cases second with
  | passes passes => exact .passes (first.trans passes)
  | enters passes turn counted own absent entered ledger board acts grants goes =>
    exact .enters (first.trans passes) turn counted own absent entered ledger board acts grants goes

namespace Aloof

theorem aside (aloof : site.Aloof workflow but) (serves : after.engine.Serves)
    (counted : after.Counted)
    (subscribed : after.engine.subscribed workflow = site.engine.subscribed workflow)
    (deployment : after.office.desk.deployment? workflow =
      site.office.desk.deployment? workflow)
    (handling : ∀ provider, after.office.board.handling provider workflow =
      site.office.board.handling provider workflow)
    (others : ∀ entry ∈ after.office.errands, but ≠ some entry.1 →
      entry ∈ site.office.errands ∨ entry.2.Aloof workflow)
    (stays : ∀ id errand, but = some id → site.office.errand? id = some errand →
      ∃ isCancelled, after.office.errand? id = some { errand with isCancelled }) :
    PassesBy workflow but site after := by
  refine ⟨⟨serves, counted, subscribed ▸ aloof.singular, fun id exempt => ?_,
    fun entry member other => ?_⟩, subscribed, deployment, handling, stays⟩
  · obtain ⟨errand, found⟩ := Option.isSome_iff_exists.mp (aloof.there id exempt)
    obtain ⟨_, still⟩ := stays id errand exempt found
    exact Option.isSome_of_eq_some still
  · exact (others entry member other).elim (aloof.others entry · other) id

theorem passesBy_refl (aloof : site.Aloof workflow but) : PassesBy workflow but site site :=
  ⟨aloof, rfl, rfl, fun _ => rfl, fun _ errand _ found => ⟨errand.isCancelled, found⟩⟩

/-- A new errand is aloof. -/
theorem takeOn (aloof : site.Aloof workflow but) (new : errand.Aloof workflow) :
    PassesBy workflow but site (site.takeOn errand) := by
  refine aloof.aside aloof.serves (aloof.counted.takeOn errand) rfl rfl (fun _ => rfl)
    (fun entry member _ => ?_) fun id asked _ found => ⟨asked.isCancelled, ?_⟩
  · rcases List.mem_append.mp member with old | last
    · exact .inl old
    · rw [List.mem_singleton.mp last]
      exact .inr new
  · exact (errand?_takeOn site.office errand (aloof.counted.used found)).trans found

/-- An aloof errand takes its turn, and may deploy the workflow. -/
theorem turn_found (aloof : site.Aloof workflow but)
    (found : site.office.errand? id = some errand) (own : errand.Aloof workflow)
    (other : but ≠ some id) : Vies workflow but site (site.turn id) := by
  have turn := takesTurn found
  have counted := aloof.counted.turn id
  have vies := Stride.step_vies site.office aloof.serves aloof.singular own
  have elsewhere : ∀ exempt, but = some exempt →
      (site.turn id).office.errand? exempt = site.office.errand? exempt :=
    fun exempt is => errand?_turn site fun same => other (same ▸ is)
  generalize Stride.step site.engine site.office errand = stride at *
  generalize site.turn id = after at *
  cases vies with
  | aside serves deployment subscribed handling own =>
    refine .passes (aloof.aside (turn.engine ▸ serves aloof.serves) counted
      (turn.engine ▸ subscribed) (turn.desk ▸ deployment) (turn.board ▸ handling)
      (fun entry among _ => ?_)
      fun exempt asked is there => ⟨asked.isCancelled, (elsewhere exempt is).trans there⟩)
    rcases turn.others entry among with ⟨rfl, _⟩ | ⟨old, _⟩
    · exact .inr own
    · exact .inl old
  | enters deployment its absent entered ledger board acts grants goes =>
    exact .enters aloof.passesBy_refl turn counted its absent entered ledger board acts grants goes

theorem turn (aloof : site.Aloof workflow but) (other : but ≠ some id) :
    Vies workflow but site (site.turn id) := by
  cases found : site.office.errand? id with
  | none =>
    have still : site.turn id = site := by simp only [Site.turn, found]
    exact still.symm ▸ .passes aloof.passesBy_refl
  | some errand =>
    exact aloof.turn_found found (aloof.others _ (Table.mem_of_lookup found) other) other

/-- An alarm is silenced. -/
theorem silence (aloof : site.Aloof workflow but) (alarm : Option Nat) :
    PassesBy workflow but site ⟨site.engine, site.office.silence alarm⟩ := by
  refine aloof.aside aloof.serves (aloof.counted.silence alarm) rfl ?_ (fun _ => ?_)
    (fun entry member _ => ?_) fun id errand _ found => ⟨errand.isCancelled, ?_⟩
  · rw [Office.silence_desk]
  · rw [Office.silence_board]
  · rw [Office.silence_errands] at member
    exact .inl member
  · rw [Office.errand?, Office.silence_errands]
    exact found

theorem ring (aloof : site.Aloof workflow but) (id : Nat) :
    Vies workflow but site (site.ring id) := by
  rw [Site.ring]
  split
  · exact .passes aloof.passesBy_refl
  · rename_i alarm _
    have silent := aloof.silence (some id)
    dsimp only
    split
    · have new : Errand.Aloof workflow { decision := .expire alarm.execution } :=
        ⟨fun _ member => absurd member List.not_mem_nil, trivial, fun _ => rfl⟩
      have unused : site.office.errands.lookup site.office.nextErrand = none :=
        aloof.counted _ (Nat.le_refl _)
      have other : but ≠ some site.office.nextErrand := fun exempt => by
        have there := aloof.there _ exempt
        rw [Office.errand?, unused] at there
        contradiction
      have taken := silent.aloof.takeOn new
      exact (silent.trans taken).vies (taken.aloof.turn_found
        (by simp [Site.takeOn, Office.takeOn, Office.errand?, List.lookup_append, unused]) new
        other)
    · exact .passes silent

/-- A run is to be cancelled. -/
theorem cancelRun (aloof : site.Aloof workflow but) (id : Nat) :
    PassesBy workflow but site (site.cancelRun id) := by
  have same : site.Untouched (site.cancelRun id) := by
    rw [Site.cancelRun]
    repeat' split
    all_goals exact ⟨rfl, rfl, rfl⟩
  refine aloof.aside (aloof.serves.of_ledger same.ledger) (aloof.counted.cancelRun id)
    (congrFun (Stride.subscribed_of_ledger same.ledger) workflow) (by rw [same.desk])
    (fun _ => by rw [same.board]) (fun entry member other => ?_) fun asked errand _ found => ?_
  · rw [Site.cancelRun] at member
    split at member
    · exact .inl member
    · rename_i errand found
      have set : entry ∈ (site.office.setErrand id
          { errand with isCancelled := true }).errands := by
        dsimp only at member
        split at member <;> exact member
      rcases mem_setErrand set with rfl | ⟨old, _⟩
      · exact .inr { aloof.others _ (Table.mem_of_lookup found) other with }
      · exact .inl old
  · have asks : Occurrence.demand (.cancelRun id) ≠ .demand (.move (.turn asked)) :=
      fun equal => Demand.noConfusion (Occurrence.demand.inj equal)
    obtain ⟨change, still⟩ := errand?_occur (aloof.counted.used found) asks
    rw [found] at still
    exact ⟨change errand.isCancelled, still⟩

/-- Whatever happens but the turns of the errand `but`, as long as nothing is stopped or restored
and the ledger does not fail. -/
theorem occur (aloof : site.Aloof workflow but) {occurrence : Occurrence}
    (calm : occurrence.upsets = false)
    (waits : ∀ id, but = some id → occurrence ≠ .demand (.move (.turn id))) :
    Vies workflow but site (site.occur occurrence) := by
  have idle : ∀ decision : Decision, decision.IsAloof workflow →
      Errand.Aloof workflow { decision } :=
    fun _ aloof => ⟨fun _ member => absurd member List.not_mem_nil, aloof, fun _ => rfl⟩
  cases occurrence with
  | demand demand =>
    cases demand with
    | move m =>
      cases m with
      | order order =>
        refine .passes (aloof.takeOn (idle order.decision ?_))
        cases order with
        | stop => contradiction
        | _ => trivial
      | turn id => exact aloof.turn fun exempt => waits id exempt rfl
      | ring id => exact aloof.ring id
      | branch run id =>
        have ledger := (site.engine.stepRun_keeps run (.branch id)).2
        exact .passes (aloof.aside (aloof.serves.of_ledger ledger) aloof.counted
          (congrFun (Stride.subscribed_of_ledger ledger) workflow) rfl (fun _ => rfl)
          (fun _ member _ => .inl member) fun _ errand _ found => ⟨errand.isCancelled, found⟩)
      | learn | pass =>
        exact .passes (aloof.aside aloof.serves aloof.counted rfl rfl (fun _ => rfl)
          (fun _ member _ => .inl member) fun _ errand _ found => ⟨errand.isCancelled, found⟩)
    | execute | resume => exact .passes (aloof.takeOn (idle _ trivial))
    | cancelRun id => exact .passes (aloof.cancelRun id)
  | restore | outage => contradiction

/-- An aloof errand returns no subscription of the workflow. -/
theorem granted_ended (aloof : site.Aloof workflow but) {occurrence : Occurrence}
    (waits : ∀ id, but = some id → occurrence ≠ .demand (.move (.turn id))) :
    granted workflow (site.ended occurrence) = [] := by
  refine List.filterMap_eq_nil_iff.mpr fun entry ends => ?_
  obtain ⟨id, answer⟩ := entry
  cases eq_turn_of_ended ends
  cases found : site.office.errand? id with
  | none =>
    simp only [Site.ended, answered, found] at ends
    contradiction
  | some errand =>
    obtain ⟨finished, answers⟩ := answer_of_ended found ends
    have own := aloof.others _ (Table.mem_of_lookup found) fun exempt => waits id exempt rfl
    have vies := Stride.step_vies site.office aloof.serves aloof.singular own
    generalize Stride.step site.engine site.office errand = stride at *
    cases vies with
    | aside _ _ _ _ own =>
      have decision : stride.errand.decision = .answer answer := by
        rw [Errand.answer?] at answers
        split at answers
        · rename_i decides _
          rw [decides, Option.some.inj answers]
        · contradiction
      have foreign := own.decision
      rw [decision] at foreign
      cases answer with
      | subscription made => exact if_neg foreign
      | _ => rfl
    | enters _ _ _ _ _ _ _ _ goes =>
      rw [goes] at finished
      contradiction

end Aloof

end Site

end DurableFlow
