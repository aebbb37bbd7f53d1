import DurableFlow.Proofs.Desk.Leftovers
import DurableFlow.Proofs.Trigger.Switchboard

/-!
# What steps do about deployments

Acts register and unregister handlers, save and delete subscriptions, and leave the deployments
alone. A decision may enter a deployment, and queues the acts that register its handler and save its
subscription; or it may take one back, and then the errand goes on to unregister the handler and to
delete the subscription. `Stride.Plugs` lists these cases for all decisions at once.
-/

namespace DurableFlow

namespace Ledger

/-- A row that is there afterwards is the new one, what has become of an old one, or an old one. -/
theorem mem_upsert {α : Type} {sameKey : α → Bool} {replace : α → α} {row found : α}
    {rows : List α} (member : found ∈ upsert sameKey replace row rows) :
    found = row ∨ (∃ old ∈ rows, found = replace old) ∨ found ∈ rows := by
  induction rows with
  | nil => exact .inl (List.mem_singleton.mp member)
  | cons first rest ih =>
    rw [upsert] at member
    split at member
    · rcases List.mem_cons.mp member with rfl | further
      · exact .inr (.inl ⟨first, List.mem_cons_self, rfl⟩)
      · exact .inr (.inr (List.mem_cons_of_mem _ further))
    · rcases List.mem_cons.mp member with rfl | further
      · exact .inr (.inr List.mem_cons_self)
      · rcases ih further with same | ⟨old, among, replaced⟩ | there
        · exact .inl same
        · exact .inr (.inl ⟨old, List.mem_cons_of_mem _ among, replaced⟩)
        · exact .inr (.inr (List.mem_cons_of_mem _ there))

end Ledger

namespace Engine

variable {engine after : Engine}

/-- The subscriptions that are stored. -/
def subscriptions (engine : Engine) : List Subscription :=
  match engine.ledger with
  | none => []
  | some ledger => ledger.subscriptions

theorem subscriptions_of_ledger (same : after.ledger = engine.ledger) :
    after.subscriptions = engine.subscriptions := by
  rw [subscriptions, subscriptions, same]

/-- A write that leaves the subscriptions alone. -/
theorem write_subscriptions {change : Ledger → Except Failure Ledger}
    (still : ∀ ledger next, change ledger = .ok next →
      next.subscriptions = ledger.subscriptions) :
    (engine.write change).subscriptions = engine.subscriptions := by
  simp only [subscriptions, write]
  cases known : engine.ledger with
  | none => simp [known]
  | some ledger =>
    dsimp only
    cases written : change ledger with
    | error failure => simp [known]
    | ok next => exact still ledger next written

theorem mem_saveSubscription (serves : engine.Serves) {saved found : Subscription}
    (member : found ∈ (engine.write (·.saveSubscription saved)).subscriptions) :
    found = saved ∨ found ∈ engine.subscriptions := by
  obtain ⟨ledger, known, working⟩ := serves
  have done : ledger.serves .saveSubscription = true := by simp [Ledger.serves, working]
  simp only [subscriptions, write, known, Ledger.saveSubscription, done, if_true] at member ⊢
  rcases Ledger.mem_upsert member with same | ⟨old, among, replaced⟩ | there
  · exact .inl same
  · exact .inl replaced
  · exact .inr there

theorem mem_deleteSubscription (serves : engine.Serves) {workflow : String} {found : Subscription}
    (member : found ∈ (engine.write (·.deleteSubscription workflow)).subscriptions) :
    found ∈ engine.subscriptions ∧ found.workflow ≠ workflow := by
  obtain ⟨ledger, known, working⟩ := serves
  have done : ledger.serves .deleteSubscription = true := by simp [Ledger.serves, working]
  simp only [subscriptions, write, known, Ledger.deleteSubscription, done, if_true] at member ⊢
  simpa using List.mem_filter.mp member

end Engine

namespace Subscription

/-- Whatever a trigger procedure gives back, the subscription is that of the workflow. -/
theorem workflow_of_ofOutput {now : Instant} {workflow : String} {trigger : Trigger}
    {output : Data} {subscription : Subscription}
    (made : ofOutput now workflow trigger output = .ok subscription) :
    subscription.workflow = workflow := by
  rw [ofOutput] at made
  repeat' split at made
  all_goals first
    | contradiction
    | cases made; rfl

end Subscription

/-- The acts that register the handler of a deployment and save its subscription. -/
def Deployment.announcements (deployment : Deployment) : List Act :=
  [.register deployment.subscription.provider deployment.handler,
    .saveSubscription deployment.subscription]

/-- The workflow whose handler an act registers or whose subscription it saves. -/
def Act.announces? : Act → Option String
  | .register _ handler => some handler.workflow
  | .saveSubscription subscription => some subscription.workflow
  | _ => none

/-- The workflow whose stored subscription a stop is going to delete. -/
def Decision.unsubscribes? : Decision → Option String
  | .callStop subscription _ => some subscription.workflow
  | .awaitStop workflow _ _ => some workflow
  | _ => none

/-- A subscription that is about to be deployed is one of the workflow itself. -/
def Decision.IsOwn : Decision → Prop
  | .install d subscription => subscription.workflow = d.id
  | _ => True

namespace Errand

/-- The errand has an act left that registers a handler of the workflow or saves its subscription.
-/
def Announces (errand : Errand) (workflow : String) : Prop :=
  ∃ act ∈ errand.acts, act.announces? = some workflow

instance (errand : Errand) (workflow : String) : Decidable (errand.Announces workflow) :=
  inferInstanceAs (Decidable (∃ act ∈ errand.acts, act.announces? = some workflow))

/-- The errand is going to delete the stored subscription of the workflow. -/
def Unsubscribes (errand : Errand) (workflow : String) : Prop :=
  .deleteSubscription workflow ∈ errand.acts ∨
    errand.decision.unsubscribes? = some workflow

end Errand

namespace Desk

def deployment? (desk : Desk) (workflow : String) : Option Deployment :=
  Fields.get? desk.deployments workflow

/-- The act registers the handler of the deployment that the workflow has, or saves its
subscription. -/
def Announced (desk : Desk) (workflow : String) (act : Act) : Prop :=
  ∃ deployment, desk.deployment? workflow = some deployment ∧ act ∈ deployment.announcements

variable {desk after : Desk}

theorem deployment?_congr (same : after.deployments = desk.deployments) :
    after.deployment? = desk.deployment? := by
  funext workflow
  rw [deployment?, deployment?, same]

theorem deployment?_of_insert {workflow : String} {deployment : Deployment}
    (entered : after.deployments = Fields.insert desk.deployments workflow deployment)
    (other : String) : after.deployment? other =
      if other = workflow then some deployment else desk.deployment? other := by
  rw [deployment?, entered, Fields.get?_insert]
  rfl

end Desk

namespace Office

@[simp] theorem silence_board (office : Office) (alarm : Option Nat) :
    (office.silence alarm).board = office.board := by
  cases alarm <;> rfl

@[simp] theorem release_board (office : Office) (execution : String) :
    (office.release execution).board = office.board := by
  rw [release]
  split <;> simp

@[simp] theorem arm_board (office : Office) (state : Suspended) :
    (office.arm state).board = office.board := by
  rw [arm]
  split <;> simp

@[simp] theorem detach_board (office : Office) (workflow : String) :
    (office.detach workflow).board = office.board := by
  have silenced : ∀ (dropped : List Pending) (office : Office),
      (dropped.foldl (fun office pending => office.silence pending.alarm) office).board =
        office.board := by
    intro dropped
    induction dropped with
    | nil => exact fun _ => rfl
    | cons pending rest ih => exact fun office => (ih _).trans (silence_board office _)
  exact silenced _ office

@[simp] theorem release_deployments (office : Office) (execution : String) :
    (office.release execution).desk.deployments = office.desk.deployments := by
  rw [release]
  split <;> rfl

theorem deployment?_detach (office : Office) (workflow other : String) :
    (office.detach workflow).desk.deployment? other =
      if other = workflow then none else office.desk.deployment? other := by
  have taken : (office.detach workflow).desk.deployments =
      Fields.erase office.desk.deployments workflow := by
    simp only [detach, Desk.detach, (foldl_silence _ office).1]
  rw [Desk.deployment?, taken, Fields.get?_erase]
  rfl

end Office

namespace Stride

variable {engine : Engine} {office : Office} {errand : Errand}

/-- The handlers after an act. -/
def rewire (board : Switchboard Handler) : Act → Switchboard Handler
  | .register provider handler => board.register provider handler
  | .unregister provider handler => (board.unregister provider handler).2
  | _ => board

/-- An act leaves the deployments alone, and changes the handlers as `rewire` says. -/
theorem act_wires (engine : Engine) (office : Office) (errand : Errand) (act : Act) :
    let stride := Stride.act engine office errand act
    stride.errand = errand ∧ stride.office.desk.deployments = office.desk.deployments ∧
      stride.office.board = rewire office.board act := by
  cases act with
  | arm d state =>
    have deployments : ((office.desk.learnNew d).hold state (office.nextAlarm? state)).deployments =
        office.desk.deployments := by
      rw [Desk.hold, Desk.learnNew]
      split <;> rfl
    refine ⟨rfl, ?_, ?_⟩
    · rw [(act_desk engine office errand (.arm d state)).2.2 d state rfl, deployments]
    · show (armed engine { office with desk := office.desk.learnNew d } state).2.1.board = _
      rw [armed_office, Office.arm_board]
      rfl
  | _ => exact ⟨rfl, rfl, rfl⟩

/-- A handler that is registered after an act has been registered before, or by the act. -/
theorem mem_rewire {board : Switchboard Handler} {act : Act} {provider : String}
    {handler : Handler} (member : handler ∈ (rewire board act).handlersOf provider) :
    act = .register provider handler ∨
      handler ∈ board.handlersOf provider ∧ act ≠ .unregister provider handler := by
  cases act with
  | register other new =>
    rw [rewire, Switchboard.handlersOf_register] at member
    split at member
    · rename_i same
      subst same
      rcases List.mem_append.mp member with before | added
      · exact .inr ⟨before, by simp⟩
      · rw [List.mem_singleton.mp added]
        exact .inl rfl
    · exact .inr ⟨member, by simp⟩
  | unregister other gone =>
    rw [rewire, Switchboard.handlersOf_unregister] at member
    split at member
    · rename_i same
      subst same
      obtain ⟨before, different⟩ := List.mem_filter.mp member
      refine .inr ⟨before, fun same => ?_⟩
      simp [(Act.unregister.inj same).2] at different
    · rename_i different
      exact .inr ⟨member, fun same => different (Act.unregister.inj same).1.symm⟩
  | _ => exact .inr ⟨member, by simp⟩

/-- A subscription that is stored after an act has been saved by it, or was stored before and is not
deleted by it. -/
theorem act_subscriptions (serves : engine.Serves) (office : Office) (errand : Errand) {act : Act}
    {found : Subscription}
    (member : found ∈ (Stride.act engine office errand act).engine.subscriptions) :
    act = .saveSubscription found ∨
      found ∈ engine.subscriptions ∧ act ≠ .deleteSubscription found.workflow := by
  have kept : ∀ change : Ledger → Except Failure Ledger,
      (∀ ledger next, change ledger = .ok next → next.subscriptions = ledger.subscriptions) →
      found ∈ (engine.write change).subscriptions → found ∈ engine.subscriptions := by
    intro change still among
    rwa [Engine.write_subscriptions still] at among
  cases act with
  | saveSubscription saved =>
    rcases Engine.mem_saveSubscription serves member with same | before
    · exact .inl (same ▸ rfl)
    · exact .inr ⟨before, by simp⟩
  | deleteSubscription workflow =>
    obtain ⟨before, foreign⟩ := Engine.mem_deleteSubscription serves member
    exact .inr ⟨before, by simpa using Ne.symm foreign⟩
  | saveRun | settleRun | saveSuspended | deleteSuspended =>
    refine .inr ⟨kept _ (fun ledger next done => ?_) member, by simp⟩
    simp only [Ledger.saveRun, Ledger.settleRun, Ledger.saveSuspended,
      Ledger.deleteSuspended] at done
    repeat' split at done
    all_goals first
      | contradiction
      | cases done; rfl
  | arm d state =>
    have ledger := (armed_keeps engine { office with desk := office.desk.learnNew d } state).2
    have same : (Stride.act engine office errand (.arm d state)).engine.subscriptions =
        engine.subscriptions := Engine.subscriptions_of_ledger ledger
    rw [same] at member
    exact .inr ⟨member, by simp⟩
  | publish | count | register | unregister => exact .inr ⟨member, by simp⟩

/-- All that a decision can do about deployments, and the acts that it queues then. -/
inductive Plugs (office : Office) (errand : Errand) (stride : Stride) : Prop where
  /-- The deployments stay as they are. -/
  | aside (deployments : stride.office.desk.deployments = office.desk.deployments)
      (definitions : stride.office.desk.definitions = office.desk.definitions)
      (announces : ∀ act ∈ stride.errand.acts, act.announces? = none)
      (unsubscribes : ∀ workflow, errand.Unsubscribes workflow →
        stride.errand.Unsubscribes workflow)
      (own : errand.decision.IsOwn → stride.errand.decision.IsOwn) : Plugs office errand stride
  /-- A deployment is entered, and its handler is going to be registered and its subscription
  saved. -/
  | enters (deployment : Deployment) {workflow : String}
      (absent : office.desk.deployment? workflow = none)
      (own : errand.decision.IsOwn →
        deployment.subscription.workflow = workflow ∧ deployment.handler.workflow = workflow)
      (deployments : stride.office.desk.deployments =
        Fields.insert office.desk.deployments workflow deployment)
      (definitions : ∀ other ≠ workflow,
        stride.office.desk.definition? other = office.desk.definition? other)
      (acts : stride.errand.acts = deployment.announcements)
      (free : errand.decision.unsubscribes? = none)
      (answer : Answer) (answers : stride.errand.decision = .answer answer) :
      Plugs office errand stride
  /-- A deployment is taken back, and its handler is going to be unregistered and its
  subscription deleted. -/
  | removes (deployment : Deployment) {workflow : String}
      (there : office.desk.deployment? workflow = some deployment)
      (detaches : stride.office = office.detach workflow)
      (acts : stride.errand.acts =
        [.unregister deployment.subscription.provider deployment.handler])
      (free : errand.decision.unsubscribes? = none)
      (dropped : List String)
      (calls : stride.errand.decision = .callStop deployment.subscription dropped) :
      Plugs office errand stride

section Decisions

variable (acts : errand.acts = [])

include acts

theorem unsubscribes_of_acts {workflow : String} (unsubscribes : errand.Unsubscribes workflow) :
    errand.decision.unsubscribes? = some workflow := by
  rcases unsubscribes with member | later
  · simp [acts] at member
  · exact later

theorem not_unsubscribes (free : errand.decision.unsubscribes? = none) (workflow : String) :
    ¬ errand.Unsubscribes workflow := by
  intro unsubscribes
  have later := unsubscribes_of_acts acts unsubscribes
  rw [free] at later
  contradiction

/-- A decision that leaves the deployments and the definitions alone and queues no act that
registers a handler or saves a subscription. -/
theorem plugs_aside {stride : Stride} (free : errand.decision.unsubscribes? = none)
    (deployments : stride.office.desk.deployments = office.desk.deployments)
    (definitions : stride.office.desk.definitions = office.desk.definitions)
    (announces : ∀ act ∈ stride.errand.acts, act.announces? = none)
    (own : errand.decision.IsOwn → stride.errand.decision.IsOwn) :
    Plugs office errand stride := by
  exact .aside deployments definitions announces
    (fun workflow unsubscribes => absurd unsubscribes (not_unsubscribes acts free workflow)) own

omit acts in
/-- The acts that save a suspended run and make it pending register no handler and save no
subscription. -/
theorem announces_of_keep (d : Definition) (result : RunResult) :
    ∀ act ∈ keep d result, act.announces? = none := by
  intro act member
  rw [keep] at member
  split at member <;> simp at member
  rcases member with rfl | rfl <;> rfl

omit acts in
theorem announces_of_fail (now : Instant) (state : Suspended) (error : String) :
    ∀ act ∈ fail now state error, act.announces? = none := by
  simp [fail, Act.announces?]

theorem decide_plugs (managed : errand.IsManaged engine) :
    Plugs office errand (decide engine office errand) ∧
      (decide engine office errand).office.board = office.board := by
  have allowed := managed.decision
  have plain : ∀ act ∈ errand.acts, act.announces? = none := by simp [acts]
  have later {workflow : String} (unsubscribes : errand.Unsubscribes workflow) :
      errand.decision.unsubscribes? = some workflow := unsubscribes_of_acts acts unsubscribes
  have decides := decide_decides engine office errand
  generalize decide engine office errand = stride at decides ⊢
  generalize decision : errand.decision = stage at decides allowed later
  cases decides with
  | ends | drives | awaitsReply =>
    exact ⟨plugs_aside acts (decision ▸ rfl) rfl rfl plain id, rfl⟩
  | keeps =>
    exact ⟨plugs_aside acts (decision ▸ rfl) rfl rfl (announces_of_keep _ _) fun _ => trivial, rfl⟩
  | abandons =>
    exact ⟨plugs_aside acts (decision ▸ rfl) rfl rfl (announces_of_fail _ _ _) fun _ => trivial,
      rfl⟩
  | claims | cancels =>
    exact ⟨plugs_aside acts (decision ▸ rfl) (by simp) (by simp [Office.definitions_release])
      (by simp [Errand.go, Act.announces?]) fun _ => trivial, by simp⟩
  | stops there =>
    exact ⟨.removes _ there rfl rfl (decision ▸ rfl) _ rfl, Office.detach_board office _⟩
  | forgets | stopped =>
    refine ⟨.aside rfl rfl (forall_forgetWorkflow errand (fun _ _ => rfl) rfl)
      (fun workflow unsubscribes => .inl ?_) fun _ => trivial, rfl⟩
    obtain rfl := Option.some.inj (later unsubscribes)
    exact List.mem_append_right _ (List.mem_singleton_self _)
  | callsStop =>
    exact ⟨.aside rfl rfl (by simp [Errand.go])
      (fun workflow unsubscribes => .inr (later unsubscribes)) fun _ => trivial, rfl⟩
  | awaitsStop => exact ⟨.aside rfl rfl plain (fun _ => id) id, rfl⟩
  | subscribes late made =>
    exact ⟨plugs_aside acts (decision ▸ rfl) rfl rfl (by simp [Errand.go])
      fun _ => Subscription.workflow_of_ofOutput made, rfl⟩
  | @installs d subscription free =>
    have absent : office.desk.deployment? d.id = none := by
      simpa [Desk.deployment?, Desk.isDeployed, Fields.contains] using free
    refine ⟨.enters ⟨subscription, ⟨office.nextHandler, d.id⟩⟩ absent (fun own => ⟨?_, rfl⟩) rfl
      (fun other different => ?_) rfl (decision ▸ rfl) _ rfl, rfl⟩
    · rwa [decision] at own
    · show Desk.definition? (office.desk.learn d) other = _
      rw [Desk.definition?, Desk.learn, Fields.get?_insert, if_neg different]
      rfl
  | attended | attends | expiryMissed | lapses | timesOut | transitions | restoresNothing
  | restoreFailed | restores | adopted | passesOver | adopts | recallsNothing | recallFailed
  | recalls | adoptsSuspended => exact allowed.elim
  | _ =>
    refine ⟨plugs_aside acts (decision ▸ rfl) rfl rfl ?_ fun _ => trivial, rfl⟩
    simp [Errand.go, Act.announces?, concluding]

/-- When the wait of a run is over, no deployment changes. -/
theorem expire_plugs (engine : Engine) (before : Office) (same : office.desk = before.desk)
    (free : errand.decision.unsubscribes? = none) (execution : String) :
    Plugs before errand (expire engine office errand execution) ∧
      (expire engine office errand execution).office.board = office.board ∧
      (expire engine office errand execution).engine.ledger = engine.ledger := by
  have decides := expire_decides engine office errand execution
  generalize expire engine office errand execution = stride at decides ⊢
  cases decides with
  | expiryMissed =>
    exact ⟨plugs_aside acts free (by rw [same]) (by rw [same]) (by simp [Errand.go])
      fun _ => trivial, rfl, rfl⟩
  | lapses | timesOut | transitions =>
    exact ⟨plugs_aside acts free (by simp [same]) (by simp [Office.definitions_release, same])
      (by simp [Errand.go, fail, Act.announces?]) fun _ => trivial, by simp, rfl⟩

end Decisions

end Stride

end DurableFlow
