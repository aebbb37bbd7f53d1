import DurableFlow.Desk.Step

/-!
# What decisions come to

`decide_decides` goes through the decisions once. `Decides` has a rule for each way in which one of
them may turn out, with what has to hold for it and the stride that it comes to, so that whoever
wants to know what errands do goes through these rules and opens no definition.
-/

namespace DurableFlow

/-- The suspended run that a pass lets go on. -/
def Purpose.state? : Purpose → Option Suspended
  | .resumed _ state | .expired _ state => some state
  | _ => none

/-- The definition that is made known when the run of a pass becomes pending. -/
def Purpose.definition? : Purpose → Option Definition
  | .direct => none
  | .kept d | .started d | .resumed d _ | .expired d _ => some d

/-- The answer of an errand whose pass has come to a result. -/
def Purpose.answer (result : RunResult) : Purpose → Answer
  | .direct | .kept _ => .result result
  | .started _ => .handled .started (some result)
  | .resumed .. => .handled .resumed (some result)
  | .expired .. => .nothing

/-- The answer of an errand whose pass has been refused. -/
def Purpose.refusal (failure : Failure) : Purpose → Answer
  | .expired .. => .nothing
  | _ => .failed failure

/-- What is left of an errand that breaks down because a date has left the calendar. -/
def Errand.broken (errand : Errand) : Errand :=
  { errand.go [] (.answer (.failed .dateRange)) with delivery := none }

@[simp] theorem Errand.broken_acts (errand : Errand) : errand.broken.acts = [] := rfl

@[simp] theorem Errand.broken_decision (errand : Errand) :
    errand.broken.decision = .answer (.failed .dateRange) := rfl

namespace Stride

@[simp] theorem enter_errand (engine : Engine) (office : Office) (errand : Errand)
    (purpose : Purpose) (run : Run) (acts : List Act) :
    (enter engine office errand purpose run acts).errand =
      errand.go acts (.drive purpose engine.nextRun) := rfl

/-- When a workflow is forgotten, the rows of its runs and of its subscription are deleted, and
nothing else is done. -/
theorem forall_forgetWorkflow {holds : Act → Prop} (errand : Errand) {workflow : String}
    {dropped : List String} (runs : ∀ execution ∈ dropped, holds (.deleteSuspended execution))
    (subscription : holds (.deleteSubscription workflow)) :
    ∀ act ∈ (forgetWorkflow errand workflow dropped).acts, holds act := by
  intro act among
  rcases List.mem_append.mp among with rows | last
  · obtain ⟨execution, member, rfl⟩ := List.mem_map.mp rows
    exact runs execution member
  · exact List.mem_singleton.mp last ▸ subscription

/-- What is done when a pass has come to a result. -/
def concluding (context : Context) (now : Instant) (result : RunResult) (happening : Happening) :
    List Act :=
  [.publish ⟨result.workflow, result.execution, happening⟩, .count (.run result.status),
    .settleRun result.execution
      (context.outcome now result.status (some (.obj result.outputs)) result.error)]

/-- The strides that a decision may come to, one rule for each way in which it may turn out. -/
inductive Decides (engine : Engine) (office : Office) (errand : Errand) : Decision → Stride → Prop
  | ends {answer : Answer} (alone : errand.delivery = none) :
    Decides engine office errand (.answer answer) ⟨engine, office, errand, .finished, []⟩
  | handsOn {answer : Answer} {delivery : Delivery} (more : errand.delivery = some delivery) :
    Decides engine office errand (.answer answer)
      ⟨engine, office, errand.go [] .deliver, .proceed, []⟩
  | startRefused {purpose : Purpose} {d : Definition} {input : Data} {execution : Option String}
      {failure : Failure} (invalid : engine.validate d = .error failure) :
    Decides engine office errand (.start purpose d input execution)
      ⟨engine, office, errand.go [] (.finish purpose (.error failure)), .proceed, []⟩
  | starts {purpose : Purpose} {d : Definition} {input : Data} {execution : Option String}
      {context : Context} (valid : engine.validate d = .ok ())
      (begins : context = .start d.id (execution.getD engine.moment.freshId)
        (Context.bindInput d.vars input) engine.moment.now) :
    Decides engine office errand (.start purpose d input execution)
      (enter engine.tick office errand purpose (.start d context engine.limit [d.start])
        [.publish ⟨d.id, context.execution, .started⟩,
          .saveRun (.started context.execution d.id context.startedAt)])
  | resumeRefused {purpose : Purpose} {d : Definition} {state : Suspended}
      {node : Option String} {delta : Fields Data} {failure : Failure}
      (refused : checkResume engine d state node = .error failure) :
    Decides engine office errand (.resume purpose d state node delta)
      ⟨engine, office, errand.go [] (.finish purpose (.error failure)), .proceed, []⟩
  | resumes {purpose : Purpose} {d : Definition} {state : Suspended} {node : Option String}
      {delta : Fields Data} {next : List String}
      (accepted : checkResume engine d state node = .ok next) :
    Decides engine office errand (.resume purpose d state node delta)
      (enter engine office errand purpose (.start d (state.toContext delta) engine.limit next)
        [.publish ⟨state.workflow, state.execution, .resumed state.node⟩,
          .settleRun state.execution
            ((state.toContext delta).outcome engine.moment.now .running none none)])
  | drives {purpose : Purpose} {run : Nat}
      (goesOn : (engine.stepRun run .driver).2.2 ≠ .finished) :
    Decides engine office errand (.drive purpose run)
      ⟨(engine.stepRun run .driver).1, office, errand, (engine.stepRun run .driver).2.2,
        if (engine.stepRun run .driver).2.1.isEmpty then []
        else [.branches run (engine.stepRun run .driver).2.1]⟩
  | drivesHome {purpose : Purpose} {run : Nat}
      (finished : (engine.stepRun run .driver).2.2 = .finished) :
    Decides engine office errand (.drive purpose run)
      ⟨(engine.stepRun run .driver).1, office, errand.go [] (.conclude purpose run), .proceed,
        if (engine.stepRun run .driver).2.1.isEmpty then []
        else [.branches run (engine.stepRun run .driver).2.1]⟩
  | runMissing {purpose : Purpose} {run : Nat} (missing : engine.run? run = none) :
    Decides engine office errand (.conclude purpose run)
      ⟨engine, office, errand.broken, .proceed, []⟩
  | drivesOn {purpose : Purpose} {run : Nat} {process : Run}
      (found : engine.run? run = some process)
      (unclosed : ∀ conclusion, process.drive ≠ .concluded conclusion) :
    Decides engine office errand (.conclude purpose run)
      ⟨engine, office, errand.go [] (.drive purpose run), .proceed, []⟩
  | breaksDown {purpose : Purpose} {run : Nat} {process : Run} {conclusion : Conclusion}
      {failure : Failure} (found : engine.run? run = some process)
      (concluded : process.drive = .concluded conclusion)
      (untold : conclusion.result engine.moment.now process.context = .error failure) :
    Decides engine office errand (.conclude purpose run)
      ⟨engine.tick.close run, office, errand.broken, .proceed, []⟩
  | concludes {purpose : Purpose} {run : Nat} {process : Run} {conclusion : Conclusion}
      {result : RunResult} {happening : Happening} (found : engine.run? run = some process)
      (concluded : process.drive = .concluded conclusion)
      (told : conclusion.result engine.moment.now process.context = .ok (result, happening)) :
    Decides engine office errand (.conclude purpose run)
      ⟨engine.tick.close run, office,
        errand.go (concluding process.context engine.moment.now result happening)
          (.finish purpose (.ok result)),
        .proceed, []⟩
  | tells {result : RunResult} :
    Decides engine office errand (.finish .direct (.ok result))
      ⟨engine, office, errand.go [] (.answer (.result result)), .proceed, []⟩
  | refuses {purpose : Purpose} {failure : Failure} (unclaimed : purpose.state? = none) :
    Decides engine office errand (.finish purpose (.error failure))
      ⟨engine, office, errand.go [] (.answer (.failed failure)), .proceed, []⟩
  | keeps {purpose : Purpose} {d : Definition} {result : RunResult}
      (kept : purpose.definition? = some d) :
    Decides engine office errand (.finish purpose (.ok result))
      ⟨engine, office, errand.go (keep d result) (.answer (purpose.answer result)), .proceed, []⟩
  | abandons {purpose : Purpose} {state : Suspended} {failure : Failure}
      (claimed : purpose.state? = some state) :
    Decides engine office errand (.finish purpose (.error failure))
      ⟨engine, office,
        errand.go (abandon engine.moment.now state failure) (.answer (purpose.refusal failure)),
        .proceed, []⟩
  | attended {run group : Nat} {ending : Ending} {rest : List Ending}
      (arrived : (engine.run? run).map (·.endingsOf group) = some (ending :: rest)) :
    Decides engine office errand (.attend run group)
      ⟨engine, office, errand.go [] (.answer (.ending ending)), .proceed, []⟩
  | attends {run group : Nat} :
    Decides engine office errand (.attend run group) ⟨engine, office, errand, .wait, []⟩
  | claims {d : Definition} {event : Event} {state : Suspended}
      (matched : office.desk.match? d.id event = some state) :
    Decides engine office errand (.claim d event)
      ⟨showPending engine (office.release state.execution), office.release state.execution,
        errand.go [.count (.event .resumed), .deleteSuspended state.execution]
          (.resume (.resumed d state) d state none event.delta),
        .proceed, []⟩
  | startsFor {d : Definition} {event : Event} (unmatched : office.desk.match? d.id event = none)
      (allowed : d.trigger.all event.allowedBy = true) :
    Decides engine office errand (.claim d event)
      ⟨engine, office,
        errand.go [.count (.event .started)] (.start (.started d) d event.input none),
        .proceed, []⟩
  | drops {d : Definition} {event : Event} (unmatched : office.desk.match? d.id event = none)
      (refused : d.trigger.all event.allowedBy = false) :
    Decides engine office errand (.claim d event)
      ⟨engine, office, errand.go [.count (.event .dropped)] (.answer (.handled .dropped none)),
        .proceed, []⟩
  | expiryMissed {execution : String} (gone : office.desk.pending? execution = none) :
    Decides engine office errand (.expire execution)
      ⟨engine, office, errand.go [] (.answer .nothing), .proceed, []⟩
  | lapses {execution : String} {state : Suspended} {alarm : Option Nat}
      (found : office.desk.pending? execution = some ⟨state, alarm⟩)
      (policy : (office.release execution).desk.policy = .drop ∨
        (office.release execution).desk.policy = .transition ∧
          ∀ node d, state.deadlineNode = some node →
            (office.release execution).desk.definition? state.workflow ≠ some d) :
    Decides engine office errand (.expire execution)
      ⟨showPending engine (office.release execution), office.release execution,
        errand.go
          [.deleteSuspended execution, .count (.timeout (office.release execution).desk.policy)]
          (.answer .nothing),
        .proceed, []⟩
  | timesOut {execution : String} {state : Suspended} {alarm : Option Nat}
      (found : office.desk.pending? execution = some ⟨state, alarm⟩)
      (policy : (office.release execution).desk.policy = .fail) :
    Decides engine office errand (.expire execution)
      ⟨showPending engine (office.release execution), office.release execution,
        errand.go
          ([.deleteSuspended execution,
            .count (.timeout (office.release execution).desk.policy)] ++
            fail engine.moment.now state (timeoutText state))
          (.answer .nothing),
        .proceed, []⟩
  | transitions {execution : String} {state : Suspended} {alarm : Option Nat} {node : String}
      {d : Definition} (found : office.desk.pending? execution = some ⟨state, alarm⟩)
      (policy : (office.release execution).desk.policy = .transition)
      (leads : state.deadlineNode = some node)
      (known : (office.release execution).desk.definition? state.workflow = some d) :
    Decides engine office errand (.expire execution)
      ⟨showPending engine (office.release execution), office.release execution,
        errand.go
          [.deleteSuspended execution, .count (.timeout (office.release execution).desk.policy)]
          (.resume (.expired d state) d state (some node) []),
        .proceed, []⟩
  | cancelMissed {execution : String} (gone : office.desk.pending? execution = none) :
    Decides engine office errand (.cancel execution)
      ⟨engine, office,
        errand.go [] (.answer (.failed (.notFound (.pendingExecution execution)))), .proceed, []⟩
  | cancels {execution : String} {state : Suspended} {alarm : Option Nat}
      (found : office.desk.pending? execution = some ⟨state, alarm⟩) :
    Decides engine office errand (.cancel execution)
      ⟨showPending engine (office.release execution), office.release execution,
        errand.go
          [.deleteSuspended execution,
            .settleRun execution
              (endOutcome engine.moment.now state .cancelled Failure.cancelled.message),
            .publish ⟨state.workflow, execution, .cancelled⟩]
          (.answer (.suspended state)),
        .proceed, []⟩
  | stopMissed {workflow : String} (missing : Fields.get? office.desk.deployments workflow = none) :
    Decides engine office errand (.stop workflow)
      ⟨engine, office, errand.go [] (.answer (.failed (.notFound (.deployment workflow)))),
        .proceed, []⟩
  | stops {workflow : String} {deployment : Deployment}
      (there : Fields.get? office.desk.deployments workflow = some deployment) :
    Decides engine office errand (.stop workflow)
      ⟨showPending engine (office.detach workflow), office.detach workflow,
        errand.go [.unregister deployment.subscription.provider deployment.handler]
          (.callStop deployment.subscription
            ((office.desk.pendingOf workflow).map Suspended.execution)),
        .proceed, []⟩
  | forgets {subscription : Subscription} {dropped : List String}
      (missing : stopProcedure? engine.catalog subscription = none) :
    Decides engine office errand (.callStop subscription dropped)
      ⟨engine, office, forgetWorkflow errand subscription.workflow dropped, .proceed, []⟩
  | callsStop {subscription : Subscription} {dropped : List String} {procedure : Procedure}
      (known : stopProcedure? engine.catalog subscription = some procedure) :
    Decides engine office errand (.callStop subscription dropped)
      ⟨engine.tick.logCall procedure.contract.name subscription.stopInput
          { workflow := subscription.workflow, execution := engine.moment.freshId },
        office,
        errand.go [] (.awaitStop subscription.workflow dropped (engine.clock + procedure.delay)),
        .proceed, []⟩
  | awaitsStop {workflow : String} {dropped : List String} {due : Nat}
      (early : engine.clock < due) :
    Decides engine office errand (.awaitStop workflow dropped due)
      ⟨engine, office, errand, .sleep due, []⟩
  | stopped {workflow : String} {dropped : List String} {due : Nat}
      (late : ¬ engine.clock < due) :
    Decides engine office errand (.awaitStop workflow dropped due)
      ⟨engine, office, forgetWorkflow errand workflow dropped, .proceed, []⟩
  | deployRefused {d : Definition} {url : String} {config : Fields Data} {failure : Failure} :
    Decides engine office errand (.deploy d url config)
      ⟨engine, office, errand.go [] (.answer (.failed failure)), .proceed, []⟩
  | callsTrigger {d : Definition} {url : String} {config : Fields Data} {trigger : Trigger}
      {procedure : Procedure} {input : Data} {invocation : Invocation}
      (declared : d.trigger = some trigger) (valid : engine.validate d = .ok ())
      (free : office.desk.isDeployed d.id = false)
      (known : Fields.get? engine.catalog trigger.procedure = some procedure)
      (asks : input = .obj (Fields.insert (Fields.merge trigger.subscriptionConfig config)
        "webhookUrl" (.str url)))
      (invokes : invocation = { workflow := d.id, execution := engine.moment.freshId }) :
    Decides engine office errand (.deploy d url config)
      ⟨(engine.tick.logCall trigger.procedure input invocation).tick, office,
        errand.go []
          (.awaitDeploy d trigger (procedure.reply engine.tick.moment invocation input)
            (engine.clock + procedure.delay)),
        .proceed, []⟩
  | awaitsReply {d : Definition} {trigger : Trigger} {reply : Reply} {due : Nat}
      (early : engine.clock < due) :
    Decides engine office errand (.awaitDeploy d trigger reply due)
      ⟨engine, office, errand, .sleep due, []⟩
  | subscribeRefused {d : Definition} {trigger : Trigger} {reply : Reply} {due : Nat}
      {failure : Failure} (late : ¬ engine.clock < due) :
    Decides engine office errand (.awaitDeploy d trigger reply due)
      ⟨engine.tick, office, errand.go [] (.answer (.failed failure)), .proceed, []⟩
  | subscribes {d : Definition} {trigger : Trigger} {output : Data} {due : Nat}
      {subscription : Subscription} (late : ¬ engine.clock < due)
      (made : Subscription.ofOutput engine.moment.now d.id trigger output = .ok subscription) :
    Decides engine office errand (.awaitDeploy d trigger (.output output) due)
      ⟨engine.tick, office, errand.go [] (.install d subscription), .proceed, []⟩
  | installRefused {d : Definition} {subscription : Subscription}
      (deployed : office.desk.isDeployed d.id = true) :
    Decides engine office errand (.install d subscription)
      ⟨engine, office, errand.go [] (.answer (.failed (.trigger (.alreadyDeployed d.id)))),
        .proceed, []⟩
  | installs {d : Definition} {subscription : Subscription}
      (free : office.desk.isDeployed d.id = false) :
    Decides engine office errand (.install d subscription)
      ⟨engine,
        { office with
          desk := (office.desk.learn d).deploy d.id ⟨subscription, office.nextHandler, d.id⟩
          nextHandler := office.nextHandler + 1 },
        errand.go
          [.register subscription.provider ⟨office.nextHandler, d.id⟩,
            .saveSubscription subscription]
          (.answer (.subscription subscription)),
        .proceed, []⟩
  | restoresNothing (bare : engine.ledger = none) :
    Decides engine office errand .restore
      ⟨engine, office, errand.go [] (.answer (.count 0)), .proceed, []⟩
  | restoreFailed {failure : Failure} :
    Decides engine office errand .restore
      ⟨engine, office, errand.go [] (.answer (.failed failure)), .proceed, []⟩
  | restores {ledger : Ledger} {subscriptions : List Subscription}
      (kept : engine.ledger = some ledger) (listed : ledger.listSubscriptions = .ok subscriptions) :
    Decides engine office errand .restore
      ⟨engine, office, errand.go [] (.adoptSubscriptions subscriptions), .proceed, []⟩
  | adopted :
    Decides engine office errand (.adoptSubscriptions [])
      ⟨engine, office, errand.go [] .recallSuspended, .proceed, []⟩
  | passesOver {subscription : Subscription} {rest : List Subscription}
      (skipped : ((office.desk.definition? subscription.workflow).isNone ||
        office.desk.isDeployed subscription.workflow) = true) :
    Decides engine office errand (.adoptSubscriptions (subscription :: rest))
      ⟨engine, office, errand.go [] (.adoptSubscriptions rest), .proceed, []⟩
  | adopts {subscription : Subscription} {rest : List Subscription}
      (taken : ((office.desk.definition? subscription.workflow).isNone ||
        office.desk.isDeployed subscription.workflow) = false) :
    Decides engine office errand (.adoptSubscriptions (subscription :: rest))
      ⟨engine,
        { office with
          desk := office.desk.deploy subscription.workflow
            ⟨subscription, office.nextHandler, subscription.workflow⟩
          nextHandler := office.nextHandler + 1 },
        errand.go
          [.register subscription.provider ⟨office.nextHandler, subscription.workflow⟩]
          (.adoptSubscriptions rest),
        .proceed, []⟩
  | recallsNothing (bare : engine.ledger = none) :
    Decides engine office errand .recallSuspended
      ⟨engine, office, errand.go [] (.answer (.count 0)), .proceed, []⟩
  | recallFailed {failure : Failure} :
    Decides engine office errand .recallSuspended
      ⟨engine, office, errand.go [] (.answer (.failed failure)), .proceed, []⟩
  | recalls {ledger : Ledger} {states : List Suspended} (kept : engine.ledger = some ledger)
      (listed : ledger.listSuspended = .ok states) :
    Decides engine office errand .recallSuspended
      ⟨engine, office, errand.go [] (.adoptSuspended states), .proceed, []⟩
  | adoptsSuspended {states : List Suspended} :
    Decides engine office errand (.adoptSuspended states)
      (adoptSuspended engine office errand states)
  | dispatches {event : Event} {handlers : List Handler}
      (listen : handlers = office.board.handlersOf event.provider) :
    Decides engine office errand (.dispatch event)
      ⟨engine, office,
        { errand.go [] .deliver with delivery := some ⟨event, handlers, handlers.length⟩ },
        .proceed, []⟩
  | delivered {n : Nat} (empty : ∀ delivery, errand.delivery = some delivery →
      delivery.handlers = [] ∧ delivery.count = n) :
    Decides engine office errand .deliver
      ⟨engine, office, { errand.go [] (.answer (.count n)) with delivery := none }, .proceed, []⟩
  | skips {event : Event} {handler : Handler} {rest : List Handler} {count : Nat}
      (more : errand.delivery = some ⟨event, handler :: rest, count⟩) :
    Decides engine office errand .deliver
      ⟨engine, office, { errand.go [] .deliver with delivery := some ⟨event, rest, count⟩ },
        .proceed, []⟩
  | hands {event : Event} {handler : Handler} {rest : List Handler} {count : Nat} {d : Definition}
      (more : errand.delivery = some ⟨event, handler :: rest, count⟩)
      (known : office.desk.definition? handler.workflow = some d) :
    Decides engine office errand .deliver
      ⟨engine, office,
        { errand.go [] (.claim d event) with delivery := some ⟨event, rest, count⟩ }, .proceed,
        []⟩

variable (engine : Engine) (office : Office) (errand : Errand)

theorem start_decides (purpose : Purpose) (d : Definition) (input : Data)
    (execution : Option String) :
    Decides engine office errand (.start purpose d input execution)
      (start engine office errand purpose d input execution) := by
  rw [start]
  cases valid : engine.validate d with
  | error failure => exact .startRefused valid
  | ok => exact .starts valid rfl

theorem resume_decides (purpose : Purpose) (d : Definition) (state : Suspended)
    (node : Option String) (delta : Fields Data) :
    Decides engine office errand (.resume purpose d state node delta)
      (resume engine office errand purpose d state node delta) := by
  rw [resume]
  cases accepted : checkResume engine d state node with
  | error failure => exact .resumeRefused accepted
  | ok next => exact .resumes accepted

theorem drive_decides (purpose : Purpose) (run : Nat) :
    Decides engine office errand (.drive purpose run) (drive engine office errand purpose run) := by
  have drives := @Decides.drives engine office errand purpose run
  have drivesHome := @Decides.drivesHome engine office errand purpose run
  rw [drive]
  generalize engine.stepRun run .driver = stepped at drives drivesHome ⊢
  obtain ⟨after, forked, signal⟩ := stepped
  cases signal with
  | finished => exact drivesHome rfl
  | _ => exact drives (by simp)

theorem conclude_decides (purpose : Purpose) (run : Nat) :
    Decides engine office errand (.conclude purpose run)
      (conclude engine office errand purpose run) := by
  rw [conclude]
  cases found : engine.run? run with
  | none => exact .runMissing found
  | some process =>
    cases concluded : process.drive with
    | choosing | running =>
      simpa only [concluded] using .drivesOn found (by simp [concluded])
    | concluded conclusion =>
      simp only [concluded]
      cases told : conclusion.result engine.moment.now process.context with
      | error failure => exact .breaksDown found concluded told
      | ok result => exact .concludes found concluded told

theorem finish_decides (purpose : Purpose) (result : Except Failure RunResult) :
    Decides engine office errand (.finish purpose result)
      ⟨engine, office, finish engine.moment.now errand purpose result, .proceed, []⟩ := by
  cases result with
  | error failure =>
    cases purpose with
    | direct | kept | started => exact .refuses rfl
    | resumed | expired => exact .abandons rfl
  | ok result =>
    cases purpose with
    | direct => exact .tells
    | _ => exact .keeps rfl

theorem attend_decides (run group : Nat) :
    Decides engine office errand (.attend run group) (attend engine office errand run group) := by
  rw [attend]
  split
  · exact .attended ‹_›
  · exact .attends

theorem claim_decides (d : Definition) (event : Event) :
    Decides engine office errand (.claim d event) (claim engine office errand d event) := by
  rw [claim]
  cases matched : office.desk.match? d.id event with
  | some state => exact .claims matched
  | none =>
    cases allowed : d.trigger.all event.allowedBy with
    | true => exact .startsFor matched allowed
    | false => exact .drops matched allowed

theorem expire_decides (execution : String) :
    Decides engine office errand (.expire execution) (expire engine office errand execution) := by
  rw [expire]
  cases found : office.desk.pending? execution with
  | none => exact .expiryMissed found
  | some pending =>
    obtain ⟨state, alarm⟩ := pending
    dsimp only
    split
    · rename_i policy
      exact .lapses found (.inl policy)
    · rename_i policy
      exact .timesOut found policy
    · rename_i policy
      split
      · exact .transitions found policy ‹_› ‹_›
      · rename_i unnamed
        exact .lapses found (.inr ⟨policy, unnamed⟩)

theorem cancel_decides (execution : String) :
    Decides engine office errand (.cancel execution) (cancel engine office errand execution) := by
  rw [cancel]
  cases found : office.desk.pending? execution with
  | none => exact .cancelMissed found
  | some pending => exact .cancels found

theorem stop_decides (workflow : String) :
    Decides engine office errand (.stop workflow) (stop engine office errand workflow) := by
  rw [stop]
  cases there : Fields.get? office.desk.deployments workflow with
  | none => exact .stopMissed there
  | some deployment => exact .stops there

theorem callStop_decides (subscription : Subscription) (dropped : List String) :
    Decides engine office errand (.callStop subscription dropped)
      (callStop engine office errand subscription dropped) := by
  rw [callStop]
  cases known : stopProcedure? engine.catalog subscription with
  | none => exact .forgets known
  | some procedure => exact .callsStop known

theorem deploy_decides (d : Definition) (url : String) (config : Fields Data) :
    Decides engine office errand (.deploy d url config)
      (deploy engine office errand d url config) := by
  rw [deploy]
  cases declared : d.trigger with
  | none => exact .deployRefused
  | some trigger =>
    cases valid : engine.validate d with
    | error failure => exact .deployRefused
    | ok =>
      cases free : office.desk.isDeployed d.id with
      | true => exact .deployRefused
      | false =>
        simp only [Bool.false_eq_true, if_false]
        cases known : Fields.get? engine.catalog trigger.procedure with
        | none => exact .deployRefused
        | some procedure => exact .callsTrigger declared valid free known rfl rfl

theorem subscribe_decides {due : Nat} (late : ¬ engine.clock < due) (d : Definition)
    (trigger : Trigger) (reply : Reply) :
    Decides engine office errand (.awaitDeploy d trigger reply due)
      ⟨engine.tick, office, subscribe engine.moment.now errand d trigger reply, .proceed, []⟩ := by
  cases reply with
  | output output =>
    rw [subscribe]
    cases made : Subscription.ofOutput engine.moment.now d.id trigger output with
    | error fault => exact .subscribeRefused late
    | ok subscription => exact .subscribes late made
  | _ => exact .subscribeRefused late

theorem install_decides (d : Definition) (subscription : Subscription) :
    Decides engine office errand (.install d subscription)
      (install engine office errand d subscription) := by
  rw [install]
  cases deployed : office.desk.isDeployed d.id with
  | true => exact .installRefused deployed
  | false => exact .installs deployed

theorem restore_decides :
    Decides engine office errand .restore
      ⟨engine, office, restore engine errand, .proceed, []⟩ := by
  rw [restore]
  split
  · exact .restoresNothing ‹_›
  · split
    · exact .restores ‹_› ‹_›
    · exact .restoreFailed

theorem adoptSubscriptions_decides (subscriptions : List Subscription) :
    Decides engine office errand (.adoptSubscriptions subscriptions)
      (adoptSubscriptions engine office errand subscriptions) := by
  cases subscriptions with
  | nil => exact .adopted
  | cons subscription rest =>
    rw [adoptSubscriptions]
    dsimp only
    split
    · exact .passesOver ‹_›
    · exact .adopts (Bool.eq_false_iff.mpr ‹_›)

theorem recallSuspended_decides :
    Decides engine office errand .recallSuspended
      ⟨engine, office, recallSuspended engine errand, .proceed, []⟩ := by
  rw [recallSuspended]
  split
  · exact .recallsNothing ‹_›
  · split
    · exact .recalls ‹_› ‹_›
    · exact .recallFailed

theorem deliver_decides :
    Decides engine office errand .deliver
      ⟨engine, office, deliver office errand, .proceed, []⟩ := by
  rw [deliver]
  split
  · rename_i alone
    have same : errand.go [] (.answer (.count 0)) =
        { errand.go [] (.answer (.count 0)) with delivery := none } := by
      rw [Errand.go, alone]
    exact same ▸ .delivered (by simp [alone])
  · rename_i last
    exact .delivered (by simp [last])
  · rename_i more
    dsimp only
    split
    · exact .hands more ‹_›
    · exact .skips more

/-- Each decision turns out in one of these ways. -/
theorem decide_decides :
    Decides engine office errand errand.decision (decide engine office errand) := by
  rw [decide]
  cases decision : errand.decision with
  | answer answer =>
    cases delivery : errand.delivery with
    | none => simpa only [delivery] using .ends delivery
    | some handlers => simpa only [delivery] using .handsOn delivery
  | start purpose d input execution => exact start_decides ..
  | resume purpose d state node delta => exact resume_decides ..
  | drive purpose run => exact drive_decides ..
  | conclude purpose run => exact conclude_decides ..
  | finish purpose result => exact finish_decides ..
  | attend run group => exact attend_decides ..
  | claim d event => exact claim_decides ..
  | expire execution => exact expire_decides ..
  | cancel execution => exact cancel_decides ..
  | stop workflow => exact stop_decides ..
  | callStop subscription dropped => exact callStop_decides ..
  | awaitStop workflow dropped due =>
    dsimp only
    split
    · exact .awaitsStop ‹_›
    · exact .stopped ‹_›
  | deploy d url config => exact deploy_decides ..
  | awaitDeploy d trigger reply due =>
    dsimp only
    split
    · exact .awaitsReply ‹_›
    · exact subscribe_decides _ _ _ ‹_› ..
  | install d subscription => exact install_decides ..
  | restore => exact restore_decides ..
  | adoptSubscriptions subscriptions => exact adoptSubscriptions_decides ..
  | recallSuspended => exact recallSuspended_decides ..
  | adoptSuspended states => exact .adoptsSuspended
  | dispatch event => exact .dispatches rfl
  | deliver => exact deliver_decides ..

end Stride

end DurableFlow
