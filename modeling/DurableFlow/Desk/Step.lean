import DurableFlow.Desk.Errand

/-!
# The steps of errands

What an act or a decision does to the engine and the office, and how an errand goes on.
-/

namespace DurableFlow

/-- A change of who is to be woken up, and when. -/
inductive Request where
  /-- Branches of a run have been set off. -/
  | branches (run : Nat) (ids : List Nat)
  /-- An alarm is to ring after some milliseconds. -/
  | alarm (id after : Nat)
deriving DecidableEq, Repr

/-- Where a step of an errand leaves everything. -/
structure Stride where
  engine : Engine
  office : Office
  errand : Errand
  signal : Signal := .proceed
  requests : List Request := []

namespace Stride

/-- Milliseconds that cover some nanoseconds. -/
def millisCovering (nanos : Nat) : Nat := (nanos + 999999) / 1000000

/-- Make a run pending, and have its alarm ring when its wait is over. -/
def armed (engine : Engine) (office : Office) (state : Suspended) :
    Engine × Office × List Request :=
  match state.remaining engine.moment.now with
  | none => (engine, office.arm state, [])
  | some nanos =>
    (engine.tick, office.arm state, [.alarm office.nextAlarm (millisCovering nanos)])

/-- Make several runs pending. -/
def armedAll (engine : Engine) (office : Office) :
    List Suspended → Engine × Office × List Request
  | [] => (engine, office, [])
  | state :: rest =>
    let (engine, office, requests) := armed engine office state
    let (engine, office, more) := armedAll engine office rest
    (engine, office, requests ++ more)

/-- Show how many runs are pending. -/
def showPending (engine : Engine) (office : Office) : Engine :=
  engine.showPending office.desk.pending.length

/-- Carry out an act. -/
def act (engine : Engine) (office : Office) (errand : Errand) : Act → Stride
  | .saveRun record => ⟨engine.write (·.saveRun record), office, errand, .proceed, []⟩
  | .settleRun execution outcome =>
    ⟨engine.write (·.settleRun execution outcome), office, errand, .proceed, []⟩
  | .saveSuspended state => ⟨engine.write (·.saveSuspended state), office, errand, .proceed, []⟩
  | .deleteSuspended execution =>
    ⟨engine.write (·.deleteSuspended execution), office, errand, .proceed, []⟩
  | .saveSubscription subscription =>
    ⟨engine.write (·.saveSubscription subscription), office, errand, .proceed, []⟩
  | .deleteSubscription workflow =>
    ⟨engine.write (·.deleteSubscription workflow), office, errand, .proceed, []⟩
  | .publish notice => ⟨engine.publish notice, office, errand, .proceed, []⟩
  | .count tally => ⟨engine.count tally, office, errand, .proceed, []⟩
  | .arm definition state =>
    let office := { office with desk := office.desk.learnNew definition }
    let (engine, office, requests) := armed engine office state
    ⟨showPending engine office, office, errand, .proceed, requests⟩
  | .register provider handler =>
    ⟨engine, { office with board := office.board.register provider handler }, errand, .proceed,
      []⟩
  | .unregister provider handler =>
    ⟨engine, { office with board := (office.board.unregister provider handler).2 }, errand,
      .proceed, []⟩

/-- What is done with the result of a pass that may have been suspended. -/
def keep (definition : Definition) (result : RunResult) : List Act :=
  match result.suspended with
  | none => []
  | some state => [.saveSuspended state, .arm definition state]

/-- What the record of a suspended run says when it comes to its end without going on. -/
def endOutcome (now : Instant) (state : Suspended) (status : Status) (error : String) :
    RunOutcome :=
  { status
    output := some (.obj state.outputs)
    error := some error
    finishedAt := some now
    durationMs := some (state.startedAt.millisUntil now)
    history := state.history }

/-- What is done about a suspended run that has failed without going on. -/
def fail (now : Instant) (state : Suspended) (error : String) : List Act :=
  [.settleRun state.execution (endOutcome now state .failed error), .count (.run .failed),
    .publish ⟨state.workflow, state.execution, .failed error⟩]

/-- What is done about a claimed run that could not be resumed. -/
def abandon (now : Instant) (state : Suspended) (failure : Failure) : List Act :=
  fail now state ("resume failed: " ++ failure.message)

/-- Start a pass over a workflow, once the acts that open it are carried out. -/
def enter (engine : Engine) (office : Office) (errand : Errand) (purpose : Purpose)
    (run : Run) (acts : List Act) : Stride :=
  let (id, engine) := engine.adopt { run with isCancelled := errand.isCancelled }
  ⟨engine, office, errand.go acts (.drive purpose id), .proceed, []⟩

/-- Start a workflow. -/
def start (engine : Engine) (office : Office) (errand : Errand) (purpose : Purpose)
    (d : Definition) (input : Data) (execution : Option String) : Stride :=
  match engine.validate d with
  | .error failure =>
    ⟨engine, office, errand.go [] (.finish purpose (.error failure)), .proceed, []⟩
  | .ok () =>
    let moment := engine.moment
    let execution := execution.getD moment.freshId
    let context := Context.start d.id execution (Context.bindInput d.vars input) moment.now
    enter engine.tick office errand purpose (.start d context engine.limit [d.start])
      [.publish ⟨d.id, execution, .started⟩,
        .saveRun (.started execution d.id context.startedAt)]

/-- The nodes at which a suspended run goes on. -/
def resumePoint (d : Definition) (state : Suspended) (node : Option String) :
    Except Failure (List String) :=
  match node with
  | some id =>
    match d.node? id with
    | some _ => .ok [id]
    | none => .error (.unknownNode id)
  | none =>
    match d.node? state.node with
    | some node => .ok node.successors
    | none => .error (.unknownNode state.node)

/-- The nodes at which a run goes on, if it may go on with this definition. -/
def checkResume (engine : Engine) (d : Definition) (state : Suspended) (node : Option String) :
    Except Failure (List String) :=
  match resumePoint d state node with
  | .error failure => .error failure
  | .ok next =>
    match engine.validate d with
    | .error failure => .error failure
    | .ok () =>
      if state.workflow = d.id then .ok next
      else .error (.invalid [.foreignState state.execution state.workflow d.id])

/-- Let a suspended run go on. -/
def resume (engine : Engine) (office : Office) (errand : Errand) (purpose : Purpose)
    (d : Definition) (state : Suspended) (node : Option String) (delta : Fields Data) : Stride :=
  match checkResume engine d state node with
  | .error failure =>
    ⟨engine, office, errand.go [] (.finish purpose (.error failure)), .proceed, []⟩
  | .ok next =>
    let context := state.toContext delta
    enter engine office errand purpose (.start d context engine.limit next)
      [.publish ⟨state.workflow, state.execution, .resumed state.node⟩,
        .settleRun state.execution (context.outcome engine.moment.now .running none none)]

/-- A step of the pass that an errand drives. -/
def drive (engine : Engine) (office : Office) (errand : Errand) (purpose : Purpose)
    (run : Nat) : Stride :=
  let (engine, forked, signal) := engine.stepRun run .driver
  let requests : List Request := if forked.isEmpty then [] else [.branches run forked]
  match signal with
  | .finished => ⟨engine, office, errand.go [] (.conclude purpose run), .proceed, requests⟩
  | signal => ⟨engine, office, errand, signal, requests⟩

/-- Tell the end of a pass. -/
def conclude (engine : Engine) (office : Office) (errand : Errand) (purpose : Purpose)
    (id : Nat) : Stride :=
  let broken : Errand := { errand.go [] (.answer (.failed .dateRange)) with delivery := none }
  match engine.run? id with
  | none => ⟨engine, office, broken, .proceed, []⟩
  | some run =>
    match run.drive with
    | .concluded conclusion =>
      let now := engine.moment.now
      let engine := engine.tick.close id
      match conclusion.result now run.context with
      | .error _ => ⟨engine, office, broken, .proceed, []⟩
      | .ok (result, happening) =>
        let outcome :=
          run.context.outcome now result.status (some (.obj result.outputs)) result.error
        ⟨engine, office,
          errand.go
            [.publish ⟨result.workflow, result.execution, happening⟩,
              .count (.run result.status), .settleRun result.execution outcome]
            (.finish purpose (.ok result)),
          .proceed, []⟩
    | _ => ⟨engine, office, errand.go [] (.drive purpose id), .proceed, []⟩

/-- Do with the result of a pass what its purpose asks for. -/
def finish (now : Instant) (errand : Errand) (purpose : Purpose)
    (result : Except Failure RunResult) : Errand :=
  match purpose, result with
  | .direct, .ok result => errand.go [] (.answer (.result result))
  | .direct, .error failure => errand.go [] (.answer (.failed failure))
  | .kept d, .ok result => errand.go (keep d result) (.answer (.result result))
  | .kept _, .error failure => errand.go [] (.answer (.failed failure))
  | .started d, .ok result =>
    errand.go (keep d result) (.answer (.handled .started (some result)))
  | .started _, .error failure => errand.go [] (.answer (.failed failure))
  | .resumed d _, .ok result =>
    errand.go (keep d result) (.answer (.handled .resumed (some result)))
  | .resumed _ state, .error failure =>
    errand.go (abandon now state failure) (.answer (.failed failure))
  | .expired d _, .ok result => errand.go (keep d result) (.answer .nothing)
  | .expired _ state, .error failure =>
    errand.go (abandon now state failure) (.answer .nothing)

/-- Handle an event for a workflow: it resumes the pending run that it is meant for, or
starts a run, unless the trigger asks for events of another type. -/
def claim (engine : Engine) (office : Office) (errand : Errand) (d : Definition)
    (event : Event) : Stride :=
  match office.desk.match? d.id event with
  | some state =>
    let office := office.release state.execution
    ⟨showPending engine office, office,
      errand.go [.count (.event .resumed), .deleteSuspended state.execution]
        (.resume (.resumed d state) d state none event.delta),
      .proceed, []⟩
  | none =>
    if d.trigger.all event.allowedBy then
      ⟨engine, office,
        errand.go [.count (.event .started)] (.start (.started d) d event.input none), .proceed,
        []⟩
    else
      ⟨engine, office,
        errand.go [.count (.event .dropped)] (.answer (.handled .dropped none)), .proceed, []⟩

/-- What is said about a run that nothing has answered in time. -/
def timeoutText (state : Suspended) : String :=
  "timed out waiting for " ++ ", ".intercalate state.wait.names

/-- The wait of a run is over. -/
def expire (engine : Engine) (office : Office) (errand : Errand) (execution : String) : Stride :=
  match office.desk.pending? execution with
  | none => ⟨engine, office, errand.go [] (.answer .nothing), .proceed, []⟩
  | some ⟨state, _⟩ =>
    let office := office.release execution
    let forget : List Act :=
      [.deleteSuspended execution, .count (.timeout office.desk.policy)]
    let errand :=
      match office.desk.policy with
      | .drop => errand.go forget (.answer .nothing)
      | .fail =>
        errand.go (forget ++ fail engine.moment.now state (timeoutText state)) (.answer .nothing)
      | .transition =>
        match state.deadlineNode, office.desk.definition? state.workflow with
        | some node, some d =>
          errand.go forget (.resume (.expired d state) d state (some node) [])
        | _, _ => errand.go forget (.answer .nothing)
    ⟨showPending engine office, office, errand, .proceed, []⟩

/-- Cancel a pending run. -/
def cancel (engine : Engine) (office : Office) (errand : Errand) (execution : String) : Stride :=
  match office.desk.pending? execution with
  | none =>
    ⟨engine, office,
      errand.go [] (.answer (.failed (.notFound (.pendingExecution execution)))), .proceed, []⟩
  | some ⟨state, _⟩ =>
    let office := office.release execution
    ⟨showPending engine office, office,
      errand.go
        [.deleteSuspended execution,
          .settleRun execution
            (endOutcome engine.moment.now state .cancelled Failure.cancelled.message),
          .publish ⟨state.workflow, execution, .cancelled⟩]
        (.answer (.suspended state)),
      .proceed, []⟩

/-- Take back a deployment. -/
def stop (engine : Engine) (office : Office) (errand : Errand) (workflow : String) : Stride :=
  match Fields.get? office.desk.deployments workflow with
  | none =>
    ⟨engine, office, errand.go [] (.answer (.failed (.notFound (.deployment workflow)))),
      .proceed, []⟩
  | some deployment =>
    let dropped := (office.desk.pendingOf workflow).map Suspended.execution
    let office := office.detach workflow
    ⟨showPending engine office, office,
      errand.go [.unregister deployment.subscription.provider deployment.handler]
        (.callStop deployment.subscription dropped),
      .proceed, []⟩

/-- What is left to do when the stop procedure has replied. -/
def forgetWorkflow (errand : Errand) (workflow : String) (dropped : List String) : Errand :=
  errand.go (dropped.map .deleteSuspended ++ [.deleteSubscription workflow]) (.answer .nothing)

/-- The procedure that takes back a subscription, if it is registered. -/
def stopProcedure? (catalog : Catalog) (subscription : Subscription) : Option Procedure :=
  let declared :=
    (Fields.get? catalog subscription.procedure).bind fun watch => watch.contract.stopProcedure
  (Subscription.stopProcedure? subscription.procedure declared).bind (Fields.get? catalog)

/-- Call the stop procedure. -/
def callStop (engine : Engine) (office : Office) (errand : Errand)
    (subscription : Subscription) (dropped : List String) : Stride :=
  match stopProcedure? engine.catalog subscription with
  | none =>
    ⟨engine, office, forgetWorkflow errand subscription.workflow dropped, .proceed, []⟩
  | some procedure =>
    let invocation : Invocation :=
      { workflow := subscription.workflow, execution := engine.moment.freshId }
    let due := engine.clock + procedure.delay
    ⟨engine.tick.logCall procedure.contract.name subscription.stopInput invocation, office,
      errand.go [] (.awaitStop subscription.workflow dropped due), .proceed, []⟩

/-- Deploy a workflow: have its trigger procedure subscribe. -/
def deploy (engine : Engine) (office : Office) (errand : Errand) (d : Definition)
    (url : String) (config : Fields Data) : Stride :=
  let refuse (failure : Failure) : Stride :=
    ⟨engine, office, errand.go [] (.answer (.failed failure)), .proceed, []⟩
  match d.trigger with
  | none => refuse (.trigger (.noTrigger d.id))
  | some trigger =>
    match engine.validate d with
    | .error failure => refuse failure
    | .ok () =>
      if office.desk.isDeployed d.id then refuse (.trigger (.alreadyDeployed d.id))
      else
        match Fields.get? engine.catalog trigger.procedure with
        | none => refuse (.unknownProcedure trigger.procedure)
        | some procedure =>
          let input := Data.obj (Fields.insert (Fields.merge trigger.subscriptionConfig config)
            "webhookUrl" (.str url))
          let invocation : Invocation :=
            { workflow := d.id, execution := engine.moment.freshId }
          let engine := engine.tick.logCall trigger.procedure input invocation
          let reply := procedure.reply engine.moment invocation input
          ⟨engine.tick, office,
            errand.go [] (.awaitDeploy d trigger reply (engine.clock + procedure.delay)),
            .proceed, []⟩

/-- Make a subscription of what the trigger procedure has replied. -/
def subscribe (now : Instant) (errand : Errand) (d : Definition) (trigger : Trigger)
    (reply : Reply) : Errand :=
  match reply with
  | .output output =>
    match Subscription.ofOutput now d.id trigger output with
    | .ok subscription => errand.go [] (.install d subscription)
    | .error fault => errand.go [] (.answer (.failed (.trigger fault)))
  | .suspend _ => errand.go [] (.answer (.failed (.trigger (.cannotSuspend trigger.procedure))))
  | .failed text => errand.go [] (.answer (.failed (.procedure trigger.procedure text)))
  | .dateRange => errand.go [] (.answer (.failed .dateRange))

/-- Enter a deployment, unless the workflow has been deployed in the meantime. -/
def install (engine : Engine) (office : Office) (errand : Errand) (d : Definition)
    (subscription : Subscription) : Stride :=
  if office.desk.isDeployed d.id then
    ⟨engine, office, errand.go [] (.answer (.failed (.trigger (.alreadyDeployed d.id)))),
      .proceed, []⟩
  else
    let handler : Handler := ⟨office.nextHandler, d.id⟩
    ⟨engine,
      { office with
        desk := (office.desk.learn d).deploy d.id ⟨subscription, handler⟩
        nextHandler := office.nextHandler + 1 },
      errand.go [.register subscription.provider handler, .saveSubscription subscription]
        (.answer (.subscription subscription)),
      .proceed, []⟩

/-- Look up the stored subscriptions. -/
def restore (engine : Engine) (errand : Errand) : Errand :=
  match engine.ledger with
  | none => errand.go [] (.answer (.count 0))
  | some ledger =>
    match ledger.listSubscriptions with
    | .ok subscriptions => errand.go [] (.adoptSubscriptions subscriptions)
    | .error failure => errand.go [] (.answer (.failed failure))

/-- Take over stored subscriptions, one after another: those of known workflows that are
not deployed. -/
def adoptSubscriptions (engine : Engine) (office : Office) (errand : Errand) :
    List Subscription → Stride
  | [] => ⟨engine, office, errand.go [] .recallSuspended, .proceed, []⟩
  | subscription :: rest =>
    let workflow := subscription.workflow
    if (office.desk.definition? workflow).isNone || office.desk.isDeployed workflow then
      ⟨engine, office, errand.go [] (.adoptSubscriptions rest), .proceed, []⟩
    else
      let handler : Handler := ⟨office.nextHandler, workflow⟩
      ⟨engine,
        { office with
          desk := office.desk.deploy workflow ⟨subscription, handler⟩
          nextHandler := office.nextHandler + 1 },
        errand.go [.register subscription.provider handler] (.adoptSubscriptions rest),
        .proceed, []⟩

/-- Look up the stored suspended runs. -/
def recallSuspended (engine : Engine) (errand : Errand) : Errand :=
  match engine.ledger with
  | none => errand.go [] (.answer (.count 0))
  | some ledger =>
    match ledger.listSuspended with
    | .ok states => errand.go [] (.adoptSuspended states)
    | .error failure => errand.go [] (.answer (.failed failure))

/-- The stored runs that are taken over: those of known workflows that are not pending.
A run that is stored twice is taken over once. -/
def adoptable (desk : Desk) : List Suspended → List Suspended
  | [] => []
  | state :: rest =>
    if (desk.pending? state.execution).isNone && (desk.definition? state.workflow).isSome then
      state :: adoptable (desk.hold state none) rest
    else adoptable desk rest

/-- Take over stored suspended runs. -/
def adoptSuspended (engine : Engine) (office : Office) (errand : Errand)
    (states : List Suspended) : Stride :=
  let adopted := adoptable office.desk states
  let (engine, office, requests) := armedAll engine office adopted
  ⟨showPending engine office, office, errand.go [] (.answer (.count adopted.length)), .proceed,
    requests⟩

/-- Send an event to all handlers of its provider. -/
def dispatch (office : Office) (errand : Errand) (event : Event) : Errand :=
  let handlers := office.board.handlersOf event.provider
  { errand.go [] .deliver with delivery := some ⟨event, handlers, handlers.length⟩ }

/-- Let the next handler have the event. A handler whose office is closed or whose workflow
is unknown does nothing. -/
def deliver (office : Office) (errand : Errand) : Errand :=
  match errand.delivery with
  | none => errand.go [] (.answer (.count 0))
  | some ⟨_, [], count⟩ =>
    { errand.go [] (.answer (.count count)) with delivery := none }
  | some ⟨event, handler :: rest, count⟩ =>
    let errand := { errand with delivery := some ⟨event, rest, count⟩ }
    match office.isOpen, office.desk.definition? handler.workflow with
    | true, some d => errand.go [] (.claim d event)
    | _, _ => errand.go [] .deliver

/-- Wait for the one branch of a group. -/
def attend (engine : Engine) (office : Office) (errand : Errand) (id group : Nat) : Stride :=
  match (engine.run? id).map (·.endingsOf group) with
  | some (ending :: _) => ⟨engine, office, errand.go [] (.answer (.ending ending)), .proceed, []⟩
  | _ => ⟨engine, office, errand, .wait, []⟩

/-- Decide how an errand goes on. -/
def decide (engine : Engine) (office : Office) (errand : Errand) : Stride :=
  let go (errand : Errand) : Stride := ⟨engine, office, errand, .proceed, []⟩
  match errand.decision with
  | .answer _ =>
    match errand.delivery with
    | none => ⟨engine, office, errand, .finished, []⟩
    | some _ => go (errand.go [] .deliver)
  | .start purpose d input execution => start engine office errand purpose d input execution
  | .resume purpose d state node delta => resume engine office errand purpose d state node delta
  | .drive purpose run => drive engine office errand purpose run
  | .conclude purpose run => conclude engine office errand purpose run
  | .finish purpose result => go (finish engine.moment.now errand purpose result)
  | .attend run group => attend engine office errand run group
  | .claim d event => claim engine office errand d event
  | .expire execution => expire engine office errand execution
  | .cancel execution => cancel engine office errand execution
  | .stop workflow => stop engine office errand workflow
  | .callStop subscription dropped => callStop engine office errand subscription dropped
  | .awaitStop workflow dropped due =>
    if engine.clock < due then ⟨engine, office, errand, .sleep due, []⟩
    else go (forgetWorkflow errand workflow dropped)
  | .deploy d url config => deploy engine office errand d url config
  | .awaitDeploy d trigger reply due =>
    if engine.clock < due then ⟨engine, office, errand, .sleep due, []⟩
    else
      ⟨engine.tick, office, subscribe engine.moment.now errand d trigger reply, .proceed, []⟩
  | .install d subscription => install engine office errand d subscription
  | .restore => go (restore engine errand)
  | .adoptSubscriptions subscriptions => adoptSubscriptions engine office errand subscriptions
  | .recallSuspended => go (recallSuspended engine errand)
  | .adoptSuspended states => adoptSuspended engine office errand states
  | .dispatch event => go (dispatch office errand event)
  | .deliver => go (deliver office errand)

/-- A step of an errand: its next act, or its decision when there is none left. -/
def step (engine : Engine) (office : Office) (errand : Errand) : Stride :=
  match errand.acts with
  | act :: rest => Stride.act engine office { errand with acts := rest } act
  | [] => decide engine office errand

end Stride

end DurableFlow
