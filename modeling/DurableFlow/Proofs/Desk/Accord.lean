import DurableFlow.Proofs.Desk.Coherence

/-!
# The ledger and the switchboard in accord with the desk

An errand changes the desk at once and the switchboard and the ledger later, act by act. So while
it is under way, the handlers, subscriptions and states that are registered and stored are not those
that are deployed and pending, but they will be once the acts that are left are carried out and the
decision after them has deleted what it is to delete. `Stride.Owing` says this of one errand that is
alone in its office. When calls are made one after another, it holds at every step, and between two
calls the three agree (`Stride.Accord`).
-/

namespace DurableFlow

namespace Act

/-- The stored states of a run after an act. -/
def shelve (execution : String) (states : List Suspended) : Act → List Suspended
  | .saveSuspended state => if state.execution = execution then [state] else states
  | .deleteSuspended deleted => if execution = deleted then [] else states
  | _ => states

/-- The states in which a run is pending after an act. -/
def suspend (execution : String) (states : List Suspended) : Act → List Suspended
  | .arm _ state => if state.execution = execution then [state] else states
  | _ => states

/-- The stored subscriptions of a workflow after an act. -/
def subscribe (workflow : String) (subscriptions : List Subscription) : Act → List Subscription
  | .saveSubscription saved => if saved.workflow = workflow then [saved] else subscriptions
  | .deleteSubscription deleted => if workflow = deleted then [] else subscriptions
  | _ => subscriptions

theorem length_shelve {states : List Suspended} (few : states.length ≤ 1) (execution : String)
    (act : Act) : (act.shelve execution states).length ≤ 1 := by
  cases act with
  | saveSuspended | deleteSuspended =>
    rw [shelve]
    split
    · simp
    · exact few
  | _ => exact few

theorem length_subscribe {subscriptions : List Subscription} (few : subscriptions.length ≤ 1)
    (workflow : String) (act : Act) : (act.subscribe workflow subscriptions).length ≤ 1 := by
  cases act with
  | saveSubscription | deleteSubscription =>
    rw [subscribe]
    split
    · simp
    · exact few
  | _ => exact few

/-- The act changes records, notices and counters only. -/
def isQuiet : Act → Bool
  | .saveRun _ | .settleRun .. | .publish _ | .count _ => true
  | _ => false

section Quiet

variable {acts : List Act}

theorem foldl_of_quiet {α : Type} {change : α → Act → α}
    (still : ∀ value act, act.isQuiet = true → change value act = value)
    (quiet : acts.all isQuiet = true) (value : α) : acts.foldl change value = value := by
  induction acts with
  | nil => rfl
  | cons act rest ih =>
    rw [List.all_cons, Bool.and_eq_true] at quiet
    rw [List.foldl_cons, still value act quiet.1, ih quiet.2]

theorem foldl_shelve (quiet : acts.all isQuiet = true) (execution : String)
    (states : List Suspended) : acts.foldl (shelve execution) states = states :=
  foldl_of_quiet (fun _ act calm => by cases act <;> first | rfl | contradiction) quiet states

theorem foldl_suspend (quiet : acts.all isQuiet = true) (execution : String)
    (states : List Suspended) : acts.foldl (suspend execution) states = states :=
  foldl_of_quiet (fun _ act calm => by cases act <;> first | rfl | contradiction) quiet states

theorem foldl_subscribe (quiet : acts.all isQuiet = true) (workflow : String)
    (subscriptions : List Subscription) :
    acts.foldl (subscribe workflow) subscriptions = subscriptions :=
  foldl_of_quiet (fun _ act calm => by cases act <;> first | rfl | contradiction) quiet
    subscriptions

theorem foldl_rewire (quiet : acts.all isQuiet = true) (board : Switchboard Handler) :
    acts.foldl Stride.rewire board = board :=
  foldl_of_quiet (fun _ act calm => by cases act <;> first | rfl | contradiction) quiet board

end Quiet

end Act

/-- The states in which a run is pending, of which there is at most one. -/
def Desk.paused (desk : Desk) (execution : String) : List Suspended :=
  ((desk.pending? execution).map Pending.state).toList

/-- The subscription of a workflow that is deployed. -/
def Desk.subscribed (desk : Desk) (workflow : String) : List Subscription :=
  ((desk.deployment? workflow).map Deployment.subscription).toList

/-- The handler of a workflow that is deployed with a subscription to a provider. -/
def Desk.handling (desk : Desk) (provider workflow : String) : List Handler :=
  (((desk.deployment? workflow).filter (·.subscription.provider == provider)).map
    Deployment.handler).toList

/-- The handlers of all workflows that are deployed with a subscription to a provider. -/
def Desk.handlers (desk : Desk) (provider : String) : List Handler :=
  ((Fields.values desk.deployments).filter (·.subscription.provider == provider)).map
    Deployment.handler

/-- The stored subscriptions of a workflow. -/
def Engine.subscribed (engine : Engine) (workflow : String) : List Subscription :=
  engine.subscriptions.filter (·.workflow == workflow)

/-- The handlers of a workflow that are registered for a provider. -/
def Switchboard.handling (board : Switchboard Handler) (provider workflow : String) :
    List Handler :=
  (board.handlersOf provider).filter (·.workflow == workflow)

namespace Switchboard

variable (board : Switchboard Handler) (provider other workflow : String) (handler : Handler)

theorem handling_register : (board.register provider handler).handling other workflow =
    if other = provider ∧ handler.workflow = workflow then
      board.handling provider workflow ++ [handler]
    else board.handling other workflow := by
  rw [handling, handlersOf_register]
  by_cases same : other = provider
  · rw [if_pos same, List.filter_append]
    by_cases own : handler.workflow = workflow
    · rw [if_pos ⟨same, own⟩, List.filter_cons_of_pos (by simp [own])]
      rfl
    · rw [if_neg (own ·.2), List.filter_cons_of_neg (by simp [own]), same]
      exact List.append_nil _
  · rw [if_neg same, if_neg (same ·.1)]
    rfl

theorem handling_unregister : (board.unregister provider handler).2.handling other workflow =
    if other = provider then (board.handling provider workflow).filter (· ≠ handler)
    else board.handling other workflow := by
  rw [handling, handlersOf_unregister]
  split
  · rw [handling, List.filter_filter, List.filter_filter]
    simp only [Bool.and_comm]
  · rfl

end Switchboard

/-- The states and subscriptions that are stored are read back as they are. -/
structure Engine.Rereads (engine : Engine) : Prop where
  rows : ∀ state ∈ engine.rows, state.reread = .ok state
  subscriptions : ∀ subscription ∈ engine.subscriptions, subscription.reread = .ok subscription

/-- An errand that restores finds all that is stored deployed or pending already. -/
def Errand.Listed (engine : Engine) (desk : Desk) (errand : Errand) : Prop :=
  match errand.decision with
  | .restore | .recallSuspended => errand.acts = [] ∧ engine.Rereads
  | .adoptSubscriptions subscriptions => errand.acts = [] ∧ engine.Rereads ∧
    ∀ subscription ∈ subscriptions, (desk.deployment? subscription.workflow).isSome
  | .adoptSuspended states => errand.acts = [] ∧
    ∀ state ∈ states, (desk.pending? state.execution).isSome
  | _ => True

namespace Stride

/-- The ledger and the switchboard will be in accord with the desk once the acts of the errand are
carried out and its decision has deleted what it is to delete. -/
structure Owing (engine : Engine) (office : Office) (errand : Errand) : Prop where
  serves : engine.Serves
  /-- The ledger has one row at most of a run, and of a workflow. -/
  single : ∀ execution, (engine.stored execution).length ≤ 1
  singular : ∀ workflow, (engine.subscribed workflow).length ≤ 1
  own : ∀ workflow deployment, office.desk.deployment? workflow = some deployment →
    deployment.handler.workflow = workflow
  stored : ∀ execution,
    (if execution ∈ errand.decision.drops then []
      else errand.acts.foldl (Act.shelve execution) (engine.stored execution)) =
      errand.acts.foldl (Act.suspend execution) (office.desk.paused execution)
  subscribed : ∀ workflow,
    (if errand.decision.unsubscribes? = some workflow then []
      else errand.acts.foldl (Act.subscribe workflow) (engine.subscribed workflow)) =
      office.desk.subscribed workflow
  registered : ∀ provider workflow,
    (errand.acts.foldl rewire office.board).handling provider workflow =
      office.desk.handling provider workflow
  listed : errand.Listed engine office.desk

variable {engine after : Engine} {office : Office} {errand : Errand} {stride : Stride}

section Writes

theorem paused_congr {desk other : Desk} (same : other.pending = desk.pending) :
    other.paused = desk.paused := by
  funext execution
  rw [Desk.paused, Desk.paused, Desk.pending?, Desk.pending?, same]

theorem subscribed_of_ledger (same : after.ledger = engine.ledger) :
    after.subscribed = engine.subscribed := by
  funext workflow
  rw [Engine.subscribed, Engine.subscribed, Engine.subscriptions_of_ledger same]

/-- A write that leaves the rows and the subscriptions alone. -/
theorem write_aside (serves : engine.Serves) (change : Ledger → Except Failure Ledger)
    (still : ∀ ledger next, change ledger = .ok next → next.suspended = ledger.suspended ∧
      next.failing = ledger.failing ∧ next.subscriptions = ledger.subscriptions) :
    (engine.write change).Serves ∧ (engine.write change).stored = engine.stored ∧
      (engine.write change).subscribed = engine.subscribed := by
  obtain ⟨serving, rows⟩ := Engine.write_rows serves fun ledger next done =>
    ⟨(still ledger next done).1, (still ledger next done).2.1⟩
  refine ⟨serving, Engine.stored_congr rows, ?_⟩
  funext workflow
  rw [Engine.subscribed, Engine.subscribed,
    Engine.write_subscriptions fun ledger next done => (still ledger next done).2.2]

/-- A write that leaves the subscriptions alone. -/
theorem subscribed_write {change : Ledger → Except Failure Ledger}
    (still : ∀ ledger next, change ledger = .ok next →
      next.subscriptions = ledger.subscriptions) (workflow : String) :
    (engine.write change).subscribed workflow = engine.subscribed workflow := by
  rw [Engine.subscribed, Engine.subscribed, Engine.write_subscriptions still]

/-- A write that leaves the suspended runs alone and serves. -/
theorem write_subscribed (serves : engine.Serves) (change : Ledger → Except Failure Ledger)
    {subscriptions : List Subscription → List Subscription}
    (carried : ∀ ledger : Ledger, ledger.failing = [] → change ledger =
      .ok { ledger with subscriptions := subscriptions ledger.subscriptions }) :
    (engine.write change).Serves ∧ (engine.write change).stored = engine.stored ∧
      (engine.write change).subscriptions = subscriptions engine.subscriptions := by
  obtain ⟨ledger, known, working⟩ := serves
  have written : engine.write change = { engine with
      ledger := some { ledger with subscriptions := subscriptions ledger.subscriptions } } := by
    simp only [Engine.write, known, carried ledger working]
  rw [written]
  refine ⟨⟨_, rfl, working⟩, Engine.stored_congr ?_, ?_⟩
  · simp only [Engine.rows, known]
  · simp only [Engine.subscriptions, known]

/-- Where there is at most one row, there is none behind it. -/
theorem tail_eq_nil {α : Type} {rows : List α} (few : rows.length ≤ 1) : rows.tail = [] :=
  List.eq_nil_of_length_eq_zero (by rw [List.length_tail]; omega)

/-- The ledger still serves after an act. -/
theorem act_serves (serves : engine.Serves) (office : Office) (errand : Errand) (act : Act) :
    (Stride.act engine office errand act).engine.Serves := by
  cases act with
  | saveRun | settleRun =>
    refine (write_aside serves _ fun ledger next done => ?_).1
    simp only [Ledger.saveRun, Ledger.settleRun] at done
    repeat' split at done
    all_goals cases done
    exact ⟨rfl, rfl, rfl⟩
  | saveSuspended state => exact (Engine.saveSuspended_stored serves state).1
  | deleteSuspended execution => exact (Engine.deleteSuspended_stored serves execution).1
  | saveSubscription | deleteSubscription =>
    refine (Engine.write_rows serves fun ledger next done => ?_).1
    simp only [Ledger.saveSubscription, Ledger.deleteSubscription] at done
    split at done <;> cases done
    exact ⟨rfl, rfl⟩
  | publish | count | register | unregister => exact serves
  | arm d state =>
    exact serves.of_ledger
      (armed_keeps engine { office with desk := office.desk.learnNew d } state).2

/-- What an act leaves of the rows of a suspended run. -/
theorem act_stored (serves : engine.Serves) (office : Office) (errand : Errand)
    {execution : String} (single : (engine.stored execution).length ≤ 1) (act : Act) :
    (Stride.act engine office errand act).engine.stored execution =
      act.shelve execution (engine.stored execution) := by
  cases act with
  | saveRun | settleRun | saveSubscription | deleteSubscription =>
    refine congrFun (Engine.stored_congr (Engine.write_rows serves fun ledger next done => ?_).2) _
    simp only [Ledger.saveRun, Ledger.settleRun, Ledger.saveSubscription,
      Ledger.deleteSubscription] at done
    repeat' split at done
    all_goals cases done
    exact ⟨rfl, rfl⟩
  | saveSuspended state =>
    refine ((Engine.saveSuspended_stored serves state).2 execution).trans ?_
    rw [tail_eq_nil single]
    rfl
  | deleteSuspended deleted => exact (Engine.deleteSuspended_stored serves deleted).2 execution
  | publish | count | register | unregister => rfl
  | arm d state =>
    exact congrFun (Engine.stored_of_ledger
      (armed_keeps engine { office with desk := office.desk.learnNew d } state).2) execution

/-- What an act leaves of the stored subscriptions of a workflow. -/
theorem act_subscribed (serves : engine.Serves) (office : Office) (errand : Errand)
    {workflow : String} (singular : (engine.subscribed workflow).length ≤ 1) (act : Act) :
    (Stride.act engine office errand act).engine.subscribed workflow =
      act.subscribe workflow (engine.subscribed workflow) := by
  cases act with
  | saveRun | settleRun | saveSuspended | deleteSuspended =>
    refine subscribed_write (fun ledger next done => ?_) workflow
    simp only [Ledger.saveRun, Ledger.settleRun, Ledger.saveSuspended,
      Ledger.deleteSuspended] at done
    repeat' split at done
    all_goals cases done
    rfl
  | saveSubscription saved =>
    obtain ⟨_, _, written⟩ := write_subscribed serves (·.saveSubscription saved)
      fun ledger working => by
        rw [Ledger.saveSubscription, if_pos (by simp [Ledger.serves, working])]
    have none : (engine.subscriptions.filter (·.workflow == workflow)).tail = [] :=
      tail_eq_nil singular
    refine (congrArg (List.filter (·.workflow == workflow)) written).trans ?_
    refine (Ledger.filter_upsert Subscription.workflow saved workflow _).trans ?_
    rw [none]
    rfl
  | deleteSubscription deleted =>
    obtain ⟨_, _, written⟩ :=
      write_subscribed serves (·.deleteSubscription deleted) fun ledger working => by
        rw [Ledger.deleteSubscription, if_pos (by simp [Ledger.serves, working])]
    exact (congrArg (List.filter (·.workflow == workflow)) written).trans
      (Ledger.filter_delete Subscription.workflow workflow deleted _)
  | publish | count | register | unregister => rfl
  | arm d state =>
    exact congrFun (subscribed_of_ledger
      (armed_keeps engine { office with desk := office.desk.learnNew d } state).2) workflow

/-- What an act does about the pending runs. -/
theorem act_paused (engine : Engine) (office : Office) (errand : Errand) (act : Act)
    (execution : String) : (Stride.act engine office errand act).office.desk.paused execution =
      act.suspend execution (office.desk.paused execution) := by
  obtain ⟨_, still, arms⟩ := act_desk engine office errand act
  cases act with
  | arm d state =>
    have pending : (office.desk.learnNew d).pending = office.desk.pending :=
      (learnNew_agrees office d).pending
    rw [Desk.paused, arms d state rfl, Desk.pending?_hold, Act.suspend]
    by_cases own : state.execution = execution
    · rw [if_pos own, if_pos own.symm]
      rfl
    · rw [if_neg own, if_neg (Ne.symm own), Desk.paused, Desk.pending?, pending, Desk.pending?]
  | _ =>
    rw [still (by simp)]
    rfl

end Writes

/-- An act settles what it is about. -/
theorem act_owing (owing : Owing engine office errand) {first : Act} {rest : List Act}
    (acts : errand.acts = first :: rest) :
    let stride := Stride.act engine office { errand with acts := rest } first
    Owing stride.engine stride.office stride.errand := by
  intro stride
  have serves := act_serves owing.serves office { errand with acts := rest } first
  have stored := fun execution =>
    act_stored owing.serves office { errand with acts := rest } (owing.single execution) first
  have subscribed := fun workflow =>
    act_subscribed owing.serves office { errand with acts := rest } (owing.singular workflow) first
  obtain ⟨same, deployments, board⟩ := act_wires engine office { errand with acts := rest } first
  have deployed := Desk.deployment?_congr deployments
  have paused := act_paused engine office { errand with acts := rest } first
  refine ⟨serves, fun execution => ?_, fun workflow => ?_, ?_, fun execution => ?_,
    fun workflow => ?_, fun provider workflow => ?_, ?_⟩
  · rw [stored]
    exact Act.length_shelve (owing.single execution) execution first
  · rw [subscribed]
    exact Act.length_subscribe (owing.singular workflow) workflow first
  · rw [deployed]
    exact owing.own
  · have before := owing.stored execution
    rw [acts, List.foldl_cons, List.foldl_cons] at before
    rw [same, stored, paused]
    exact before
  · have before := owing.subscribed workflow
    rw [acts, List.foldl_cons] at before
    rw [same, subscribed, Desk.subscribed, deployed]
    exact before
  · have before := owing.registered provider workflow
    rw [acts, List.foldl_cons] at before
    rw [same, board, Desk.handling, deployed]
    exact before
  · have listed := owing.listed
    rw [same]
    unfold Errand.Listed at listed ⊢
    -- an errand that restores has no acts left when it looks up or takes over anything
    cases decision : errand.decision with
    | restore | recallSuspended | adoptSubscriptions | adoptSuspended =>
      simp only [decision, acts] at listed
      exact absurd listed.1 (List.cons_ne_nil _ _)
    | _ => trivial

theorem Listed.of_ledger (listed : errand.Listed engine office.desk)
    (ledger : after.ledger = engine.ledger) : errand.Listed after office.desk := by
  have rereads : engine.Rereads → after.Rereads := fun rereads =>
    ⟨Engine.rows_of_ledger ledger ▸ rereads.rows,
      Engine.subscriptions_of_ledger ledger ▸ rereads.subscriptions⟩
  unfold Errand.Listed at listed ⊢
  split at listed
  · exact ⟨listed.1, rereads listed.2⟩
  · exact ⟨listed.1, rereads listed.2⟩
  · exact ⟨listed.1, rereads listed.2.1, listed.2.2⟩
  · exact listed
  · trivial

/-- `Owing` depends on the ledger, the desk and the switchboard only. -/
theorem Owing.congr (owing : Owing engine office errand) {changed : Office}
    (ledger : after.ledger = engine.ledger) (desk : changed.desk = office.desk)
    (board : changed.board = office.board) : Owing after changed errand := by
  have stored := Engine.stored_of_ledger ledger
  have subscribed := subscribed_of_ledger ledger
  refine ⟨owing.serves.of_ledger ledger, stored ▸ owing.single, subscribed ▸ owing.singular,
    desk ▸ owing.own, ?_, ?_, ?_, ?_⟩
  · rw [stored, desk]
    exact owing.stored
  · rw [subscribed, desk]
    exact owing.subscribed
  · rw [board, desk]
    exact owing.registered
  · rw [desk]
    exact Listed.of_ledger owing.listed ledger

/-- The ledger and the switchboard are in accord with the desk: of every run the state is stored
in which it is pending, and nothing else; of every workflow the subscription is stored with which
it is deployed, and nothing else; and for every provider the handlers of the deployments are
registered whose subscriptions are with the provider, once each, and no others. -/
structure Accord (engine : Engine) (office : Office) : Prop where
  serves : engine.Serves
  own : ∀ workflow deployment, office.desk.deployment? workflow = some deployment →
    deployment.handler.workflow = workflow
  stored : ∀ execution, engine.stored execution = office.desk.paused execution
  subscribed : ∀ workflow, engine.subscribed workflow = office.desk.subscribed workflow
  registered : ∀ provider workflow,
    office.board.handling provider workflow = office.desk.handling provider workflow

/-- Lists are the same but for their order if they have the same elements of every key. -/
theorem perm_of_filter_eq {α : Type} [DecidableEq α] (key : α → String) {first second : List α}
    (same : ∀ name, first.filter (key · == name) = second.filter (key · == name)) :
    first.Perm second := by
  rw [List.perm_iff_count]
  intro value
  have counted : ∀ list : List α,
      (list.filter (key · == key value)).count value = list.count value :=
    fun list => List.count_filter (beq_self_eq_true _)
  rw [← counted first, ← counted second, same]

namespace Accord

variable (accord : Accord engine office) (coherent : office.desk.Coherent)
include accord coherent

/-- The states that are stored are those of the pending runs. -/
theorem rows_perm : engine.rows.Perm office.desk.pausedRuns := by
  refine (perm_of_filter_eq Suspended.execution fun execution => ?_).trans
    (Ordered.sort_perm _ _).symm
  have values := coherent.sorted.1.filter_values
    (fun name pending found => (coherent.pending name pending found).1) execution
  rw [List.filter_map]
  refine (accord.stored execution).trans ?_
  rw [Desk.paused, Option.toList_map]
  exact congrArg (List.map Pending.state) values.symm

/-- The subscriptions that are stored are those of the deployments. -/
theorem subscriptions_perm : engine.subscriptions.Perm office.desk.subscriptions := by
  refine (perm_of_filter_eq Subscription.workflow fun workflow => ?_).trans
    (Ordered.sort_perm _ _).symm
  have values := coherent.sorted.2.filter_values
    (fun name deployment found => (coherent.deployments name deployment found).1) workflow
  rw [List.filter_map]
  refine (accord.subscribed workflow).trans ?_
  rw [Desk.subscribed, Option.toList_map]
  exact congrArg (List.map Deployment.subscription) values.symm

/-- The handlers that are registered for a provider are those of its deployments. -/
theorem handlers_perm (provider : String) :
    (office.board.handlersOf provider).Perm (office.desk.handlers provider) := by
  refine perm_of_filter_eq Handler.workflow fun workflow => ?_
  have values := coherent.sorted.2.filter_values
    (fun name deployment found => accord.own name deployment found) workflow
  have filtered := congrArg (List.filter (·.subscription.provider == provider)) values
  rw [List.filter_filter, ← Option.toList_filter] at filtered
  rw [Desk.handlers, List.filter_map, List.filter_filter]
  refine (accord.registered provider workflow).trans ?_
  rw [Desk.handling, Option.toList_map]
  refine congrArg (List.map Deployment.handler) (filtered.symm.trans ?_)
  exact List.filter_congr fun _ _ => Bool.and_comm _ _

end Accord

/-- An errand that has no acts left and nothing to delete leaves the ledger and the switchboard in
accord with the desk. -/
theorem Owing.accord (owing : Owing engine office errand) (acts : errand.acts = [])
    (free : errand.decision.drops = []) (loose : errand.decision.unsubscribes? = none) :
    Accord engine office := by
  refine ⟨owing.serves, owing.own, fun execution => ?_, fun workflow => ?_,
    fun provider workflow => ?_⟩
  · have stored := owing.stored execution
    rwa [acts, free, if_neg List.not_mem_nil] at stored
  · have subscribed := owing.subscribed workflow
    rwa [acts, loose, if_neg (by simp)] at subscribed
  · have registered := owing.registered provider workflow
    rwa [acts] at registered

/-- What is in accord, and left alone by an errand that is to forget nothing, stays so. -/
theorem Accord.aside (accord : Accord engine office)
    (ledger : stride.engine.ledger = engine.ledger)
    (pending : stride.office.desk.pending = office.desk.pending)
    (deployments : stride.office.desk.deployments = office.desk.deployments)
    (board : stride.office.board = office.board)
    (quiet : stride.errand.acts.all Act.isQuiet = true)
    (free : stride.errand.decision.drops = [])
    (loose : stride.errand.decision.unsubscribes? = none)
    (listed : stride.errand.Listed stride.engine stride.office.desk) :
    Owing stride.engine stride.office stride.errand := by
  have deployed := Desk.deployment?_congr deployments
  have paused := paused_congr pending
  have stored := Engine.stored_of_ledger ledger
  have subscribed := subscribed_of_ledger ledger
  have few : ∀ {α : Type} (value : Option α), value.toList.length ≤ 1 := by
    intro α value
    cases value <;> simp
  refine ⟨accord.serves.of_ledger ledger, fun execution => ?_, fun workflow => ?_,
    deployed ▸ accord.own, fun execution => ?_, fun workflow => ?_, fun provider workflow => ?_,
    listed⟩
  · rw [stored, accord.stored]
    exact few _
  · rw [subscribed, accord.subscribed]
    exact few _
  · rw [free, if_neg List.not_mem_nil, Act.foldl_shelve quiet, Act.foldl_suspend quiet, stored,
      paused]
    exact accord.stored execution
  · rw [loose, if_neg (by simp), Act.foldl_subscribe quiet, subscribed, Desk.subscribed, deployed]
    exact accord.subscribed workflow
  · rw [Act.foldl_rewire quiet, board, Desk.handling, deployed]
    exact accord.registered provider workflow

/-- Nothing has happened. -/
theorem Accord.nothing (accord : Accord engine office) (errand : Errand)
    (quiet : errand.acts.all Act.isQuiet = true) (free : errand.decision.drops = [])
    (loose : errand.decision.unsubscribes? = none) (listed : errand.Listed engine office.desk) :
    Owing engine office errand :=
  let same : Stride := ⟨engine, office, errand, .proceed, []⟩
  accord.aside (show same.engine.ledger = engine.ledger from rfl) rfl rfl rfl quiet free loose
    listed

/-- Nothing is taken over of runs that are pending. -/
theorem adoptable_of_pending {desk : Desk} {states : List Suspended}
    (pending : ∀ state ∈ states, (desk.pending? state.execution).isSome) :
    adoptable desk states = [] := by
  induction states with
  | nil => rfl
  | cons state rest ih =>
    have there := pending state List.mem_cons_self
    rw [adoptable, if_neg (by simp [Option.isSome_iff_ne_none.mp there])]
    exact ih fun other member => pending other (List.mem_cons_of_mem _ member)

section Decisions

variable (accord : Accord engine office)
include accord

/-- A state that is kept is both stored and pending in the end. -/
theorem keep_owing (d : Definition) (result : RunResult) (answer : Answer) :
    Owing engine office (errand.go (keep d result) (.answer answer)) := by
  have settled := accord.nothing (errand.go [] (.answer answer)) rfl rfl rfl trivial
  rw [keep]
  split
  · exact settled
  · rename_i state _
    refine { settled with stored := fun execution => ?_ }
    show (if execution ∈ [] then [] else
        if state.execution = execution then [state] else engine.stored execution) =
      if state.execution = execution then [state] else office.desk.paused execution
    rw [if_neg List.not_mem_nil, accord.stored]

/-- A run is taken out of the pending ones, and its row is to be deleted. -/
theorem Accord.releases (released : String) {acts : List Act} {decision : Decision}
    (shelves : ∀ execution states, acts.foldl (Act.shelve execution) states =
      if execution = released then [] else states)
    (suspends : ∀ execution states, acts.foldl (Act.suspend execution) states = states)
    (subscribes : ∀ workflow rows, acts.foldl (Act.subscribe workflow) rows = rows)
    (rewires : ∀ board, acts.foldl rewire board = board)
    (free : decision.drops = []) (loose : decision.unsubscribes? = none)
    (listed : (errand.go acts decision).Listed (showPending engine (office.release released))
      (office.release released).desk) :
    Owing (showPending engine (office.release released)) (office.release released)
      (errand.go acts decision) := by
  have before := accord.nothing { decision := .answer .nothing } rfl rfl rfl trivial
  have deployed := Desk.deployment?_congr (Office.release_deployments office released)
  have paused : ∀ execution, (office.release released).desk.paused execution =
      if execution = released then [] else office.desk.paused execution := by
    intro execution
    rw [Desk.paused, Office.pending?_release]
    split <;> rfl
  refine ⟨before.serves, before.single, before.singular, deployed ▸ before.own,
    fun execution => ?_, fun workflow => ?_, fun provider workflow => ?_, listed⟩
  · show (if execution ∈ decision.drops then [] else
      acts.foldl (Act.shelve execution) (engine.stored execution)) = _
    rw [free, if_neg List.not_mem_nil, shelves, accord.stored]
    exact ((suspends execution _).trans (paused execution)).symm
  · show (if decision.unsubscribes? = some workflow then [] else
      acts.foldl (Act.subscribe workflow) (engine.subscribed workflow)) = _
    rw [loose, if_neg (by simp), subscribes, Desk.subscribed, deployed]
    exact accord.subscribed workflow
  · show (acts.foldl rewire (office.release released).board).handling provider workflow = _
    rw [rewires, Office.release_board, Desk.handling, deployed]
    exact accord.registered provider workflow

/-- What is deployed is going to be announced. -/
theorem Accord.installs {d : Definition} {subscription : Subscription}
    (own : subscription.workflow = d.id) (free : office.desk.isDeployed d.id = false)
    {changed : Office}
    (deploys : changed = { office with
      desk := (office.desk.learn d).deploy d.id ⟨subscription, office.nextHandler, d.id⟩
      nextHandler := office.nextHandler + 1 }) :
    Owing engine changed (errand.go
      [.register subscription.provider ⟨office.nextHandler, d.id⟩, .saveSubscription subscription]
      (.answer (.subscription subscription))) := by
  subst deploys
  have before := accord.nothing { decision := .answer .nothing } rfl rfl rfl trivial
  let deployment : Deployment := ⟨subscription, ⟨office.nextHandler, d.id⟩⟩
  have absent : office.desk.deployment? d.id = none := by
    rw [← Option.not_isSome_iff_eq_none]
    exact Bool.eq_false_iff.mp free
  have entered : ((office.desk.learn d).deploy d.id deployment).deployments =
      Fields.insert office.desk.deployments d.id deployment := rfl
  have deployed := Desk.deployment?_of_insert entered
  refine ⟨before.serves, before.single, before.singular, fun workflow other found => ?_,
    before.stored, fun workflow => ?_, fun provider workflow => ?_, trivial⟩
  · rw [deployed] at found
    split at found
    · rename_i same
      cases found
      exact same.symm
    · exact accord.own workflow other found
  · rw [if_neg (by simp [Errand.go, Decision.unsubscribes?]), Desk.subscribed, deployed]
    show (if subscription.workflow = workflow then [subscription]
      else engine.subscribed workflow) = _
    rw [own, accord.subscribed, Desk.subscribed]
    by_cases same : workflow = d.id
    · rw [if_pos same, if_pos same.symm]
      rfl
    · rw [if_neg same, if_neg (Ne.symm same)]
  · have none : office.board.handling provider d.id = [] := by
      rw [accord.registered, Desk.handling, absent]
      rfl
    show (office.board.register subscription.provider deployment.handler).handling provider
      workflow = _
    rw [Switchboard.handling_register, Desk.handling, deployed]
    by_cases mine : workflow = d.id
    · subst mine
      rw [if_pos rfl]
      by_cases same : provider = subscription.provider
      · rw [if_pos ⟨same, rfl⟩, ← same, none]
        simp [deployment, same, Option.filter]
      · rw [if_neg (same ·.1), none]
        simp [deployment, Ne.symm same, Option.filter]
    · rw [if_neg (mine ·.2.symm), if_neg mine]
      exact accord.registered provider workflow

/-- What is taken back is going to be unregistered and forgotten. -/
theorem Accord.detaches (coherent : office.desk.Coherent) {workflow : String}
    {deployment : Deployment}
    (there : Fields.get? office.desk.deployments workflow = some deployment) :
    Owing (showPending engine (office.detach workflow)) (office.detach workflow)
      (errand.go [.unregister deployment.subscription.provider deployment.handler]
        (.callStop deployment.subscription
          ((office.desk.pendingOf workflow).map Suspended.execution))) := by
  have own : deployment.subscription.workflow = workflow :=
    (coherent.deployments workflow deployment there).1
  have mine : deployment.handler.workflow = workflow := accord.own workflow deployment there
  have before := accord.nothing { decision := .answer .nothing } rfl rfl rfl trivial
  have deployed := office.deployment?_detach workflow
  refine ⟨before.serves, before.single, before.singular, fun other found there => ?_,
    fun execution => ?_, fun other => ?_, fun provider other => ?_, trivial⟩
  · rw [deployed] at there
    split at there
    · contradiction
    · exact accord.own other found there
  · show (if execution ∈ (office.desk.pendingOf workflow).map Suspended.execution then []
      else engine.stored execution) = (office.detach workflow).desk.paused execution
    rw [accord.stored, Desk.paused, Desk.paused, Office.detach_desk,
      Desk.pending?_detach coherent.sorted.1]
    split
    · rename_i member
      obtain ⟨state, among, rfl⟩ := List.mem_map.mp member
      obtain ⟨foreign, alarm, found⟩ := coherent.mem_pendingOf.mp among
      simp [found, foreign]
    · rename_i apart
      cases found : office.desk.pending? execution with
      | none => rfl
      | some pending =>
        obtain rfl := (coherent.pending execution pending found).1
        have foreign : pending.state.workflow ≠ workflow := fun same =>
          apart (List.mem_map_of_mem (coherent.mem_pendingOf.mpr ⟨same, pending.alarm, found⟩))
        simp [foreign, Option.filter]
  · show (if some deployment.subscription.workflow = some other then []
      else engine.subscribed other) = (office.detach workflow).desk.subscribed other
    rw [own, accord.subscribed, Desk.subscribed, Desk.subscribed, deployed]
    by_cases same : other = workflow
    · rw [if_pos (congrArg some same.symm), if_pos same]
      rfl
    · rw [if_neg (fun equal => same (Option.some.inj equal).symm), if_neg same]
  · show ((office.detach workflow).board.unregister deployment.subscription.provider
      deployment.handler).2.handling provider other =
        (office.detach workflow).desk.handling provider other
    rw [Switchboard.handling_unregister, Office.detach_board, accord.registered,
      accord.registered, Desk.handling, Desk.handling, Desk.handling, deployed]
    by_cases same : other = workflow
    · subst same
      have known : office.desk.deployment? other = some deployment := there
      rw [if_pos rfl, known]
      by_cases matching : provider = deployment.subscription.provider
      · rw [if_pos matching]
        simp [Option.filter]
      · rw [if_neg matching]
        simp [Option.filter, Ne.symm matching]
    · rw [if_neg same]
      split
      · rename_i matching
        rw [List.filter_eq_self.mpr, matching]
        intro handler member
        obtain ⟨found, known, rfl⟩ := Option.map_eq_some_iff.mp (Option.mem_toList.mp member)
        have theirs := accord.own other found (Option.filter_eq_some_iff.mp known).1
        have apart : found.handler ≠ deployment.handler := fun equal =>
          same (theirs.symm.trans ((congrArg Handler.workflow equal).trans mine))
        exact decide_eq_true apart
      · rfl

/-- What is stored of subscriptions is deployed. -/
theorem Accord.isSome_of_listed {ledger : Ledger} {subscriptions : List Subscription}
    (rereads : engine.Rereads) (kept : engine.ledger = some ledger)
    (listed : ledger.listSubscriptions = .ok subscriptions) :
    ∀ subscription ∈ subscriptions,
      (office.desk.deployment? subscription.workflow).isSome := by
  obtain ⟨_, known, working⟩ := accord.serves
  cases kept.symm.trans known
  have rows : engine.subscriptions = ledger.subscriptions := by
    simp only [Engine.subscriptions, known]
  cases listed.symm.trans
    (Site.listSubscriptions_of_reread working (rows ▸ rereads.subscriptions))
  intro subscription member
  have stored : subscription ∈ engine.subscribed subscription.workflow :=
    List.mem_filter.mpr ⟨rows ▸ (Ordered.sort_perm _ _).mem_iff.mp member, beq_self_eq_true _⟩
  rw [accord.subscribed] at stored
  obtain ⟨deployment, found, _⟩ := Option.map_eq_some_iff.mp (Option.mem_toList.mp stored)
  exact Option.isSome_iff_exists.mpr ⟨deployment, found⟩

/-- What is stored of suspended runs is pending. -/
theorem Accord.isSome_of_recalled {ledger : Ledger} {states : List Suspended}
    (rereads : engine.Rereads) (kept : engine.ledger = some ledger)
    (listed : ledger.listSuspended = .ok states) :
    ∀ state ∈ states, (office.desk.pending? state.execution).isSome := by
  obtain ⟨_, known, working⟩ := accord.serves
  cases kept.symm.trans known
  have rows : engine.rows = ledger.suspended := by simp only [Engine.rows, known]
  cases listed.symm.trans (Site.listSuspended_of_reread working (rows ▸ rereads.rows))
  intro state member
  have stored : state ∈ engine.stored state.execution :=
    Engine.mem_stored.mpr ⟨rows ▸ (Ordered.sort_perm _ _).mem_iff.mp member, rfl⟩
  rw [accord.stored] at stored
  obtain ⟨pending, found, _⟩ := Option.map_eq_some_iff.mp (Option.mem_toList.mp stored)
  exact Option.isSome_iff_exists.mpr ⟨pending, found⟩

end Decisions

section Forgetting

theorem foldl_deletes {α : Type} {change : α → Act → α} {nothing : α} {execution : String}
    (deletes : ∀ value other, change value (.deleteSuspended other) =
      if execution = other then nothing else value) (dropped : List String) (value : α) :
    (dropped.map Act.deleteSuspended).foldl change value =
      if execution ∈ dropped then nothing else value := by
  induction dropped generalizing value with
  | nil => rfl
  | cons other rest ih =>
    rw [List.map_cons, List.foldl_cons, ih, deletes]
    grind

theorem foldl_unaffected {α : Type} {change : α → Act → α}
    (still : ∀ value other, change value (.deleteSuspended other) = value)
    (dropped : List String) (value : α) :
    (dropped.map Act.deleteSuspended).foldl change value = value := by
  induction dropped with
  | nil => rfl
  | cons other rest ih => rw [List.map_cons, List.foldl_cons, still, ih]

variable (owing : Owing engine office errand) (acts : errand.acts = [])
include owing acts

/-- What was to be forgotten later is going to be deleted. -/
theorem forgetWorkflow_owing {workflow : String} {dropped : List String}
    (drops : errand.decision.drops = dropped)
    (unsubscribes : errand.decision.unsubscribes? = some workflow) :
    Owing engine office (forgetWorkflow errand workflow dropped) := by
  refine { owing with
    stored := fun execution => ?_
    subscribed := fun other => ?_
    registered := fun provider other => ?_
    listed := trivial }
  · have stored := owing.stored execution
    rw [acts, drops] at stored
    simp only [forgetWorkflow, Errand.go, Decision.drops, List.not_mem_nil, if_false,
      List.foldl_append]
    rw [foldl_deletes (fun _ _ => rfl), foldl_unaffected (fun _ _ => rfl)]
    exact stored
  · have subscribed := owing.subscribed other
    rw [acts, unsubscribes] at subscribed
    simp only [forgetWorkflow, Errand.go, Decision.unsubscribes?, reduceCtorEq, if_false,
      List.foldl_append]
    rw [foldl_unaffected (fun _ _ => rfl), ← subscribed]
    simp only [List.foldl_cons, List.foldl_nil, Act.subscribe, Option.some.injEq, eq_comm]
  · have registered := owing.registered provider other
    rw [acts] at registered
    simp only [forgetWorkflow, Errand.go, List.foldl_append]
    rw [foldl_unaffected (fun _ _ => rfl)]
    exact registered

/-- What is to be forgotten later stays so. -/
theorem Owing.waits (ledger : stride.engine.ledger = engine.ledger)
    (same : stride.office = office) (idle : stride.errand.acts = [])
    (drops : stride.errand.decision.drops = errand.decision.drops)
    (unsubscribes : stride.errand.decision.unsubscribes? = errand.decision.unsubscribes?)
    (listed : stride.errand.Listed stride.engine stride.office.desk) :
    Owing stride.engine stride.office stride.errand := by
  have stored := Engine.stored_of_ledger ledger
  have subscribed := subscribed_of_ledger ledger
  refine ⟨owing.serves.of_ledger ledger, stored ▸ owing.single, subscribed ▸ owing.singular,
    same ▸ owing.own, ?_, ?_, ?_, listed⟩
  · rw [drops, idle, stored, same, ← acts]
    exact owing.stored
  · rw [unsubscribes, idle, subscribed, same, ← acts]
    exact owing.subscribed
  · rw [idle, same, ← acts]
    exact owing.registered

end Forgetting

/-- Whatever an errand decides, what it does not change at once is left to its acts or to a later
decision. -/
theorem decide_owing (owing : Owing engine office errand) (acts : errand.acts = [])
    (coherent : office.desk.Coherent) (own : errand.decision.IsOwn) :
    let stride := Stride.decide engine office errand
    Owing stride.engine stride.office stride.errand := by
  have accord := owing.accord acts
  have listed := owing.listed
  have decides := decide_decides engine office errand
  rw [Errand.Listed] at listed
  dsimp only
  generalize decide engine office errand = stride at decides ⊢
  generalize decision : errand.decision = stage at decides accord own listed
  cases decides with
  | ends | attends | awaitsStop | awaitsReply => exact owing
  | @drives _ run => exact owing.congr (engine.stepRun_keeps run .driver).2 rfl rfl
  | @drivesHome _ run =>
    exact (accord rfl rfl).aside (engine.stepRun_keeps run .driver).2 rfl rfl rfl rfl rfl rfl
      trivial
  | keeps => exact keep_owing (accord rfl rfl) _ _ _
  | claims | lapses | timesOut | transitions | cancels =>
    exact (accord rfl rfl).releases _ (fun _ _ => rfl) (fun _ _ => rfl) (fun _ _ => rfl)
      (fun _ => rfl) rfl rfl trivial
  | stops there => exact (accord rfl rfl).detaches coherent there
  | forgets | stopped =>
    exact forgetWorkflow_owing owing acts (by rw [decision]; rfl) (by rw [decision]; rfl)
  | callsStop =>
    exact owing.waits acts rfl rfl rfl (by rw [decision]; rfl) (by rw [decision]; rfl) trivial
  | installs free => exact (accord rfl rfl).installs own free rfl
  | restores kept lists =>
    have deployed := (accord rfl rfl).isSome_of_listed listed.2 kept lists
    exact (accord rfl rfl).nothing _ rfl rfl rfl ⟨rfl, listed.2, deployed⟩
  | adopted => exact (accord rfl rfl).nothing _ rfl rfl rfl ⟨rfl, listed.2.1⟩
  | passesOver =>
    exact (accord rfl rfl).nothing _ rfl rfl rfl
      ⟨rfl, listed.2.1, fun other member => listed.2.2 other (List.mem_cons_of_mem _ member)⟩
  | @adopts subscription rest free =>
    have deployed : office.desk.isDeployed subscription.workflow = true :=
      listed.2.2 subscription List.mem_cons_self
    rw [deployed, Bool.or_true] at free
    contradiction
  | recalls kept lists =>
    have waits := (accord rfl rfl).isSome_of_recalled listed.2 kept lists
    exact (accord rfl rfl).nothing _ rfl rfl rfl ⟨rfl, waits⟩
  | adoptsSuspended =>
    have answers := (accord rfl rfl).nothing (errand.go [] (.answer (.count 0))) rfl rfl rfl trivial
    simp only [adoptSuspended, adoptable_of_pending listed.2, armedAll]
    exact answers.congr rfl rfl rfl
  | _ => exact (accord rfl rfl).aside rfl rfl rfl rfl rfl rfl rfl trivial

/-- Each step of an errand that is alone in its office keeps `Owing`. -/
theorem step_owing (owing : Owing engine office errand) (coherent : office.desk.Coherent)
    (own : errand.decision.IsOwn) :
    let stride := Stride.step engine office errand
    Owing stride.engine stride.office stride.errand := by
  intro stride
  simp only [stride, Stride.step]
  split
  · rename_i act rest acts
    exact act_owing owing acts
  · rename_i acts
    exact decide_owing owing acts coherent own

end Stride

end DurableFlow
