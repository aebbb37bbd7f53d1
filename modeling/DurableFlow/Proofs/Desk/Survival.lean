import DurableFlow.Proofs.Desk.Contest
import DurableFlow.Proofs.Desk.Recovery
import DurableFlow.Proofs.Trigger.Handles

/-!
# The handles of a subscription last until it is stopped

A subscription that has been deployed is stored, and what a later process does with it is decided by
what it reads there. `Handed` are the sites at which this subscription is in use, through any number
of processes. In each of them the workflow is deployed with what comes back of the subscription, and
its handler is registered for the provider of the trigger and nowhere else (`Stands`), so that a
stop takes it back from there and gives the handles to the stop procedure.
-/

namespace DurableFlow

namespace Adopts

variable {α : Type} {key : α → String} {rows : List α}

/-- Of rows with different keys one at most has a key. -/
theorem filter_eq_toList (apart : rows.Pairwise fun a b => key a ≠ key b) (k : String) :
    rows.filter (key · == k) = (rows.find? (key · == k)).toList := by
  induction apart with
  | nil => rfl
  | @cons row rest different _ ih =>
    rw [List.filter_cons, List.find?_cons]
    by_cases own : key row = k
    · have others : rest.filter (key · == k) = [] := List.filter_eq_nil_iff.mpr
        fun other member => by simpa [own] using (different other member).symm
      simp [own, others]
    · rw [if_neg (by simpa using own), beq_eq_false_iff_ne.mpr own]
      exact ih

end Adopts

/-- The handler of a deployment is for the provider of its subscription only. -/
theorem Desk.handling_of_deployed {desk : Desk} {workflow : String} {deployment : Deployment}
    (deployed : desk.deployment? workflow = some deployment) (provider : String) :
    desk.handling provider workflow =
      if provider = deployment.subscription.provider then [deployment.handler] else [] := by
  rw [handling, deployed]
  by_cases same : deployment.subscription.provider = provider
  · simp [Option.filter, same]
  · simp [Option.filter, same, Ne.symm same]

namespace Site

variable {site after fresh : Site} {s : Subscription} {deployment : Deployment}
  {stopper : Option Nat} {id : Nat}

/-- The subscription is stored, its workflow is deployed, and the handler of this deployment is the
only one of the workflow that is registered. No errand is going to change that, but for a stop that
has not begun. -/
structure Stands (site : Site) (s : Subscription) (deployment : Deployment)
    (stopper : Option Nat) : Prop where
  aloof : site.Aloof s.workflow stopper
  stored : site.engine.subscribed s.workflow = [s]
  deployed : site.office.desk.deployment? s.workflow = some deployment
  registered : ∀ provider, site.office.board.handling provider s.workflow =
    site.office.desk.handling provider s.workflow
  asked : ∀ id, stopper = some id →
    ∃ isCancelled, site.office.errand? id = some { decision := .stop s.workflow, isCancelled }

/-- There is no stop under way. -/
theorem of_nobody {p : Nat → Prop} (id : Nat) (stops : none = some id) : p id :=
  absurd stops.symm (Option.some_ne_none id)

namespace Stands

theorem aside (stands : site.Stands s deployment stopper)
    (passes : PassesBy s.workflow stopper site after) : after.Stands s deployment stopper := by
  refine ⟨passes.aloof, passes.subscribed.trans stands.stored,
    passes.deployment.trans stands.deployed, fun provider => ?_, fun id stops => ?_⟩
  · rw [passes.handling, stands.registered, Desk.handling, Desk.handling, passes.deployment]
  · obtain ⟨_, found⟩ := stands.asked id stops
    exact passes.stays id _ stops found

/-- Whatever happens, as long as nothing is stopped or restored and the ledger serves. -/
theorem occur (stands : site.Stands s deployment stopper) {occurrence : Occurrence}
    (calm : occurrence.upsets = false)
    (waits : ∀ id, stopper = some id → occurrence ≠ .demand (.move (.turn id))) :
    (site.occur occurrence).Stands s deployment stopper := by
  cases stands.aloof.occur calm waits with
  | passes passes => exact stands.aside passes
  | enters first _ _ _ absent =>
    -- nobody deploys a workflow that is deployed
    rw [first.deployment, stands.deployed] at absent
    contradiction

theorem undergo (stands : site.Stands s deployment stopper) {history : List Occurrence}
    (calm : ∀ occurrence ∈ history, occurrence.upsets = false)
    (waits : ∀ id, stopper = some id →
      ∀ occurrence ∈ history, occurrence ≠ .demand (.move (.turn id))) :
    (site.undergo history).Stands s deployment stopper := by
  induction history generalizing site with
  | nil => exact stands
  | cons occurrence rest ih =>
    have first := stands.occur (calm occurrence List.mem_cons_self)
      fun id stops => waits id stops occurrence List.mem_cons_self
    exact ih first (fun other member => calm other (List.mem_cons_of_mem _ member))
      fun id stops other member => waits id stops other (List.mem_cons_of_mem _ member)

theorem handling_eq (stands : site.Stands s deployment stopper) (provider : String) :
    site.office.board.handling provider s.workflow =
      if provider = deployment.subscription.provider then [deployment.handler] else [] :=
  (stands.registered provider).trans (Desk.handling_of_deployed stands.deployed provider)

/-- The handler is registered for the provider of the subscription and for no other one. -/
theorem mem_handlersOf_iff (stands : site.Stands s deployment stopper) (provider : String) :
    deployment.handler ∈ site.office.board.handlersOf provider ↔
      provider = deployment.subscription.provider := by
  have among : ∀ provider, deployment.handler ∈ site.office.board.handling provider s.workflow ↔
      provider = deployment.subscription.provider := fun provider => by
    rw [stands.handling_eq]
    split <;> simp_all
  have own : (deployment.handler.workflow == s.workflow) = true :=
    (List.mem_filter.mp ((among deployment.subscription.provider).mpr rfl)).2
  rw [← among, Switchboard.handling, List.mem_filter, own, and_iff_left rfl]

/-- The stop of the workflow is asked for. -/
theorem order (stands : site.Stands s deployment none) :
    (site.occur (.demand (.move (.order (.stop s.workflow))))).Stands s deployment
      (some site.office.nextErrand) := by
  have unused : site.office.errands.lookup site.office.nextErrand = none :=
    stands.aloof.counted _ (Nat.le_refl _)
  have found : (site.takeOn { decision := .stop s.workflow }).office.errand?
      site.office.nextErrand = some { decision := .stop s.workflow } := by
    simp [Site.takeOn, Office.takeOn, Office.errand?, List.lookup_append, unused]
  refine ⟨⟨stands.aloof.serves, stands.aloof.counted.takeOn _, stands.aloof.singular,
    fun id stops => ?_, fun entry member other => ?_⟩, stands.stored, stands.deployed,
    stands.registered, fun id stops => ?_⟩
  · cases stops
    exact Option.isSome_of_eq_some found
  · rcases List.mem_append.mp member with old | last
    · exact stands.aloof.others entry old (Option.some_ne_none _).symm
    · rw [List.mem_singleton.mp last] at other
      exact absurd rfl other
  · cases stops
    exact ⟨false, found⟩

end Stands

/-- What the stop of a deployment comes to in its first three turns, whatever happens between them:
the deployment is taken off the desk, its handler is taken off the provider that it was registered
for, and the stop procedure, if there is one, is called with the handles. -/
structure TakesBack (site : Site) (id : Nat) (workflow : String) (deployment : Deployment) :
    Prop where
  registered : ∀ provider, deployment.handler ∈ site.office.board.handlersOf provider ↔
    provider = deployment.subscription.provider
  undeployed : (site.turn id).office.desk.deployment? workflow = none
  unregistered : ∀ history, (∀ occurrence ∈ history, occurrence ≠ .demand (.move (.turn id))) →
    let before := (site.turn id).undergo history
    ∀ provider, (before.turn id).office.board.handlersOf provider =
      if provider = deployment.subscription.provider then
        (before.office.board.handlersOf provider).filter (· ≠ deployment.handler)
      else before.office.board.handlersOf provider
  called : ∀ history later,
    (∀ occurrence ∈ history, occurrence ≠ .demand (.move (.turn id))) →
    (∀ occurrence ∈ later, occurrence ≠ .demand (.move (.turn id))) →
    let before := (((site.turn id).undergo history).turn id).undergo later
    ∀ procedure, Stride.stopProcedure? before.engine.catalog deployment.subscription =
      some procedure → ∃ invocation, (before.turn id).engine.calls =
        ⟨procedure.contract.name, deployment.subscription.stopInput, invocation⟩ ::
          before.engine.calls

/-- A stop that has found the deployment is going to take back its handler. -/
theorem Stands.turn_stop (stands : site.Stands s deployment (some id)) :
    (site.turn id).office.desk.deployment? s.workflow = none ∧
      ∃ dropped isCancelled, (site.turn id).office.errand? id = some
        { acts := [.unregister deployment.subscription.provider deployment.handler]
          decision := .callStop deployment.subscription dropped, isCancelled } := by
  obtain ⟨isCancelled, found⟩ := stands.asked id rfl
  have turn := takesTurn found
  have there : Fields.get? site.office.desk.deployments s.workflow = some deployment :=
    stands.deployed
  simp only [Stride.step, Stride.decide, Stride.stop, there] at turn
  refine ⟨?_, _, isCancelled, turn.goes (by simp)⟩
  rw [turn.desk]
  exact (Office.deployment?_detach _ _ _).trans (if_pos rfl)

/-- The handler is taken back. -/
theorem turn_unregister {provider : String} {handler : Handler} {decision : Decision}
    {isCancelled : Bool} (found : site.office.errand? id = some
      { acts := [.unregister provider handler], decision, isCancelled }) :
    (site.turn id).office.board = (site.office.board.unregister provider handler).2 ∧
      (site.turn id).office.errand? id = some { decision, isCancelled } := by
  have turn := takesTurn found
  exact ⟨turn.board, turn.goes (by simp [Stride.step, Stride.act])⟩

/-- The stop procedure is called. -/
theorem turn_callStop {subscription : Subscription} {dropped : List String} {isCancelled : Bool}
    (found : site.office.errand? id = some
      { decision := .callStop subscription dropped, isCancelled })
    {procedure : Procedure}
    (stops : Stride.stopProcedure? site.engine.catalog subscription = some procedure) :
    ∃ invocation, (site.turn id).engine.calls =
      ⟨procedure.contract.name, subscription.stopInput, invocation⟩ :: site.engine.calls := by
  have turn := takesTurn found
  simp only [Stride.step, Stride.decide, Stride.callStop, stops] at turn
  rw [turn.engine]
  exact ⟨_, rfl⟩

theorem Stands.takesBack (stands : site.Stands s deployment (some id)) :
    site.TakesBack id s.workflow deployment := by
  obtain ⟨undeployed, dropped, isCancelled, found⟩ := stands.turn_stop
  have counted := stands.aloof.counted.turn id
  have waits : ∀ history, (∀ occurrence ∈ history, occurrence ≠ .demand (.move (.turn id))) →
      ∃ isCancelled, ((site.turn id).undergo history).office.errand? id = some
        { acts := [.unregister deployment.subscription.provider deployment.handler]
          decision := .callStop deployment.subscription dropped, isCancelled } :=
    fun history others => errand?_undergo (counted.used found) found others
  refine ⟨stands.mem_handlersOf_iff, undeployed, fun history others => ?_,
    fun history later others others' => ?_⟩
  · intro before provider
    obtain ⟨isCancelled, found⟩ := waits history others
    rw [(turn_unregister found).1, Switchboard.handlersOf_unregister]
    split
    · rename_i same
      rw [same]
    · rfl
  · intro before procedure stops
    obtain ⟨isCancelled, found⟩ := waits history others
    have going := (turn_unregister found).2
    have counted' := (counted.undergo history).turn id
    obtain ⟨isCancelled, found'⟩ := errand?_undergo (counted'.used going) going others'
    exact turn_callStop found' stops

section Restoring

/-- A fresh process uses the ledger that another one has left, and is about to restore. -/
structure Succeeds (site fresh : Site) : Prop where
  ledger : fresh.engine.ledger = site.engine.ledger
  office : ∃ policy definitions, fresh.office =
    (Office.takeOn { desk := { policy, definitions } } { decision := .restore }).2

/-- What is stored can be read. -/
def Readable (site : Site) : Prop :=
  ∃ ledger subscriptions states, site.engine.ledger = some ledger ∧
    ledger.listSubscriptions = .ok subscriptions ∧ ledger.listSuspended = .ok states

/-- The row of a workflow is listed as what is read back for it. -/
theorem listed_of_stored {ledger : Ledger} {subscriptions : List Subscription}
    (listed : ledger.listSubscriptions = .ok subscriptions)
    (stored : ledger.subscriptions.filter (·.workflow == s.workflow) = [s]) :
    ∃ read, s.reread = .ok read ∧
      subscriptions.filter (·.workflow == s.workflow) = [read] := by
  rw [Ledger.listSubscriptions] at listed
  split at listed
  · have rows := (mapM_eq_ok_iff fun _ _ _ => Iff.rfl).mp listed
    have perm : ledger.activeSubscriptions.Perm ledger.subscriptions := Ordered.sort_perm ..
    have row : ledger.activeSubscriptions.filter (·.workflow == s.workflow) = [s] :=
      List.perm_singleton.mp (stored ▸ perm.filter _)
    have same : ∀ row read : Subscription, row.reread = .ok read →
        (((row.workflow == s.workflow) = true) ↔ ((read.workflow == s.workflow) = true)) := by
      intro row read reads
      rw [Subscription.reread, ofDecode_eq_ok_iff, map_eq_ok_iff] at reads
      obtain ⟨_, -, rfl⟩ := reads
      exact Iff.rfl
    have kept := List.rel_filter (fun _ _ reads => same _ _ reads) rows
    rw [row] at kept
    generalize subscriptions.filter (·.workflow == s.workflow) = found at kept ⊢
    obtain _ | ⟨reads, _ | _⟩ := kept
    exact ⟨_, reads, rfl⟩
  · cases listed

/-- Of the subscriptions that are taken over, the one of a workflow is what is read for its row. -/
theorem Recovered.exists_deployment {subscriptions : List Subscription} {states : List Suspended}
    {deployed : List Deployment} {held : List Suspended} {read : Subscription}
    (recovered : Recovered site after id subscriptions states deployed held)
    (row : subscriptions.filter (·.workflow == s.workflow) = [read])
    (welcome : site.office.desk.welcomes read = true) :
    ∃ deployment, deployment.subscription = read ∧
      deployed.filter (·.subscription.workflow == s.workflow) = [deployment] := by
  have found : (subscriptions.filter (·.workflow == s.workflow)).find?
      site.office.desk.welcomes = some read := by
    rw [row, List.find?_cons, welcome]
  rw [List.find?_filter] at found
  simp only [Bool.decide_and, Bool.decide_coe] at found
  have adopted := (recovered.subscribed.first s.workflow).trans found
  have apart := recovered.subscribed.apart
  rw [List.find?_map, Option.map_eq_some_iff] at adopted
  rw [List.pairwise_map] at apart
  obtain ⟨deployment, there, same⟩ := adopted
  have only : deployed.filter (·.subscription.workflow == s.workflow) =
      (deployed.find? (·.subscription.workflow == s.workflow)).toList :=
    Adopts.filter_eq_toList apart s.workflow
  exact ⟨deployment, same, only.trans (congrArg Option.toList there)⟩

/-- The handler of the deployment that was taken over is registered, and no other one. -/
theorem Recovered.handling_eq {subscriptions : List Subscription} {states : List Suspended}
    {deployed : List Deployment} {held : List Suspended} {workflow : String}
    (recovered : Recovered site after id subscriptions states deployed held)
    (board : site.office.board = {})
    (only : deployed.filter (·.subscription.workflow == workflow) = [deployment])
    (provider : String) : after.office.board.handling provider workflow =
      if provider = deployment.subscription.provider then [deployment.handler] else [] := by
  have mine : deployed.filter ((·.workflow == workflow) ∘ Deployment.handler) = [deployment] := by
    rw [← only]
    refine List.filter_congr fun d member => ?_
    obtain ⟨i, located⟩ := List.mem_iff_getElem?.mp member
    rw [Function.comp_apply, recovered.own i d located]
  have nobody : site.office.board.handlersOf provider = [] := by
    rw [board]
    rfl
  rw [Switchboard.handling, recovered.handlersOf, nobody, List.nil_append, List.filter_map,
    List.filter_comm, mine]
  by_cases same : deployment.subscription.provider = provider
  · simp [same]
  · simp [same, Ne.symm same]

/-- A fresh process comes to the end of restoring, and what it reads for the subscription stands. -/
theorem Succeeds.restores (succeeds : site.Succeeds fresh) (serves : site.engine.Serves)
    (stored : site.engine.subscribed s.workflow = [s])
    (known : (fresh.office.desk.definition? s.workflow).isSome) (readable : fresh.Readable) :
    ∃ turns deployment, (fresh.alone turns).office.errands = [] ∧
      s.reread = .ok deployment.subscription ∧
      (fresh.alone turns).Stands s deployment none := by
  obtain ⟨policy, definitions, begins⟩ := succeeds.office
  obtain ⟨ledger, subscriptions, states, is, listed, recalled⟩ := readable
  have asked : fresh.office.errand? 0 = some { decision := .restore } := by
    rw [begins]
    rfl
  obtain ⟨turns, after, deployed, held, -, ends, recovered⟩ :=
    exists_recovered asked is listed recalled
  have still : fresh.engine.subscribed s.workflow = [s] := by
    rw [Stride.subscribed_of_ledger succeeds.ledger, stored]
  obtain ⟨read, reads, row⟩ := listed_of_stored listed (s := s) (by
    rw [← still, Engine.subscribed, Engine.subscriptions, is])
  have own : read.workflow = s.workflow := by
    have member : read ∈ subscriptions.filter (·.workflow == s.workflow) :=
      row ▸ List.mem_singleton_self read
    exact eq_of_beq (List.mem_filter.mp member).2
  have undeployed : ∀ workflow, fresh.office.desk.deployment? workflow = none := by
    rw [begins]
    exact fun _ => rfl
  have welcome : fresh.office.desk.welcomes read = true := by
    rw [Desk.welcomes, Desk.isDeployed_eq, own, undeployed, known]
    rfl
  obtain ⟨deployment, same, only⟩ := recovered.exists_deployment row welcome
  have idle : after.office.errands = [] := by
    rw [recovered.office, begins]
    rfl
  have there : after.office.desk.deployment? s.workflow = some deployment := by
    rw [recovered.deployment?, undeployed, Option.none_or, ← List.head?_filter, only]
    rfl
  have ledger : after.engine.ledger = fresh.engine.ledger := by rw [recovered.engine]
  have kept : after.engine.subscribed s.workflow = [s] := by
    rw [Stride.subscribed_of_ledger ledger, still]
  have here : fresh.alone (turns + 1) = after := ends
  refine ⟨turns + 1, deployment, here ▸ idle, same ▸ reads,
    here ▸ ⟨⟨?_, ?_, ?_, of_nobody, ?_⟩, kept, there, fun provider => ?_, of_nobody⟩⟩
  · exact (serves.of_ledger succeeds.ledger).of_ledger ledger
  · intro id _
    rw [Office.errand?, idle]
    rfl
  · rw [kept]
    exact Nat.le_refl 1
  · rw [idle]
    exact fun _ member => absurd member List.not_mem_nil
  · rw [recovered.handling_eq (by rw [begins]; rfl) only, Desk.handling_of_deployed there]

end Restoring

section Histories

/-- The sites at which a subscription is in use. It has been returned by the calls to deploy its
workflow, or a fresh process that knows the workflow has restored what another one has left; and
after that anything may have happened, as long as nothing was stopped or restored and the ledger
served. -/
inductive Handed (s : Subscription) : Site → Prop where
  | deployed {site : Site} {history : List Occurrence} (vacant : site.Vacant s.workflow)
      (unplugged : ∀ provider, site.office.board.handling provider s.workflow = [])
      (calm : ∀ occurrence ∈ history, occurrence.upsets = false)
      (returned : granted s.workflow (site.returned history) = [s]) :
      Handed s (site.undergo history)
  | occur {site : Site} {occurrence : Occurrence} (handed : Handed s site)
      (calm : occurrence.upsets = false) : Handed s (site.occur occurrence)
  | restored {site fresh : Site} {turns : Nat} (handed : Handed s site)
      (succeeds : site.Succeeds fresh) (known : (fresh.office.desk.definition? s.workflow).isSome)
      (readable : fresh.Readable) (idle : (fresh.alone turns).office.errands = []) :
      Handed s (fresh.alone turns)

/-- A subscription that has been returned stands. -/
theorem Vacant.stands {history : List Occurrence} (vacant : site.Vacant s.workflow)
    (unplugged : ∀ provider, site.office.board.handling provider s.workflow = [])
    (calm : ∀ occurrence ∈ history, occurrence.upsets = false)
    (returned : granted s.workflow (site.returned history) = [s]) :
    ∃ deployment, deployment.subscription = s ∧
      (site.undergo history).Stands s deployment none := by
  obtain ⟨winner, left, contest⟩ := vacant.contest.undergo calm
  rw [List.nil_append, returned] at contest
  cases winner with
  | some id =>
    obtain ⟨nothing, -⟩ := contest.stands
    contradiction
  | none =>
    obtain ⟨rfl, there⟩ := contest.stands
    have stored : (site.undergo history).engine.subscribed s.workflow = [s] :=
      contest.subscribed.trans there.symm
    rw [Desk.subscribed] at there
    obtain ⟨deployment, deployed, same⟩ :=
      Option.map_eq_some_iff.mp (Option.toList_eq_singleton_iff.mp there.symm)
    refine ⟨deployment, same, contest.aloof, stored, deployed, fun provider => ?_, of_nobody⟩
    have handlers := contest.registered provider
    rw [unplugged] at handlers
    exact handlers

/-- Through any number of processes, the workflow is deployed with the subscription or with what
is read back for it. -/
theorem Handed.stands (handed : Handed s site) :
    ∃ deployment, (deployment.subscription = s ∨ s.reread = .ok deployment.subscription) ∧
      site.Stands s deployment none := by
  induction handed with
  | deployed vacant unplugged calm returned =>
    obtain ⟨deployment, same, stands⟩ := vacant.stands unplugged calm returned
    exact ⟨deployment, .inl same, stands⟩
  | occur _ calm ih =>
    obtain ⟨deployment, same, stands⟩ := ih
    exact ⟨deployment, same, stands.occur calm of_nobody⟩
  | restored _ succeeds known readable idle ih =>
    obtain ⟨_, -, before⟩ := ih
    obtain ⟨turns, deployment, idle', reads, stands⟩ :=
      succeeds.restores before.aloof.serves before.stored known readable
    rw [alone_eq_of_idle idle idle']
    exact ⟨deployment, .inr reads, stands⟩

end Histories

/-- A subscription that is made of an output keeps the provider and the procedure of the trigger,
and what the stop procedure is given is the output with its id as a text. It is read back unless
the output nests too deeply or has a number that is too large once it is read, and then the stop
procedure is given the same again exactly if each float beside the id is the one that is read for
its text.

Wherever the subscription is in use, through any number of processes, it is this subscription or
what is read back for it that the workflow is deployed with. A fresh process that can read what is
stored gets to the end of restoring. And a stop takes the handler off the provider of the trigger,
for which alone it was registered, and calls the stop procedure with the handles, whatever happens
between its turns. -/
theorem handles_last_until_stopped {now : Instant} {workflow : String} {trigger : Trigger}
    {output : Data} (made : Subscription.ofOutput now workflow trigger output = .ok s)
    (sorted : output.Sorted) (held : ∀ n ∈ output.numbers, n.InRange) :
    ∃ fields, output = .obj fields ∧ Subscription.id? output = some s.id ∧
      s.stopInput = .obj (Fields.insert fields "id" (.str s.id)) ∧
      (∀ read, s.reread = .ok read ↔ output.depth < Source.Reader.maxDepth ∧
        ∃ xs, Data.echoFields? fields = some xs ∧ read = { s with metadata := .obj xs }) ∧
      (∀ read, s.reread = .ok read → (read.stopInput = s.stopInput ↔
        Number.FloatsLast (Data.obj (Fields.erase fields "id")).numbers)) ∧
      ∀ site, Handed s site →
        (∀ fresh, site.Succeeds fresh → (fresh.office.desk.definition? workflow).isSome →
          fresh.Readable → ∃ turns, (fresh.alone turns).office.errands = []) ∧
        ∃ deployment : Deployment,
          (deployment.subscription = s ∨ s.reread = .ok deployment.subscription) ∧
          deployment.subscription.provider = trigger.provider ∧
          deployment.subscription.procedure = trigger.procedure ∧
          (Number.FloatsLast (Data.obj (Fields.erase fields "id")).numbers →
            deployment.subscription.stopInput = s.stopInput) ∧
          site.office.desk.deployment? workflow = some deployment ∧
          ∀ history, (∀ occurrence ∈ history, occurrence.upsets = false) →
            (∀ occurrence ∈ history,
              occurrence ≠ .demand (.move (.turn site.office.nextErrand))) →
            ((site.occur (.demand (.move (.order (.stop workflow))))).undergo history).TakesBack
              site.office.nextErrand workflow deployment := by
  obtain ⟨_, -, id, is⟩ := Subscription.of_ofOutput made
  obtain ⟨fields, rfl, bears⟩ := Subscription.bears_of_ofOutput made sorted
  have own : s.workflow = workflow := by rw [is]
  have takes : s.provider = trigger.provider ∧ s.procedure = trigger.procedure := by
    rw [is]
    exact ⟨rfl, rfl⟩
  subst own
  refine ⟨fields, rfl, id, bears.stopInput_eq, fun read => bears.reread_eq_ok_iff,
    fun read reads => bears.stopInput_reread_iff held reads, fun site handed => ?_⟩
  obtain ⟨deployment, same, stands⟩ := handed.stands
  have keeps : deployment.subscription.provider = s.provider ∧
      deployment.subscription.procedure = s.procedure := by
    rcases same with same | reads
    · rw [same]
      exact ⟨rfl, rfl⟩
    · obtain ⟨-, _, -, same⟩ := bears.reread_eq_ok_iff.mp reads
      rw [same]
      exact ⟨rfl, rfl⟩
  refine ⟨fun fresh succeeds known readable => ?_, deployment, same, keeps.1.trans takes.1,
    keeps.2.trans takes.2, fun last => ?_, stands.deployed, fun history calm waits => ?_⟩
  · obtain ⟨turns, _, idle, -⟩ :=
      succeeds.restores stands.aloof.serves stands.stored known readable
    exact ⟨turns, idle⟩
  · rcases same with same | reads
    · rw [same]
    · exact (bears.stopInput_reread_iff held reads).mpr last
  · exact (stands.order.undergo calm fun id stops => Option.some.inj stops ▸ waits).takesBack

/-- What a feed gives back, one part of which is a float. -/
def feedOutput (mantissa : Nat) : Data :=
  .obj [("channelId", .str "c-1"), ("id", .num (.int 7)),
    ("rate", .num (.float ⟨false, mantissa, -118⟩))]

def feedTrigger : Trigger := { provider := "feed", procedure := "feed.watch" }

/-- The subscription to the feed. -/
def feedSubscription : Subscription where
  workflow := "fed"
  id := "7"
  provider := "feed"
  procedure := "feed.watch"
  channel := some "c-1"
  metadata := feedOutput 7513972601201074
  createdAt := ⟨0, 2⟩

/-- An office with the procedures of the feed. -/
def feeding : Site :=
  opened
    [("feed.stop", { contract := { name := "feed.stop" }, reply _ _ _ := .output .null }),
      ("feed.watch",
        { contract := { name := "feed.watch" }
          reply _ _ _ := .output (feedOutput 7513972601201074) })]
    10 (some {}) ⟨0, 0⟩ .drop

/-- A workflow that subscribes to the feed. -/
def fed : Definition := { watched with id := "fed", trigger := some feedTrigger }

def deployFed : List Occurrence :=
  .demand (.move (.order (.deploy fed "http://here" []))) ::
    List.replicate 6 (.demand (.move (.turn 0)))

/-- A fresh process that finds the subscription. -/
def refeeding : Site where
  engine :=
    { catalog := feeding.engine.catalog
      ledger := (feeding.undergo deployFed).engine.ledger
      epoch := ⟨0, 0⟩ }
  office := (Office.takeOn { desk := { definitions := [("fed", fed)] } } { decision := .restore }).2

theorem handed_feeding : Handed feedSubscription (feeding.undergo deployFed) :=
  have vacant : feeding.Vacant "fed" :=
    vacant_undergone feeding.engine.catalog 10 (some {}) ⟨0, 0⟩ .drop [] ⟨_, rfl, rfl⟩ rfl rfl rfl
  .deployed vacant (fun _ => rfl) (by decide +kernel) (by decide +kernel)

theorem succeeds_refeeding : (feeding.undergo deployFed).Succeeds refeeding :=
  ⟨rfl, .drop, [("fed", fed)], rfl⟩

theorem sorted_feedOutput (mantissa : Nat) : (feedOutput mantissa).Sorted := by
  have names : (Fields.names (feedOutput mantissa).fields).Pairwise (· < ·) :=
    show ["channelId", "id", "rate"].Pairwise (· < ·) by decide +kernel
  exact ⟨List.pairwise_map.mp names, trivial, trivial, trivial, trivial⟩

theorem feedSubscription_bears : feedSubscription.Bears (feedOutput 7513972601201074).fields :=
  ⟨rfl, sorted_feedOutput _, rfl, rfl⟩

/-- The float is not read as it was written. -/
theorem reread_feedSubscription : feedSubscription.reread =
    .ok { feedSubscription with metadata := feedOutput 7513972601201073 } :=
  feedSubscription_bears.reread_eq_ok_iff.mpr ⟨by decide +kernel, _, by decide +kernel, rfl⟩

theorem readable_refeeding : refeeding.Readable := by
  have stored : refeeding.engine.ledger = some { subscriptions := [feedSubscription] } := by
    decide +kernel
  refine ⟨_, [{ feedSubscription with metadata := feedOutput 7513972601201073 }], [], stored,
    ?_, rfl⟩
  exact (mapM_eq_ok_iff fun _ _ _ => Iff.rfl).mpr (.cons reread_feedSubscription .nil)

theorem handles_last_until_stopped_feed :
    Subscription.ofOutput ⟨0, 2⟩ "fed" feedTrigger (feedOutput 7513972601201074) =
        .ok feedSubscription ∧
      (feedOutput 7513972601201074).Sorted ∧
      (∀ n ∈ (feedOutput 7513972601201074).numbers, n.InRange) ∧
      ∃ turns deployment, (refeeding.alone turns).office.errands = [] ∧
        (refeeding.alone turns).office.desk.deployment? "fed" = some deployment ∧
        deployment.subscription.provider = "feed" ∧
        ((refeeding.alone turns).occur (.demand (.move (.order (.stop "fed"))))).TakesBack
          (refeeding.alone turns).office.nextErrand "fed" deployment := by
  have made : Subscription.ofOutput ⟨0, 2⟩ "fed" feedTrigger (feedOutput 7513972601201074) =
      .ok feedSubscription := by
    decide +kernel
  have sorted := sorted_feedOutput 7513972601201074
  have held : ∀ n ∈ (feedOutput 7513972601201074).numbers, n.InRange := by
    decide +kernel
  obtain ⟨_, -, -, -, -, -, used⟩ := handles_last_until_stopped made sorted held
  obtain ⟨turns, idle⟩ :=
    (used _ handed_feeding).1 refeeding succeeds_refeeding rfl readable_refeeding
  obtain ⟨-, deployment, -, provider, -, -, deployed, stops⟩ := used _
    (handed_feeding.restored succeeds_refeeding rfl readable_refeeding idle)
  have stopped := stops [] (List.forall_mem_nil _) (List.forall_mem_nil _)
  rw [undergo, List.foldl_nil] at stopped
  exact ⟨made, sorted, held, turns, deployment, idle, deployed, provider, stopped⟩

/-- What the stop procedure of the feed is given by a later process is not what the feed has given
back. -/
theorem stopInput_drifting :
    Subscription.ofOutput ⟨0, 2⟩ "fed" feedTrigger (feedOutput 7513972601201074) =
        .ok feedSubscription ∧
      Handed feedSubscription (feeding.undergo deployFed) ∧
      (feeding.undergo deployFed).Succeeds refeeding ∧
      ∃ turns deployment, (refeeding.alone turns).office.errands = [] ∧
        (refeeding.alone turns).office.desk.deployment? "fed" = some deployment ∧
        ∃ fields : Fields Data, feedOutput 7513972601201074 = .obj fields ∧
          deployment.subscription.stopInput ≠ .obj (Fields.insert fields "id" (.str "7")) := by
  have known : (refeeding.office.desk.definition? feedSubscription.workflow).isSome := rfl
  obtain ⟨turns, deployment, idle, reads, stands⟩ := succeeds_refeeding.restores
    ⟨_, rfl, rfl⟩ (s := feedSubscription) (by decide +kernel) known readable_refeeding
  refine ⟨by decide +kernel, handed_feeding, succeeds_refeeding, turns, deployment, idle,
    stands.deployed, _, rfl, ?_⟩
  rw [reread_feedSubscription] at reads
  rw [← Except.ok.inj reads]
  decide +kernel

end Site

end DurableFlow
