import DurableFlow.Proofs.Desk.Aloof
import DurableFlow.Proofs.Desk.Stopping

/-!
# A workflow is deployed once, and as a whole

Calls to deploy one workflow may get to their second look at the desk side by side, and one of them
at most gets past it. `Site.Contest` says where they have come to: what has been returned, who has
deployed the workflow and what this errand has still to announce. All others are aloof.
-/

namespace DurableFlow

namespace Site

variable {site : Site} {id : Nat} {errand : Errand} {workflow : String}

/-- Where the calls to deploy a workflow have come to. These subscriptions of it have been returned;
an errand may have deployed it that has these acts left before it returns; and all others are aloof.
What is stored and registered is what there was `before` and what is deployed, once these acts are
carried out. -/
structure Contest (site : Site) (workflow : String) (before : String → List Handler)
    (returned : List Subscription) (winner : Option Nat) (left : List Act) : Prop where
  serves : site.engine.Serves
  counted : site.Counted
  singular : (site.engine.subscribed workflow).length ≤ 1
  subscribed : left.foldl (Act.subscribe workflow) (site.engine.subscribed workflow) =
    site.office.desk.subscribed workflow
  registered : ∀ provider, (left.foldl Stride.rewire site.office.board).handling provider workflow =
    before provider ++ site.office.desk.handling provider workflow
  others : ∀ entry ∈ site.office.errands, winner ≠ some entry.1 → entry.2.Aloof workflow
  stands : match winner with
    | none => left = [] ∧ returned = site.office.desk.subscribed workflow
    | some id => returned = [] ∧ ∃ errand subscription, site.office.errand? id = some errand ∧
      errand.acts = left ∧ errand.Grants subscription ∧ subscription.workflow = workflow ∧
        site.office.desk.subscribed workflow = [subscription]

namespace Contest

variable {after : Site} {before : String → List Handler} {returned : List Subscription}
  {winner : Option Nat} {left : List Act}

theorem aloof (contest : site.Contest workflow before returned winner left) :
    site.Aloof workflow winner := by
  refine ⟨contest.serves, contest.counted, contest.singular, fun id wins => ?_, contest.others⟩
  subst wins
  obtain ⟨_, _, _, found, _⟩ := contest.stands
  exact Option.isSome_of_eq_some found

/-- What is deployed, registered and stored of the workflow stays as it is, and so does the errand
that has deployed it. -/
theorem aside (contest : site.Contest workflow before returned winner left)
    (passes : PassesBy workflow winner site after) :
    after.Contest workflow before returned winner left := by
  have deployed : after.office.desk.subscribed workflow = site.office.desk.subscribed workflow := by
    rw [Desk.subscribed, Desk.subscribed, passes.deployment]
  have handled : ∀ provider, after.office.desk.handling provider workflow =
      site.office.desk.handling provider workflow := by
    intro provider
    rw [Desk.handling, Desk.handling, passes.deployment]
  obtain ⟨serves, counted, singular, -, others⟩ := passes.aloof
  refine ⟨serves, counted, singular, ?_, fun provider => ?_, others, ?_⟩
  · rw [passes.subscribed, deployed]
    exact contest.subscribed
  · rw [Stride.handling_foldl passes.handling left, handled]
    exact contest.registered provider
  · have stands := contest.stands
    rw [deployed]
    cases winner with
    | none => exact stands
    | some id =>
      obtain ⟨nothing, errand, subscription, found, acts, grants, own, there⟩ := stands
      obtain ⟨isCancelled, still⟩ := passes.stays id errand rfl found
      exact ⟨nothing, _, subscription, still, acts, grants, own, there⟩

/-- Nobody has deployed a workflow that is not deployed. -/
theorem unclaimed (contest : site.Contest workflow before returned winner left)
    (absent : site.office.desk.deployment? workflow = none) :
    winner = none ∧ left = [] ∧ returned = [] := by
  have vacant : site.office.desk.subscribed workflow = [] := by
    rw [Desk.subscribed, absent]
    rfl
  have stands := contest.stands
  cases winner with
  | none => exact ⟨rfl, stands.1, stands.2.trans vacant⟩
  | some other =>
    obtain ⟨_, _, _, _, _, _, _, there⟩ := stands
    rw [vacant] at there
    contradiction

/-- An errand deploys the workflow, and is going to announce it. -/
theorem enters (contest : site.Contest workflow before returned winner left) {stride : Stride}
    (turn : site.TakesTurn after id stride) (counted : after.Counted) {deployment : Deployment}
    (own : deployment.subscription.workflow = workflow ∧ deployment.handler.workflow = workflow)
    (absent : site.office.desk.deployment? workflow = none)
    (entered : stride.office.desk.deployment? workflow = some deployment)
    (ledger : stride.engine.ledger = site.engine.ledger)
    (board : stride.office.board = site.office.board)
    (acts : stride.errand.acts = deployment.announcements)
    (grants : stride.errand.Grants deployment.subscription) (goes : stride.signal = .proceed) :
    after.Contest workflow before returned (some id) deployment.announcements := by
  obtain ⟨rfl, rfl, rfl⟩ := contest.unclaimed absent
  have there : after.office.desk.subscribed workflow = [deployment.subscription] := by
    rw [turn.desk, Desk.subscribed, entered]
    rfl
  have same : after.engine.ledger = site.engine.ledger := turn.engine ▸ ledger
  have stored := Stride.subscribed_of_ledger same
  refine ⟨contest.serves.of_ledger same, counted, stored ▸ contest.singular, ?_,
    fun provider => ?_, fun entry among other => ?_, rfl, stride.errand,
    deployment.subscription, turn.goes (by rw [goes]; exact Signal.noConfusion), acts, grants,
    own.1, there⟩
  · rw [there, stored]
    exact if_pos own.1
  · have handlers := contest.registered provider
    rw [List.foldl_nil, Desk.handling, absent] at handlers
    rw [turn.board, board, turn.desk, Desk.handling, entered]
    refine (site.office.board.handling_register deployment.subscription.provider provider
      workflow deployment.handler).trans ?_
    by_cases matching : provider = deployment.subscription.provider
    · rw [if_pos ⟨matching, own.2⟩, ← matching, handlers]
      simp [matching, Option.filter]
    · rw [if_neg (matching ·.1), handlers]
      simp [Ne.symm matching, Option.filter]
  · rcases turn.others entry among with ⟨rfl, _⟩ | ⟨old, _⟩
    · exact absurd rfl other
    · exact contest.others entry old (Option.some_ne_none _).symm

/-- The errand that has deployed the workflow has announced it, and returns. -/
theorem returns (contest : site.Contest workflow before returned (some id) []) :
    (site.turn id).Contest workflow before
      (returned ++ granted workflow (site.ended (.demand (.move (.turn id))))) none [] := by
  obtain ⟨rfl, errand, subscription, found, none_left, ⟨alone, decision⟩, own, there⟩ :=
    contest.stands
  have turn := takesTurn found
  have step : Stride.step site.engine site.office errand =
      ⟨site.engine, site.office, errand, .finished, []⟩ := by
    simp only [Stride.step, none_left, Stride.decide, decision, alone]
  have ended : site.ended (.demand (.move (.turn id))) = [(id, .subscription subscription)] := by
    simp only [Site.ended, answered, found, step, Errand.answer?, none_left, decision, alone]
    rfl
  rw [step] at turn
  refine ⟨turn.engine ▸ contest.serves, contest.counted.turn id, turn.engine ▸ contest.singular,
    ?_, fun provider => ?_, fun entry among _ => ?_, rfl, ?_⟩
  · rw [turn.engine, turn.desk]
    exact contest.subscribed
  · rw [turn.board, turn.desk]
    exact contest.registered provider
  · rcases turn.others entry among with ⟨_, goes⟩ | ⟨old, other⟩
    · exact absurd rfl goes
    · exact contest.others entry old fun same => other (Option.some.inj same).symm
  · rw [ended, turn.desk, there]
    simp [granted, Answer.subscription?, own]

/-- The errand that has deployed the workflow announces it. -/
theorem announces {act : Act} {rest : List Act}
    (contest : site.Contest workflow before returned (some id) (act :: rest)) :
    (site.turn id).Contest workflow before
      (returned ++ granted workflow (site.ended (.demand (.move (.turn id))))) (some id) rest := by
  obtain ⟨rfl, errand, subscription, found, acts, grants, own, there⟩ := contest.stands
  let left : Errand := { errand with acts := rest }
  obtain ⟨same, deployments, board⟩ := Stride.act_wires site.engine site.office left act
  have turn := takesTurn found
  have step : Stride.step site.engine site.office errand =
      Stride.act site.engine site.office left act := by
    simp only [Stride.step, acts, left]
  have proceeds : (Stride.act site.engine site.office left act).signal = .proceed := by
    cases act <;> rfl
  have ended : site.ended (.demand (.move (.turn id))) = [] := by
    simp only [Site.ended, answered, found, step, proceeds]
    rfl
  rw [step] at turn
  have goes := turn.goes (by rw [proceeds]; exact Signal.noConfusion)
  rw [same] at goes
  have deployed : (site.turn id).office.desk.deployment? = site.office.desk.deployment? := by
    rw [turn.desk]
    exact Desk.deployment?_congr deployments
  have stored : (site.turn id).engine.subscribed workflow =
      act.subscribe workflow (site.engine.subscribed workflow) := by
    rw [turn.engine]
    exact Stride.act_subscribed contest.serves site.office left contest.singular act
  rw [ended]
  refine ⟨?_, contest.counted.turn id, ?_, ?_, fun provider => ?_, fun entry among other => ?_,
    rfl, left, subscription, goes, rfl, grants, own, ?_⟩
  · rw [turn.engine]
    exact Stride.act_serves contest.serves site.office left act
  · rw [stored]
    exact Act.length_subscribe contest.singular workflow act
  · rw [stored, Desk.subscribed, deployed]
    exact contest.subscribed
  · rw [turn.board, board, Desk.handling, deployed]
    exact contest.registered provider
  · rcases turn.others entry among with ⟨rfl, _⟩ | ⟨old, different⟩
    · exact absurd rfl other
    · exact contest.others entry old fun same => different (Option.some.inj same).symm
  · rw [Desk.subscribed, deployed]
    exact there

/-- Whatever happens, as long as nothing is stopped or restored and the ledger serves. -/
theorem occur (contest : site.Contest workflow before returned winner left)
    {occurrence : Occurrence} (calm : occurrence.upsets = false) :
    ∃ winner' left', (site.occur occurrence).Contest workflow before
      (returned ++ granted workflow (site.ended occurrence)) winner' left' := by
  by_cases wins : ∃ id, winner = some id ∧ occurrence = .demand (.move (.turn id))
  · obtain ⟨id, rfl, rfl⟩ := wins
    cases left with
    | nil => exact ⟨_, _, contest.returns⟩
    | cons act rest => exact ⟨_, _, contest.announces⟩
  · have waits : ∀ id, winner = some id → occurrence ≠ .demand (.move (.turn id)) :=
      fun id is turns => wins ⟨id, is, turns⟩
    rw [contest.aloof.granted_ended waits, List.append_nil]
    cases contest.aloof.occur calm waits with
    | passes passes => exact ⟨_, _, contest.aside passes⟩
    | enters first turn counted own absent entered ledger board acts grants goes =>
      exact ⟨_, _, (contest.aside first).enters turn counted own absent entered ledger board acts
        grants goes⟩

theorem undergo (contest : site.Contest workflow before returned winner left)
    {history : List Occurrence} (calm : ∀ occurrence ∈ history, occurrence.upsets = false) :
    ∃ winner' left', (site.undergo history).Contest workflow before
      (returned ++ granted workflow (site.returned history)) winner' left' := by
  induction history generalizing site returned winner left with
  | nil => exact ⟨winner, left, (List.append_nil returned).symm ▸ contest⟩
  | cons occurrence rest ih =>
    obtain ⟨_, _, first⟩ := contest.occur (calm occurrence List.mem_cons_self)
    have all := ih first fun other member => calm other (List.mem_cons_of_mem _ member)
    rw [List.append_assoc, ← granted_append] at all
    exact all

end Contest

/-- A workflow is not deployed, no subscription of it is stored, and no errand has to do with its
deployment, but that it may be about to deploy it. -/
structure Vacant (site : Site) (workflow : String) : Prop where
  serves : site.engine.Serves
  counted : site.Counted
  undeployed : site.office.desk.deployment? workflow = none
  unstored : site.engine.subscribed workflow = []
  aloof : ∀ entry ∈ site.office.errands, entry.2.Aloof workflow

/-- Wherever an office has come to, the workflows are vacant that are neither deployed nor stored,
when nothing is under way. -/
theorem vacant_undergone (catalog : Catalog) (limit : Nat) (ledger : Option Ledger)
    (epoch : Instant) (policy : TimeoutPolicy) (history : List Occurrence) :
    let site := (opened catalog limit ledger epoch policy).undergo history
    site.engine.Serves → site.office.errands = [] →
      site.office.desk.deployment? workflow = none → site.engine.subscribed workflow = [] →
        site.Vacant workflow := by
  intro site serves idle undeployed unstored
  have counted := (Counted.opened catalog limit ledger epoch policy).undergo history
  refine ⟨serves, counted, undeployed, unstored, fun entry member => ?_⟩
  rw [idle] at member
  contradiction

theorem Vacant.contest (vacant : site.Vacant workflow) :
    site.Contest workflow (site.office.board.handling · workflow) [] none [] := by
  have nothing : site.office.desk.subscribed workflow = [] := by
    rw [Desk.subscribed, vacant.undeployed]
    rfl
  refine ⟨vacant.serves, vacant.counted, ?_, ?_, fun provider => ?_,
    fun entry member _ => vacant.aloof entry member, rfl, nothing.symm⟩
  · rw [vacant.unstored]
    exact Nat.zero_le 1
  · rw [nothing]
    exact vacant.unstored
  · rw [Desk.handling, vacant.undeployed]
    exact (List.append_nil _).symm

/-- What there is of a workflow, beside the handlers that there were before, once the calls to
deploy it have returned these subscriptions. -/
inductive Decided (site after : Site) (workflow : String) : List Subscription → Prop
  | nobody (undeployed : after.office.desk.deployment? workflow = none)
      (unstored : after.engine.subscribed workflow = [])
      (handlers : ∀ provider, after.office.board.handling provider workflow =
        site.office.board.handling provider workflow) : Decided site after workflow []
  | one (deployment : Deployment)
      (deployed : after.office.desk.deployment? workflow = some deployment)
      (stored : after.engine.subscribed workflow = [deployment.subscription])
      (handlers : ∀ provider, after.office.board.handling provider workflow =
        site.office.board.handling provider workflow ++
          if provider = deployment.subscription.provider then [deployment.handler] else []) :
      Decided site after workflow [deployment.subscription]

/-- When nobody is about to deploy the workflow, what is deployed is what has been returned. -/
theorem Contest.decided {after : Site} {returned : List Subscription} {winner : Option Nat}
    {left : List Act}
    (contest : after.Contest workflow (site.office.board.handling · workflow) returned winner left)
    (settled : ∀ entry ∈ after.office.errands, entry.2.decision.deploys? ≠ some workflow) :
    site.Decided after workflow returned := by
  have stands := contest.stands
  cases winner with
  | some id =>
    obtain ⟨_, errand, subscription, found, _, grants, own, _⟩ := stands
    refine absurd ?_ (settled _ (Table.mem_of_lookup found))
    rw [grants.2]
    exact congrArg some own
  | none =>
    obtain ⟨rfl, rfl⟩ := stands
    have stored : after.engine.subscribed workflow = after.office.desk.subscribed workflow :=
      contest.subscribed
    have handlers := contest.registered
    cases deployed : after.office.desk.deployment? workflow with
    | none =>
      have nothing : after.office.desk.subscribed workflow = [] := by
        rw [Desk.subscribed, deployed]
        rfl
      rw [nothing] at stored ⊢
      refine .nobody deployed stored fun provider => (handlers provider).trans ?_
      rw [Desk.handling, deployed]
      exact List.append_nil _
    | some deployment =>
      have there : after.office.desk.subscribed workflow = [deployment.subscription] := by
        rw [Desk.subscribed, deployed]
        rfl
      rw [there] at stored ⊢
      refine .one deployment deployed stored fun provider => (handlers provider).trans ?_
      rw [Desk.handling, deployed]
      by_cases same : provider = deployment.subscription.provider
      · simp [same, Option.filter]
      · simp [same, Ne.symm same, Option.filter]

/-- A call to deploy a workflow leaves no trace when it fails, for whatever reason, at whatever site
and whatever happens at the same time: none of its turns changes the definitions, the deployments,
the pending runs, the registered handlers or what is stored, and so nothing has changed at all if
nothing else has happened. And of all the calls to deploy one workflow that is not deployed, in
whatever order they and everything else take their turns, one at most returns a subscription, as
long as nothing is stopped or restored and the ledger serves. Once none of them is under way, the
workflow is deployed, registered and stored with the subscription that has been returned, or not at
all. -/
theorem deployed_whole_once_or_not_at_all :
    (∀ (site : Site) (id : Nat) (d : Definition) (url : String) (config : Fields Data)
      (isCancelled : Bool) (history : List Occurrence) (failure : Failure),
      site.office.errand? id = some { decision := .deploy d url config, isCancelled } →
      id < site.office.nextErrand → (id, .failed failure) ∈ site.returned history →
      (∀ before rest, history = before ++ .demand (.move (.turn id)) :: rest →
        (site.undergo before).Untouched ((site.undergo before).turn id)) ∧
      ((∀ occurrence ∈ history, occurrence = .demand (.move (.turn id)) ∨
        ∃ clock, occurrence = .demand (.move (.pass clock))) →
          site.Untouched (site.undergo history))) ∧
    ∀ (site : Site) (workflow : String) (history : List Occurrence), site.Vacant workflow →
      (∀ occurrence ∈ history, occurrence.upsets = false) →
      let after := site.undergo history
      let returned := granted workflow (site.returned history)
      returned.length ≤ 1 ∧
        ((∀ entry ∈ after.office.errands, entry.2.decision.deploys? ≠ some workflow) →
          site.Decided after workflow returned) := by
  refine ⟨fun site id d url config isCancelled history failure found used fails => ?_,
    fun site workflow history vacant calm => ?_⟩
  · have tries : Errand.Tries { decision := .deploy d url config, isCancelled } :=
      ⟨rfl, rfl, trivial⟩
    have untouched : ∀ before rest, history = before ++ .demand (.move (.turn id)) :: rest →
        (site.undergo before).Untouched ((site.undergo before).turn id) :=
      fun before rest => untouched_of_failed used found tries fails
    refine ⟨untouched, fun alone => untouched_undergo fun before occurrence rest split => ?_⟩
    have member : occurrence ∈ history := split ▸ List.mem_append_right _ List.mem_cons_self
    rcases alone occurrence member with rfl | ⟨clock, rfl⟩
    · exact untouched before rest split
    · exact ⟨rfl, rfl, rfl⟩
  · obtain ⟨winner, left, contest⟩ := vacant.contest.undergo calm
    rw [List.nil_append] at contest
    refine ⟨?_, contest.decided⟩
    have stands := contest.stands
    have few : ∀ found : Option Deployment,
        ((found.map Deployment.subscription).toList).length ≤ 1 := by
      intro found
      cases found <;> simp
    cases winner with
    | none =>
      rw [stands.2]
      exact few _
    | some id =>
      rw [stands.1]
      exact Nat.zero_le 1

/-- Two calls are made to deploy a workflow. -/
def calling : List Occurrence :=
  [.demand (.move (.order (.deploy watched "http://here" []))),
    .demand (.move (.order (.deploy watched "http://there" [])))]

/-- They get to their second look at the desk side by side, and the first one is faster then. -/
def sideBySide : List Occurrence :=
  [0, 1, 0, 1, 0, 1, 0, 1, 0, 0].map fun id => .demand (.move (.turn id))

/-- The second one leaves no trace, and the first one has deployed the workflow. -/
theorem deployed_whole_once_or_not_at_all_side_by_side :
    (1, .failed (.trigger (.alreadyDeployed "watched"))) ∈
        (watching.undergo calling).returned sideBySide ∧
      (((watching.undergo calling).undergo (sideBySide.take 5)).Untouched
        (((watching.undergo calling).undergo (sideBySide.take 5)).turn 1)) ∧
      ∃ deployment : Deployment,
        granted "watched" (watching.returned (calling ++ sideBySide)) =
          [deployment.subscription] ∧
        watching.Decided (watching.undergo (calling ++ sideBySide)) "watched"
          [deployment.subscription] := by
  obtain ⟨traceless, once⟩ := deployed_whole_once_or_not_at_all
  have fails : (1, .failed (.trigger (.alreadyDeployed "watched"))) ∈
      (watching.undergo calling).returned sideBySide := List.mem_of_getElem? (i := 0) rfl
  have untouched := (traceless (watching.undergo calling) 1 watched "http://there" [] false
    sideBySide _ rfl (by decide) fails).1 (sideBySide.take 5) (sideBySide.drop 6) rfl
  have vacant : watching.Vacant "watched" :=
    vacant_undergone [("watch", subscribing)] 10 (some {}) ⟨0, 0⟩ .drop [] ⟨_, rfl, rfl⟩ rfl rfl rfl
  have calm : ∀ occurrence ∈ calling ++ sideBySide, occurrence.upsets = false := by
    decide +kernel
  have settled : ∀ entry ∈ (watching.undergo (calling ++ sideBySide)).office.errands,
      entry.2.decision.deploys? ≠ some "watched" := by
    decide +kernel
  have single : (granted "watched" (watching.returned (calling ++ sideBySide))).length = 1 := by
    decide +kernel
  have decided := (once watching "watched" (calling ++ sideBySide) vacant calm).2 settled
  refine ⟨fails, untouched, ?_⟩
  generalize granted "watched" (watching.returned (calling ++ sideBySide)) = returned at *
  cases decided with
  | nobody => contradiction
  | one deployment deployed stored handlers =>
    exact ⟨deployment, rfl, .one deployment deployed stored handlers⟩

end Site

end DurableFlow
