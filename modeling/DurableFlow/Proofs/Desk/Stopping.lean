import DurableFlow.Proofs.Desk.CrashSafety
import DurableFlow.Proofs.Desk.Wiring

/-!
# What is left of a workflow whose deployment has been taken back

A stop takes the deployment of a workflow, its definition and its pending runs out of the office
at one moment. Calls that are in flight go on: a run of the workflow that is suspended after that
moment becomes pending, is stored, and makes the definition known again. This is all that can be
left when nothing is in flight any more, as long as the deployment had been announced before it
was taken back.
-/

namespace DurableFlow

/-- A run that is about to be pending is one of the workflow that becomes known with it. -/
theorem Errand.Stage.workflow_of_arm {engine : Engine} {errand : Errand} {paper : Option Suspended}
    (stage : errand.Stage engine paper) {d : Definition} {state : Suspended} {rest : List Act}
    (acts : errand.acts = .arm d state :: rest) : state.workflow = d.id := by
  have first : .arm d state ∈ errand.acts := acts ▸ List.mem_cons_self
  cases stage with
  | free plain | forgetting plain | releasing _ plain => cases plain _ first
  | saving d held same => simp [acts] at same
  | arming d held same own =>
    rw [acts, List.cons.injEq, Act.arm.injEq] at same
    rw [same.1.1, same.1.2, own]

namespace Site

variable {site : Site} {lives : String → Life} {told : String → List Passage} {workflow : String}
  {m : Move}

/-- A run that becomes pending is told of. -/
theorem entered_of_arm {id : Nat} {errand : Errand} {d : Definition} {state : Suspended}
    {rest : List Act} (found : site.office.errand? id = some errand)
    (acts : errand.acts = .arm d state :: rest) :
    ∃ alarm, .entered state alarm ∈ site.passages (.turn id) state.execution := by
  have does : site.deed (.turn id) = .pause state := by simp [deed, found, Errand.deed, acts]
  refine ⟨((site.move (.turn id)).pending? state.execution).bind Pending.alarm, ?_⟩
  rw [passages, Deed.tells, does]
  simp [Deed.passages]

/-- A workflow that becomes known has been deployed or made known, or one of its runs has become
pending. -/
theorem definition_source (kept : site.Kept lives) (filed : site.Filed told)
    (known : ((site.move m).office.desk.definition? workflow).isSome) :
    (site.office.desk.definition? workflow).isSome ∨
      ((site.move m).office.desk.deployment? workflow).isSome ∨ m.learns? = some workflow ∨
      ∃ execution state alarm, .entered state alarm ∈ site.passages m execution ∧
        state.workflow = workflow := by
  obtain ⟨_, same | ⟨d, rfl, learns⟩ | ⟨id, errand, d, state, rest, rfl, found, acts, learns⟩⟩ |
    ⟨id, errand, rfl, found, acts, desk, plugs⟩ := site.move_desk kept m
  · left
    rwa [Desk.definition?, same] at known
  · rw [learns, Desk.definition?, Desk.learn, Fields.get?_insert] at known
    split at known
    · rename_i own
      exact .inr (.inr (.inl (congrArg some own.symm)))
    · exact .inl known
  · by_cases own : workflow = d.id
    · right; right; right
      obtain ⟨_, stage, _⟩ := filed.errands _ (Table.mem_of_lookup found)
      obtain ⟨alarm, entered⟩ := entered_of_arm found acts
      exact ⟨state.execution, state, alarm, entered, own ▸ stage.workflow_of_arm acts⟩
    · left
      rw [Desk.definition?, learns, Desk.learnNew] at known
      split at known
      · exact known
      · rwa [Desk.learn, Fields.get?_insert, if_neg own] at known
  · rw [desk] at known ⊢
    cases plugs with
    | aside deployments definitions =>
      left
      rwa [Desk.definition?, definitions] at known
    | @enters deployment changed _ _ entered definitions =>
      by_cases same : workflow = changed
      · right; left
        rw [Desk.deployment?_of_insert entered, if_pos same]
        rfl
      · left
        rwa [definitions workflow same] at known
    | removes deployment there detaches =>
      left
      rw [Desk.definition?, detaches, Office.definitions_detach, Fields.get?_erase] at known
      split at known
      · contradiction
      · exact known

/-- A move that leaves the workflow without a deployment, and does not make it known. -/
def Leaves (site : Site) (workflow : String) (m : Move) : Prop :=
  (site.move m).office.desk.deployment? workflow = none ∧ m.learns? ≠ some workflow

instance (site : Site) (workflow : String) (m : Move) : Decidable (site.Leaves workflow m) :=
  inferInstanceAs (Decidable (_ ∧ _))

theorem deployment?_play (absent : site.office.desk.deployment? workflow = none)
    (schedule : List Move) (undeployed : site.Along (·.Leaves workflow) schedule) :
    (site.play schedule).office.desk.deployment? workflow = none := by
  induction schedule generalizing site with
  | nil => exact absent
  | cons m rest ih => exact ih undeployed.1.1 undeployed.2

/-- While it is not deployed, a workflow becomes known only with a run of its own that becomes
pending. -/
theorem entered_of_known (kept : site.Kept lives) (filed : site.Filed told)
    (unknown : site.office.desk.definition? workflow = none) (schedule : List Move)
    (undeployed : site.Along (·.Leaves workflow) schedule)
    (known : ((site.play schedule).office.desk.definition? workflow).isSome) :
    ∃ execution state alarm, .entered state alarm ∈ site.log execution schedule ∧
      state.workflow = workflow := by
  induction schedule generalizing site lives told with
  | nil => simp [unknown] at known
  | cons m rest ih =>
    obtain ⟨middle, accounts⟩ := kept.accounts_move m
    obtain ⟨⟨absent, unlearnt⟩, later⟩ := undeployed
    -- either this move makes the workflow known, or a later one does
    by_cases still : (site.move m).office.desk.definition? workflow = none
    · obtain ⟨execution, state, alarm, entered, own⟩ :=
        ih accounts.kept (filed.move kept m) still later known
      exact ⟨execution, state, alarm, List.mem_append_right _ entered, own⟩
    · rcases definition_source kept filed (Option.isSome_iff_ne_none.mpr still) with
        before | deployed | learnt | ⟨execution, state, alarm, entered, own⟩
      · simp [unknown] at before
      · simp [absent] at deployed
      · exact absurd learnt unlearnt
      · exact ⟨execution, state, alarm, List.mem_append_left _ entered, own⟩

/-- It is an errand that takes back a deployment, in one step and without a run in its charge. -/
theorem Removes.turns (removes : site.Removes workflow m) (kept : site.Kept lives) :
    ∃ id errand, m = .turn id ∧ site.office.errand? id = some errand ∧
      let stride := Stride.step site.engine site.office errand
      stride.office = site.office.detach workflow ∧ stride.errand.charges stride.engine = [] := by
  obtain ⟨there, gone⟩ := removes
  rw [Option.isSome_iff_ne_none] at there
  rcases site.move_desk kept m with ⟨same, _⟩ | ⟨id, errand, rfl, found, acts, desk, plugs⟩
  · rw [Desk.deployment?_congr same] at gone
    exact absurd gone there
  · refine ⟨id, errand, rfl, found, ?_⟩
    simp only [Stride.step, acts]
    rw [desk] at gone
    cases plugs with
    | aside deployments =>
      rw [Desk.deployment?_congr deployments] at gone
      exact absurd gone there
    | enters deployment _ _ entered =>
      rw [Desk.deployment?_of_insert entered] at gone
      split at gone
      · contradiction
      · exact absurd gone there
    | @removes deployment removed _ detaches removing free dropped calls =>
      have own : workflow = removed := by
        rw [detaches, Office.deployment?_detach] at gone
        split at gone
        · assumption
        · exact absurd gone there
      refine ⟨own ▸ detaches, ?_⟩
      simp [Errand.charges, removing, calls, Act.charge?, Decision.charge?]

/-- A deployment is taken back together with the definition and the pending runs of its
workflow. -/
theorem Removes.detaches (removes : site.Removes workflow m) (kept : site.Kept lives) :
    (site.move m).office.desk.definition? workflow = none ∧
      ∀ execution, (site.move m).pending? execution =
        (site.pending? execution).filter (·.state.workflow != workflow) := by
  obtain ⟨id, errand, rfl, found, detaches, _⟩ := removes.turns kept
  rw [move_turn found]
  constructor
  · rw [desk_land, detaches, Desk.definition?, Office.definitions_detach, Fields.get?_erase,
      if_pos rfl]
  · intro execution
    rw [Site.pending?, desk_land, detaches, kept.orderly.pending?_detach]
    rfl

/-- A run that is dropped with its deployment is over. -/
theorem Removes.isOver (removes : site.Removes workflow m) (kept : site.Kept lives)
    {execution : String} {pending : Pending} (found : site.pending? execution = some pending)
    (own : pending.state.workflow = workflow) : (site.move m).IsOver execution := by
  have waits : lives execution = .waiting pending.state pending.alarm :=
    (kept.pending _ _ _).mp found
  have absent : (site.move m).pending? execution = none := by
    rw [(removes.detaches kept).2, found]
    simp [own]
  obtain ⟨id, errand, rfl, asked, _, free⟩ := removes.turns kept
  obtain ⟨_, deals, _⟩ := kept.deal_turn asked
  have issued : site.engine.Issued execution := kept.issued execution (by simp [waits])
  refine ⟨?_, absent, fun entry member charge charged => ?_⟩
  · rw [move_turn asked]
    exact deals.extending.issued issued
  · rw [move_turn asked] at member charged
    rcases (kept.strides_turn asked).others entry member with rfl | ⟨before, _⟩
    · exact absurd (free ▸ charged) List.not_mem_nil
    · rintro rfl
      have held := ((kept.managed entry before).charges_extends deals.extending).subset charged
      have same := (kept.charged entry before charge held).symm.trans waits
      exact charge.life_ne_waiting _ _ same

/-- When the deployment of a workflow has been taken back and it is never deployed again, nothing
comes back of what there was: runs that were pending then stay out of the office, and nothing is
told of them. Once nothing is in flight any more, a run of the workflow that is pending had not
come to its end then, and became pending after it. The stored states of the workflow are those of
its pending runs, and it is known only if a run of its own has become pending. If no deployment
of it has been taken back while it was still being announced, there is neither a handler of the
workflow with any provider nor a stored subscription. -/
theorem stopped_but_for_runs (catalog : Catalog) (limit : Nat) (ledger : Ledger) (epoch : Instant)
    (policy : TimeoutPolicy) (works : ledger.failing = []) (empty : ledger.suspended = [])
    (workflow : String)
    (foreign : ∀ subscription ∈ ledger.subscriptions, subscription.workflow ≠ workflow)
    (before : List Move) (m : Move) (later : List Move) :
    let start := opened catalog limit (some ledger) epoch policy
    let site := start.play before
    let stopped := site.move m
    let after := stopped.play later
    site.Removes workflow m → stopped.Along (·.Leaves workflow) later → after.office.errands = [] →
      (∀ execution pending, site.pending? execution = some pending →
        pending.state.workflow = workflow →
        after.pending? execution = none ∧ stopped.log execution later = []) ∧
      (∀ execution state alarm, after.pending? execution = some ⟨state, alarm⟩ →
        state.workflow = workflow → ¬ stopped.IsOver execution ∧
          (stopped.log execution later).getLast? = some (.entered state alarm)) ∧
      (∀ state, state ∈ after.engine.rows ↔
        ∃ alarm, after.pending? state.execution = some ⟨state, alarm⟩) ∧
      ((after.office.desk.definition? workflow).isSome →
        ∃ execution state alarm, .entered state alarm ∈ stopped.log execution later ∧
          state.workflow = workflow) ∧
      (start.Along (fun site m => ¬ site.Overtakes workflow m) (before ++ m :: later) →
        (∀ provider, ∀ handler ∈ after.office.board.handlersOf provider,
          handler.workflow ≠ workflow) ∧
        ∀ subscription ∈ after.engine.subscriptions, subscription.workflow ≠ workflow) := by
  intro start site stopped after removes undeployed idle
  have none_yet : start.Kept fun _ => .away :=
    Kept.opened catalog limit (some ledger) epoch policy
  have begins : start.Filed fun _ => [] :=
    Filed.opened catalog limit ledger epoch policy works empty
  have nothing : start.Tidy fun _ => False := by
    intro execution row
    simp [start, opened, Engine.stored, Engine.rows, empty] at row
  have played : start.play (before ++ m :: later) = after := play_append start before _
  obtain ⟨lives, first⟩ := none_yet.accounts_play before
  obtain ⟨tidy, files⟩ := nothing.play none_yet begins before
  obtain ⟨lives', second⟩ := first.kept.accounts_move m
  obtain ⟨_, third⟩ := second.kept.accounts_play later
  have filed := files.move first.kept m
  obtain ⟨tidy', files'⟩ := (tidy.move first.kept files m).play second.kept filed later
  obtain ⟨unknown, detached⟩ := removes.detaches first.kept
  refine ⟨?_, ?_, ?_, ?_, ?_⟩
  · intro execution pending found own
    obtain ⟨still, untold⟩ := (removes.isOver first.kept found own).play second.kept later
    exact ⟨still.absent, untold⟩
  · intro execution state alarm found own
    constructor
    · intro ended
      have still := (ended.play second.kept later).1.absent
      rw [show after.pending? execution = none from still] at found
      contradiction
    · -- a run of the workflow that waits now was not waiting when the deployment was taken back
      have waits := (third.kept.pending execution state alarm).mp found
      have follows := third.follow execution
      rw [waits] at follows
      refine Life.getLast?_of_follow follows fun waited => ?_
      have there := (second.kept.pending execution state alarm).mpr waited
      rw [detached, Option.filter_eq_some_iff] at there
      simp [own] at there
  · intro state
    constructor
    · intro row
      have stored : state ∈ after.engine.stored state.execution := Engine.mem_stored.mpr ⟨row, rfl⟩
      rcases tidy' state.execution (List.ne_nil_of_mem stored) with
        never | waits | ⟨entry, member, _⟩
      · exact never.elim
      · obtain ⟨⟨held, alarm⟩, found⟩ := Option.isSome_iff_exists.mp waits
        rw [files'.pending _ held alarm found, List.mem_singleton] at stored
        exact ⟨alarm, stored ▸ found⟩
      · rw [show (stopped.play later).office.errands = [] from idle] at member
        contradiction
    · rintro ⟨alarm, found⟩
      have stored := files'.pending _ state alarm found
      exact (Engine.mem_stored.mp (stored ▸ List.mem_singleton_self state)).1
  · exact entered_of_known second.kept filed unknown later undeployed
  · intro inTime
    have wired := (Wired.opened catalog limit ledger epoch policy foreign).play none_yet begins
      (before ++ m :: later) inTime
    rw [show (opened catalog limit (some ledger) epoch policy).play _ = after from played] at wired
    have absent : after.office.desk.deployment? workflow = none :=
      deployment?_play removes.2 later undeployed
    constructor
    · intro provider handler among own
      rcases wired.registered provider handler among own with
        ⟨deployment, there, _⟩ | ⟨entry, member, _⟩
      · rw [absent] at there
        contradiction
      · rw [idle] at member
        contradiction
    · intro subscription among own
      rcases wired.subscribed subscription among own with there | ⟨entry, member, _⟩
      · rw [absent] at there
        contradiction
      · rw [idle] at member
        contradiction

/-- A trigger procedure that always subscribes. -/
def subscribing : Procedure where
  contract := { name := "watch" }
  reply _ _ _ := .output (.obj [("id", .str "sub-1")])

/-- A workflow with a trigger that waits once, if need be for ever. -/
def watched : Definition where
  id := "watched"
  name := "watched"
  start := "hold"
  nodes := [{ id := "hold", kind := .await ["go"] none none }]
  trigger := some { provider := "any", procedure := "watch" }

def watching : Site := opened [("watch", subscribing)] 10 (some {}) ⟨0, 0⟩ .drop

/-- The workflow is deployed, a run of it waits, another one has only begun, and the workflow is
to be stopped. -/
def deployed : List Move :=
  .order (.deploy watched "http://here" []) :: List.replicate 6 (.turn 0) ++
    .order (.run watched .null) :: List.replicate 17 (.turn 1) ++
    .order (.run watched .null) :: List.replicate 3 (.turn 2) ++ [.order (.stop "watched")]

/-- What is in flight comes to its end, first the stop and then the run. -/
def finishing : List Move := List.replicate 5 (.turn 3) ++ List.replicate 14 (.turn 2)

/-- The run that waits is dropped for good, and no handler and no subscription is left. -/
theorem stopped_but_for_runs_watched :
    ((watching.play deployed).pending? (Id.fresh 3)).isSome ∧
      let after := ((watching.play deployed).move (.turn 3)).play finishing
      after.pending? (Id.fresh 3) = none ∧
        (∀ provider, ∀ handler ∈ after.office.board.handlersOf provider,
          handler.workflow ≠ "watched") ∧
        ∀ subscription ∈ after.engine.subscriptions, subscription.workflow ≠ "watched" := by
  have removes : (watching.play deployed).Removes "watched" (.turn 3) := by decide +kernel
  have undeployed : ((watching.play deployed).move (.turn 3)).Along (·.Leaves "watched")
      finishing := by
    decide +kernel
  have idle : (((watching.play deployed).move (.turn 3)).play finishing).office.errands = [] :=
    List.isEmpty_iff.mp (by decide +kernel)
  have inTime : watching.Along (fun site m => ¬ site.Overtakes "watched" m)
      (deployed ++ .turn 3 :: finishing) := by
    decide +kernel
  have waits : ((watching.play deployed).pending? (Id.fresh 3)).isSome := by decide +kernel
  have own : (((watching.play deployed).pending? (Id.fresh 3)).map (·.state.workflow)) =
      some "watched" := by
    decide +kernel
  rw [watching] at removes undeployed idle inTime waits own ⊢
  obtain ⟨dropped, _, _, _, quiet⟩ := stopped_but_for_runs [("watch", subscribing)] 10 {} ⟨0, 0⟩
    .drop rfl rfl "watched" (by simp) deployed (.turn 3) finishing removes undeployed idle
  obtain ⟨pending, found⟩ := Option.isSome_iff_exists.mp waits
  rw [found] at own
  exact ⟨waits, (dropped _ pending found (Option.some.inj own)).1, quiet inTime⟩

/-- The run that had only begun when the workflow was stopped becomes pending after it. The
workflow is known again, and the run is stored. -/
theorem pending_after_stop :
    let site := watching.play deployed
    let after := (site.move (.turn 3)).play finishing
    site.Removes "watched" (.turn 3) ∧ (site.move (.turn 3)).Along (·.Leaves "watched") finishing ∧
      after.office.errands = [] ∧ (after.office.desk.definition? "watched").isSome ∧
      (after.pending? (Id.fresh 11)).map (·.state.workflow) = some "watched" ∧
      after.engine.rows.map (·.workflow) = ["watched"] :=
  ⟨by decide +kernel, by decide +kernel, List.isEmpty_iff.mp (by decide +kernel),
    by decide +kernel, by decide +kernel, by decide +kernel⟩

end Site

end DurableFlow
