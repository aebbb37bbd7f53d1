import DurableFlow.Proofs.Desk.Filing
import DurableFlow.Proofs.Desk.Restoring
import DurableFlow.Proofs.Desk.Wiring
import DurableFlow.Proofs.Desk.Outage

/-!
# The tables of a desk are keyed as they should be

A pending run is kept under its execution, a deployment under its workflow, a definition under its
own id, and the workflow of each of them is known. Nothing of this depends on which other errands
are under way: it holds while several errands restore, while the ledger fails, and when a run
becomes pending after its workflow has been stopped. The reason is that an errand makes a run
pending only together with the definition of its workflow (`Errand.Apt`).
-/

namespace DurableFlow

namespace Desk

variable {desk : Desk}

/-- Each pending run, deployment and definition is kept under its own key, and the workflows of the
former two are known. -/
structure Coherent (desk : Desk) : Prop where
  /-- No two pending runs stand by one execution, and no two deployments by one workflow. -/
  sorted : Fields.Sorted desk.pending ∧ Fields.Sorted desk.deployments
  pending : ∀ execution pending, desk.pending? execution = some pending →
    pending.state.execution = execution ∧ (desk.definition? pending.state.workflow).isSome
  deployments : ∀ workflow deployment, desk.deployment? workflow = some deployment →
    deployment.subscription.workflow = workflow ∧
      (desk.definition? deployment.subscription.workflow).isSome
  definitions : ∀ workflow d, desk.definition? workflow = some d → d.id = workflow

namespace Coherent

/-- More definitions do no harm, if they stand by their ids. -/
theorem learn (coherent : desk.Coherent) (d : Definition) : (desk.learn d).Coherent := by
  have known : ∀ other, (desk.learn d).definition? other =
      if other = d.id then some d else desk.definition? other :=
    fun other => Fields.get?_insert desk.definitions d.id other d
  have stays : ∀ other, (desk.definition? other).isSome →
      ((desk.learn d).definition? other).isSome := by
    intro other there
    rw [known]
    split
    · rfl
    · exact there
  refine ⟨coherent.sorted, fun execution pending found => ?_, fun workflow deployment found => ?_,
    fun workflow e found => ?_⟩
  · exact (coherent.pending execution pending found).imp_right (stays _)
  · exact (coherent.deployments workflow deployment found).imp_right (stays _)
  · rw [known] at found
    split at found
    · rename_i same
      cases found
      exact same.symm
    · exact coherent.definitions workflow e found

theorem learnNew (coherent : desk.Coherent) (d : Definition) : (desk.learnNew d).Coherent := by
  rw [Desk.learnNew]
  split
  · exact coherent
  · exact coherent.learn d

/-- A run of a known workflow becomes pending. -/
theorem hold (coherent : desk.Coherent) {state : Suspended} (alarm : Option Nat)
    (known : (desk.definition? state.workflow).isSome) : (desk.hold state alarm).Coherent where
  sorted := ⟨coherent.sorted.1.insert _ _, coherent.sorted.2⟩
  pending execution pending found := by
    rw [pending?_hold] at found
    split at found
    · rename_i same
      cases found
      exact ⟨same.symm, known⟩
    · exact coherent.pending execution pending found
  deployments := coherent.deployments
  definitions := coherent.definitions

/-- A run is taken out of the pending ones. -/
theorem take (coherent : desk.Coherent) (execution : String) : (desk.take execution).Coherent where
  sorted := ⟨coherent.sorted.1.erase execution, coherent.sorted.2⟩
  pending other pending found := by
    rw [pending?_take] at found
    split at found
    · contradiction
    · exact coherent.pending other pending found
  deployments := coherent.deployments
  definitions := coherent.definitions

/-- A known workflow is deployed. -/
theorem deploy (coherent : desk.Coherent) {deployment : Deployment} {workflow : String}
    (own : deployment.subscription.workflow = workflow)
    (known : (desk.definition? workflow).isSome) : (desk.deploy workflow deployment).Coherent where
  sorted := ⟨coherent.sorted.1, coherent.sorted.2.insert _ _⟩
  pending := coherent.pending
  deployments other found there := by
    have entered : (desk.deploy workflow deployment).deployment? other =
        if other = workflow then some deployment else desk.deployment? other :=
      deployment?_of_insert rfl other
    rw [entered] at there
    split at there
    · rename_i same
      cases there
      exact ⟨own.trans same.symm, own.symm ▸ known⟩
    · exact coherent.deployments other found there
  definitions := coherent.definitions

theorem mem_pendingOf (coherent : desk.Coherent) {workflow : String} {state : Suspended} :
    state ∈ desk.pendingOf workflow ↔ state.workflow = workflow ∧
      ∃ alarm, desk.pending? state.execution = some ⟨state, alarm⟩ := by
  constructor
  · intro member
    obtain ⟨execution, alarm, found⟩ := exists_of_mem_pendingOf coherent.sorted.1 member
    obtain rfl : state.execution = execution := (coherent.pending execution _ found).1
    exact ⟨by simpa using (List.mem_filter.mp member).2, alarm, found⟩
  · rintro ⟨own, alarm, found⟩
    exact List.mem_filter.mpr
      ⟨List.mem_map_of_mem (Fields.mem_values_of_get? found), by simpa using own⟩

/-- A workflow is forgotten together with its deployment and its pending runs. -/
theorem detach (coherent : desk.Coherent) (workflow : String) :
    (desk.detach workflow).Coherent := by
  have known : ∀ other, (desk.detach workflow).definition? other =
      if other = workflow then none else desk.definition? other :=
    Fields.get?_erase desk.definitions workflow
  have deployed : ∀ other, (desk.detach workflow).deployment? other =
      if other = workflow then none else desk.deployment? other :=
    Fields.get?_erase desk.deployments workflow
  have kept := coherent.sorted.1.filter fun entry => entry.2.state.workflow != workflow
  refine ⟨⟨kept, coherent.sorted.2.erase workflow⟩, fun execution pending found => ?_,
    fun other deployment found => ?_, fun other d found => ?_⟩
  · rw [pending?_detach coherent.sorted.1, Option.filter_eq_some_iff] at found
    obtain ⟨there, foreign⟩ := found
    obtain ⟨keyed, some⟩ := coherent.pending execution pending there
    exact ⟨keyed, by rwa [known, if_neg (by simpa using foreign)]⟩
  · rw [deployed] at found
    split at found
    · contradiction
    · rename_i foreign
      obtain ⟨own, some⟩ := coherent.deployments other deployment found
      exact ⟨own, by rwa [known, if_neg (own ▸ foreign)]⟩
  · rw [known] at found
    split at found
    · contradiction
    · exact coherent.definitions other d found

end Coherent

end Desk

namespace Office

variable {office : Office}

theorem coherent_release (coherent : office.desk.Coherent) (execution : String) :
    (office.release execution).desk.Coherent := by
  rw [release]
  split
  · exact coherent
  · exact coherent.take execution

theorem detach_desk (office : Office) (workflow : String) :
    (office.detach workflow).desk = office.desk.detach workflow := by
  simp only [detach, (foldl_silence _ office).1]

theorem coherent_arm (coherent : office.desk.Coherent) {state : Suspended}
    (known : (office.desk.definition? state.workflow).isSome) :
    (office.arm state).desk.Coherent := by
  rw [arm_desk]
  exact coherent.hold _ known

end Office

namespace Engine

theorem pending_write (engine : Engine) (change : Ledger → Except Failure Ledger) :
    (engine.write change).metrics.pending = engine.metrics.pending := by
  have same := congrArg Engine.metrics (bare_write engine change)
  exact congrArg Metrics.pending same

theorem pending_count (engine : Engine) (tally : Tally) :
    (engine.count tally).metrics.pending = engine.metrics.pending := by
  cases tally <;> rfl

/-- No step of a run has to do with how many runs are pending. -/
theorem pending_stepRun (engine : Engine) (id : Nat) (task : TaskId) :
    (engine.stepRun id task).1.metrics.pending = engine.metrics.pending := by
  have performed : ∀ (context : Context) (effects : List Effect) (engine : Engine),
      (effects.foldl (perform context) engine).metrics.pending = engine.metrics.pending := by
    intro context effects
    induction effects with
    | nil => exact fun _ => rfl
    | cons effect rest ih =>
      intro engine
      rw [List.foldl_cons, ih]
      cases effect with
      | count tally => exact pending_count engine tally
      | _ => rfl
  rw [stepRun]
  split
  · rfl
  · exact performed _ _ _

end Engine

/-- A run that an act makes pending is one of the workflow whose definition becomes known with it.
-/
def Act.IsOwn : Act → Prop
  | .arm d state => state.workflow = d.id
  | _ => True

/-- Where nothing becomes pending there is nothing to check. -/
theorem Act.isOwn_of_charges {acts : List Act} (free : acts.filterMap Act.charge? = []) :
    ∀ act ∈ acts, act.IsOwn := by
  intro act member
  have none := List.filterMap_eq_nil_iff.mp free act member
  cases act with
  | arm d state => contradiction
  | _ => trivial

/-- An errand makes runs pending together with the definitions of their workflows, its pass is one
of the workflow that it is for, it deploys a workflow with a subscription of its own only, and the
run that it drives has been numbered by the engine. -/
structure Errand.Apt (engine : Engine) (errand : Errand) : Prop where
  acts : ∀ act ∈ errand.acts, act.IsOwn
  fits : errand.decision.Fits engine
  own : errand.decision.IsOwn
  taken : ∀ run, errand.run? = some run → run < engine.nextRun

theorem Errand.Apt.keeps {engine after : Engine} {errand : Errand} (apt : errand.Apt engine)
    (keeps : engine.Keeps after) : errand.Apt after where
  acts := apt.acts
  fits := apt.fits.carry apt.taken keeps
  own := apt.own
  taken run drives := (apt.taken run drives).trans_le keeps.nextRun_le

/-- An errand that is about no pass. -/
theorem Errand.Apt.idle {engine : Engine} {errand : Errand}
    (acts : ∀ act ∈ errand.acts, act.IsOwn) (fits : errand.decision.Fits engine)
    (own : errand.decision.IsOwn) (idle : errand.run? = none) : errand.Apt engine :=
  ⟨acts, fits, own, fun run drives => absurd (idle ▸ drives) (Option.some_ne_none run).symm⟩

/-- An errand that goes on with acts by which nothing becomes pending. -/
theorem Errand.Apt.free {engine : Engine} {errand : Errand}
    (free : errand.acts.filterMap Act.charge? = []) (fits : errand.decision.Fits engine)
    (own : errand.decision.IsOwn) (idle : errand.run? = none) : errand.Apt engine :=
  .idle (Act.isOwn_of_charges free) fits own idle

namespace Stride

variable {engine : Engine} {office : Office} {errand : Errand} {stride : Stride}

/-- What holds after a step: the desk is coherent, the gauge shows how many runs are pending, and
the errand goes on to make runs pending with their definitions only. -/
structure Upholds (engine : Engine) (stride : Stride) : Prop where
  extending : engine.Extends stride.engine
  keeps : engine.Keeps stride.engine
  desk : stride.office.desk.Coherent
  shown : stride.engine.metrics.pending = stride.office.desk.pending.length
  apt : stride.errand.Apt stride.engine

theorem Upholds.trans {middle : Engine} (extending : engine.Extends middle)
    (keeps : engine.Keeps middle) (upholds : Upholds middle stride) : Upholds engine stride :=
  ⟨extending.trans upholds.extending, keeps.trans upholds.keeps, upholds.desk, upholds.shown,
    upholds.apt⟩

/-- What holds before a step, of the engine, the desk and the errand. -/
structure Held (engine : Engine) (office : Office) (errand : Errand) : Prop where
  numbered : engine.Numbered
  desk : office.desk.Coherent
  shown : engine.metrics.pending = office.desk.pending.length
  apt : errand.Apt engine

section Kinds

variable (held : Held engine office errand)
include held

/-- The desk stays as it is. -/
theorem Held.aside (extending : engine.Extends stride.engine) (keeps : engine.Keeps stride.engine)
    (shown : stride.engine.metrics.pending = engine.metrics.pending)
    (desk : stride.office.desk = office.desk) (apt : stride.errand.Apt stride.engine) :
    Upholds engine stride :=
  ⟨extending, keeps, desk ▸ held.desk, by rw [shown, held.shown, desk], apt⟩

/-- Nothing changes but the errand. -/
theorem Held.turns {next : Errand} {signal : Signal} {requests : List Request}
    (apt : next.Apt engine) : Upholds engine ⟨engine, office, next, signal, requests⟩ :=
  held.aside held.numbered.extends_refl (.refl engine) rfl rfl apt

/-- Runs become pending or cease to be, and this is shown at once. -/
theorem Held.shows {changed : Office} {next : Errand} {signal : Signal}
    {requests : List Request} (desk : changed.desk.Coherent) (apt : next.Apt engine) :
    Upholds engine ⟨showPending engine changed, changed, next, signal, requests⟩ := by
  have keeps : engine.Keeps (showPending engine changed) := showPending_keeps engine changed
  exact ⟨showPending_extends held.numbered changed, keeps, desk, rfl, apt.keeps keeps⟩

end Kinds

section Acts

theorem act_upholds (held : Held engine office errand) {first : Act} {rest : List Act}
    (acts : errand.acts = first :: rest) :
    Upholds engine (Stride.act engine office { errand with acts := rest } first) := by
  have left : ({ errand with acts := rest } : Errand).Apt engine :=
    { held.apt with
      acts := fun act member => held.apt.acts act (acts ▸ List.mem_cons_of_mem _ member) }
  have written : ∀ change, Upholds engine ⟨engine.write change, office,
      { errand with acts := rest }, .proceed, []⟩ := fun change =>
    held.aside (held.numbered.write change) (engine.keeps_write change)
      (engine.pending_write change) rfl (left.keeps (engine.keeps_write change))
  have told : ∀ after : Engine, after.runs = engine.runs → after.nextRun = engine.nextRun →
      after.epoch = engine.epoch → after.moments = engine.moments →
      after.metrics.pending = engine.metrics.pending →
      Upholds engine ⟨after, office, { errand with acts := rest }, .proceed, []⟩ := by
    intro after runs nextRun epoch moments shown
    have keeps := Engine.Keeps.of_runs runs nextRun epoch moments.ge
    exact held.aside (held.numbered.extends_of_runs runs nextRun moments.ge) keeps shown rfl
      (left.keeps keeps)
  cases first with
  | saveRun | settleRun | saveSuspended | deleteSuspended | saveSubscription
  | deleteSubscription => exact written _
  | publish notice => exact told _ rfl rfl rfl rfl rfl
  | count tally => exact told _ rfl rfl rfl rfl (engine.pending_count tally)
  | register provider handler =>
    exact held.aside held.numbered.extends_refl (.refl engine) rfl rfl left
  | unregister provider handler =>
    exact held.aside held.numbered.extends_refl (.refl engine) rfl rfl left
  | arm d state =>
    have own : Act.IsOwn (.arm d state) := held.apt.acts _ (acts ▸ List.mem_cons_self)
    let learned : Office := { office with desk := office.desk.learnNew d }
    have keeps : engine.Keeps (armed engine learned state).1 := by
      rw [armed]
      split
      · exact .refl engine
      · exact engine.keeps_tick
    have shown : engine.Keeps (showPending (armed engine learned state).1
        (armed engine learned state).2.1) := keeps.trans (showPending_keeps _ _)
    refine ⟨(armed_extends held.numbered learned state).trans
      (showPending_extends (armed_extends held.numbered learned state).numbered _), shown, ?_, rfl,
        left.keeps shown⟩
    show (armed engine learned state).2.1.desk.Coherent
    rw [armed_office]
    refine Office.coherent_arm (held.desk.learnNew d) ?_
    rw [own]
    exact office.desk.isSome_learnNew d

end Acts

section Decisions

theorem armedAll_coherent {states : List Suspended} {office : Office}
    (coherent : office.desk.Coherent)
    (known : ∀ state ∈ states, (office.desk.definition? state.workflow).isSome) :
    (states.foldl Office.arm office).desk.Coherent := by
  induction states generalizing office with
  | nil => exact coherent
  | cons state rest ih =>
    refine ih (Office.coherent_arm coherent (known state List.mem_cons_self)) fun other member => ?_
    rw [Office.arm_desk]
    exact known other (List.mem_cons_of_mem _ member)

theorem armedAll_extends {engine : Engine} (numbered : engine.Numbered) (office : Office)
    (states : List Suspended) : engine.Extends (armedAll engine office states).1 := by
  induction states generalizing engine office with
  | nil => exact numbered.extends_refl
  | cons state rest ih =>
    have first := armed_extends numbered office state
    exact first.trans (ih first.numbered _)

variable (held : Held engine office errand)
include held

/-- An errand that goes on to an answer. -/
theorem Held.answers (answer : Answer) {acts : List Act}
    (arms : ∀ act ∈ acts, act.IsOwn) :
    Upholds engine ⟨engine, office, errand.go acts (.answer answer), .proceed, []⟩ :=
  held.turns (.idle arms trivial trivial rfl)

/-- A pass is taken up that is one of the workflow that it is for. -/
theorem Held.enters {purpose : Purpose} {run : Run} {acts : List Act}
    (arms : ∀ act ∈ acts, act.IsOwn)
    (own : ∀ d, purpose.definition? = some d → run.context.workflow = d.id) :
    Upholds engine (enter engine office errand purpose run acts) := by
  have keeps := engine.keeps_adopt { run with isCancelled := errand.isCancelled }
  refine held.aside (held.numbered.adopt _) keeps rfl rfl ⟨arms, fun d named found there => ?_,
    trivial, fun id drives => ?_⟩
  · cases (Engine.run?_adopt held.numbered _).symm.trans there
    exact own d named
  · cases drives
    exact Nat.lt_succ_self _

theorem Held.tick : Held engine.tick office errand :=
  ⟨held.numbered.tick.numbered, held.desk, held.shown, held.apt.keeps engine.keeps_tick⟩

/-- A pass is over, and its run becomes pending together with the definition of its workflow. -/
theorem Held.keeps {own : Definition} {result : RunResult} (answer : Answer)
    (fits : ∀ state, result.suspended = some state → state.workflow = own.id) :
    Upholds engine
      ⟨engine, office, errand.go (keep own result) (.answer answer), .proceed, []⟩ := by
  refine held.answers answer ?_
  rw [keep]
  split
  · exact List.forall_mem_nil _
  · rename_i state suspended
    exact List.forall_mem_cons.mpr ⟨trivial, List.forall_mem_singleton.mpr (fits state suspended)⟩

theorem adoptSuspended_upholds (states : List Suspended) :
    Upholds engine (adoptSuspended engine office errand states) := by
  have keeps := (armedAll_keeps engine office (adoptable office.desk states)).1
  have extending := armedAll_extends held.numbered office (adoptable office.desk states)
  have coherent := armedAll_coherent held.desk
    fun state member => ((adoptable_spec office.desk states).1 state member).2.2
  rw [← armedAll_office engine] at coherent
  have shown := keeps.trans (showPending_keeps _
    (armedAll engine office (adoptable office.desk states)).2.1)
  refine ⟨extending.trans (showPending_extends extending.numbered _), shown, coherent, rfl, ?_⟩
  exact .free rfl trivial trivial rfl

/-- Every decision leaves the desk coherent. -/
theorem decide_upholds : Upholds engine (decide engine office errand) := by
  have fits := held.apt.fits
  have own := held.apt.own
  have drives := held.apt.taken
  rw [Errand.run?] at drives
  have decides := decide_decides engine office errand
  generalize decide engine office errand = stride at decides ⊢
  generalize errand.decision = decision at decides fits own drives
  cases decides with
  | ends | attends | awaitsStop | awaitsReply => exact held.turns held.apt
  | starts valid begins =>
    subst begins
    refine Upholds.trans held.numbered.tick engine.keeps_tick
      (held.tick.enters (Act.isOwn_of_charges rfl) fun own named => ?_)
    exact congrArg Definition.id (fits own named).symm
  | resumes accepted =>
    refine held.enters (Act.isOwn_of_charges rfl) fun own named => ?_
    exact (workflow_of_checkResume accepted).trans (congrArg Definition.id (fits own named).symm)
  | @drives purpose run =>
    have keeps := (engine.stepRun_keeps run .driver).1
    exact held.aside (held.numbered.stepRun run .driver) keeps (engine.pending_stepRun run .driver)
      rfl (held.apt.keeps keeps)
  | @drivesHome purpose run =>
    have keeps := (engine.stepRun_keeps run .driver).1
    have later : (errand.go [] (.conclude purpose run)).Apt engine :=
      ⟨List.forall_mem_nil _, fits, trivial, drives⟩
    exact held.aside (held.numbered.stepRun run .driver) keeps (engine.pending_stepRun run .driver)
      rfl (later.keeps keeps)
  | drivesOn => exact held.turns ⟨List.forall_mem_nil _, fits, trivial, drives⟩
  | @breaksDown purpose run =>
    exact held.aside (held.numbered.tick.trans (held.numbered.tick.numbered.close run))
      (engine.keeps_tick.trans (engine.tick.keeps_close run held.numbered.tick.numbered)) rfl rfl
      (.free rfl trivial trivial rfl)
  | @concludes purpose run process conclusion result happening found concluded told =>
    refine held.aside (held.numbered.tick.trans (held.numbered.tick.numbered.close run))
      (engine.keeps_tick.trans (engine.tick.keeps_close run held.numbered.tick.numbered)) rfl rfl
      (.free rfl (fun own named state suspended => ?_) trivial rfl)
    exact (captured_of_result told suspended).1.trans (fits own named process found)
  | keeps kept => exact held.keeps _ (fits _ kept)
  | claims =>
    refine held.shows (Office.coherent_release held.desk _) (.free rfl ?_ trivial rfl)
    rintro own ⟨⟩
    rfl
  | startsFor =>
    refine held.turns (.free rfl ?_ trivial rfl)
    rintro own ⟨⟩
    rfl
  | lapses | timesOut | cancels =>
    exact held.shows (Office.coherent_release held.desk _) (.free rfl trivial trivial rfl)
  | transitions =>
    refine held.shows (Office.coherent_release held.desk _) (.free rfl ?_ trivial rfl)
    rintro own ⟨⟩
    rfl
  | @stops workflow =>
    exact held.shows (Office.detach_desk office workflow ▸ held.desk.detach workflow)
      (.free rfl trivial trivial rfl)
  | forgets | stopped =>
    exact held.answers _ (forall_forgetWorkflow errand (fun _ _ => trivial) trivial)
  | callsStop =>
    exact held.aside (held.numbered.extends_of_runs rfl rfl (Nat.le_succ _))
      (.of_runs rfl rfl rfl (Nat.le_succ _)) rfl rfl (.free rfl trivial trivial rfl)
  | callsTrigger =>
    exact held.aside (held.numbered.extends_of_runs rfl rfl (Nat.le_add_right _ 2))
      (.of_runs rfl rfl rfl (Nat.le_add_right _ 2)) rfl rfl (.free rfl trivial trivial rfl)
  | subscribeRefused =>
    exact Upholds.trans held.numbered.tick engine.keeps_tick
      (held.tick.turns (.free rfl trivial trivial rfl))
  | subscribes _ made =>
    exact Upholds.trans held.numbered.tick engine.keeps_tick
      (held.tick.turns (.free rfl trivial (Subscription.workflow_of_ofOutput made) rfl))
  | @installs d subscription =>
    have known : ((office.desk.learn d).definition? d.id).isSome := by
      rw [Desk.definition?, Desk.learn, Fields.get?_insert_self]
      rfl
    exact ⟨held.numbered.extends_refl, .refl engine, (held.desk.learn d).deploy own known,
      held.shown, .free rfl trivial trivial rfl⟩
  | adopts unknown =>
    have known := (Bool.or_eq_false_iff.mp unknown).1
    rw [Option.isNone_eq_false_iff] at known
    exact ⟨held.numbered.extends_refl, .refl engine, held.desk.deploy rfl known, held.shown,
      .free rfl trivial trivial rfl⟩
  | adoptsSuspended => exact adoptSuspended_upholds held _
  | _ => exact held.turns (.free rfl trivial trivial rfl)

theorem step_upholds : Upholds engine (step engine office errand) := by
  rw [step]
  split
  · rename_i first rest acts
    exact act_upholds held acts
  · exact decide_upholds held

end Decisions

end Stride

namespace Site

/-- What happens at a site that may restore, and whose ledger may fail. -/
inductive Occurrence where
  | demand (demand : Demand)
  /-- The office is asked to restore. -/
  | restore
  /-- From now on these operations of the ledger fail, and no others. -/
  | outage (failing : List LedgerCall)

/-- The site after an occurrence. -/
def occur (site : Site) : Occurrence → Site
  | .demand demand => site.meet demand
  | .restore => site.takeOn { decision := .restore }
  | .outage failing => site.suffer failing

/-- The site after a history of occurrences, interleaved in any way. -/
def undergo (site : Site) (history : List Occurrence) : Site := history.foldl occur site

/-- The desk is coherent, the gauge shows how many runs are pending, and the errands make runs
pending with their definitions only. -/
structure Coherent (site : Site) : Prop where
  numbered : site.engine.Numbered
  desk : site.office.desk.Coherent
  shown : site.engine.metrics.pending = site.office.desk.pending.length
  errands : ∀ entry ∈ site.office.errands, entry.2.Apt site.engine

namespace Coherent

variable {site : Site} {id : Nat} {errand : Errand}

/-- The errands stay what they are. -/
theorem aside {after : Site} (coherent : site.Coherent)
    (extending : site.engine.Extends after.engine) (keeps : site.engine.Keeps after.engine)
    (shown : after.engine.metrics.pending = site.engine.metrics.pending)
    (desk : after.office.desk.Coherent)
    (pending : after.office.desk.pending = site.office.desk.pending)
    (errands : ∀ entry ∈ after.office.errands,
      entry ∈ site.office.errands ∨ entry.2.Apt site.engine) : after.Coherent where
  numbered := extending.numbered
  desk := desk
  shown := by rw [shown, coherent.shown, pending]
  errands entry member := (errands entry member).elim
    (fun before => (coherent.errands entry before).keeps keeps) fun apt => apt.keeps keeps

theorem takeOn (coherent : site.Coherent) (apt : errand.Apt site.engine) :
    (site.takeOn errand).Coherent := by
  refine coherent.aside coherent.numbered.extends_refl (.refl _) rfl coherent.desk rfl
    fun entry member => ?_
  rcases List.mem_append.mp member with old | new
  · exact .inl old
  · rw [List.mem_singleton.mp new]
    exact .inr apt

theorem silence (coherent : site.Coherent) (alarm : Option Nat) :
    Coherent ⟨site.engine, site.office.silence alarm⟩ := by
  refine coherent.aside coherent.numbered.extends_refl (.refl _) rfl ?_ ?_ ?_
  · rw [Office.silence_desk]
    exact coherent.desk
  · rw [Office.silence_desk]
  · rw [Office.silence_errands]
    exact fun _ => .inl

/-- An errand takes a step. -/
theorem turn (coherent : site.Coherent) (id : Nat) : (site.turn id).Coherent := by
  rw [Site.turn]
  split
  · exact coherent
  · rename_i errand found
    have apt := coherent.errands _ (Table.mem_of_lookup found)
    have held : Stride.Held site.engine site.office errand :=
      ⟨coherent.numbered, coherent.desk, coherent.shown, apt⟩
    have upholds := Stride.step_upholds held
    have same := (Stride.step_errands site.engine site.office errand).1
    generalize Stride.step site.engine site.office errand = stride at *
    have errands : ∀ entry ∈ (stride.office.setErrand id stride.errand).errands,
        entry.2.Apt stride.engine := by
      intro entry member
      rcases mem_setErrand member with rfl | ⟨old, _⟩
      · exact upholds.apt
      · rw [same] at old
        exact (coherent.errands entry old).keeps upholds.keeps
    have desk : (land stride id).office.desk = stride.office.desk := desk_land stride id
    refine ⟨upholds.extending.numbered, desk ▸ upholds.desk, desk ▸ upholds.shown,
      fun entry member => errands entry ?_⟩
    simp only [land] at member
    split at member
    · exact (List.mem_filter.mp member).1
    · exact member

theorem ring (coherent : site.Coherent) (id : Nat) : (site.ring id).Coherent := by
  rw [Site.ring]
  split
  · exact coherent
  · rename_i alarm _
    have silent := coherent.silence (some id)
    dsimp only
    split
    · have apt : Errand.Apt site.engine { decision := .expire alarm.execution } :=
        (.free rfl trivial trivial rfl)
      exact (silent.takeOn apt).turn _
    · exact silent

theorem cancelRun (coherent : site.Coherent) (id : Nat) : (site.cancelRun id).Coherent := by
  rw [Site.cancelRun]
  split
  · exact coherent
  · rename_i errand found
    have apt : Errand.Apt site.engine { errand with isCancelled := true } :=
      { coherent.errands _ (Table.mem_of_lookup found) with }
    have errands : ∀ entry ∈ (site.office.setErrand id
        { errand with isCancelled := true }).errands,
        entry ∈ site.office.errands ∨ entry.2.Apt site.engine := by
      intro entry member
      rcases mem_setErrand member with rfl | ⟨old, _⟩
      · exact .inr apt
      · exact .inl old
    dsimp only
    split
    · exact coherent.aside coherent.numbered.extends_refl (.refl _) rfl coherent.desk rfl errands
    · rename_i asked
      obtain ⟨r, _, looked⟩ := Option.bind_eq_some_iff.mp asked
      obtain ⟨run, there, same⟩ := Option.map_eq_some_iff.mp looked
      cases same
      exact coherent.aside (coherent.numbered.setRun there rfl) (Engine.keeps_setRun there rfl) rfl
        coherent.desk rfl errands

theorem move (coherent : site.Coherent) (m : Move) : (site.move m).Coherent := by
  cases m with
  | order order =>
    refine coherent.takeOn (.free rfl ?_ (by cases order <;> trivial) (by cases order <;> rfl))
    cases order with
    | run d input => exact fun own named => (Option.some.inj named).symm
    | _ => trivial
  | turn id => exact coherent.turn id
  | ring id => exact coherent.ring id
  | branch run id =>
    have extending := coherent.numbered.stepRun run (.branch id)
    have keeps := (site.engine.stepRun_keeps run (.branch id)).1
    have shown := site.engine.pending_stepRun run (.branch id)
    rw [Site.move]
    generalize (site.engine.stepRun run (.branch id)).1 = after at *
    exact coherent.aside extending keeps shown coherent.desk rfl fun _ => .inl
  | learn d =>
    exact coherent.aside coherent.numbered.extends_refl (.refl _) rfl (coherent.desk.learn d) rfl
      fun _ => .inl
  | pass clock =>
    exact coherent.aside (coherent.numbered.extends_of_runs rfl rfl (Nat.le_refl _))
      (.of_runs rfl rfl rfl (Nat.le_refl _)) rfl coherent.desk rfl fun _ => .inl

/-- Every occurrence leaves a site coherent. -/
theorem occur (coherent : site.Coherent) (occurrence : Occurrence) :
    (site.occur occurrence).Coherent := by
  cases occurrence with
  | demand demand =>
    cases demand with
    | move m => exact coherent.move m
    | execute d input execution => exact coherent.takeOn (.free rfl nofun trivial rfl)
    | resume d state node delta => exact coherent.takeOn (.free rfl nofun trivial rfl)
    | cancelRun id => exact coherent.cancelRun id
  | restore => exact coherent.takeOn (.free rfl trivial trivial rfl)
  | outage failing =>
    exact coherent.aside (coherent.numbered.extends_of_runs rfl rfl (Nat.le_refl _))
      (.of_runs rfl rfl rfl (Nat.le_refl _)) rfl coherent.desk rfl fun _ => .inl

theorem undergo (coherent : site.Coherent) (history : List Occurrence) :
    (site.undergo history).Coherent := by
  induction history generalizing site with
  | nil => exact coherent
  | cons occurrence rest ih => exact ih (coherent.occur occurrence)

theorem opened (catalog : Catalog) (limit : Nat) (ledger : Option Ledger) (epoch : Instant)
    (policy : TimeoutPolicy) : (Site.opened catalog limit ledger epoch policy).Coherent where
  numbered := ⟨List.nodup_nil, fun _ member => absurd member List.not_mem_nil⟩
  desk := ⟨⟨List.Pairwise.nil, List.Pairwise.nil⟩, nofun, nofun, nofun⟩
  shown := rfl
  errands _ member := absurd member List.not_mem_nil

/-- When the wait of a pending run is over and it is to go on at another node, its definition is
at hand. -/
theorem expires (coherent : site.Coherent) {execution node : String} {state : Suspended}
    {alarm : Option Nat} (found : site.pending? execution = some ⟨state, alarm⟩)
    (goes : state.deadlineNode = some node)
    (transition : site.office.desk.policy = .transition) :
    ∃ d, site.office.desk.definition? state.workflow = some d ∧ d.id = state.workflow ∧
      ∀ errand, (Stride.expire site.engine site.office errand execution).errand.decision =
        .resume (.expired d state) d state (some node) [] := by
  obtain ⟨_, known⟩ := coherent.desk.pending execution _ found
  obtain ⟨d, there⟩ := Option.isSome_iff_exists.mp known
  refine ⟨d, there, coherent.desk.definitions _ d there, fun errand => ?_⟩
  have policy : (site.office.release execution).desk.policy = .transition := by
    rw [Stride.policy_release]
    exact transition
  have definition : (site.office.release execution).desk.definition? state.workflow = some d := by
    rw [Desk.definition?, Office.definitions_release]
    exact there
  have pending : site.office.desk.pending? execution = some ⟨state, alarm⟩ := found
  simp only [Stride.expire, pending, policy, goes, definition]
  rfl

end Coherent

/-- Whatever is asked of an office, restoring included, in whatever order the steps of all errands
follow one another, and whichever operations of the ledger fail: after each step every pending run
stands by its own execution, every deployment by the workflow of its subscription, and their
workflows are known; and the metrics show how many runs are pending. So under the policy of
transitions, the definition of a run whose wait is over is always found, and the run goes on at
the node that was named for this. -/
theorem desk_stays_coherent (catalog : Catalog) (limit : Nat) (ledger : Option Ledger)
    (epoch : Instant) (policy : TimeoutPolicy) (history : List Occurrence) :
    let site := (opened catalog limit ledger epoch policy).undergo history
    site.office.desk.Coherent ∧
      site.engine.metrics.pending = site.office.desk.pending.length ∧
      (site.office.desk.policy = .transition → ∀ execution state alarm node,
        site.pending? execution = some ⟨state, alarm⟩ → state.deadlineNode = some node →
          ∃ d, site.office.desk.definition? state.workflow = some d ∧ d.id = state.workflow ∧
            ∀ errand, (Stride.expire site.engine site.office errand execution).errand.decision =
              .resume (.expired d state) d state (some node) []) := by
  have coherent := (Coherent.opened catalog limit ledger epoch policy).undergo history
  exact ⟨coherent.desk, coherent.shown, fun transition execution state alarm node found goes =>
    coherent.expires found goes transition⟩

/-- A workflow that waits for a while, and goes on elsewhere when nothing comes. -/
def lapsing : Definition where
  id := "lapsing"
  name := "lapsing"
  start := "hold"
  nodes := [
    { id := "hold", kind := .await ["go"] none (some ⟨1000, some "late"⟩) },
    { id := "late", kind := .await ["go"] none none }]

/-- A run of it waits, while the office restores and every write to the ledger has failed. -/
def lapse : List Occurrence :=
  .outage LedgerCall.all :: .demand (.move (.order (.run lapsing .null))) ::
    List.replicate 20 (.demand (.move (.turn 0))) ++
    [.restore, .demand (.move (.turn 1))]

theorem desk_stays_coherent_lapsing :
    let site := (opened [] 10 (some {}) ⟨0, 0⟩ .transition).undergo lapse
    ∃ state alarm, site.office.desk.policy = .transition ∧
      site.pending? (Id.fresh 0) = some ⟨state, alarm⟩ ∧ state.deadlineNode = some "late" ∧
        ∃ d, site.office.desk.definition? state.workflow = some d ∧
          ∀ errand,
            (Stride.expire site.engine site.office errand (Id.fresh 0)).errand.decision =
              .resume (.expired d state) d state (some "late") [] := by
  have expires := (desk_stays_coherent [] 10 (some {}) ⟨0, 0⟩ .transition lapse).2.2 rfl
  obtain ⟨d, found, _, goes⟩ := expires (Id.fresh 0) _ (some 0) "late" rfl rfl
  exact ⟨_, some 0, rfl, rfl, rfl, d, found, goes⟩

end Site

end DurableFlow
