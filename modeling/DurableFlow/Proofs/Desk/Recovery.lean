import DurableFlow.Proofs.Desk.CrashSafety
import DurableFlow.Proofs.Desk.Deploying
import DurableFlow.Proofs.Desk.Turns
import Mathlib.Data.List.Perm.Subperm

/-!
# Restoring is exact, and restoring twice is restoring once

An errand that restores goes over two lists, the stored subscriptions and the stored runs, and
each row that it takes over changes what it looks at for the next one. `Adopts` says what such a
loop takes over without following it: for each key the first row that fits, where fitting is
judged by the office as it was found. After that no row fits any more, so that the next errand
that restores takes over nothing.
-/

namespace DurableFlow

/-- The rows that are taken over: for each key the first row that fits, and no others. -/
structure Adopts {α : Type} (key : α → String) (fits : α → Bool) (rows adopted : List α) :
    Prop where
  sublist : adopted.Sublist rows
  apart : adopted.Pairwise fun a b => key a ≠ key b
  first : ∀ k, adopted.find? (key · == k) = rows.find? fun row => key row == k && fits row

namespace Adopts

variable {α : Type} {key : α → String} {fits later : α → Bool} {row : α} {rows adopted : List α}

theorem nil : Adopts key fits [] [] :=
  ⟨List.Sublist.refl _, List.Pairwise.nil, fun _ => rfl⟩

/-- Of rows with different keys each one is the first with its key. -/
theorem find?_of_mem (apart : rows.Pairwise fun a b => key a ≠ key b) (member : row ∈ rows) :
    rows.find? (key · == key row) = some row := by
  induction apart with
  | nil => contradiction
  | cons different _ ih =>
    rw [List.find?_cons]
    rcases List.mem_cons.mp member with rfl | further
    · rw [beq_self_eq_true]
    · rw [beq_eq_false_iff_ne.mpr (different row further)]
      exact ih further

theorem fits_of_mem (adopts : Adopts key fits rows adopted) (member : row ∈ adopted) :
    fits row = true := by
  have found := find?_of_mem adopts.apart member
  rw [adopts.first] at found
  have both := List.find?_some found
  exact (Bool.and_eq_true_iff.mp both).2

/-- A row that fits has one with its key taken over. -/
theorem isSome_find? (adopts : Adopts key fits rows adopted) (member : row ∈ rows)
    (fit : fits row = true) : (adopted.find? (key · == key row)).isSome := by
  rw [adopts.first, List.find?_isSome]
  exact ⟨row, member, by rw [beq_self_eq_true, fit, Bool.and_self]⟩

/-- When no row fits, nothing is taken over. -/
theorem eq_nil (adopts : Adopts key fits rows adopted) (unfit : ∀ row ∈ rows, fits row = false) :
    adopted = [] := by
  refine List.eq_nil_iff_forall_not_mem.mpr fun row member => ?_
  have fit := adopts.fits_of_mem member
  rw [unfit row (adopts.sublist.subset member)] at fit
  contradiction

/-- Of rows with different keys just those that fit are taken over. -/
theorem eq_filter (adopts : Adopts key fits rows adopted)
    (apart : rows.Pairwise fun a b => key a ≠ key b) : adopted = rows.filter fits := by
  have within : adopted.Sublist (rows.filter fits) := by
    have kept := adopts.sublist.filter fits
    rwa [List.filter_eq_self.mpr fun row member => adopts.fits_of_mem member] at kept
  have single : (rows.filter fits).Nodup :=
    (apart.imp fun different same => different (congrArg key same)).filter fits
  have all : rows.filter fits ⊆ adopted := by
    intro row member
    obtain ⟨there, fit⟩ := List.mem_filter.mp member
    have found : (rows.filter fits).find? (key · == key row) = some row :=
      find?_of_mem (apart.filter fits) member
    rw [List.find?_filter] at found
    have same : adopted.find? (key · == key row) = some row := by
      rw [adopts.first, ← found]
      congr 1
      funext other
      rw [Bool.and_comm, Bool.decide_and, Bool.decide_coe, Bool.decide_coe]
    exact List.mem_of_find?_eq_some same
  exact within.eq_of_length_le (List.subperm_of_subset single all).length_le

/-- A row that does not fit is passed over. -/
theorem skip (unfit : fits row = false) (adopts : Adopts key fits rows adopted) :
    Adopts key fits (row :: rows) adopted := by
  refine ⟨adopts.sublist.cons row, adopts.apart, fun k => ?_⟩
  rw [adopts.first, List.find?_cons, unfit, Bool.and_false]

/-- A row that fits is taken over, and no row with its key fits after that. -/
theorem take (fit : fits row = true)
    (after : ∀ other, later other = (fits other && key other != key row))
    (adopts : Adopts key later rows adopted) :
    Adopts key fits (row :: rows) (row :: adopted) := by
  refine ⟨adopts.sublist.cons_cons row, List.pairwise_cons.mpr ⟨fun other member => ?_,
    adopts.apart⟩, fun k => ?_⟩
  · have further := adopts.fits_of_mem member
    rw [after, Bool.and_eq_true, bne_iff_ne] at further
    exact further.2.symm
  · rw [List.find?_cons, List.find?_cons, fit, Bool.and_true]
    cases same : key row == k with
    | true => rfl
    | false =>
      dsimp only
      rw [adopts.first]
      congr 1
      funext other
      rw [after]
      by_cases own : key other = k
      · have different : key other ≠ key row := fun equal =>
          beq_eq_false_iff_ne.mp same (equal.symm.trans own)
        rw [bne_iff_ne.mpr different, Bool.and_true]
      · rw [beq_eq_false_iff_ne.mpr own, Bool.false_and, Bool.false_and]

end Adopts

namespace Desk

/-- A subscription that may be taken over: its workflow is known and not deployed. -/
def welcomes (desk : Desk) (subscription : Subscription) : Bool :=
  (desk.definition? subscription.workflow).isSome && !desk.isDeployed subscription.workflow

/-- A suspended run that may be taken over: its workflow is known and it is not pending. -/
def awaits (desk : Desk) (state : Suspended) : Bool :=
  (desk.definition? state.workflow).isSome && (desk.pending? state.execution).isNone

theorem unwelcome_iff (desk : Desk) (subscription : Subscription) :
    ((desk.definition? subscription.workflow).isNone ||
      desk.isDeployed subscription.workflow) = !desk.welcomes subscription := by
  rw [welcomes, Bool.not_and, Option.not_isSome, Bool.not_not]

theorem isDeployed_eq (desk : Desk) (workflow : String) :
    desk.isDeployed workflow = (desk.deployment? workflow).isSome := rfl

end Desk

namespace Stride

/-- The runs that are taken over are for each execution the first that may be. -/
theorem adoptable_adopts (desk : Desk) (states : List Suspended) :
    Adopts Suspended.execution desk.awaits states (adoptable desk states) := by
  induction states generalizing desk with
  | nil => exact .nil
  | cons state rest ih =>
    rw [adoptable]
    cases fits : desk.awaits state with
    | false =>
      rw [if_neg (by rw [Bool.and_comm]; exact Bool.eq_false_iff.mp fits)]
      exact (ih desk).skip fits
    | true =>
      rw [if_pos (by rw [Bool.and_comm]; exact fits)]
      refine (ih (desk.hold state none)).take fits fun other => ?_
      have known : (desk.hold state none).definition? = desk.definition? := rfl
      simp only [Desk.awaits, known, Desk.pending?_hold]
      by_cases same : other.execution = state.execution <;> simp [same]

end Stride

namespace Office

variable {office : Office}

/-- Deploy the workflow of a stored subscription, with a new handler. -/
def deployStored (office : Office) (subscription : Subscription) : Office :=
  { office with
    desk := office.desk.deploy subscription.workflow
      ⟨subscription, ⟨office.nextHandler, subscription.workflow⟩⟩
    board := office.board.register subscription.provider
      ⟨office.nextHandler, subscription.workflow⟩
    nextHandler := office.nextHandler + 1 }

/-- Take over a stored subscription if it may be. -/
def adopt (office : Office) (subscription : Subscription) : Office :=
  if office.desk.welcomes subscription then office.deployStored subscription else office

theorem foldl_adopt_of_unwelcome {office : Office} {subscriptions : List Subscription}
    (unwelcome : ∀ subscription ∈ subscriptions, office.desk.welcomes subscription = false) :
    subscriptions.foldl adopt office = office := by
  induction subscriptions with
  | nil => rfl
  | cons subscription rest ih =>
    have first : office.adopt subscription = office :=
      if_neg (Bool.eq_false_iff.mp (unwelcome subscription List.mem_cons_self))
    rw [List.foldl_cons, first, ih fun other member => unwelcome other
      (List.mem_cons_of_mem _ member)]

/-- The office once stored subscriptions have been taken over: these are deployed, each with a
handler of its own, and nothing else has changed. -/
structure Deploys (office after : Office) (subscriptions : List Subscription)
    (deployed : List Deployment) : Prop where
  adopts : Adopts Subscription.workflow office.desk.welcomes subscriptions
    (deployed.map Deployment.subscription)
  own : ∀ (i : Nat) (deployment : Deployment), deployed[i]? = some deployment →
    deployment.handler = ⟨office.nextHandler + i, deployment.subscription.workflow⟩
  deployment? : ∀ workflow, after.desk.deployment? workflow =
    (office.desk.deployment? workflow).or
      (deployed.find? (·.subscription.workflow == workflow))
  handlersOf : ∀ provider, after.board.handlersOf provider = office.board.handlersOf provider ++
    (deployed.filter (·.subscription.provider == provider)).map Deployment.handler
  rest : after =
    { office with
      desk := { office.desk with deployments := after.desk.deployments }
      board := after.board
      nextHandler := after.nextHandler }

theorem exists_deploys (office : Office) (subscriptions : List Subscription) :
    ∃ deployed, office.Deploys (subscriptions.foldl adopt office) subscriptions deployed := by
  induction subscriptions generalizing office with
  | nil => exact ⟨[], .nil, by simp, by simp, by simp, rfl⟩
  | cons subscription rest ih =>
    cases welcome : office.desk.welcomes subscription with
    | false =>
      obtain ⟨deployed, deploys⟩ := ih office
      rw [List.foldl_cons, adopt, if_neg (Bool.eq_false_iff.mp welcome)]
      exact ⟨deployed, { deploys with adopts := deploys.adopts.skip welcome }⟩
    | true =>
      let handler : Handler := ⟨office.nextHandler, subscription.workflow⟩
      obtain ⟨deployed, deploys⟩ := ih (office.adopt subscription)
      have entered : office.adopt subscription = office.deployStored subscription := if_pos welcome
      have undeployed : office.desk.deployment? subscription.workflow = none := by
        rw [Desk.welcomes, Bool.and_eq_true, Bool.not_eq_true', Desk.isDeployed_eq] at welcome
        simpa using welcome.2
      have deployments (workflow : String) : (office.adopt subscription).desk.deployment? workflow =
          if workflow = subscription.workflow then some ⟨subscription, handler⟩
          else office.desk.deployment? workflow := by
        rw [entered]
        exact Desk.deployment?_of_insert rfl workflow
      rw [List.foldl_cons]
      refine ⟨⟨subscription, handler⟩ :: deployed, deploys.adopts.take welcome fun other => ?_,
        ?_, ?_, ?_, ?_⟩
      · have known : (office.adopt subscription).desk.definition? = office.desk.definition? := by
          rw [entered]
          rfl
        simp only [Desk.welcomes, Desk.isDeployed_eq, known, deployments]
        by_cases same : other.workflow = subscription.workflow <;> simp [same]
      · intro i deployment found
        cases i with
        | zero =>
          cases found
          rfl
        | succ i =>
          rw [deploys.own i deployment found, entered, deployStored, Nat.add_right_comm,
            Nat.add_assoc]
      · intro workflow
        rw [deploys.deployment?, deployments, List.find?_cons]
        by_cases same : workflow = subscription.workflow
        · rw [if_pos same, same, undeployed, beq_self_eq_true]
          rfl
        · rw [if_neg same, beq_eq_false_iff_ne.mpr (Ne.symm same)]
      · intro provider
        rw [deploys.handlersOf, entered, deployStored, Switchboard.handlersOf_register,
          List.filter_cons]
        by_cases same : provider = subscription.provider
        · rw [if_pos same, if_pos (beq_iff_eq.mpr same.symm), same, List.map_cons,
            List.append_assoc]
          rfl
        · rw [if_neg same, if_neg fun equal => same (beq_iff_eq.mp equal).symm]
      · rw [deploys.rest, entered]
        rfl

/-- The office once runs have become pending that were not. -/
structure Holds (office after : Office) (held : List Suspended) : Prop where
  kept : ∀ execution, (∀ state ∈ held, state.execution ≠ execution) →
    after.desk.pending? execution = office.desk.pending? execution
  /-- A run that has a deadline has an alarm. -/
  held : ∀ state ∈ held, ∃ alarm : Option Nat,
    after.desk.pending? state.execution = some ⟨state, alarm⟩ ∧
      alarm.isSome = state.deadline.isSome ∧
      ∀ id, alarm = some id → ⟨id, state.execution⟩ ∈ after.alarms
  alarms : office.alarms <+: after.alarms
  rest : after =
    { office with
      desk := { office.desk with pending := after.desk.pending }
      alarms := after.alarms
      nextAlarm := after.nextAlarm }

theorem arm_of_absent {state : Suspended}
    (absent : office.desk.pending? state.execution = none) :
    office.arm state =
      { office with
        desk := office.desk.hold state (office.nextAlarm? state)
        alarms := office.alarms ++ (office.nextAlarm? state).toList.map (⟨·, state.execution⟩)
        nextAlarm := office.nextAlarm + (office.nextAlarm? state).toList.length } := by
  rw [arm, absent]
  cases deadline : state.deadline <;> simp [nextAlarm?, deadline, silence]

theorem errands_foldl_arm (states : List Suspended) (office : Office) :
    (states.foldl arm office).errands = office.errands := by
  induction states generalizing office with
  | nil => rfl
  | cons state rest ih => rw [List.foldl_cons, ih, arm_errands]

theorem holds_foldl_arm {states : List Suspended}
    (absent : ∀ state ∈ states, office.desk.pending? state.execution = none)
    (apart : states.Pairwise fun a b => a.execution ≠ b.execution) :
    office.Holds (states.foldl arm office) states := by
  induction states generalizing office with
  | nil => exact ⟨fun _ _ => rfl, List.forall_mem_nil _, List.prefix_refl _, rfl⟩
  | cons state rest ih =>
    obtain ⟨different, apart⟩ := List.pairwise_cons.mp apart
    have first := arm_of_absent (absent state List.mem_cons_self)
    have still : ∀ other ∈ rest, (office.arm state).desk.pending? other.execution = none := by
      intro other member
      rw [pending?_arm, if_neg (different other member).symm]
      exact absent other (List.mem_cons_of_mem _ member)
    have later := ih still apart
    have grows : office.alarms <+: (office.arm state).alarms := by
      rw [first]
      exact List.prefix_append _ _
    rw [List.foldl_cons]
    refine ⟨fun execution elsewhere => ?_, fun other member => ?_, grows.trans later.alarms, ?_⟩
    · rw [later.kept _ fun other member => elsewhere other (List.mem_cons_of_mem _ member),
        pending?_arm, if_neg (elsewhere state List.mem_cons_self).symm]
    · rcases List.mem_cons.mp member with rfl | further
      · refine ⟨office.nextAlarm? other, ?_, by simp [nextAlarm?], fun id set => ?_⟩
        · rw [later.kept _ fun another among => (different another among).symm, pending?_arm,
            if_pos rfl]
        · refine later.alarms.subset ?_
          rw [first, set]
          simp
      · exact later.held other further
    · rw [later.rest, first]
      rfl

end Office

/-- Setting alarms takes moments, and that is all it does to the engine. -/
theorem Stride.armedAll_engine (engine : Engine) (office : Office) (states : List Suspended) :
    (armedAll engine office states).1 =
      { engine with moments := (armedAll engine office states).1.moments } := by
  induction states generalizing engine office with
  | nil => rfl
  | cons state rest ih =>
    have first : (armed engine office state).1 =
        { engine with moments := (armed engine office state).1.moments } := by
      rw [armed]
      split <;> rfl
    have later := ih (armed engine office state).1 (armed engine office state).2.1
    rw [armedAll]
    dsimp only
    rw [later, first]

namespace Site

variable {site after : Site} {engine : Engine} {office : Office} {id : Nat} {isCancelled : Bool}
  {subscriptions : List Subscription} {states : List Suspended}

/-- The next stored subscription is passed over, or its workflow is deployed and its handler
registered. -/
theorem turned_adopt (engine : Engine) (there : (office.errand? id).isSome) (isCancelled : Bool)
    (subscription : Subscription) (rest : List Subscription) :
    ∃ turns, turned ⟨engine, office.setErrand id
        { decision := .adoptSubscriptions (subscription :: rest), isCancelled }⟩ id turns =
      ⟨engine, (office.adopt subscription).setErrand id
        { decision := .adoptSubscriptions rest, isCancelled }⟩ := by
  have decides : Stride.step engine office
      { decision := .adoptSubscriptions (subscription :: rest), isCancelled } =
        if (!office.desk.welcomes subscription) = true then
          ⟨engine, office, { decision := .adoptSubscriptions rest, isCancelled }, .proceed, []⟩
        else
          ⟨engine,
            { office with
              desk := office.desk.deploy subscription.workflow
                ⟨subscription, ⟨office.nextHandler, subscription.workflow⟩⟩
              nextHandler := office.nextHandler + 1 },
            { acts := [.register subscription.provider
                ⟨office.nextHandler, subscription.workflow⟩]
              decision := .adoptSubscriptions rest, isCancelled }, .proceed, []⟩ := by
    rw [← Desk.unwelcome_iff]
    rfl
  rw [Office.adopt]
  cases welcome : office.desk.welcomes subscription with
  | false =>
    rw [welcome] at decides
    exact ⟨1, move_set there decides⟩
  | true =>
    rw [welcome] at decides
    have deployed := move_set there decides
    refine ⟨2, ?_⟩
    rw [turned, List.replicate_succ, play_cons, deployed]
    exact move_set there rfl

/-- The stored subscriptions are taken over one after another. -/
theorem turned_adoptSubscriptions (engine : Engine) (there : (office.errand? id).isSome)
    (isCancelled : Bool) (subscriptions : List Subscription) :
    ∃ turns, turned ⟨engine, office.setErrand id
        { decision := .adoptSubscriptions subscriptions, isCancelled }⟩ id turns =
      ⟨engine, (subscriptions.foldl Office.adopt office).setErrand id
        { decision := .recallSuspended, isCancelled }⟩ := by
  induction subscriptions generalizing office with
  | nil => exact ⟨1, move_set there rfl⟩
  | cons subscription rest ih =>
    obtain ⟨first, adopted⟩ := turned_adopt engine there isCancelled subscription rest
    have there' : ((office.adopt subscription).errand? id).isSome := by
      refine Office.isSome_errand?_of_errands there ?_
      rw [Office.adopt]
      split <;> rfl
    obtain ⟨further, ends⟩ := ih there'
    refine ⟨first + further, ?_⟩
    rw [turned_add, adopted]
    exact ends

/-- An errand that restores looks up what is stored, takes over what may be, and counts the
runs among it. -/
theorem turned_restore {ledger : Ledger}
    (asked : site.office.errand? id = some { decision := .restore, isCancelled })
    (stored : site.engine.ledger = some ledger)
    (listed : ledger.listSubscriptions = .ok subscriptions)
    (recalled : ledger.listSuspended = .ok states) {deployed : Office} {held : List Suspended}
    (deploys : deployed = subscriptions.foldl Office.adopt site.office)
    (holds : held = Stride.adoptable deployed.desk states) :
    ∃ turns, site.turned id turns =
      ⟨Stride.showPending (Stride.armedAll site.engine deployed held).1
          (held.foldl Office.arm deployed),
        (held.foldl Office.arm deployed).setErrand id
          { decision := .answer (.count held.length), isCancelled }⟩ := by
  have begins : Stride.step site.engine site.office { decision := .restore, isCancelled } =
      ⟨site.engine, site.office,
        { decision := .adoptSubscriptions subscriptions, isCancelled }, .proceed, []⟩ := by
    simp only [Stride.step, Stride.decide, Stride.restore, stored, listed]
    rfl
  have recalls (office : Office) : Stride.step site.engine office
      { decision := .recallSuspended, isCancelled } =
        ⟨site.engine, office, { decision := .adoptSuspended states, isCancelled },
          .proceed, []⟩ := by
    simp only [Stride.step, Stride.decide, Stride.recallSuspended, stored, recalled]
    rfl
  have adopts : Stride.step site.engine deployed
      { decision := .adoptSuspended states, isCancelled } =
        ⟨Stride.showPending (Stride.armedAll site.engine deployed held).1
            (held.foldl Office.arm deployed),
          held.foldl Office.arm deployed,
          { decision := .answer (.count held.length), isCancelled }, .proceed,
          (Stride.armedAll site.engine deployed held).2.2⟩ := by
    rw [holds, ← Stride.armedAll_office site.engine deployed]
    rfl
  obtain ⟨first, there⟩ := move_found asked begins
  obtain ⟨turns, ends⟩ := turned_adoptSubscriptions site.engine there isCancelled subscriptions
  have there' : (deployed.errand? id).isSome := by
    refine Office.isSome_errand?_of_errands there ?_
    obtain ⟨_, deploys'⟩ := site.office.exists_deploys subscriptions
    rw [deploys, deploys'.rest]
  rw [← deploys] at ends
  refine ⟨1 + turns + 2, ?_⟩
  rw [turned_add, turned_add]
  have started : site.turned id 1 = ⟨site.engine, site.office.setErrand id
      { decision := .adoptSubscriptions subscriptions, isCancelled }⟩ := first
  rw [started, ends, turned, List.replicate_succ, play_cons, move_set there' (recalls deployed)]
  exact move_set there' adopts

/-- What a site has become once an errand has restored what is stored. -/
structure Recovered (site after : Site) (id : Nat) (subscriptions : List Subscription)
    (states : List Suspended) (deployed : List Deployment) (held : List Suspended) : Prop where
  /-- The stored subscriptions that were taken over. -/
  subscribed : Adopts Subscription.workflow site.office.desk.welcomes subscriptions
    (deployed.map Deployment.subscription)
  /-- The stored runs that were taken over. -/
  recalled : Adopts Suspended.execution site.office.desk.awaits states held
  /-- Each has a handler of its own. -/
  own : ∀ (i : Nat) (deployment : Deployment), deployed[i]? = some deployment →
    deployment.handler = ⟨site.office.nextHandler + i, deployment.subscription.workflow⟩
  deployment? : ∀ workflow, after.office.desk.deployment? workflow =
    (site.office.desk.deployment? workflow).or
      (deployed.find? (·.subscription.workflow == workflow))
  /-- Each handler is registered once, for the provider of its subscription. -/
  handlersOf : ∀ provider, after.office.board.handlersOf provider =
    site.office.board.handlersOf provider ++
      (deployed.filter (·.subscription.provider == provider)).map Deployment.handler
  /-- What was pending is pending, in the same state and with the same alarm. -/
  kept : ∀ execution pending, site.pending? execution = some pending →
    after.pending? execution = some pending
  pending? : ∀ execution, (after.pending? execution).map Pending.state =
    ((site.pending? execution).map Pending.state).or (held.find? (·.execution == execution))
  /-- A run that was taken over and has a deadline has an alarm. -/
  alarm : ∀ state ∈ held, ∃ alarm : Option Nat,
    after.pending? state.execution = some ⟨state, alarm⟩ ∧
      alarm.isSome = state.deadline.isSome ∧
      ∀ id, alarm = some id → ⟨id, state.execution⟩ ∈ after.office.alarms
  alarms : site.office.alarms <+: after.office.alarms
  /-- Nothing else of the office has changed, but that the errand is done. -/
  office : after.office =
    { site.office.dropErrand id with
      desk := { site.office.desk with
        deployments := after.office.desk.deployments
        pending := after.office.desk.pending }
      board := after.office.board
      alarms := after.office.alarms
      nextAlarm := after.office.nextAlarm
      nextHandler := after.office.nextHandler }
  /-- Nothing else of the engine has changed, but that moments were handed out and the number
  of pending runs is shown. -/
  engine : after.engine =
    { site.engine with
      moments := after.engine.moments
      metrics := { site.engine.metrics with pending := after.office.desk.pending.length } }

/-- After a site has recovered, no stored subscription may be taken over. -/
theorem Recovered.not_welcomes {deployed : List Deployment} {held : List Suspended}
    (recovered : Recovered site after id subscriptions states deployed held)
    {subscription : Subscription} (member : subscription ∈ subscriptions) :
    after.office.desk.welcomes subscription = false := by
  have known : after.office.desk.definition? = site.office.desk.definition? := by
    rw [recovered.office]
    rfl
  rw [Desk.welcomes, Desk.isDeployed_eq, known, recovered.deployment?]
  cases welcome : site.office.desk.welcomes subscription with
  | false =>
    rw [Desk.welcomes, Desk.isDeployed_eq] at welcome
    cases there : site.office.desk.deployment? subscription.workflow with
    | none =>
      rw [there, Option.isSome_none, Bool.not_false, Bool.and_true] at welcome
      rw [welcome, Bool.false_and]
    | some deployment => simp
  | true =>
    have found := recovered.subscribed.isSome_find? member welcome
    rw [List.find?_map, Option.isSome_map] at found
    have deployed' : (deployed.find? (·.subscription.workflow == subscription.workflow)).isSome :=
      found
    simp [deployed']

/-- After a site has recovered, no stored run may be taken over. -/
theorem Recovered.not_awaits {deployed : List Deployment} {held : List Suspended}
    (recovered : Recovered site after id subscriptions states deployed held)
    {state : Suspended} (member : state ∈ states) :
    after.office.desk.awaits state = false := by
  have known : after.office.desk.definition? = site.office.desk.definition? := by
    rw [recovered.office]
    rfl
  rw [Desk.awaits, known]
  cases awaits : site.office.desk.awaits state with
  | false =>
    rw [Desk.awaits] at awaits
    cases there : site.office.desk.pending? state.execution with
    | none =>
      rw [there, Option.isNone_none, Bool.and_true] at awaits
      rw [awaits, Bool.false_and]
    | some pending =>
      have kept : after.office.desk.pending? state.execution = some pending :=
        recovered.kept _ _ there
      rw [kept]
      simp
  | true =>
    have found := recovered.recalled.isSome_find? member awaits
    obtain ⟨other, same⟩ := Option.isSome_iff_exists.mp found
    obtain ⟨alarm, there, -⟩ := recovered.alarm other (List.mem_of_find?_eq_some same)
    have own : other.execution = state.execution := by simpa using List.find?_some same
    have there' : after.office.desk.pending? state.execution = some ⟨other, alarm⟩ := own ▸ there
    rw [there']
    simp

/-- Where an errand that restores ends, the site has recovered. -/
theorem recovered_of_deploys (id : Nat) {deployed : List Deployment} {held : List Suspended}
    (deploys : site.office.Deploys (subscriptions.foldl Office.adopt site.office) subscriptions
      deployed)
    (hold : Stride.adoptable (subscriptions.foldl Office.adopt site.office).desk states = held) :
    Recovered site
      ⟨Stride.showPending
          (Stride.armedAll site.engine (subscriptions.foldl Office.adopt site.office) held).1
          (held.foldl Office.arm (subscriptions.foldl Office.adopt site.office)),
        (held.foldl Office.arm (subscriptions.foldl Office.adopt site.office)).dropErrand id⟩
      id subscriptions states deployed held := by
  generalize subscriptions.foldl Office.adopt site.office = opened at *
  have adopts := hold ▸ Stride.adoptable_adopts opened.desk states
  have same : opened.desk.awaits = site.office.desk.awaits := by
    rw [deploys.rest]
    rfl
  rw [same] at adopts
  have absent : ∀ state ∈ held, opened.desk.pending? state.execution = none := by
    intro state member
    have fit := adopts.fits_of_mem member
    rw [← same, Desk.awaits, Bool.and_eq_true] at fit
    exact Option.isNone_iff_eq_none.mp fit.2
  have holds := Office.holds_foldl_arm absent adopts.apart
  have engine := Stride.armedAll_engine site.engine opened held
  generalize held.foldl Office.arm opened = closed at *
  have deployments : closed.desk.deployment? = opened.desk.deployment? := by
    rw [holds.rest]
    rfl
  have board : closed.board = opened.board := by rw [holds.rest]
  have pending : opened.desk.pending? = site.office.desk.pending? := by
    rw [deploys.rest]
    rfl
  have elsewhere : ∀ execution pending, site.pending? execution = some pending →
      ∀ state ∈ held, state.execution ≠ execution := by
    rintro execution pending' there state member rfl
    have nothing := absent state member
    rw [pending] at nothing
    exact absurd (nothing.symm.trans there) (by simp)
  refine
    { subscribed := deploys.adopts
      recalled := adopts
      own := deploys.own
      deployment? := fun workflow => ?_
      handlersOf := fun provider => ?_
      kept := fun execution pending' there => ?_
      pending? := fun execution => ?_
      alarm := holds.held
      alarms := ?_
      office := ?_
      engine := ?_ }
  · exact (congrFun deployments workflow).trans (deploys.deployment? workflow)
  · exact (congrArg (Switchboard.handlersOf · provider) board).trans (deploys.handlersOf provider)
  · have kept := holds.kept execution (elsewhere execution pending' there)
    rw [pending] at kept
    exact kept.trans there
  · cases found : held.find? (·.execution == execution) with
    | none =>
      have others : ∀ state ∈ held, state.execution ≠ execution := fun state member own =>
        List.find?_eq_none.mp found state member (beq_iff_eq.mpr own)
      have kept := holds.kept execution others
      rw [pending] at kept
      rw [Option.or_none]
      exact congrArg (Option.map Pending.state) kept
    | some state =>
      have member := List.mem_of_find?_eq_some found
      obtain rfl : state.execution = execution := by simpa using List.find?_some found
      obtain ⟨alarm, there, -⟩ := holds.held state member
      have nothing : site.pending? state.execution = none := by
        have nothing := absent state member
        rwa [pending] at nothing
      rw [nothing]
      exact congrArg (Option.map Pending.state) there
  · have same : opened.alarms = site.office.alarms := by rw [deploys.rest]
    exact same ▸ holds.alarms
  · show closed.dropErrand id = _
    rw [holds.rest, deploys.rest]
    rfl
  · show Stride.showPending _ closed = _
    rw [engine]
    rfl

/-- An errand that restores while nothing else happens counts the runs that it takes over, and then
the site has recovered. -/
theorem exists_recovered {ledger : Ledger}
    (asked : site.office.errand? id = some { decision := .restore, isCancelled })
    (stored : site.engine.ledger = some ledger)
    (listed : ledger.listSubscriptions = .ok subscriptions)
    (recalled : ledger.listSuspended = .ok states) :
    ∃ turns after deployed held,
      ((site.turned id turns).office.errand? id).bind Errand.answer? = some (.count held.length) ∧
        site.turned id (turns + 1) = after ∧
        Recovered site after id subscriptions states deployed held := by
  obtain ⟨turns, ends⟩ := turned_restore asked stored listed recalled rfl rfl
  obtain ⟨deployed, deploys⟩ := site.office.exists_deploys subscriptions
  have there : (site.office.errand? id).isSome := Option.isSome_of_eq_some asked
  generalize hold : Stride.adoptable (subscriptions.foldl Office.adopt site.office).desk states =
    held at ends
  have recovered := recovered_of_deploys id deploys hold
  have errands : (held.foldl Office.arm (subscriptions.foldl Office.adopt
      site.office)).errands = site.office.errands := by
    rw [Office.errands_foldl_arm, deploys.rest]
  have there' := Office.isSome_errand?_of_errands there errands
  refine ⟨turns, _, deployed, held, ?_, ?_, recovered⟩
  · rw [ends, errand?_set there']
    rfl
  · rw [turned_add, ends]
    exact move_set_answer there'

/-- An errand that restores where nothing may be taken over leaves everything as it is. -/
theorem settles_of_nothing {ledger : Ledger}
    (asked : site.office.errand? id = some { decision := .restore, isCancelled })
    (stored : site.engine.ledger = some ledger)
    (listed : ledger.listSubscriptions = .ok subscriptions)
    (recalled : ledger.listSuspended = .ok states)
    (unwelcome : ∀ subscription ∈ subscriptions, site.office.desk.welcomes subscription = false)
    (unawaited : ∀ state ∈ states, site.office.desk.awaits state = false)
    (shown : site.engine.metrics.pending = site.office.desk.pending.length) :
    ∃ turns, site.Settles id turns (.count 0) site.engine := by
  have nobody : Stride.adoptable site.office.desk states = [] :=
    (Stride.adoptable_adopts site.office.desk states).eq_nil unawaited
  obtain ⟨turns, ends⟩ := turned_restore asked stored listed recalled
    (Office.foldl_adopt_of_unwelcome unwelcome).symm nobody.symm
  have same : Stride.showPending site.engine site.office = site.engine := by
    rw [Stride.showPending, Engine.showPending, ← shown]
  have still : site.turned id turns = ⟨site.engine, site.office.setErrand id
      { decision := .answer (.count 0), isCancelled }⟩ :=
    ends.trans (congrArg (Site.mk · _) same)
  exact ⟨turns, settles still (Option.isSome_of_eq_some asked)⟩

/-- Restoring is exact and idempotent. Whatever can be read from the ledger and whatever the
office knows, an errand that restores while nothing else happens takes over just what may be
taken over and counts the runs among it. Until a run leaves its pause or a deployment is taken
back, another errand that restores counts none and leaves everything as it is, at whatever
time and beside whatever other errands. -/
theorem restores_exactly_once {ledger : Ledger}
    (asked : site.office.errand? id = some { decision := .restore, isCancelled })
    (stored : site.engine.ledger = some ledger)
    (listed : ledger.listSubscriptions = .ok subscriptions)
    (recalled : ledger.listSuspended = .ok states) :
    ∃ (turns : Nat) (after : Site) (deployed : List Deployment) (held : List Suspended),
      ((site.turned id turns).office.errand? id).bind Errand.answer? =
        some (.count held.length) ∧
      site.turned id (turns + 1) = after ∧
      Recovered site after id subscriptions states deployed held ∧
      (subscriptions.Pairwise (fun a b => a.workflow ≠ b.workflow) →
        deployed.map Deployment.subscription =
          subscriptions.filter site.office.desk.welcomes) ∧
      (states.Pairwise (fun a b => a.execution ≠ b.execution) →
        held = states.filter site.office.desk.awaits) ∧
      ∀ (again : Site) clock moments errands nextErrand other,
        again = ⟨{ after.engine with clock, moments },
          after.office.withErrands errands nextErrand⟩ →
        again.office.errand? other = some { decision := .restore } →
        ∃ turns, again.Settles other turns (.count 0) again.engine := by
  obtain ⟨turns, after, deployed, held, counted, ends, recovered⟩ :=
    exists_recovered asked stored listed recalled
  refine ⟨turns, after, deployed, held, counted, ends, recovered, recovered.subscribed.eq_filter,
    recovered.recalled.eq_filter, ?_⟩
  rintro again clock moments errands nextErrand other same asked'
  refine settles_of_nothing asked' (by rw [same, recovered.engine]; exact stored) listed recalled
    ?_ ?_ ?_
  · rw [same]
    exact fun subscription member => recovered.not_welcomes member
  · rw [same]
    exact fun state member => recovered.not_awaits member
  · rw [same, recovered.engine]
    rfl

/-- A subscription of a workflow that is stored without any handles. -/
def bareSubscription (workflow : String) : Subscription where
  workflow
  id := "sub"
  provider := "mail"
  procedure := "watch"
  createdAt := ⟨0, 0⟩

/-- The ledger that a process has left: a run of a known workflow, and the subscriptions of this
workflow and of one that is not known any more. -/
def inheritance : Ledger where
  suspended := [firstWait]
  subscriptions := [bareSubscription "twice", bareSubscription "gone"]

/-- A process that finds it and is about to restore. -/
def recovering : Site where
  engine := { catalog := [], ledger := some inheritance, epoch := ⟨0, 0⟩ }
  office :=
    (Office.takeOn { desk := { definitions := [("twice", twice)] } } { decision := .restore }).2

theorem restores_exactly_once_recovering :
    ∃ turns after deployed,
      ((recovering.turned 0 turns).office.errand? 0).bind Errand.answer? = some (.count 1) ∧
      recovering.turned 0 (turns + 1) = after ∧
      Recovered recovering after 0 [bareSubscription "twice", bareSubscription "gone"]
        [firstWait] deployed [firstWait] ∧
      deployed.map Deployment.subscription = [bareSubscription "twice"] ∧
      ∃ turns, Site.Settles
        ⟨after.engine, after.office.withErrands [(1, { decision := .restore })] 2⟩ 1 turns
          (.count 0) after.engine := by
  have asked : recovering.office.errand? 0 = some { decision := .restore } := rfl
  have stored : recovering.engine.ledger = some inheritance := rfl
  have listed : inheritance.listSubscriptions =
      .ok [bareSubscription "twice", bareSubscription "gone"] := by
    decide +kernel
  have recalled : inheritance.listSuspended = .ok [firstWait] := by
    have sorted : inheritance.suspendedRuns = [firstWait] := rfl
    rw [Ledger.listSuspended, if_pos (by rfl), sorted]
    exact mapM_of_reread fun state member => by
      rw [List.mem_singleton.mp member, reread_firstWait]
  obtain ⟨turns, after, deployed, held, counted, ends, recovered, subscribed, pending, again⟩ :=
    restores_exactly_once asked stored listed recalled
  have kept : held = [firstWait] := pending (List.pairwise_singleton _ _)
  have welcome : deployed.map Deployment.subscription = [bareSubscription "twice"] :=
    subscribed (by decide)
  subst kept
  exact ⟨turns, after, deployed, counted, ends, recovered, welcome,
    again _ after.engine.clock after.engine.moments _ _ 1 rfl rfl⟩

end Site

end DurableFlow
