import DurableFlow.Proofs.Desk.Deciding
import DurableFlow.Proofs.Desk.Pending
import DurableFlow.Proofs.Engine.Runs
import DurableFlow.Proofs.Run.Soundness

/-!
# Who is in charge of a run

A run that is not pending may be in the charge of an errand: of the one that drives it, of
the one that has been told that it is suspended and is about to make it pending, or of the
one that has claimed it and is about to let it go on.

`Stride.Dealing` lists what a step of an errand can do about the pending runs and about the runs in
its charge, and `Stride.Deals` adds which of these cases it is by what the errand is up to
(`Errand.deed`). For acts this is shown here.
-/

namespace DurableFlow

/-- A run in the charge of an errand. -/
structure Charge where
  execution : String
  /-- The suspended run, until the engine is asked to let it go on. -/
  claimed : Option Suspended := none
deriving DecidableEq

/-- The run that an act is to make pending. -/
def Act.charge? : Act → Option Charge
  | .arm _ state => some { execution := state.execution }
  | _ => none

/-- The run that a decision lets go on, drives or tells the result of. -/
def Decision.charge? (engine : Engine) : Decision → Option Charge
  | .resume _ _ state _ _ => some { execution := state.execution, claimed := some state }
  | .drive _ run | .conclude _ run => (engine.owner? run).map fun execution => { execution }
  | .finish _ (.ok result) => result.suspended.map fun state => { execution := state.execution }
  | _ => none

/-- Decisions of an office that restores nothing and is given no ids. The run of a pass has
been taken up before. -/
def Decision.IsManaged (engine : Engine) : Decision → Prop
  | .start _ _ _ execution => execution = none
  | .drive _ run | .conclude _ run => run < engine.nextRun
  | .attend .. | .expire _ | .restore | .adoptSubscriptions _ | .recallSuspended
  | .adoptSuspended _ => False
  | _ => True

/-- How a run comes to be no longer pending. -/
inductive Exit where
  /-- An event claims it, to let it go on. -/
  | event
  /-- Its alarm rings. -/
  | expiry (alarm : Nat)
  | cancel
  /-- Its workflow is stopped. -/
  | stop
  | otherwise
deriving DecidableEq, Repr

/-- What a step has to do with pauses. -/
inductive Deed where
  | nothing
  /-- A suspended run is made pending. -/
  | pause (state : Suspended)
  /-- The engine is asked to let a suspended run go on. -/
  | resume (state : Suspended)
  /-- Runs are taken out of the pending ones, if they are there. -/
  | release (exit : Exit)
deriving DecidableEq, Repr

/-- Neither is a run made pending, nor is the engine asked to let one go on. -/
def Deed.IsCalm : Deed → Prop
  | .nothing | .release _ => True
  | _ => False

namespace Exit

/-- A run may leave a pause in this way. The alarm that ends the pause is its own. -/
def fits (alarm : Option Nat) : Exit → Bool
  | event | cancel | stop => true
  | expiry other => alarm == some other
  | otherwise => false

/-- Who takes the run out may let it go on. -/
def claims : Exit → Bool
  | event | expiry _ => true
  | _ => false

end Exit

namespace Errand

/-- The runs in the charge of an errand. -/
def charges (engine : Engine) (errand : Errand) : List Charge :=
  errand.acts.filterMap Act.charge? ++ (errand.decision.charge? engine).toList

/-- An errand of an office that restores nothing has one run in its charge at most. -/
structure IsManaged (engine : Engine) (errand : Errand) : Prop where
  decision : errand.decision.IsManaged engine
  charges : (errand.charges engine).length ≤ 1

/-- What the next step of an errand has to do with pauses. -/
def deed (errand : Errand) : Deed :=
  match errand.acts, errand.decision with
  | .arm _ state :: _, _ => .pause state
  | _ :: _, _ => .nothing
  | [], .resume _ _ state _ _ => .resume state
  | [], .claim .. => .release .event
  | [], .cancel _ => .release .cancel
  | [], .stop _ => .release .stop
  | [], _ => .nothing

end Errand

section Extends

variable {engine after : Engine}

theorem Decision.charge?_extends {decision : Decision} (managed : decision.IsManaged engine)
    (extending : engine.Extends after) :
    (decision.charge? after).toList.Sublist (decision.charge? engine).toList := by
  have driven : ∀ run < engine.nextRun,
      ((after.owner? run).map fun execution => ({ execution } : Charge)).toList.Sublist
        ((engine.owner? run).map fun execution => ({ execution } : Charge)).toList := by
    intro run old
    rcases extending.owner run old with same | closed
    · rw [same]
    · rw [closed]
      exact List.nil_sublist _
  cases decision with
  | drive purpose run => exact driven run managed
  | conclude purpose run => exact driven run managed
  | finish purpose result => cases result <;> exact List.Sublist.refl _
  | _ => exact List.Sublist.refl _

theorem Decision.IsManaged.extending {decision : Decision} (managed : decision.IsManaged engine)
    (extending : engine.Extends after) : decision.IsManaged after := by
  cases decision with
  | drive purpose run => exact Nat.lt_of_lt_of_le managed extending.nextRun_le
  | conclude purpose run => exact Nat.lt_of_lt_of_le managed extending.nextRun_le
  | _ => exact managed

/-- Whatever the engine does, an errand is put in charge of no other run by it. -/
theorem Errand.IsManaged.charges_extends {errand : Errand} (managed : errand.IsManaged engine)
    (extending : engine.Extends after) :
    (errand.charges after).Sublist (errand.charges engine) :=
  (List.Sublist.refl _).append (Decision.charge?_extends managed.decision extending)

theorem Errand.IsManaged.extending {errand : Errand} (managed : errand.IsManaged engine)
    (extending : engine.Extends after) : errand.IsManaged after where
  decision := managed.decision.extending extending
  charges := (managed.charges_extends extending).length_le.trans managed.charges

end Extends

/-- The charge of an errand that has taken a run out of the pending ones. -/
def Exit.charges (state : Suspended) (exit : Exit) : List Charge :=
  if exit.claims then [{ execution := state.execution, claimed := some state }] else []

namespace Stride

/-- All that a step of an errand can do about the pending runs and about the runs in its
charge. -/
inductive Dealing (engine : Engine) (office : Office) (errand : Errand) (stride : Stride) :
    Deed → Prop where
  /-- The step leaves the pending runs alone. -/
  | keep {deed : Deed} (calm : deed.IsCalm)
      (agrees : office.Agrees stride.office)
      (charges : (stride.errand.charges stride.engine).Sublist (errand.charges engine)) :
      Dealing engine office errand stride deed
  /-- A run begins, under an id that has not been given out before. -/
  | start (agrees : office.Agrees stride.office) (moments : engine.moments < stride.engine.moments)
      (charges : stride.errand.charges stride.engine =
        [{ execution := Id.fresh engine.moments }]) :
      Dealing engine office errand stride .nothing
  /-- A run in the charge of the errand becomes pending. -/
  | pause (state : Suspended) (charge : { execution := state.execution } ∈ errand.charges engine)
      (agrees : (office.arm state).Agrees stride.office)
      (charges : stride.errand.charges stride.engine = []) :
      Dealing engine office errand stride (.pause state)
  /-- The engine is asked to let a run go on, and refuses or does. -/
  | resume (state : Suspended)
      (charge : { execution := state.execution, claimed := some state } ∈ errand.charges engine)
      (agrees : office.Agrees stride.office)
      (charges : (stride.errand.charges stride.engine).Sublist
        [{ execution := state.execution }]) :
      Dealing engine office errand stride (.resume state)
  /-- A run is pending no more. -/
  | release (exit : Exit) (state : Suspended) (alarm : Option Nat)
      (found : office.desk.pending? state.execution = some ⟨state, alarm⟩)
      (fits : exit.fits alarm = true)
      (agrees : (office.release state.execution).Agrees stride.office)
      (charges : (stride.errand.charges stride.engine).Sublist (exit.charges state)) :
      Dealing engine office errand stride (.release exit)
  /-- The runs of a workflow are pending no more. -/
  | detach (workflow : String) (agrees : (office.detach workflow).Agrees stride.office)
      (charges : stride.errand.charges stride.engine = []) :
      Dealing engine office errand stride (.release .stop)

/-- A step that does about pauses what the deed says, and after which the errand is still one of an
office that restores nothing. -/
structure Deals (engine : Engine) (office : Office) (errand : Errand) (deed : Deed)
    (stride : Stride) : Prop where
  extending : engine.Extends stride.engine
  decision : stride.errand.decision.IsManaged stride.engine
  dealing : Dealing engine office errand stride deed

variable {engine : Engine} {office : Office} {errand : Errand}

theorem Dealing.errands {stride : Stride} {deed : Deed}
    (dealing : Dealing engine office errand stride deed) :
    stride.office.errands = office.errands := by
  cases dealing with
  | keep calm agrees charges => exact agrees.errands
  | start agrees moments charges => exact agrees.errands
  | pause state charge agrees charges => rw [agrees.errands, Office.arm_errands]
  | resume state charge agrees charges => exact agrees.errands
  | release exit state alarm found fits agrees charges =>
    rw [agrees.errands, Office.release_errands]
  | detach workflow agrees charges => rw [agrees.errands, Office.detach_errands]

theorem Dealing.nextErrand {stride : Stride} {deed : Deed}
    (dealing : Dealing engine office errand stride deed) :
    stride.office.nextErrand = office.nextErrand := by
  cases dealing with
  | keep calm agrees charges => exact agrees.nextErrand
  | start agrees moments charges => exact agrees.nextErrand
  | pause state charge agrees charges => rw [agrees.nextErrand, Office.arm_nextErrand]
  | resume state charge agrees charges => exact agrees.nextErrand
  | release exit state alarm found fits agrees charges =>
    rw [agrees.nextErrand, Office.release_nextErrand]
  | detach workflow agrees charges => rw [agrees.nextErrand, Office.detach_nextErrand]

theorem Deals.managed {stride : Stride} {deed : Deed}
    (deals : Deals engine office errand deed stride)
    (few : (errand.charges engine).length ≤ 1) : stride.errand.IsManaged stride.engine where
  decision := deals.decision
  charges := by
    cases deals.dealing with
    | keep calm agrees charges => exact charges.length_le.trans few
    | start agrees moments charges => simp [charges]
    | pause state charge agrees charges => simp [charges]
    | resume state charge agrees charges => exact charges.length_le
    | release exit state alarm found fits agrees charges =>
      apply charges.length_le.trans
      rw [Exit.charges]
      split <;> simp
    | detach workflow agrees charges => simp [charges]

/-- A step after which the errand is in charge of nothing, and that leaves the pending runs
alone. -/
theorem Deals.idle {stride : Stride} {deed : Deed} (calm : deed.IsCalm)
    (extending : engine.Extends stride.engine) (agrees : office.Agrees stride.office)
    (decision : stride.errand.decision.IsManaged stride.engine)
    (charges : stride.errand.charges stride.engine = []) :
    Deals engine office errand deed stride :=
  ⟨extending, decision, .keep calm agrees (charges ▸ List.nil_sublist _)⟩

/-- Every act but one only goes on to the next one. -/
theorem act_deals_of_agrees {act : Act} {rest : List Act} {stride : Stride}
    (managed : errand.IsManaged engine) (acts : errand.acts = act :: rest)
    (same : stride.errand = { errand with acts := rest })
    (extending : engine.Extends stride.engine) (agrees : office.Agrees stride.office) :
    Deals engine office errand .nothing stride where
  extending := extending
  decision := by
    rw [same]
    exact managed.decision.extending extending
  dealing := by
    refine .keep trivial agrees ?_
    rw [same]
    refine List.Sublist.append ?_ (Decision.charge?_extends managed.decision extending)
    rw [acts]
    exact (List.sublist_cons_self act rest).filterMap _

theorem armed_office (engine : Engine) (office : Office) (state : Suspended) :
    (armed engine office state).2.1 = office.arm state := by
  rw [armed]
  split <;> rfl

theorem armed_extends (numbered : engine.Numbered) (office : Office) (state : Suspended) :
    engine.Extends (armed engine office state).1 := by
  rw [armed]
  split
  · exact numbered.extends_refl
  · exact numbered.tick

theorem learnNew_agrees (office : Office) (d : Definition) :
    office.Agrees { office with desk := office.desk.learnNew d } := by
  have pending : (office.desk.learnNew d).pending = office.desk.pending := by
    rw [Desk.learnNew]
    split <;> rfl
  exact ⟨⟨pending, rfl, rfl⟩, rfl, rfl⟩

theorem arm_deals (numbered : engine.Numbered) (managed : errand.IsManaged engine)
    {d : Definition} {state : Suspended} {rest : List Act}
    (acts : errand.acts = .arm d state :: rest) :
    Deals engine office errand (.pause state)
      (act engine office { errand with acts := rest } (.arm d state)) := by
  have extending := armed_extends numbered { office with desk := office.desk.learnNew d } state
  have alone : errand.charges engine = { execution := state.execution } ::
      ({ errand with acts := rest } : Errand).charges engine := by
    simp [Errand.charges, acts, Act.charge?]
  have nothing : ({ errand with acts := rest } : Errand).charges engine = [] := by
    have few := managed.charges
    rw [alone, List.length_cons] at few
    exact List.eq_nil_of_length_eq_zero (by omega)
  have shown : engine.Extends
      (act engine office { errand with acts := rest } (.arm d state)).engine :=
    extending.trans (extending.numbered.extends_of_runs rfl rfl (Nat.le_refl _))
  refine ⟨shown, managed.decision.extending shown, .pause state ?_ ?_ ?_⟩
  · rw [alone]
    exact List.mem_cons_self
  · simp only [act, armed_office]
    exact (learnNew_agrees office d).arm state
  · refine List.sublist_nil.mp (nothing ▸ List.Sublist.append (List.Sublist.refl _) ?_)
    exact Decision.charge?_extends managed.decision shown

theorem act_deals (numbered : engine.Numbered) (managed : errand.IsManaged engine) {first : Act}
    {rest : List Act} (acts : errand.acts = first :: rest) :
    Deals engine office errand errand.deed
      (act engine office { errand with acts := rest } first) := by
  have agrees := Office.Agrees.refl office
  have told : ∀ after : Engine, after.runs = engine.runs → after.nextRun = engine.nextRun →
      engine.moments ≤ after.moments → engine.Extends after :=
    fun after => numbered.extends_of_runs
  cases first with
  | arm d state =>
    simp only [Errand.deed, acts]
    exact arm_deals numbered managed acts
  | saveRun | settleRun | saveSuspended | deleteSuspended | saveSubscription
  | deleteSubscription =>
    simp only [Errand.deed, acts]
    exact act_deals_of_agrees managed acts rfl (numbered.write _) agrees
  | publish | count =>
    simp only [Errand.deed, acts]
    exact act_deals_of_agrees managed acts rfl (told _ rfl rfl (Nat.le_refl _)) agrees
  | register | unregister =>
    simp only [Errand.deed, acts]
    exact act_deals_of_agrees managed acts rfl numbered.extends_refl ⟨⟨rfl, rfl, rfl⟩, rfl, rfl⟩

end Stride

end DurableFlow
