import DurableFlow.Proofs.Desk.Charge
import DurableFlow.Proofs.Engine.Stored

/-!
# What is stored of a run in the charge of an errand

The state of a run in the charge of an errand is stored from when the errand saves it until the run
is pending, and from when the errand takes it out of the pending runs until the errand deletes it.
`Errand.Stage` says where an errand is on this way and which state of its run is stored there. A
state is deleted before the engine is asked to let the run go on.
-/

namespace DurableFlow

/-- The run whose stored state an act deletes. -/
def Act.forgets? : Act → Option String
  | .deleteSuspended execution => some execution
  | _ => none

/-- The act saves a suspended run or makes it pending. -/
def Act.isKeeping : Act → Bool
  | .saveSuspended _ | .arm .. => true
  | _ => false

/-- The state that an act makes pending. -/
def Act.inHand? : Act → Option Suspended
  | .arm _ state => some state
  | _ => none

/-- The runs whose stored states are to be deleted once a stop procedure has been called. -/
def Decision.drops : Decision → List String
  | .callStop _ dropped | .awaitStop _ dropped _ => dropped
  | _ => []

/-- The suspended run that a decision lets go on, or that has come with a result. -/
def Decision.inHand? : Decision → Option Suspended
  | .resume _ _ state _ _ => some state
  | .finish _ (.ok result) => result.suspended
  | _ => none

/-- The runs of a decision are runs of the workflow that its purpose names. -/
def Decision.Fits (engine : Engine) : Decision → Prop
  | .start purpose d _ _ | .resume purpose d _ _ _ =>
    ∀ own, purpose.definition? = some own → own = d
  | .drive purpose run | .conclude purpose run => ∀ own, purpose.definition? = some own →
      ∀ found, engine.run? run = some found → found.context.workflow = own.id
  | .finish purpose (.ok result) => ∀ own, purpose.definition? = some own →
      ∀ state, result.suspended = some state → state.workflow = own.id
  | _ => True

/-- The suspended run that a decision is about is the one in its charge. -/
theorem Decision.execution_of_inHand? {engine : Engine} {decision : Decision} {state : Suspended}
    {charge : Charge} (inHand : decision.inHand? = some state)
    (charged : decision.charge? engine = some charge) : charge.execution = state.execution := by
  cases decision with
  | resume purpose d held node delta =>
    cases inHand
    cases charged
    rfl
  | finish purpose result =>
    cases result with
    | error failure => contradiction
    | ok result =>
      obtain ⟨other, suspended, rfl⟩ := Option.map_eq_some_iff.mp charged
      cases inHand.symm.trans suspended
      rfl
  | _ => contradiction

namespace Errand

/-- The runs whose stored states an errand is going to delete. -/
def forgets (errand : Errand) : List String :=
  errand.acts.filterMap Act.forgets? ++ errand.decision.drops

/-- The suspended runs that an errand is going to make pending or to let go on. -/
def inHand (errand : Errand) : List Suspended :=
  errand.acts.filterMap Act.inHand? ++ errand.decision.inHand?.toList

/-- Where an errand stands between saving and deleting a state, with the state that is stored of the
run in its charge there. -/
inductive Stage (engine : Engine) (errand : Errand) : Option Suspended → Prop where
  /-- It saves and deletes no state before its decision. -/
  | free (plain : ∀ act ∈ errand.acts, act.isKeeping = false)
      (forgets : errand.acts.filterMap Act.forgets? = []) (fits : errand.decision.Fits engine) :
      Stage engine errand none
  /-- It deletes the states of runs that do not go on. -/
  | forgetting (plain : ∀ act ∈ errand.acts, act.isKeeping = false) (answer : Answer)
      (answers : errand.decision = .answer answer) : Stage engine errand none
  /-- It deletes the state of the run that it is going to resume. -/
  | releasing (state : Suspended) (plain : ∀ act ∈ errand.acts, act.isKeeping = false)
      (forgets : errand.acts.filterMap Act.forgets? = [state.execution])
      (claims : errand.decision.inHand? = some state) (fits : errand.decision.Fits engine) :
      Stage engine errand (some state)
  | saving (d : Definition) (state : Suspended)
      (acts : errand.acts = [.saveSuspended state, .arm d state]) (own : state.workflow = d.id)
      (answer : Answer) (answers : errand.decision = .answer answer) : Stage engine errand none
  | arming (d : Definition) (state : Suspended) (acts : errand.acts = [.arm d state])
      (own : state.workflow = d.id) (answer : Answer)
      (answers : errand.decision = .answer answer) : Stage engine errand (some state)

/-- What is stored of the run in the charge of an errand is what its stage calls for. -/
def IsFiled (engine : Engine) (errand : Errand) : Prop :=
  ∃ paper, errand.Stage engine paper ∧
    ∀ charge ∈ errand.charges engine, engine.stored charge.execution = paper.toList

end Errand

section Keeps

variable {engine after : Engine}

/-- Whatever the engine does, a decision about a run that has been taken up fits it still. -/
theorem Decision.Fits.carry {decision : Decision} (fits : decision.Fits engine)
    (taken : ∀ run, ({ decision } : Errand).run? = some run → run < engine.nextRun)
    (keeps : engine.Keeps after) : decision.Fits after := by
  have driven : ∀ run < engine.nextRun, ∀ own : Definition, (∀ found,
      engine.run? run = some found → found.context.workflow = own.id) → ∀ found,
        after.run? run = some found → found.context.workflow = own.id := by
    intro run old own known found there
    obtain ⟨before, was, same⟩ := keeps.workflow run old found there
    exact same.trans (known before was)
  cases decision with
  | drive purpose run | conclude purpose run =>
    exact fun own bound => driven run (taken run rfl) own (fits own bound)
  | finish purpose result => cases result <;> exact fits
  | _ => exact fits

theorem Decision.Fits.keeps {decision : Decision} (fits : decision.Fits engine)
    (managed : decision.IsManaged engine) (keeps : engine.Keeps after) : decision.Fits after := by
  refine fits.carry (fun run drives => ?_) keeps
  cases decision with
  | drive | conclude => exact Option.some.inj drives ▸ managed
  | attend => exact managed.elim
  | _ => contradiction

theorem Errand.Stage.keeps {errand : Errand} {paper : Option Suspended}
    (stage : errand.Stage engine paper) (managed : errand.decision.IsManaged engine)
    (keeps : engine.Keeps after) : errand.Stage after paper := by
  cases stage with
  | free plain forgets fits => exact .free plain forgets (fits.keeps managed keeps)
  | forgetting plain answer answers => exact .forgetting plain answer answers
  | releasing state plain forgets claims fits =>
    exact .releasing state plain forgets claims (fits.keeps managed keeps)
  | saving d state acts own answer answers => exact .saving d state acts own answer answers
  | arming d state acts own answer answers => exact .arming d state acts own answer answers

end Keeps

namespace Desk

variable {desk : Desk}

/-- The workflows of all pending runs are known. -/
def Knowing (desk : Desk) : Prop :=
  ∀ execution state alarm, desk.pending? execution = some ⟨state, alarm⟩ →
    (desk.definition? state.workflow).isSome

theorem Knowing.learn (knowing : desk.Knowing) (d : Definition) : (desk.learn d).Knowing := by
  intro execution state alarm found
  rw [definition?, Desk.learn, Fields.get?_insert]
  split
  · rfl
  · exact knowing execution state alarm found

theorem Knowing.learnNew (knowing : desk.Knowing) (d : Definition) :
    (desk.learnNew d).Knowing := by
  rw [Desk.learnNew]
  split
  · exact knowing
  · exact knowing.learn d

theorem isSome_learnNew (desk : Desk) (d : Definition) :
    ((desk.learnNew d).definition? d.id).isSome := by
  rw [Desk.learnNew]
  split
  · rename_i known
    exact known
  · rw [definition?, Desk.learn, Fields.get?_insert_self]
    rfl

/-- Runs have only been taken out of the pending ones. -/
theorem Knowing.of_subset {after : Desk} (knowing : desk.Knowing)
    (definitions : after.definitions = desk.definitions)
    (subset : ∀ execution pending, after.pending? execution = some pending →
      desk.pending? execution = some pending) : after.Knowing := by
  intro execution state alarm found
  rw [definition?, definitions]
  exact knowing execution state alarm (subset execution _ found)

theorem Knowing.hold (knowing : desk.Knowing) {state : Suspended} (alarm : Option Nat)
    (known : (desk.definition? state.workflow).isSome) : (desk.hold state alarm).Knowing := by
  intro execution held other found
  rw [pending?_hold] at found
  split at found
  · cases found
    exact known
  · exact knowing execution held other found

end Desk

namespace Office

variable {office : Office}

theorem arm_desk (office : Office) (state : Suspended) :
    (office.arm state).desk = office.desk.hold state (office.nextAlarm? state) := by
  rw [arm]
  split <;> rename_i deadline <;> simp [nextAlarm?, deadline]

theorem definitions_release (office : Office) (execution : String) :
    (office.release execution).desk.definitions = office.desk.definitions := by
  rw [release]
  split <;> rfl

theorem knowing_release (knowing : office.desk.Knowing) (execution : String) :
    (office.release execution).desk.Knowing := by
  refine knowing.of_subset (definitions_release office execution) fun other pending found => ?_
  rw [pending?_release] at found
  split at found
  · contradiction
  · exact found

theorem definitions_detach (office : Office) (workflow : String) :
    (office.detach workflow).desk.definitions =
      Fields.erase office.desk.definitions workflow := by
  simp only [detach, Desk.detach, (foldl_silence _ office).1]

/-- With the definition of a workflow, its pending runs are gone. -/
theorem knowing_detach (orderly : office.Orderly) (knowing : office.desk.Knowing)
    (workflow : String) : (office.detach workflow).desk.Knowing := by
  intro execution state alarm found
  rw [orderly.pending?_detach, Option.filter_eq_some_iff] at found
  obtain ⟨there, foreign⟩ := found
  rw [Desk.definition?, definitions_detach, Fields.get?_erase, if_neg (by simpa using foreign)]
  exact knowing execution state alarm there

end Office

end DurableFlow
