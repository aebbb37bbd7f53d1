import DurableFlow.Proofs.Desk.Schedule

/-!
# An errand that is left out

A step of an errand looks at the desk, the switchboard and the alarms of its office, but not at
the other errands, and it looks at the ledger only if it restores (`Stride.decide_aside`). So when
one errand of a site is left out, all others take the same steps as before: every move but the
turns of that errand comes to the same with it and without it.
-/

namespace DurableFlow

/-- The decision reads the ledger, or leads to one that does. -/
def Decision.consults : Decision → Bool
  | .restore | .adoptSubscriptions _ | .recallSuspended => true
  | _ => false

namespace Engine

/-- An engine with another ledger, or with none. -/
def withLedger (engine : Engine) (ledger : Option Ledger) : Engine := { engine with ledger }

variable (ledger : Option Ledger)

theorem perform_withLedger (context : Context) (engine : Engine) (effect : Effect) :
    (engine.withLedger ledger).perform context effect =
      (engine.perform context effect).withLedger ledger := by
  cases effect <;> rfl

theorem foldl_perform_withLedger (context : Context) (effects : List Effect) (engine : Engine) :
    effects.foldl (perform context) (engine.withLedger ledger) =
      (effects.foldl (perform context) engine).withLedger ledger := by
  induction effects generalizing engine with
  | nil => rfl
  | cons effect rest ih => rw [List.foldl_cons, perform_withLedger, ih, List.foldl_cons]

/-- A task takes the same step with another ledger. -/
theorem stepRun_withLedger (engine : Engine) (id : Nat) (task : TaskId) :
    (engine.withLedger ledger).stepRun id task =
      ((engine.stepRun id task).1.withLedger ledger, (engine.stepRun id task).2) := by
  have same : (engine.withLedger ledger).run? id = engine.run? id := rfl
  rw [stepRun, stepRun, same]
  cases engine.run? id with
  | none => rfl
  | some run =>
    dsimp only
    rw [← foldl_perform_withLedger]
    rfl

end Engine

namespace Office

/-- An office with other errands. -/
def withErrands (office : Office) (errands : List (Nat × Errand)) (nextErrand : Nat) : Office :=
  { office with errands, nextErrand }

variable (office : Office) (errands : List (Nat × Errand)) (next : Nat)

@[simp] theorem withErrands_desk : (office.withErrands errands next).desk = office.desk := rfl

theorem silence_withErrands (alarm : Option Nat) :
    (office.withErrands errands next).silence alarm =
      (office.silence alarm).withErrands errands next := by
  cases alarm <;> rfl

theorem release_withErrands (execution : String) :
    (office.withErrands errands next).release execution =
      (office.release execution).withErrands errands next := by
  cases found : office.desk.pending? execution with
  | none => simp only [release, withErrands_desk, found]
  | some pending =>
    simp only [release, withErrands_desk, found, silence_withErrands]
    rfl

theorem arm_withErrands (state : Suspended) :
    (office.withErrands errands next).arm state = (office.arm state).withErrands errands next := by
  cases deadline : state.deadline with
  | none =>
    simp only [arm, deadline, withErrands_desk, silence_withErrands]
    rfl
  | some instant =>
    simp only [arm, deadline, withErrands_desk, silence_withErrands]
    rfl

theorem detach_withErrands (workflow : String) :
    (office.withErrands errands next).detach workflow =
      (office.detach workflow).withErrands errands next := by
  have silent : ∀ dropped : List Pending, ∀ office : Office,
      dropped.foldl (fun office pending => office.silence pending.alarm)
          (office.withErrands errands next) =
        (dropped.foldl (fun office pending => office.silence pending.alarm) office).withErrands
          errands next := by
    intro dropped
    induction dropped with
    | nil => exact fun _ => rfl
    | cons pending rest ih =>
      intro office
      rw [List.foldl_cons, silence_withErrands, ih]
      rfl
  simp only [detach, withErrands_desk, silent]
  rfl

end Office

namespace Stride

variable (engine : Engine) (office : Office) (errand : Errand) (errands : List (Nat × Errand))
  (next : Nat)

/-- The stride with other errands. -/
def withErrands (stride : Stride) (errands : List (Nat × Errand)) (nextErrand : Nat) : Stride :=
  { stride with office := stride.office.withErrands errands nextErrand }

theorem armed_withErrands (state : Suspended) :
    armed engine (office.withErrands errands next) state =
      ((armed engine office state).1, (armed engine office state).2.1.withErrands errands next,
        (armed engine office state).2.2) := by
  cases remaining : state.remaining engine.moment.now with
  | none => simp only [armed, remaining, Office.arm_withErrands]
  | some nanos =>
    simp only [armed, remaining, Office.arm_withErrands]
    rfl

theorem act_withErrands (act : Act) :
    Stride.act engine (office.withErrands errands next) errand act =
      (Stride.act engine office errand act).withErrands errands next := by
  cases act with
  | arm d state =>
    have learned : ({ office.withErrands errands next with
        desk := (office.withErrands errands next).desk.learnNew d } : Office) =
          ({ office with desk := office.desk.learnNew d } : Office).withErrands errands next :=
      rfl
    simp only [Stride.act, learned, armed_withErrands]
    rfl
  | _ => rfl

theorem armedAll_withErrands (states : List Suspended) (engine : Engine) (office : Office) :
    armedAll engine (office.withErrands errands next) states =
      ((armedAll engine office states).1,
        (armedAll engine office states).2.1.withErrands errands next,
        (armedAll engine office states).2.2) := by
  induction states generalizing engine office with
  | nil => rfl
  | cons state rest ih => simp only [armedAll, armed_withErrands, ih]

theorem armed_withLedger (ledger : Option Ledger) (state : Suspended) :
    armed (engine.withLedger ledger) office state =
      ((armed engine office state).1.withLedger ledger, (armed engine office state).2) := by
  have same : (engine.withLedger ledger).moment = engine.moment := rfl
  rw [armed, armed, same]
  cases state.remaining engine.moment.now <;> rfl

theorem armedAll_withLedger (ledger : Option Ledger) (states : List Suspended) (engine : Engine)
    (office : Office) :
    armedAll (engine.withLedger ledger) office states =
      ((armedAll engine office states).1.withLedger ledger, (armedAll engine office states).2) := by
  induction states generalizing engine office with
  | nil => rfl
  | cons state rest ih => simp only [armedAll, armed_withLedger, ih]

/-- The stride with another ledger and other errands. -/
def aside (stride : Stride) (ledger : Option Ledger) (errands : List (Nat × Errand))
    (nextErrand : Nat) : Stride :=
  { stride with
    engine := stride.engine.withLedger ledger
    office := stride.office.withErrands errands nextErrand }

/-- A decision does not look at the errands of its office, nor at the ledger unless it restores. -/
theorem decide_aside (ledger : Option Ledger)
    (heedless : ledger = engine.ledger ∨ errand.decision.consults = false) :
    decide (engine.withLedger ledger) (office.withErrands errands next) errand =
      (decide engine office errand).aside ledger errands next := by
  have validate (d : Definition) : (engine.withLedger ledger).validate d = engine.validate d := rfl
  have catalog : (engine.withLedger ledger).catalog = engine.catalog := rfl
  have moment : (engine.withLedger ledger).moment = engine.moment := rfl
  have clock : (engine.withLedger ledger).clock = engine.clock := rfl
  have run? (run : Nat) : (engine.withLedger ledger).run? run = engine.run? run := rfl
  have desk := office.withErrands_desk errands next
  simp only [decide]
  cases decision : errand.decision with
  | answer answer => cases errand.delivery <;> rfl
  | start purpose d input execution =>
    simp only [start, validate]
    cases engine.validate d <;> rfl
  | resume purpose d state node delta =>
    have same : checkResume (engine.withLedger ledger) d state node =
        checkResume engine d state node := rfl
    simp only [resume, same]
    cases checkResume engine d state node <;> rfl
  | drive purpose run =>
    simp only [drive, Engine.stepRun_withLedger]
    cases (engine.stepRun run .driver).2.2 <;> rfl
  | conclude purpose run =>
    simp only [conclude, run?, moment]
    cases engine.run? run with
    | none => rfl
    | some found =>
      cases drives : found.drive with
      | concluded conclusion =>
        cases result : conclusion.result engine.moment.now found.context <;>
          simp only [drives, result] <;> rfl
      | _ =>
        simp only [drives]
        rfl
  | attend run group =>
    simp only [attend, run?]
    split <;> rfl
  | claim d event =>
    simp only [claim, desk, Office.release_withErrands]
    split
    · rfl
    · split <;> rfl
  | expire execution =>
    simp only [expire, desk, Office.release_withErrands]
    cases office.desk.pending? execution <;> rfl
  | cancel execution =>
    simp only [cancel, desk, Office.release_withErrands]
    cases office.desk.pending? execution <;> rfl
  | stop workflow =>
    simp only [stop, desk, Office.detach_withErrands]
    cases Fields.get? office.desk.deployments workflow <;> rfl
  | callStop subscription dropped =>
    simp only [callStop, catalog]
    cases stopProcedure? engine.catalog subscription <;> rfl
  | awaitStop workflow dropped due =>
    simp only [clock]
    split <;> rfl
  | deploy d url config =>
    simp only [deploy, desk, validate, catalog]
    cases d.trigger with
    | none => rfl
    | some trigger =>
      cases engine.validate d with
      | error failure => rfl
      | ok =>
        dsimp only
        split
        · rfl
        · cases Fields.get? engine.catalog trigger.procedure <;> rfl
  | awaitDeploy d trigger reply due =>
    simp only [clock]
    split <;> rfl
  | install d subscription =>
    simp only [install, desk]
    split <;> rfl
  | adoptSuspended states =>
    simp only [adoptSuspended, desk, armedAll_withErrands, armedAll_withLedger]
    rfl
  | finish | dispatch | deliver => rfl
  | restore | recallSuspended =>
    rw [decision] at heedless
    obtain rfl := heedless.resolve_right (by simp [Decision.consults])
    rfl
  | adoptSubscriptions subscriptions =>
    cases subscriptions with
    | nil => rfl
    | cons subscription rest =>
      simp only [adoptSubscriptions, desk]
      split <;> rfl

/-- A decision writes nothing and leaves the other errands of its office alone. -/
theorem decide_leaves :
    (decide engine office errand).engine.ledger = engine.ledger ∧
      (decide engine office errand).office.errands = office.errands ∧
      (decide engine office errand).office.nextErrand = office.nextErrand := by
  have same :=
    decide_aside engine office errand office.errands office.nextErrand engine.ledger (.inl rfl)
  exact ⟨congrArg (fun stride : Stride => stride.engine.ledger) same,
    congrArg (fun stride : Stride => stride.office.errands) same,
    congrArg (fun stride : Stride => stride.office.nextErrand) same⟩

theorem decide_withErrands :
    decide engine (office.withErrands errands next) errand =
      (decide engine office errand).withErrands errands next := by
  have same : (decide engine office errand).engine.withLedger engine.ledger =
      (decide engine office errand).engine :=
    congrArg (decide engine office errand).engine.withLedger
      (decide_leaves engine office errand).1.symm
  have aside := decide_aside engine office errand errands next engine.ledger (.inl rfl)
  rw [Stride.aside, same] at aside
  exact aside

theorem decide_withLedger (ledger : Option Ledger)
    (heedless : errand.decision.consults = false) :
    decide (engine.withLedger ledger) office errand =
      { decide engine office errand with
        engine := (decide engine office errand).engine.withLedger ledger } := by
  obtain ⟨_, errands, nextErrand⟩ := decide_leaves engine office errand
  have same : (decide engine office errand).office.withErrands office.errands office.nextErrand =
      (decide engine office errand).office := by
    rw [← errands, ← nextErrand]
    rfl
  have aside :=
    decide_aside engine office errand office.errands office.nextErrand ledger (.inr heedless)
  rw [Stride.aside, same] at aside
  exact aside

/-- A step does not look at the errands of its office, and leaves them to others. -/
theorem step_withErrands :
    step engine (office.withErrands errands next) errand =
      (step engine office errand).withErrands errands next := by
  simp only [step]
  cases errand.acts with
  | nil => exact decide_withErrands engine office errand errands next
  | cons act rest => exact act_withErrands engine office _ errands next act

theorem step_errands :
    (step engine office errand).office.errands = office.errands ∧
      (step engine office errand).office.nextErrand = office.nextErrand := by
  have same := step_withErrands engine office errand office.errands office.nextErrand
  exact ⟨congrArg (fun stride : Stride => stride.office.errands) same,
    congrArg (fun stride : Stride => stride.office.nextErrand) same⟩

end Stride

namespace Site

/-- The site without one of its errands. -/
def without (site : Site) (id : Nat) : Site :=
  { site with office := site.office.dropErrand id }

variable {site : Site} {id other : Nat}

theorem errand?_dropErrand (office : Office) (different : other ≠ id) :
    (office.dropErrand id).errand? other = office.errand? other := by
  rw [Office.errand?, Office.dropErrand]
  exact (Table.lookup_filter_ne id other office.errands).trans (if_neg different)

/-- Setting an errand and leaving out another one come to the same in either order. -/
theorem dropErrand_setErrand (office : Office) (other id : Nat) (errand : Errand) :
    (office.setErrand other errand).dropErrand id =
      (office.dropErrand id).setErrand other errand := by
  have same : ∀ entry : Nat × Errand,
      (((if entry.1 = other then (other, errand) else entry).1 != id) = (entry.1 != id)) := by
    intro entry
    split
    · rename_i mine
      rw [mine]
    · rfl
  have errands : (office.errands.map fun entry =>
        if entry.1 = other then (other, errand) else entry).filter (·.1 != id) =
      (office.errands.filter (·.1 != id)).map fun entry =>
        if entry.1 = other then (other, errand) else entry := by
    rw [List.filter_map]
    exact congrArg _ (List.filter_congr fun entry _ => same entry)
  exact congrArg (office.withErrands · office.nextErrand) errands

theorem dropErrand_setErrand_self (office : Office) (id : Nat) (errand : Errand) :
    (office.setErrand id errand).dropErrand id = office.dropErrand id := by
  rw [dropErrand_setErrand]
  have absent : id ∉ Table.ids (office.dropErrand id).errands := by
    simp [Office.dropErrand]
  have same : Table.update id (fun _ => errand) (office.dropErrand id).errands =
      (office.dropErrand id).errands := Table.update_of_not_mem absent
  exact congrArg (office.withErrands · office.nextErrand) same

theorem dropErrand_comm (office : Office) :
    (office.dropErrand other).dropErrand id = (office.dropErrand id).dropErrand other := by
  simp only [Office.dropErrand, List.filter_filter, Bool.and_comm]

/-- Other errands land in the same place without it. -/
theorem land_without (stride : Stride) (other id : Nat) :
    (land stride other).without id = land (stride.withErrands
      (stride.office.dropErrand id).errands stride.office.nextErrand) other := by
  have set := dropErrand_setErrand stride.office other id stride.errand
  by_cases ends : stride.signal = .finished
  · simp only [without, land, Stride.withErrands, ends, if_true]
    rw [dropErrand_comm, set]
    rfl
  · simp only [without, land, Stride.withErrands, ends, if_false]
    rw [set]
    rfl

/-- Other errands take the same turns without it. -/
theorem turn_without (site : Site) (different : other ≠ id) :
    (site.turn other).without id = (site.without id).turn other := by
  have asked : (site.without id).office.errand? other = site.office.errand? other :=
    errand?_dropErrand site.office different
  simp only [turn, asked]
  split
  · rfl
  · rename_i errand _
    obtain ⟨errands, nextErrand⟩ := Stride.step_errands site.engine site.office errand
    have alike : (Stride.step site.engine site.office errand).withErrands
        ((Stride.step site.engine site.office errand).office.dropErrand id).errands
        (Stride.step site.engine site.office errand).office.nextErrand =
          Stride.step site.engine (site.office.dropErrand id) errand := by
      rw [Office.dropErrand, errands, nextErrand]
      exact (Stride.step_withErrands site.engine site.office errand _ _).symm
    rw [land_without, alike]
    rfl

theorem dropErrand_takeOn (office : Office) (errand : Errand) (used : id < office.nextErrand) :
    (office.takeOn errand).2.dropErrand id = ((office.dropErrand id).takeOn errand).2 := by
  have new : (office.nextErrand != id) = true := by
    rw [bne_iff_ne]
    omega
  simp [Office.takeOn, Office.dropErrand, List.filter_append, new]

/-- Without an errand, all moves but its own turns come to the same. -/
theorem move_without (used : id < site.office.nextErrand) {m : Move} (other : m ≠ .turn id) :
    (site.move m).without id = (site.without id).move m := by
  cases m with
  | order order => exact congrArg (Site.mk site.engine) (dropErrand_takeOn site.office _ used)
  | turn asked =>
    refine turn_without site ?_
    rintro rfl
    exact other rfl
  | branch run task => rfl
  | ring asked =>
    have same : (site.without id).office.alarms = site.office.alarms := rfl
    simp only [move, ring, same]
    cases site.office.alarms.find? (·.id == asked) with
    | none => rfl
    | some alarm =>
      dsimp only
      by_cases opened : (site.office.silence (some asked)).isOpen = true
      · rw [if_pos opened]
        refine Eq.trans ?_ (if_pos opened).symm
        have new : site.office.nextErrand ≠ id := by omega
        refine (turn_without _ new).trans (congrArg (turn · site.office.nextErrand) ?_)
        exact congrArg (Site.mk site.engine)
          (dropErrand_takeOn (site.office.silence (some asked)) _ used)
      · rw [if_neg opened]
        exact (if_neg opened).symm
  | learn d => rfl
  | pass clock => rfl

theorem errand?_land (stride : Stride) (different : other ≠ id) :
    (land stride other).office.errand? id = stride.office.errand? id := by
  have set : (stride.office.setErrand other stride.errand).errand? id =
      stride.office.errand? id :=
    (Table.lookup_update other id (fun _ => stride.errand) stride.office.errands).trans
      (if_neg different.symm)
  unfold land
  dsimp only
  split
  · rw [errand?_dropErrand _ different.symm, set]
  · exact set

theorem errand?_turn (site : Site) (different : other ≠ id) :
    (site.turn other).office.errand? id = site.office.errand? id := by
  rw [turn]
  split
  · rfl
  · rw [errand?_land _ different, Office.errand?, (Stride.step_errands ..).1]
    rfl

theorem errand?_takeOn (office : Office) (errand : Errand) (used : id < office.nextErrand) :
    (office.takeOn errand).2.errand? id = office.errand? id := by
  have new : (id == office.nextErrand) = false := by
    rw [beq_eq_false_iff_ne]
    omega
  simp [Office.takeOn, Office.errand?, List.lookup_append, List.lookup_cons, new]

theorem nextErrand_turn (site : Site) (other : Nat) :
    (site.turn other).office.nextErrand = site.office.nextErrand := by
  rw [turn]
  split
  · rfl
  · rename_i errand _
    have next := (Stride.step_errands site.engine site.office errand).2
    unfold land
    dsimp only
    split <;> exact next

/-- Ids of errands are not given back. -/
theorem nextErrand_le_move (site : Site) (m : Move) :
    site.office.nextErrand ≤ (site.move m).office.nextErrand := by
  cases m with
  | order order => exact Nat.le_succ _
  | turn asked => exact (nextErrand_turn site asked).ge
  | ring asked =>
    simp only [move, ring]
    split
    · exact Nat.le_refl _
    · split
      · rw [nextErrand_turn]
        exact Nat.le_succ _
      · exact Nat.le_refl _
  | branch | learn | pass => exact Nat.le_refl _

/-- An errand stays what it is until it takes a turn. -/
theorem errand?_move (used : id < site.office.nextErrand) {m : Move} (other : m ≠ .turn id) :
    (site.move m).office.errand? id = site.office.errand? id := by
  cases m with
  | order order => exact errand?_takeOn site.office _ used
  | turn asked =>
    refine errand?_turn site ?_
    rintro rfl
    exact other rfl
  | ring asked =>
    simp only [move, ring]
    split
    · rfl
    · split
      · have new : site.office.nextErrand ≠ id := by omega
        exact (errand?_turn _ new).trans
          (errand?_takeOn (site.office.silence (some asked)) _ used)
      · rfl
  | branch | learn | pass => rfl

/-- Without an errand, the same is told by all moves but its own turns. -/
theorem passages_without (used : id < site.office.nextErrand) {m : Move}
    (other : m ≠ .turn id) (execution : String) :
    (site.without id).passages m execution = site.passages m execution := by
  have deed : (site.without id).deed m = site.deed m := by
    cases m with
    | turn asked =>
      have different : asked ≠ id := by
        rintro rfl
        exact other rfl
      have same : (site.without id).office.errand? asked = site.office.errand? asked :=
        errand?_dropErrand site.office different
      simp only [Site.deed, same]
    | _ => rfl
  rw [passages, passages, deed, ← move_without used other]
  rfl

end Site

end DurableFlow
