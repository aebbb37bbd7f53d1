import DurableFlow.Proofs.Desk.Confined
import DurableFlow.Proofs.Desk.Turns

/-!
# A claimed run is not lost

An errand that has claimed a suspended run, for an event or at the end of its wait, is responsible
for it until the record of the run has a final status or the run is pending again. `Errand.Tends`
says what the decision of such an errand is like once the acts that are queued before it are carried
out. Every step of the errand keeps this, and an errand that has come to its end has left the run
with a final record or pending, unless it has broken down.
-/

namespace DurableFlow

/-- The record of the run has a final status. -/
def Book.Ended (book : Book) (execution : String) : Prop :=
  ∃ record, book execution = some record ∧ record.status.isTerminal = true

/-- A record is still there once it is settled. -/
theorem Book.isSome_settle {book : Book} {execution : String} (there : (book execution).isSome)
    (outcome : RunOutcome) : (book.settle execution outcome execution).isSome := by
  rw [settle, Function.update_self, Option.isSome_map]
  exact there

theorem Book.ended_settle {book : Book} {execution : String} (there : (book execution).isSome)
    {outcome : RunOutcome} (ends : outcome.status.isTerminal = true) :
    (book.settle execution outcome).Ended execution := by
  obtain ⟨record, known⟩ := Option.isSome_iff_exists.mp there
  exact ⟨record.settle outcome, by rw [settle, Function.update_self, known, Option.map_some], ends⟩

namespace Decision

/-- What the decision of an errand that is responsible for a run is like, where `book` is what the
acts queued before it leave of the records. Up to the result of the pass, the decision is about this
run, which has a record. A result tells that the record is final or that the run is suspended again.
With an answer the record is final, or `pends` holds, which says that the run is pending or about to
be; or the errand has broken down. -/
def Tends (engine : Engine) (book : Book) (execution : String) (pends : Prop) : Decision → Prop
  | resume purpose _ state _ _ => purpose.state?.map Suspended.execution = some execution ∧
      state.execution = execution ∧ (book execution).isSome
  | drive purpose run | conclude purpose run =>
      purpose.state?.map Suspended.execution = some execution ∧
        engine.owner? run = some execution ∧ (book execution).isSome
  | finish purpose (.ok result) => purpose.state?.map Suspended.execution = some execution ∧
      (book.Ended execution ∨ result.suspended.map Suspended.execution = some execution)
  | finish purpose (.error _) => purpose.state?.map Suspended.execution = some execution ∧
      (book execution).isSome
  | answer given => (answer given).isBroken = true ∨ book.Ended execution ∨ pends
  | _ => False

/-- The engine may have changed, as long as the pass is one of the same run, and the run may be
pending in another way. -/
theorem Tends.congr {engine after : Engine} {book : Book} {execution : String} {pends later : Prop}
    {decision : Decision} (tends : decision.Tends engine book execution pends)
    (owners : ∀ run, engine.owner? run = some execution → after.owner? run = some execution)
    (stays : pends → later) : decision.Tends after book execution later := by
  cases decision with
  | drive purpose run | conclude purpose run =>
    exact ⟨tends.1, owners run tends.2.1, tends.2.2⟩
  | finish purpose result => cases result <;> exact tends
  | answer given => exact tends.imp_right (Or.imp_right stays)
  | _ => exact tends

end Decision

/-- The errand is responsible for the run. -/
def Errand.Tends (engine : Engine) (desk : Desk) (execution : String) (errand : Errand) : Prop :=
  errand.decision.Tends engine (errand.acts.foldl Act.entered engine.book) execution
    ((desk.pending? execution).isSome ∨
      ∃ d state, .arm d state ∈ errand.acts ∧ state.execution = execution)

theorem Engine.Spares.owner? {engine after : Engine} (spares : engine.Spares after none) {run : Nat}
    {execution : String} (owner : engine.owner? run = some execution) :
    after.owner? run = some execution := by
  obtain ⟨before, found, rfl⟩ := Option.map_eq_some_iff.mp owner
  obtain ⟨later, there, goesOn⟩ := spares run before found (Option.some_ne_none run).symm
  rw [Engine.owner?, there, Option.map_some, goesOn.execution]

namespace Stride

variable {engine : Engine} {office : Office} {errand : Errand} {execution : String}

/-- An act of an errand that is responsible for a run leaves it so. -/
theorem act_tends (serves : engine.Serves) (tends : errand.Tends engine office.desk execution)
    {act : Act} {rest : List Act} (acts : errand.acts = act :: rest) :
    let stride := Stride.act engine office { errand with acts := rest } act
    stride.engine.Serves ∧ stride.errand.Tends stride.engine stride.office.desk execution := by
  obtain ⟨same, serving, book, runs⟩ := act_book serves office { errand with acts := rest } act
  obtain ⟨_, still, arms⟩ := act_desk engine office { errand with acts := rest } act
  rw [Errand.Tends, acts] at tends
  generalize Stride.act engine office { errand with acts := rest } act = stride at *
  refine ⟨serving, ?_⟩
  rw [Errand.Tends, same, book]
  refine tends.congr (fun run owner => ?_) fun pends => ?_
  · rw [Engine.owner?, Engine.run?, runs]
    exact owner
  · by_cases arming : ∃ d state, act = .arm d state
    · obtain ⟨d, state, rfl⟩ := arming
      rw [arms d state rfl, Desk.pending?_hold]
      by_cases own : execution = state.execution
      · exact .inl (by rw [if_pos own]; rfl)
      · rw [if_neg own]
        rcases pends with there | ⟨d', other, member, is⟩
        · rw [(learnNew_agrees office d).toSamePauses.pending?]
          exact .inl there
        · refine .inr ⟨d', other, (List.mem_cons.mp member).resolve_left ?_, is⟩
          rintro ⟨⟩
          exact own is.symm
    · rw [still fun d state is => arming ⟨d, state, is⟩]
      rcases pends with there | ⟨d, state, member, own⟩
      · exact .inl there
      · refine .inr ⟨d, state, (List.mem_cons.mp member).resolve_left ?_, own⟩
        exact fun is => arming ⟨d, state, is.symm⟩

/-- A step of the driver leaves the pass one of the same run, and the record where it is. -/
theorem stepRun_tends (serves : engine.Serves) {run : Nat}
    (owner : engine.owner? run = some execution) (there : (engine.book execution).isSome) :
    (engine.stepRun run .driver).1.Serves ∧
      (engine.stepRun run .driver).1.owner? run = some execution ∧
      ((engine.stepRun run .driver).1.book execution).isSome := by
  have ledger := (engine.stepRun_keeps run .driver).2
  exact ⟨serves.of_ledger ledger, (engine.spares_stepRun run .driver none).owner? owner,
    by rwa [Engine.book_of_ledger ledger]⟩

/-- When a pass has come to a result, the record of the run is final or the run is suspended again.
-/
theorem concludes_tends {process : Run} {conclusion : Conclusion} {result : RunResult}
    {happening : Happening} {purpose : Purpose} {after : Engine}
    (book : after.book = engine.book)
    (told : conclusion.result engine.moment.now process.context = .ok (result, happening))
    (claimed : purpose.state?.map Suspended.execution = some process.context.execution)
    (there : (engine.book process.context.execution).isSome) :
    (errand.go (concluding process.context engine.moment.now result happening)
        (.finish purpose (.ok result))).Tends after office.desk process.context.execution := by
  obtain ⟨⟨mine, _⟩, kept⟩ := Conclusion.kept_of_result told
  refine ⟨claimed, ?_⟩
  rcases (result_sound (some (.obj result.outputs)) told).2.2.1 with ended | ⟨state, suspended⟩
  · left
    show (after.book.settle result.execution _).Ended _
    rw [mine, book]
    exact Book.ended_settle there ended
  · right
    rw [suspended, Option.map_some, (kept state suspended).1]

/-- When the result of a pass is kept, an act is queued that makes the run pending, unless its
record is final. -/
theorem keep_tends {d : Definition} {result : RunResult} {answer : Answer}
    (either : engine.book.Ended execution ∨
      result.suspended.map Suspended.execution = some execution) :
    (errand.go (keep d result) (.answer answer)).Tends engine office.desk execution := by
  rcases either with ended | suspended
  · have same : (keep d result).foldl Act.entered engine.book = engine.book := by
      unfold keep
      split <;> rfl
    exact .inr (.inl (same.symm ▸ ended))
  · obtain ⟨state, is, own⟩ := Option.map_eq_some_iff.mp suspended
    refine .inr (.inr (.inr ⟨d, state, ?_, own⟩))
    simp [Errand.go, keep, is]

/-- A decision of an errand that is responsible for a run leaves it so. -/
theorem decide_tends (numbered : engine.Numbered) (serves : engine.Serves) (passes : errand.IsPass)
    (tends : errand.Tends engine office.desk execution) (acts : errand.acts = []) :
    (decide engine office errand).engine.Serves ∧ (decide engine office errand).errand.Tends
      (decide engine office errand).engine (decide engine office errand).office.desk execution := by
  have whole := tends
  rw [Errand.Tends, acts, List.foldl_nil] at tends
  have decides := decide_decides engine office errand
  generalize decide engine office errand = stride at decides ⊢
  generalize decision : errand.decision = stage at decides tends
  cases decides with
  | ends => exact ⟨serves, whole⟩
  | handsOn more => exact absurd (passes.alone.symm.trans more) (Option.some_ne_none _).symm
  | resumeRefused =>
    obtain ⟨claimed, rfl, there⟩ := tends
    exact ⟨serves, claimed, there⟩
  | resumes =>
    obtain ⟨claimed, rfl, there⟩ := tends
    exact ⟨serves.of_ledger rfl, claimed, numbered.owner?_adopt _, Book.isSome_settle there _⟩
  | drives =>
    obtain ⟨claimed, owner, there⟩ := tends
    obtain ⟨serving, left⟩ := stepRun_tends serves owner there
    refine ⟨serving, ?_⟩
    rw [Errand.Tends, acts, decision]
    exact ⟨claimed, left⟩
  | drivesHome =>
    obtain ⟨claimed, owner, there⟩ := tends
    obtain ⟨serving, left⟩ := stepRun_tends serves owner there
    exact ⟨serving, claimed, left⟩
  | runMissing missing =>
    obtain ⟨_, owner, _⟩ := tends
    rw [Engine.owner?, missing] at owner
    contradiction
  | drivesOn => exact ⟨serves, tends⟩
  -- there is no result where the deadline of a wait is no date: the errand breaks down
  | breaksDown => exact ⟨serves.of_ledger rfl, .inl rfl⟩
  | concludes found concluded told =>
    obtain ⟨claimed, owner, there⟩ := tends
    rw [Engine.owner?, found] at owner
    obtain rfl := Option.some.inj owner
    exact ⟨serves.of_ledger rfl, concludes_tends rfl told claimed there⟩
  | tells => exact absurd tends.1 (Option.some_ne_none _).symm
  | refuses unclaimed =>
    obtain ⟨claimed, _⟩ := tends
    rw [unclaimed] at claimed
    contradiction
  | keeps => exact ⟨serves, keep_tends tends.2⟩
  | abandons claimed =>
    obtain ⟨own, there⟩ := tends
    rw [claimed] at own
    obtain rfl := Option.some.inj own
    exact ⟨serves, .inr (.inl (Book.ended_settle there rfl))⟩
  | _ => exact tends.elim

/-- A step of an errand that is responsible for a run leaves it so. -/
theorem step_tends (numbered : engine.Numbered) (serves : engine.Serves) (passes : errand.IsPass)
    (tends : errand.Tends engine office.desk execution) :
    (step engine office errand).engine.Serves ∧ (step engine office errand).errand.Tends
      (step engine office errand).engine (step engine office errand).office.desk execution := by
  rw [step]
  split
  · rename_i acts
    exact act_tends serves tends acts
  · rename_i acts
    exact decide_tends numbered serves passes tends acts

end Stride

namespace Site

variable {site : Site} {id : Nat} {execution : String} {learned : Definition → Prop}
  {among : String → Prop}

/-- The move is a turn of the errand or of a branch, or lets time pass; and the errand has not
broken down. -/
def Attends (id : Nat) (site : Site) (m : Move) : Prop :=
  m.IsOf id ∧ ∀ errand, site.office.errand? id = some errand → errand.decision.isBroken = false

instance decidableAttends (id : Nat) (site : Site) (m : Move) : Decidable (site.Attends id m) :=
  inferInstanceAs (Decidable (m.IsOf id ∧
    ∀ errand ∈ site.office.errand? id, errand.decision.isBroken = false))

/-- The errand is responsible for the run, or it has come to its end and has left the run pending or
with a final record. -/
structure Tended (site : Site) (id : Nat) (execution : String) : Prop where
  serves : site.engine.Serves
  tends : ∀ errand, site.office.errand? id = some errand →
    errand.Tends site.engine site.office.desk execution
  done : site.office.errand? id = none →
    (site.office.desk.pending? execution).isSome ∨ site.engine.book.Ended execution

namespace Tended

/-- A move that leaves the errand, the ledger, the passes and the desk as they are. -/
theorem aside {after : Site} (tended : site.Tended id execution)
    (ledger : after.engine.ledger = site.engine.ledger)
    (spares : site.engine.Spares after.engine none)
    (errand : after.office.errand? id = site.office.errand? id)
    (desk : after.office.desk = site.office.desk) : after.Tended id execution where
  serves := tended.serves.of_ledger ledger
  tends errand' found := by
    have before := tended.tends errand' (errand ▸ found)
    rw [Errand.Tends, desk, Engine.book_of_ledger ledger]
    exact before.congr (fun run owner => spares.owner? owner) fun pends => pends
  done gone := by
    rw [desk, Engine.book_of_ledger ledger]
    exact tended.done (errand ▸ gone)

/-- The errand takes its turn. -/
theorem turn (tended : site.Tended id execution) (numbered : site.engine.Numbered)
    (passes : site.Passes id) (unbroken : ∀ errand, site.office.errand? id = some errand →
      errand.decision.isBroken = false) : (site.move (.turn id)).Tended id execution := by
  cases found : site.office.errand? id with
  | none =>
    have still : site.move (.turn id) = site := by simp only [move, Site.turn, found]
    exact still.symm ▸ tended
  | some errand =>
    have tends := tended.tends errand found
    obtain ⟨serves, later⟩ :=
      Stride.step_tends numbered tended.serves (passes errand found) tends
    rw [move_turn found]
    refine ⟨serves, fun next there => ?_, fun gone => ?_⟩
    · rw [desk_land, eq_of_mem_land (Table.mem_of_lookup there)]
      exact later
    · -- an errand is gone only once it has answered, and then all its acts are carried out
      have finished : (Stride.step site.engine site.office errand).signal = .finished := by
        by_contra goes
        have errands := (Stride.step_errands site.engine site.office errand).1
        have there := Office.isSome_errand?_of_errands (Option.isSome_of_eq_some found) errands
        simp only [land, if_neg goes, errand?_set there] at gone
        contradiction
      obtain ⟨⟨answer, acts, decision⟩, same⟩ := Stride.step_finished finished
      rw [same, Errand.Tends, acts, decision] at later
      rw [desk_land]
      rcases later with broken | ended | pending | ⟨d, state, member, _⟩
      · rw [← decision, unbroken errand found] at broken
        contradiction
      · exact .inr ended
      · exact .inl pending
      · contradiction

/-- Over any schedule, the errand stays responsible for the run until it has come to its end. -/
theorem play (tended : site.Tended id execution) (confines : site.Confines id learned among)
    {schedule : List Move} (attends : site.Along (Attends id) schedule) :
    (site.play schedule).Tended id execution := by
  induction schedule generalizing site with
  | nil => exact tended
  | cons m rest ih =>
    obtain ⟨⟨here, unbroken⟩, further⟩ := attends
    refine ih ?_ (confines.move m).1 further
    cases m with
    | turn asked =>
      obtain rfl : asked = id := here
      have passes : site.Passes asked := fun errand found => (confines.errand errand found).passes
      exact tended.turn confines.numbered passes unbroken
    | branch run task =>
      exact tended.aside (site.engine.stepRun_keeps run (.branch task)).2
        (site.engine.spares_stepRun run _ none) rfl rfl
    | pass clock => exact tended.aside rfl (.of_runs rfl) rfl rfl
    | order | ring | learn => exact here.elim

end Tended

end Site

end DurableFlow
