import DurableFlow.Proofs.Desk.Apart
import DurableFlow.Proofs.Desk.AtMostOnce

/-!
# What a pass is for

What a pass is for decides what becomes of its result, and nothing before. An errand that lets a
run begin or go on takes the same steps for every purpose until it has the result in hand, however
these steps are interleaved with what happens besides: so a run that an event or the end of its
wait lets go on goes on as it does when the engine is asked for nothing else.
-/

namespace DurableFlow

namespace Decision

/-- The decision is about one pass: to begin it, to drive it, or to answer with its result. -/
def isPass : Decision → Bool
  | answer _ | start .. | resume .. | drive .. | conclude .. | finish .. => true
  | _ => false

/-- The same decision, for another purpose. -/
def repurposed (p : Purpose) : Decision → Decision
  | start _ d input execution => start p d input execution
  | resume _ d state node delta => resume p d state node delta
  | drive _ run => drive p run
  | conclude _ run => conclude p run
  | finish _ result => finish p result
  | decision => decision

end Decision

namespace Errand

/-- The errand is about one pass, and about no event that further handlers are to have. -/
structure IsPass (errand : Errand) : Prop where
  alone : errand.delivery = none
  decision : errand.decision.isPass = true

/-- The errand is next to do with a result what its purpose asks for. -/
def isFinishing (errand : Errand) : Bool :=
  match errand.acts, errand.decision with
  | [], .finish .. => true
  | _, _ => false

/-- The same errand, for another purpose. -/
def repurposed (p : Purpose) (errand : Errand) : Errand :=
  { errand with decision := errand.decision.repurposed p }

end Errand

namespace Office

/-- The office with an errand for another purpose. -/
def repurposed (office : Office) (id : Nat) (p : Purpose) : Office :=
  office.withErrands (Table.update id (Errand.repurposed p) office.errands) office.nextErrand

variable (office : Office) {id other : Nat} (p : Purpose)

theorem errand?_repurposed (id other : Nat) :
    (office.repurposed id p).errand? other =
      if other = id then (office.errand? id).map (Errand.repurposed p) else office.errand? other :=
  Table.lookup_update id other (Errand.repurposed p) office.errands

theorem setErrand_repurposed_of_ne (different : other ≠ id) (errand : Errand) :
    (office.repurposed id p).setErrand other errand =
      (office.setErrand other errand).repurposed id p :=
  congrArg (office.withErrands · office.nextErrand)
    (Table.update_comm different (Errand.repurposed p) (fun _ => errand) office.errands)

theorem setErrand_repurposed (id : Nat) (errand : Errand) :
    (office.repurposed id p).setErrand id (errand.repurposed p) =
      (office.setErrand id errand).repurposed id p := by
  have set :=
    Table.update_update id (Errand.repurposed p) (fun _ => errand.repurposed p) office.errands
  have served := Table.update_update id (fun _ => errand) (Errand.repurposed p) office.errands
  exact congrArg (office.withErrands · office.nextErrand) (set.trans served.symm)

theorem dropErrand_repurposed (id other : Nat) :
    (office.repurposed id p).dropErrand other = (office.dropErrand other).repurposed id p :=
  congrArg (office.withErrands · office.nextErrand)
    (Table.filter_update id other (Errand.repurposed p) office.errands)

theorem takeOn_repurposed (used : id < office.nextErrand) (errand : Errand) :
    ((office.repurposed id p).takeOn errand).2 = (office.takeOn errand).2.repurposed id p := by
  have new : office.nextErrand ≠ id := by omega
  have errands : Table.update id (Errand.repurposed p)
        (office.errands ++ [(office.nextErrand, errand)]) =
      Table.update id (Errand.repurposed p) office.errands ++ [(office.nextErrand, errand)] := by
    rw [Table.update, List.map_append, List.map_singleton, if_neg new]
    rfl
  exact congrArg (office.withErrands · (office.nextErrand + 1)) errands.symm

end Office

namespace Stride

/-- The stride of an errand for another purpose. -/
def repurposed (stride : Stride) (p : Purpose) : Stride :=
  { stride with errand := stride.errand.repurposed p }

variable {errand : Errand}

/-- An errand that has no result yet takes the same step for every purpose, and goes on about the
same pass. -/
theorem step_repurposed (engine : Engine) (office : Office) (p : Purpose) (passes : errand.IsPass)
    (unfinished : errand.isFinishing = false) :
    step engine office (errand.repurposed p) = (step engine office errand).repurposed p ∧
      (step engine office errand).errand.IsPass := by
  obtain ⟨acts, decision, delivery, isCancelled⟩ := errand
  obtain ⟨rfl, passes⟩ := passes
  dsimp only at passes
  cases acts with
  | cons act rest => cases act <;> exact ⟨rfl, rfl, passes⟩
  | nil =>
    simp only [step, Errand.repurposed]
    cases decision with
    | answer answer => exact ⟨rfl, rfl, rfl⟩
    | start purpose d input execution =>
      simp only [decide, Decision.repurposed, start]
      cases engine.validate d <;> exact ⟨rfl, rfl, rfl⟩
    | resume purpose d state node delta =>
      simp only [decide, Decision.repurposed, resume]
      cases checkResume engine d state node <;> exact ⟨rfl, rfl, rfl⟩
    | drive purpose run =>
      simp only [decide, Decision.repurposed, drive]
      cases (engine.stepRun run .driver).2.2 <;> exact ⟨rfl, rfl, rfl⟩
    | conclude purpose run =>
      simp only [decide, Decision.repurposed, conclude]
      cases engine.run? run with
      | none => exact ⟨rfl, rfl, rfl⟩
      | some found =>
        cases drives : found.drive with
        | concluded conclusion =>
          cases result : conclusion.result engine.moment.now found.context <;>
            simp only [drives, result] <;> exact ⟨rfl, rfl, rfl⟩
        | _ =>
          simp only [drives]
          exact ⟨rfl, rfl, rfl⟩
    -- only with a result in hand does the errand look at the purpose
    | finish => contradiction
    | _ => contradiction

end Stride

namespace Site

/-- The site with an errand for another purpose. -/
def repurposed (site : Site) (id : Nat) (p : Purpose) : Site :=
  { site with office := site.office.repurposed id p }

variable {site : Site} {id other : Nat} {p : Purpose}

theorem land_repurposed_of_ne (different : other ≠ id) (stride : Stride) :
    land (stride.withErrands (stride.office.repurposed id p).errands stride.office.nextErrand)
        other = (land stride other).repurposed id p := by
  have set := Office.setErrand_repurposed_of_ne stride.office p different stride.errand
  have dropped := Office.dropErrand_repurposed
    (stride.office.setErrand other stride.errand) p id other
  rw [← set] at dropped
  unfold land Stride.withErrands
  dsimp only
  split
  · exact congrArg (Site.mk stride.engine) dropped
  · exact congrArg (Site.mk stride.engine) set

/-- Other errands take the same turns. -/
theorem turn_repurposed_of_ne (site : Site) (different : other ≠ id) :
    (site.repurposed id p).turn other = (site.turn other).repurposed id p := by
  have asked : (site.repurposed id p).office.errand? other = site.office.errand? other :=
    (site.office.errand?_repurposed p id other).trans (if_neg different)
  simp only [turn, asked]
  split
  · rfl
  · rename_i errand _
    obtain ⟨errands, nextErrand⟩ := Stride.step_errands site.engine site.office errand
    have alike : Stride.step site.engine (site.office.repurposed id p) errand =
        (Stride.step site.engine site.office errand).withErrands
          ((Stride.step site.engine site.office errand).office.repurposed id p).errands
          (Stride.step site.engine site.office errand).office.nextErrand := by
      have served : ((Stride.step site.engine site.office errand).office.repurposed id p).errands =
          Table.update id (Errand.repurposed p) site.office.errands :=
        congrArg (Table.update id (Errand.repurposed p)) errands
      rw [served, nextErrand, Office.repurposed, Stride.step_withErrands]
    exact (congrArg (land · other) alike).trans (land_repurposed_of_ne different _)

/-- The errand itself takes the same turns until it has a result. -/
theorem turn_repurposed {errand : Errand} (found : site.office.errand? id = some errand)
    (passes : errand.IsPass) (unfinished : errand.isFinishing = false) :
    (site.repurposed id p).turn id = (site.turn id).repurposed id p := by
  have asked : (site.repurposed id p).office.errand? id = some (errand.repurposed p) := by
    refine (site.office.errand?_repurposed p id id).trans ?_
    rw [if_pos rfl, found, Option.map_some]
  have same : Stride.step site.engine (site.office.repurposed id p) (errand.repurposed p) =
      ((Stride.step site.engine site.office errand).repurposed p).withErrands
        (Table.update id (Errand.repurposed p) site.office.errands) site.office.nextErrand := by
    rw [Office.repurposed, Stride.step_withErrands,
      (Stride.step_repurposed site.engine site.office p passes unfinished).1]
  obtain ⟨errands, nextErrand⟩ := Stride.step_errands site.engine site.office errand
  simp only [turn, asked, found]
  refine (congrArg (land · id) same).trans ?_
  rw [← errands, ← nextErrand]
  generalize Stride.step site.engine site.office errand = stride
  have set := Office.setErrand_repurposed stride.office p id stride.errand
  have dropped := Office.dropErrand_repurposed
    (stride.office.setErrand id stride.errand) p id id
  rw [← set] at dropped
  unfold land Stride.withErrands Stride.repurposed
  dsimp only
  split
  · exact congrArg (Site.mk stride.engine) dropped
  · exact congrArg (Site.mk stride.engine) set

/-- The errand is about one pass, if it is there. -/
def Passes (site : Site) (id : Nat) : Prop :=
  ∀ errand, site.office.errand? id = some errand → errand.IsPass

/-- The move is no turn of the errand, or the errand has no result yet. -/
def Goes (id : Nat) (site : Site) (m : Move) : Prop :=
  m = .turn id → ∀ errand, site.office.errand? id = some errand → errand.isFinishing = false

/-- Every move comes to the same while the errand has no result. -/
theorem move_repurposed (used : id < site.office.nextErrand) (passes : site.Passes id) {m : Move}
    (goes : site.Goes id m) :
    (site.repurposed id p).move m = (site.move m).repurposed id p ∧ (site.move m).Passes id := by
  by_cases own : m = .turn id
  · subst own
    cases found : site.office.errand? id with
    | none =>
      have asked : (site.repurposed id p).office.errand? id = none := by
        refine (site.office.errand?_repurposed p id id).trans ?_
        rw [if_pos rfl, found, Option.map_none]
      refine ⟨?_, ?_⟩
      · simp only [move, turn, asked, found]
      · intro errand there
        simp only [move, turn, found] at there
        contradiction
    | some errand =>
      have unfinished := goes rfl errand found
      refine ⟨turn_repurposed found (passes errand found) unfinished, fun next there => ?_⟩
      rw [move_turn found] at there
      rw [eq_of_mem_land (Table.mem_of_lookup there)]
      exact (Stride.step_repurposed site.engine site.office p (passes errand found) unfinished).2
  · refine ⟨?_, fun errand there => passes errand (errand?_move used own ▸ there)⟩
    cases m with
    | order order => exact congrArg (Site.mk site.engine) (Office.takeOn_repurposed _ p used _)
    | turn asked =>
      refine turn_repurposed_of_ne site ?_
      rintro rfl
      exact own rfl
    | ring asked =>
      have same : (site.repurposed id p).office.alarms = site.office.alarms := rfl
      simp only [move, ring, same]
      cases site.office.alarms.find? (·.id == asked) with
      | none => rfl
      | some alarm =>
        dsimp only
        have silent : (site.repurposed id p).office.silence (some asked) =
            (site.office.silence (some asked)).repurposed id p := rfl
        by_cases opened : (site.office.silence (some asked)).isOpen = true
        · rw [if_pos opened]
          refine (if_pos opened).trans ?_
          have new : site.office.nextErrand ≠ id := by omega
          have taken := Office.takeOn_repurposed (site.office.silence (some asked)) p used
            { decision := .expire alarm.execution }
          rw [← silent] at taken
          exact (congrArg (fun office => turn ⟨site.engine, office⟩ site.office.nextErrand)
            taken).trans (turn_repurposed_of_ne ⟨site.engine, _⟩ new)
        · rw [if_neg opened]
          exact if_neg opened
    | branch | learn | pass => rfl

/-- Until the errand has a result, everything goes on the same whatever it is for. -/
theorem play_repurposed (used : id < site.office.nextErrand) (passes : site.Passes id)
    {schedule : List Move} (goes : site.Along (Goes id) schedule) :
    (site.repurposed id p).play schedule = (site.play schedule).repurposed id p := by
  induction schedule generalizing site with
  | nil => rfl
  | cons m rest ih =>
    obtain ⟨same, still⟩ := move_repurposed (p := p) used passes goes.1
    rw [play_cons, play_cons, same]
    exact ih (Nat.lt_of_lt_of_le used (nextErrand_le_move site m)) still goes.2

/-- An errand asks for a pass, and until the pass has its result, everything goes on as it does when
the engine is asked for the pass and for nothing else. -/
structure Requests (site : Site) (id : Nat) (purpose : Purpose) (pass : Purpose → Decision)
    (isCancelled : Bool) : Prop where
  asks : site.office.errand? id = some { decision := pass purpose, isCancelled }
  alike : (site.repurposed id .direct).office.errand? id =
    some { decision := pass .direct, isCancelled }
  same : ∀ schedule, site.Along (Goes id) schedule →
    (site.repurposed id .direct).play schedule = (site.play schedule).repurposed id .direct

theorem requests {purpose : Purpose} {pass : Purpose → Decision} {isCancelled : Bool}
    (used : id < site.office.nextErrand) (passes : (pass purpose).isPass = true)
    (alike : (pass purpose).repurposed .direct = pass .direct)
    (asks : site.office.errand? id = some { decision := pass purpose, isCancelled }) :
    site.Requests id purpose pass isCancelled where
  asks := asks
  alike := by
    refine (site.office.errand?_repurposed .direct id id).trans ?_
    rw [if_pos rfl, asks, Option.map_some, Errand.repurposed, alike]
  same schedule goes := by
    refine play_repurposed used (fun errand there => ?_) goes
    rw [asks, Option.some.injEq] at there
    exact there ▸ ⟨rfl, passes⟩

end Site

end DurableFlow
