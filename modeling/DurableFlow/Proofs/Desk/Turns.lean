import DurableFlow.Proofs.Desk.Purposes
import DurableFlow.Proofs.Desk.Restoring

/-!
# The turns of one errand

What an errand makes of an office when it takes its turns and nothing else happens: its acts are
carried out one after another, and its decision is made on what they have left.
-/

namespace DurableFlow

namespace Act

/-- An act that has nothing to do with the office. -/
def isPlain : Act → Bool
  | arm .. | register .. | unregister .. => false
  | _ => true

/-- The engine once a plain act is carried out. -/
def carried (engine : Engine) : Act → Engine
  | saveRun record => engine.write (·.saveRun record)
  | settleRun execution outcome => engine.write (·.settleRun execution outcome)
  | saveSuspended state => engine.write (·.saveSuspended state)
  | deleteSuspended execution => engine.write (·.deleteSuspended execution)
  | saveSubscription subscription => engine.write (·.saveSubscription subscription)
  | deleteSubscription workflow => engine.write (·.deleteSubscription workflow)
  | publish notice => engine.publish notice
  | count tally => engine.count tally
  | _ => engine

theorem act_carried {act : Act} (plain : act.isPlain = true) (engine : Engine) (office : Office)
    (errand : Errand) :
    Stride.act engine office errand act = ⟨act.carried engine, office, errand, .proceed, []⟩ := by
  cases act <;> first | rfl | contradiction

end Act

namespace Office

/-- A pending run that is released is taken off the desk. -/
theorem release_desk {office : Office} {execution : String} {pending : Pending}
    (found : office.desk.pending? execution = some pending) :
    (office.release execution).desk = office.desk.take execution := by
  rw [release, found]

theorem setErrand_setErrand (office : Office) (id : Nat) (first second : Errand) :
    (office.setErrand id first).setErrand id second = office.setErrand id second :=
  congrArg (office.withErrands · office.nextErrand)
    (Table.update_update id (fun _ => first) (fun _ => second) office.errands)

theorem isSome_errand?_of_errands {office after : Office} {id : Nat}
    (there : (office.errand? id).isSome) (same : after.errands = office.errands) :
    (after.errand? id).isSome := by
  rw [errand?, same]
  exact there

end Office

namespace Site

variable {engine after : Engine} {office later : Office} {id : Nat} {errand next : Errand}
  {requests : List Request}

/-- The site after some turns of an errand, while nothing else happens. -/
def turned (site : Site) (id turns : Nat) : Site := site.play (List.replicate turns (.turn id))

theorem turned_add (site : Site) (id first second : Nat) :
    site.turned id (first + second) = (site.turned id first).turned id second := by
  rw [turned, List.replicate_add, play_append]
  rfl

/-- After some turns an errand has come to its answer, and after one more, everything is as it was
but for the engine. -/
structure Settles (site : Site) (id turns : Nat) (answer : Answer) (engine : Engine) : Prop where
  answer : ((site.turned id turns).office.errand? id).bind Errand.answer? = some answer
  rest : site.turned id (turns + 1) = ⟨engine, site.office.dropErrand id⟩

theorem errand?_set (there : (office.errand? id).isSome) (errand : Errand) :
    (office.setErrand id errand).errand? id = some errand := by
  obtain ⟨old, found⟩ := Option.isSome_iff_exists.mp there
  exact errand?_setErrand found

/-- A step does not look at the errand in the office. -/
theorem step_set (engine : Engine) (office : Office) (id : Nat) (errand : Errand) :
    Stride.step engine (office.setErrand id errand) errand =
      (Stride.step engine office errand).withErrands (office.setErrand id errand).errands
        office.nextErrand :=
  Stride.step_withErrands engine office errand _ _

/-- The turn of an errand that goes on. -/
theorem move_found {site : Site} (found : site.office.errand? id = some errand)
    (steps : Stride.step site.engine site.office errand =
      ⟨after, later, next, .proceed, requests⟩) :
    site.move (.turn id) = ⟨after, later.setErrand id next⟩ ∧ (later.errand? id).isSome := by
  have errands := (Stride.step_errands site.engine site.office errand).1
  rw [steps] at errands
  refine ⟨?_, Office.isSome_errand?_of_errands (found ▸ rfl) errands⟩
  rw [move_turn found, steps]
  simp only [land, reduceCtorEq, if_false]

/-- A turn after which the errand goes on. -/
theorem move_set (there : (office.errand? id).isSome)
    (steps : Stride.step engine office errand = ⟨after, later, next, .proceed, requests⟩) :
    move ⟨engine, office.setErrand id errand⟩ (.turn id) = ⟨after, later.setErrand id next⟩ := by
  obtain ⟨errands, nextErrand⟩ := Stride.step_errands engine office errand
  have landed : land ((Stride.step engine office errand).withErrands
      (office.setErrand id errand).errands office.nextErrand) id =
        ⟨after, later.setErrand id next⟩ := by
    rw [steps] at errands nextErrand ⊢
    have set : (later.setErrand id errand).setErrand id next = later.setErrand id next :=
      later.setErrand_setErrand id errand next
    rw [← set]
    change later.errands = office.errands at errands
    change later.nextErrand = office.nextErrand at nextErrand
    simp only [land, Stride.withErrands, Office.withErrands, Office.setErrand, ← errands,
      ← nextErrand, reduceCtorEq, if_false]
  rw [move_turn (errand?_set there errand), step_set]
  exact landed

/-- The last turn of an errand that has come to its answer. -/
theorem move_set_answer (there : (office.errand? id).isSome) {answer : Answer}
    {isCancelled : Bool} :
    move ⟨engine, office.setErrand id { decision := .answer answer, isCancelled }⟩ (.turn id) =
      ⟨engine, office.dropErrand id⟩ := by
  rw [move_turn (errand?_set there _)]
  refine (congrArg (Site.mk engine) ?_ :
    land ⟨engine, office.setErrand id _, { decision := .answer answer, isCancelled }, .finished, []⟩
      id = ⟨engine, office.dropErrand id⟩)
  simp only [if_true]
  rw [Office.setErrand_setErrand, dropErrand_setErrand_self]

theorem settles {site : Site} {turns : Nat} {answer : Answer} {isCancelled : Bool}
    (ends : site.turned id turns =
      ⟨engine, site.office.setErrand id { decision := .answer answer, isCancelled }⟩)
    (there : (site.office.errand? id).isSome) : site.Settles id turns answer engine where
  answer := by
    rw [ends, errand?_set there]
    rfl
  rest := by
    rw [turned_add, ends]
    exact move_set_answer there

/-- The same for an errand that has just been set. -/
theorem settles_set {start : Engine} {turns : Nat} {answer : Answer} {isCancelled : Bool}
    (there : (office.errand? id).isSome)
    (ends : turned ⟨start, office.setErrand id errand⟩ id turns =
      ⟨engine, office.setErrand id { decision := .answer answer, isCancelled }⟩) :
    Settles ⟨start, office.setErrand id errand⟩ id turns answer engine := by
  have same := office.setErrand_setErrand id errand { decision := .answer answer, isCancelled }
  exact settles (ends.trans (congrArg (Site.mk engine) same.symm))
    (Option.isSome_of_eq_some (errand?_set there errand))

/-- The first acts of an errand are carried out one after another. -/
theorem play_acts_append (engine : Engine) {acts : List Act} (rest : List Act)
    (plain : ∀ act ∈ acts, act.isPlain = true) (there : (office.errand? id).isSome)
    (errand : Errand) :
    turned ⟨engine, office.setErrand id { errand with acts := acts ++ rest }⟩ id acts.length =
      ⟨acts.foldl Act.carried engine, office.setErrand id { errand with acts := rest }⟩ := by
  induction acts generalizing engine with
  | nil => rfl
  | cons act others ih =>
    have carries : Stride.step engine office { errand with acts := act :: (others ++ rest) } =
        ⟨act.carried engine, office, { errand with acts := others ++ rest }, .proceed, []⟩ :=
      Act.act_carried (plain act List.mem_cons_self) engine office _
    have later := ih (act.carried engine) fun other member =>
      plain other (List.mem_cons_of_mem act member)
    rw [← move_set there carries] at later
    exact later

/-- All acts of an errand are carried out one after another. -/
theorem play_acts (engine : Engine) {acts : List Act} (plain : ∀ act ∈ acts, act.isPlain = true)
    (there : (office.errand? id).isSome) (errand : Errand) :
    turned ⟨engine, office.setErrand id { errand with acts := acts }⟩ id acts.length =
      ⟨acts.foldl Act.carried engine, office.setErrand id { errand with acts := [] }⟩ := by
  have played := play_acts_append engine [] plain there errand
  rwa [List.append_nil] at played

end Site

end DurableFlow
