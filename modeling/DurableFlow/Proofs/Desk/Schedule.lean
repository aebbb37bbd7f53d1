import DurableFlow.Proofs.Desk.Charge
import Mathlib.Data.List.Induction

/-!
# Schedules of an office and the pauses of a run

An office is asked to do things, its errands, its branches and its alarms take their turns
in any order, and time passes. A list of such moves is a schedule. What a schedule tells of
one execution is a list of passages: a pause begins when the run becomes pending and ends
when it is taken out of the pending ones, and then the engine may be asked to let it go on.

`History` says what such a list looks like when nothing goes wrong. `Life` reads a list from
the front and remembers where the run stands, so that it can be checked move by move.
-/

namespace DurableFlow

/-- What happens to the pauses of a run. -/
inductive Passage where
  /-- The run becomes pending, with the alarm that is set for this pause. -/
  | entered (state : Suspended) (alarm : Option Nat)
  /-- The run is taken out of the pending ones. -/
  | left (exit : Exit)
  /-- The engine is asked to let the run go on. -/
  | resumed (state : Suspended)
deriving DecidableEq, Repr

namespace Passage

/-- The alarm that is set. -/
def alarm? : Passage → Option Nat
  | entered _ alarm => alarm
  | _ => none

/-- The passages of a run whose pauses are each left once, by one of the ways to leave them,
and for which the engine is asked to let the run go on only then, and once. An alarm ends no
pause but the one that it was set for. -/
inductive History : List Passage → Prop where
  | nil : History []
  | pending (state : Suspended) (alarm : Option Nat) : History [entered state alarm]
  | left (state : Suspended) (alarm : Option Nat) (exit : Exit) (fits : exit.fits alarm = true) :
      History [entered state alarm, left exit]
  | resumed (state : Suspended) (alarm : Option Nat) (exit : Exit)
      (fits : exit.fits alarm = true) (claims : exit.claims = true) {later : List Passage}
      (next : History later) :
      History (entered state alarm :: left exit :: resumed state :: later)

end Passage

/-- What an office may be asked to do while it restores nothing. -/
inductive Order where
  /-- Run a workflow, and keep the run pending when it is suspended. -/
  | run (d : Definition) (input : Data)
  | handle (d : Definition) (event : Event)
  | cancel (execution : String)
  | stop (workflow : String)
  | deploy (d : Definition) (url : String) (config : Fields Data)
  | dispatch (event : Event)

namespace Order

/-- The decision that an order is taken on with. -/
def decision : Order → Decision
  | run d input => .start (.kept d) d input none
  | handle d event => .claim d event
  | cancel execution => .cancel execution
  | stop workflow => .stop workflow
  | deploy d url config => .deploy d url config
  | dispatch event => .dispatch event

end Order

/-- An engine and an office that works with it. -/
structure Site where
  engine : Engine
  office : Office

namespace Site

/-- What happens next. -/
inductive Move where
  | order (order : Order)
  /-- An errand takes a step. -/
  | turn (errand : Nat)
  /-- A branch of a run takes a step. -/
  | branch (run id : Nat)
  /-- The time of an alarm has come. -/
  | ring (alarm : Nat)
  /-- A definition is made known. -/
  | learn (d : Definition)
  /-- The clock shows another time. -/
  | pass (clock : Nat)

/-- The workflow whose definition a move makes known. -/
def Move.learns? : Move → Option String
  | .learn d => some d.id
  | _ => none

/-- A site at which nothing has happened. -/
def opened (catalog : Catalog) (limit : Nat) (ledger : Option Ledger) (epoch : Instant)
    (policy : TimeoutPolicy) : Site where
  engine := { catalog, limit, ledger, epoch }
  office := { desk := { policy } }

def pending? (site : Site) (execution : String) : Option Pending :=
  site.office.desk.pending? execution

/-- The site after a stride of an errand, which is dropped when it has come to its end. -/
def land (stride : Stride) (id : Nat) : Site :=
  let office := stride.office.setErrand id stride.errand
  ⟨stride.engine, if stride.signal = .finished then office.dropErrand id else office⟩

/-- An errand takes a step. -/
def turn (site : Site) (id : Nat) : Site :=
  match site.office.errand? id with
  | none => site
  | some errand => land (Stride.step site.engine site.office errand) id

/-- The time of an alarm has come. Unless the alarm has been stopped, the wait of its run is
over at once. -/
def ring (site : Site) (id : Nat) : Site :=
  match site.office.alarms.find? (·.id == id) with
  | none => site
  | some alarm =>
    let office := site.office.silence (some id)
    if office.isOpen then
      let (errand, office) := office.takeOn { decision := .expire alarm.execution }
      turn ⟨site.engine, office⟩ errand
    else ⟨site.engine, office⟩

/-- The site after a move. -/
def move (site : Site) : Move → Site
  | .order order => { site with office := (site.office.takeOn { decision := order.decision }).2 }
  | .turn id => site.turn id
  | .branch run id => { site with engine := (site.engine.stepRun run (.branch id)).1 }
  | .ring id => site.ring id
  | .learn d => { site with office := { site.office with desk := site.office.desk.learn d } }
  | .pass clock => { site with engine := { site.engine with clock } }

/-- What a move has to do with pauses. -/
def deed (site : Site) : Move → Deed
  | .turn id => ((site.office.errand? id).map Errand.deed).getD .nothing
  | .ring id => .release (.expiry id)
  | _ => .nothing

end Site

namespace Deed

/-- How a run that is pending no more has left its pause. -/
def exit : Deed → Exit
  | release exit => exit
  | _ => .otherwise

/-- What is told of an execution that was pending before, or not, and is pending after, or
not. -/
def passages (deed : Deed) (execution : String) (before after : Option Pending) : List Passage :=
  (if before.isSome ∧ after ≠ before then [.left deed.exit] else []) ++
    match deed with
    | pause state =>
      if state.execution = execution then [.entered state (after.bind Pending.alarm)] else []
    | resume state => if state.execution = execution then [.resumed state] else []
    | _ => []

/-- What is told of an execution between two sites. -/
def tells (deed : Deed) (site after : Site) (execution : String) : List Passage :=
  deed.passages execution (site.pending? execution) (after.pending? execution)

/-- A calm deed tells nothing of a run that stays where it is. -/
theorem IsCalm.passages_self {deed : Deed} (calm : deed.IsCalm) (execution : String)
    (pending : Option Pending) : deed.passages execution pending pending = [] := by
  cases deed with
  | nothing => simp [passages]
  | release exit => simp [passages]
  | pause state => exact calm.elim
  | resume state => exact calm.elim

theorem alarms_passages (deed : Deed) (execution : String) (before after : Option Pending) :
    (deed.passages execution before after).filterMap Passage.alarm? =
      match deed with
      | pause state => if state.execution = execution then (after.bind Pending.alarm).toList else []
      | _ => [] := by
  have gone : (if before.isSome ∧ after ≠ before then [Passage.left deed.exit] else []).filterMap
      Passage.alarm? = [] := by
    split <;> rfl
  unfold passages
  rw [List.filterMap_append, gone, List.nil_append]
  cases deed with
  | pause state =>
    by_cases same : state.execution = execution
    · cases after.bind Pending.alarm <;> simp [same, Passage.alarm?]
    · simp [same]
  | resume state => by_cases same : state.execution = execution <;> simp [same, Passage.alarm?]
  | _ => rfl

end Deed

namespace Site

/-- What a move tells of an execution. -/
def passages (site : Site) (m : Move) : String → List Passage :=
  (site.deed m).tells site (site.move m)

/-- The site after all moves of a schedule. -/
def play (site : Site) (schedule : List Move) : Site := schedule.foldl move site

/-- What a schedule tells of an execution. -/
def log (site : Site) (execution : String) : List Move → List Passage
  | [] => []
  | m :: rest => site.passages m execution ++ (site.move m).log execution rest

@[simp] theorem play_nil (site : Site) : site.play [] = site := rfl

@[simp] theorem play_cons (site : Site) (m : Move) (rest : List Move) :
    site.play (m :: rest) = (site.move m).play rest := rfl

/-- Every move of a schedule is one of a kind, where it is made. -/
def Along (kind : Site → Move → Prop) (site : Site) : List Move → Prop
  | [] => True
  | m :: rest => kind site m ∧ (site.move m).Along kind rest

instance decidableAlong (kind : Site → Move → Prop) [∀ site m, Decidable (kind site m)]
    (site : Site) : (schedule : List Move) → Decidable (site.Along kind schedule)
  | [] => inferInstanceAs (Decidable True)
  | m :: rest =>
    let _ := decidableAlong kind (site.move m) rest
    inferInstanceAs (Decidable (kind site m ∧ (site.move m).Along kind rest))

theorem play_append (site : Site) (first second : List Move) :
    site.play (first ++ second) = (site.play first).play second :=
  List.foldl_append

theorem log_append (site : Site) (execution : String) (first second : List Move) :
    site.log execution (first ++ second) =
      site.log execution first ++ (site.play first).log execution second := by
  induction first generalizing site with
  | nil => rfl
  | cons m rest ih => rw [List.cons_append, log, ih, log, List.append_assoc, play_cons]

end Site

/-- Where a run stands between its pauses. -/
inductive Life where
  /-- It has not been suspended since it began, or since it was let go on. -/
  | away
  | waiting (state : Suspended) (alarm : Option Nat)
  /-- Somebody has claimed it who may let it go on. -/
  | claimed (state : Suspended)
  /-- It does not go on any more. -/
  | gone
deriving DecidableEq

namespace Life

/-- Where a run stands once it has left a pause. -/
def after (state : Suspended) (exit : Exit) : Life := if exit.claims then claimed state else gone

/-- Where a passage leads to. -/
def next : Life → Passage → Option Life
  | away, .entered state alarm => some (waiting state alarm)
  | waiting state alarm, .left exit => if exit.fits alarm then some (after state exit) else none
  | claimed state, .resumed other => if other = state then some away else none
  | _, _ => none

/-- Where a run stands once its workflow has been stopped. -/
def stop (workflow : String) : Life → Life
  | waiting state alarm => if state.workflow = workflow then gone else waiting state alarm
  | life => life

/-- Where passages lead to, one after another. -/
def follow (life : Life) : List Passage → Option Life
  | [] => some life
  | passage :: rest => (life.next passage).bind (·.follow rest)

@[simp] theorem follow_nil (life : Life) : life.follow [] = some life := rfl

theorem follow_append (life : Life) (first second : List Passage) :
    life.follow (first ++ second) = (life.follow first).bind (·.follow second) := by
  induction first generalizing life with
  | nil => rfl
  | cons passage rest ih =>
    rw [List.cons_append, follow, follow]
    cases life.next passage with
    | none => rfl
    | some middle => exact ih middle

theorem follow_singleton (life : Life) (passage : Passage) :
    life.follow [passage] = life.next passage := by
  rw [follow]
  cases life.next passage <;> rfl

variable {life after : Life} {state : Suspended} {alarm : Option Nat}

theorem stop_eq_waiting_iff {workflow : String} :
    life.stop workflow = waiting state alarm ↔
      life = waiting state alarm ∧ state.workflow ≠ workflow := by
  cases life with
  | waiting other set =>
    simp only [stop]
    split
    · rename_i own
      simp only [reduceCtorEq, waiting.injEq, false_iff, not_and, not_not, and_imp]
      rintro rfl _
      exact own
    · rename_i foreign
      simp only [waiting.injEq, iff_self_and, and_imp]
      rintro rfl _
      exact foreign
  | _ => simp [stop]

theorem next_away {passage : Passage} (h : away.next passage = some after) :
    ∃ state alarm, passage = .entered state alarm ∧ after = waiting state alarm := by
  cases passage with
  | entered state alarm =>
    cases h
    exact ⟨state, alarm, rfl, rfl⟩
  | left exit => contradiction
  | resumed state => contradiction

theorem next_waiting {passage : Passage} (h : (waiting state alarm).next passage = some after) :
    ∃ exit, passage = .left exit ∧ exit.fits alarm = true ∧ after = Life.after state exit := by
  cases passage with
  | left exit =>
    simp only [next] at h
    split at h
    · rename_i fits
      cases h
      exact ⟨exit, rfl, fits, rfl⟩
    · contradiction
  | entered other alarm => contradiction
  | resumed other => contradiction

theorem next_claimed {passage : Passage} (h : (claimed state).next passage = some after) :
    passage = .resumed state ∧ after = away := by
  cases passage with
  | resumed other =>
    simp only [next] at h
    split at h
    · rename_i same
      cases h
      exact ⟨congrArg Passage.resumed same, rfl⟩
    · contradiction
  | entered other alarm => contradiction
  | left exit => contradiction

theorem follow_gone {passages : List Passage} (h : gone.follow passages = some after) :
    passages = [] := by
  cases passages with
  | nil => rfl
  | cons passage rest => cases passage <;> contradiction

theorem exists_of_follow_cons {passage : Passage} {rest : List Passage}
    (h : life.follow (passage :: rest) = some after) :
    ∃ middle, life.next passage = some middle ∧ middle.follow rest = some after :=
  Option.bind_eq_some_iff.mp h

/-- Whatever can be followed from a run that has not been suspended is a history. -/
theorem history_of_follow {passages : List Passage} (h : away.follow passages = some after) :
    Passage.History passages := by
  -- a pause takes up to three passages, so the induction is on the number of them
  induction size : passages.length using Nat.strongRecOn generalizing passages with
  | ind n ih =>
  cases passages with
  | nil => exact .nil
  | cons first rest =>
    obtain ⟨_, step, h⟩ := exists_of_follow_cons h
    obtain ⟨state, alarm, rfl, rfl⟩ := next_away step
    cases rest with
    | nil => exact .pending state alarm
    | cons second rest =>
      obtain ⟨_, step, h⟩ := exists_of_follow_cons h
      obtain ⟨exit, rfl, fits, rfl⟩ := next_waiting step
      by_cases claims : exit.claims = true
      · rw [Life.after, if_pos claims] at h
        cases rest with
        | nil => exact .left state alarm exit fits
        | cons third rest =>
          obtain ⟨_, step, h⟩ := exists_of_follow_cons h
          obtain ⟨rfl, rfl⟩ := next_claimed step
          have fewer : rest.length < n := by
            simp only [List.length_cons] at size
            omega
          exact .resumed state alarm exit fits claims (ih _ fewer h rfl)
      · rw [Life.after, if_neg claims] at h
        rw [follow_gone h]
        exact .left state alarm exit fits

/-- A run that has come to wait has been told to be pending last. -/
theorem getLast?_of_follow {passages : List Passage}
    (h : life.follow passages = some (waiting state alarm)) (moved : life ≠ waiting state alarm) :
    passages.getLast? = some (.entered state alarm) := by
  induction passages using List.reverseRecOn with
  | nil =>
    rw [follow_nil] at h
    exact absurd (Option.some.inj h) moved
  | append_singleton rest passage _ =>
    rw [follow_append] at h
    obtain ⟨middle, _, last⟩ := Option.bind_eq_some_iff.mp h
    rw [follow_singleton] at last
    rw [List.getLast?_append_of_ne_nil _ (by simp), List.getLast?_singleton, Option.some.injEq]
    cases middle with
    | away =>
      obtain ⟨other, set, rfl, same⟩ := next_away last
      cases same
      rfl
    | waiting other set =>
      obtain ⟨exit, rfl, _, same⟩ := next_waiting last
      rw [Life.after] at same
      split at same <;> contradiction
    | claimed other =>
      obtain ⟨rfl, same⟩ := next_claimed last
      contradiction
    | gone => cases passage <;> contradiction

/-- A run is waiting exactly if its pause is the last that is told of it. -/
theorem waiting_iff_of_follow {passages : List Passage} (h : away.follow passages = some after) :
    after = waiting state alarm ↔ passages.getLast? = some (.entered state alarm) := by
  induction passages using List.reverseRecOn generalizing after with
  | nil =>
    cases h
    simp
  | append_singleton rest passage _ =>
    rw [follow_append] at h
    obtain ⟨middle, _, last⟩ := Option.bind_eq_some_iff.mp h
    rw [follow_singleton] at last
    rw [List.getLast?_append_of_ne_nil _ (by simp), List.getLast?_singleton, Option.some.injEq]
    cases middle with
    | away =>
      obtain ⟨other, set, rfl, rfl⟩ := next_away last
      simp
    | waiting other set =>
      obtain ⟨exit, rfl, _, rfl⟩ := next_waiting last
      rw [Life.after]
      split <;> simp
    | claimed other =>
      obtain ⟨rfl, rfl⟩ := next_claimed last
      simp
    | gone => cases passage <;> contradiction

end Life

end DurableFlow
