import DurableFlow.Proofs.Desk.Accord
import DurableFlow.Proofs.Desk.Recording

/-!
# Calls that are made one after another

When no call is made before the one before it is over, one errand at most is under way. So
`Stride.Owing`, which is about an errand that is alone in its office, holds after every step, and
whenever nothing is under way the ledger and the switchboard are in accord with the desk.
-/

namespace DurableFlow

/-- The decision is one of restoring. -/
def Decision.restores : Decision → Bool
  | .restore | .adoptSubscriptions _ | .recallSuspended | .adoptSuspended _ => true
  | _ => false

namespace Office

variable {office : Office} {id : Nat} {errand : Errand}

/-- The first errand that is under way, or one that has nothing to do. -/
def current (office : Office) : Errand :=
  (office.errands.head?.map Prod.snd).getD { decision := .answer .nothing }

theorem current_of_idle (idle : office.errands = []) :
    office.current = { decision := .answer .nothing } := by
  rw [current, idle]
  rfl

theorem current_of_busy (busy : office.errands = [(id, errand)]) : office.current = errand := by
  rw [current, busy]
  rfl

end Office

namespace Stride

variable {engine : Engine} {office : Office} {errand : Errand}

/-- A step of an errand that restores and finds all that is stored deployed or pending already. -/
structure Rests (engine : Engine) (office : Office) (errand : Errand) (stride : Stride) :
    Prop where
  office : stride.office = office
  extending : engine.Extends stride.engine
  proceeds : stride.signal = .proceed
  acts : stride.errand.acts = []
  delivery : stride.errand.delivery = errand.delivery
  goes : stride.errand.decision.restores = true ∨
    ∃ answer, stride.errand.decision = .answer answer

/-- An errand that restores while everything is in accord leaves the office as it is, and goes on
to restore or comes to its answer. -/
theorem restoring_rests (numbered : engine.Numbered) (listed : errand.Listed engine office.desk)
    (restores : errand.decision.restores = true) :
    errand.acts = [] ∧ Rests engine office errand (Stride.step engine office errand) := by
  have acts : errand.acts = [] := by
    unfold Errand.Listed at listed
    cases decision : errand.decision with
    | restore | recallSuspended | adoptSubscriptions | adoptSuspended =>
      rw [decision] at listed
      exact listed.1
    | _ => simp [decision, Decision.restores] at restores
  refine ⟨acts, ?_⟩
  have answers : ∀ answer, Rests engine office errand
      ⟨engine, office, errand.go [] (.answer answer), .proceed, []⟩ := fun answer =>
    ⟨rfl, numbered.extends_refl, rfl, rfl, rfl, .inr ⟨answer, rfl⟩⟩
  have goes : ∀ decision : Decision, decision.restores = true → Rests engine office errand
      ⟨engine, office, errand.go [] decision, .proceed, []⟩ := fun decision restores =>
    ⟨rfl, numbered.extends_refl, rfl, rfl, rfl, .inl restores⟩
  have decides := decide_decides engine office errand
  simp only [Stride.step, acts]
  rw [Errand.Listed] at listed
  generalize decide engine office errand = stride at decides ⊢
  generalize errand.decision = decision at decides listed restores
  cases decides with
  | restoresNothing | restoreFailed | recallsNothing | recallFailed => exact answers _
  | restores | adopted | passesOver | recalls => exact goes _ rfl
  | @adopts subscription rest free =>
    have deployed : office.desk.isDeployed subscription.workflow = true :=
      listed.2.2 subscription List.mem_cons_self
    rw [deployed, Bool.or_true] at free
    contradiction
  | adoptsSuspended =>
    simp only [adoptSuspended, adoptable_of_pending listed.2, armedAll]
    exact ⟨rfl, showPending_extends numbered office, rfl, rfl, rfl, .inr ⟨_, rfl⟩⟩
  | _ => contradiction

end Stride

namespace Site

/-- The occurrence asks for something new, and is not a step of what is under way. -/
def Occurrence.isCall : Occurrence → Bool
  | .demand (.move (.turn _)) | .demand (.move (.branch ..)) | .demand (.move (.pass _)) => false
  | _ => true

/-- What an office may be asked for. What is stored can be read when it is asked to restore. -/
def Accepts (site : Site) : Occurrence → Prop
  | .demand (.move _) => True
  | .restore => site.engine.Rereads
  | _ => False

/-- Nothing is asked for before all that was asked for is over. -/
def InTurn (site : Site) (occurrence : Occurrence) : Prop :=
  occurrence.isCall → site.office.errands = [] ∧ site.Accepts occurrence

/-- All that is asked for is asked for in turn. -/
def OneByOne (site : Site) : List Occurrence → Prop
  | [] => True
  | occurrence :: rest => site.InTurn occurrence ∧ (site.occur occurrence).OneByOne rest

/-- What goes on is always in turn. -/
theorem inTurn_of_goes {site : Site} {occurrence : Occurrence}
    (goes : occurrence.isCall = false) : site.InTurn occurrence := by
  intro call
  rw [goes] at call
  contradiction

theorem oneByOne_of_goes {site : Site} {history : List Occurrence}
    (goes : ∀ occurrence ∈ history, occurrence.isCall = false) : site.OneByOne history := by
  induction history generalizing site with
  | nil => trivial
  | cons occurrence rest ih =>
    exact ⟨inTurn_of_goes (goes occurrence List.mem_cons_self),
      ih fun other member => goes other (List.mem_cons_of_mem _ member)⟩

theorem OneByOne.append {site : Site} {first second : List Occurrence}
    (before : site.OneByOne first) (after : (site.undergo first).OneByOne second) :
    site.OneByOne (first ++ second) := by
  induction first generalizing site with
  | nil => exact after
  | cons occurrence rest ih => exact ⟨before.1, ih before.2 after⟩

/-- The site with nothing under way. -/
def resting (site : Site) : Site := { site with office := { site.office with errands := [] } }

/-- Each run is in the one place that its passages have led it to, where an errand that restores is
left out, since it changes no pending runs. -/
def Accounted (site : Site) : Prop :=
  (∃ lives, site.Kept lives) ∨
    site.office.current.decision.restores ∧
      (∀ entry ∈ site.office.errands, entry.1 < site.office.nextErrand) ∧
      ∃ lives, site.resting.Kept lives

/-- One errand at most is under way, and the ledger and the switchboard will be in accord with the
desk once it has done what it is about to do. -/
structure Sequential (site : Site) : Prop where
  coherent : site.Coherent
  alone : site.office.errands.length ≤ 1
  owing : Stride.Owing site.engine site.office site.office.current
  accounted : site.Accounted

variable {site : Site} {id : Nat} {errand : Errand} {lives : String → Life}

/-- While nothing is under way, the ledger and the switchboard are in accord with the desk. -/
theorem Sequential.accord (sequential : site.Sequential) (idle : site.office.errands = []) :
    Stride.Accord site.engine site.office := by
  have owing := sequential.owing
  rw [Office.current_of_idle idle] at owing
  exact owing.accord rfl rfl rfl

section Accounts

/-- An errand that is in charge of nothing may be under way. -/
theorem Kept.lulls (kept : site.Kept lives) {after : Site}
    (extending : site.engine.Extends after.engine)
    (pauses : site.office.SamePauses after.office)
    (errands : ∀ entry ∈ after.office.errands, entry = (id, errand))
    (alone : after.office.errands.length ≤ 1) (below : ∀ entry ∈ after.office.errands,
      entry.1 < after.office.nextErrand) (managed : errand.IsManaged after.engine)
    (free : errand.charges after.engine = []) : after.Kept lives := by
  have unique : (Table.ids after.office.errands).Nodup := by
    cases rows : after.office.errands with
    | nil => exact List.nodup_nil
    | cons entry rest =>
      rw [rows, List.length_cons] at alone
      have none : rest = [] := List.eq_nil_of_length_eq_zero (by omega)
      rw [none]
      exact List.nodup_singleton _
  have alters : site.Alters after id errand :=
    ⟨fun entry member => .inl (errands entry member), unique, below⟩
  have accounts : Accounts site lives after lives (Deed.nothing.tells site after) :=
    kept.accounts_still alters extending (pauses.orderly kept.orderly) managed
      (fun execution => pauses.pending? execution) pauses.nextAlarm
      (fun charge charged => absurd (free ▸ charged) List.not_mem_nil) trivial
  exact accounts.kept

/-- Nothing is under way. -/
theorem Kept.rests (kept : site.Kept lives) {after : Site}
    (extending : site.engine.Extends after.engine) (pauses : site.office.SamePauses after.office)
    (idle : after.office.errands = []) : after.Kept lives := by
  have nobody : ∀ entry, entry ∉ after.office.errands := by simp [idle]
  have nothing : ∀ entry ∈ after.office.errands, entry = (0, { decision := .answer .nothing }) :=
    fun entry member => absurd member (nobody entry)
  exact kept.lulls extending pauses nothing (by simp [idle])
    (fun entry member => absurd member (nobody entry)) ⟨trivial, Nat.zero_le _⟩ rfl

/-- While nothing is under way, every run is in one place. -/
theorem Accounted.kept (accounted : site.Accounted)
    (calm : site.office.current.decision.restores = false) : ∃ lives, site.Kept lives := by
  rcases accounted with kept | ⟨restores, _⟩
  · exact kept
  · rw [calm] at restores
    contradiction

end Accounts

section Turns

/-- An errand that is alone takes a step, and is over or goes on alone. -/
theorem turn_alone (busy : site.office.errands = [(id, errand)]) :
    let stride := Stride.step site.engine site.office errand
    ((site.turn id).engine = stride.engine ∧ (site.turn id).office.desk = stride.office.desk ∧
      (site.turn id).office.board = stride.office.board) ∧
      (stride.signal = .finished ∧ (site.turn id).office.errands = [] ∨
        (site.turn id).office.errands = [(id, stride.errand)]) := by
  have asked : site.office.errand? id = some errand := by
    rw [Office.errand?, busy, List.lookup_cons, beq_self_eq_true]
  have same := (Stride.step_errands site.engine site.office errand).1
  rw [turn, asked]
  dsimp only
  generalize Stride.step site.engine site.office errand = stride at *
  have set : (stride.office.setErrand id stride.errand).errands = [(id, stride.errand)] := by
    simp only [Office.setErrand, same, busy, List.map_cons, List.map_nil, if_true]
  unfold land
  dsimp only
  split
  · rename_i ends
    refine ⟨⟨rfl, rfl, rfl⟩, .inl ⟨ends, ?_⟩⟩
    rw [Office.dropErrand, set]
    simp
  · exact ⟨⟨rfl, rfl, rfl⟩, .inr set⟩

theorem turn_owing (busy : site.office.errands = [(id, errand)])
    (owing : Stride.Owing site.engine site.office errand) (coherent : site.office.desk.Coherent)
    (own : errand.decision.IsOwn) :
    (site.turn id).office.errands.length ≤ 1 ∧
      Stride.Owing (site.turn id).engine (site.turn id).office (site.turn id).office.current := by
  have stepped := Stride.step_owing owing coherent own
  have ended := @Stride.step_finished site.engine site.office errand
  obtain ⟨⟨engine, desk, board⟩, landed⟩ := turn_alone busy
  dsimp only at stepped
  generalize Stride.step site.engine site.office errand = stride at *
  have ledger := congrArg Engine.ledger engine
  rcases landed with ⟨ends, none⟩ | alone
  · obtain ⟨⟨answer, acts, answers⟩, still⟩ := ended ends
    rw [still] at stepped
    have accord := stepped.accord acts (by rw [answers]; rfl) (by rw [answers]; rfl)
    have nothing := accord.nothing { decision := .answer .nothing } rfl rfl rfl trivial
    rw [Office.current_of_idle none, none]
    exact ⟨Nat.zero_le _, nothing.congr ledger desk board⟩
  · rw [Office.current_of_busy alone, alone]
    exact ⟨Nat.le_refl _, stepped.congr ledger desk board⟩

end Turns

namespace Sequential

variable (sequential : site.Sequential)
include sequential

theorem kept_of_idle (idle : site.office.errands = []) : ∃ lives, site.Kept lives :=
  sequential.accounted.kept (by rw [Office.current_of_idle idle]; rfl)

/-- An errand is taken on while nothing is under way. -/
theorem takeOn_owing (idle : site.office.errands = [])
    (acts : errand.acts = []) (free : errand.decision.drops = [])
    (loose : errand.decision.unsubscribes? = none)
    (listed : errand.Listed site.engine site.office.desk) :
    (site.takeOn errand).office.errands = [(site.office.nextErrand, errand)] ∧
      Stride.Owing (site.takeOn errand).engine (site.takeOn errand).office errand := by
  refine ⟨?_, ?_⟩
  · rw [takeOn, Office.takeOn, idle]
    rfl
  · have quiet : errand.acts.all Act.isQuiet = true := by rw [acts]; rfl
    exact ((sequential.accord idle).nothing errand quiet free loose listed).congr rfl rfl rfl

theorem order (idle : site.office.errands = []) (order : Order) :
    (site.move (.order order)).Sequential := by
  let errand : Errand := { decision := order.decision }
  obtain ⟨busy, owing⟩ : (site.takeOn errand).office.errands = _ ∧ _ :=
    sequential.takeOn_owing idle rfl (by cases order <;> rfl) (by cases order <;> rfl)
      (by cases order <;> trivial)
  obtain ⟨lives, kept⟩ := sequential.kept_of_idle idle
  obtain ⟨after, accounts⟩ := kept.accounts_move (.order order)
  refine ⟨sequential.coherent.move _, ?_, ?_, .inl ⟨after, accounts.kept⟩⟩
  · exact (congrArg List.length busy).le
  · exact (Office.current_of_busy busy).symm ▸ owing

theorem restore (idle : site.office.errands = []) (rereads : site.engine.Rereads) :
    (site.occur .restore).Sequential := by
  let errand : Errand := { decision := .restore }
  obtain ⟨busy, owing⟩ : (site.takeOn errand).office.errands = _ ∧ _ :=
    sequential.takeOn_owing idle rfl rfl rfl ⟨rfl, rereads⟩
  have current : (site.takeOn errand).office.current = errand := Office.current_of_busy busy
  obtain ⟨lives, kept⟩ := sequential.kept_of_idle idle
  refine ⟨sequential.coherent.occur _, (congrArg List.length busy).le, current.symm ▸ owing,
    .inr ⟨?_, fun entry member => ?_, lives, ?_⟩⟩
  · show (site.takeOn errand).office.current.decision.restores = true
    rw [current]
    rfl
  · have mine : entry ∈ (site.takeOn errand).office.errands := member
    rw [busy] at mine
    rw [List.mem_singleton.mp mine]
    exact Nat.lt_succ_self _
  · exact kept.rests kept.numbered.extends_refl ⟨rfl, rfl, rfl⟩ rfl

theorem learn (idle : site.office.errands = []) (d : Definition) :
    (site.move (.learn d)).Sequential := by
  obtain ⟨lives, kept⟩ := sequential.kept_of_idle idle
  obtain ⟨after, accounts⟩ := kept.accounts_move (.learn d)
  have idle' : (site.move (.learn d)).office.errands = [] := idle
  let learnt : Stride := ⟨site.engine, (site.move (.learn d)).office,
    { decision := .answer .nothing }, .proceed, []⟩
  have owing : Stride.Owing learnt.engine learnt.office learnt.errand :=
    (sequential.accord idle).aside rfl rfl rfl rfl rfl rfl rfl trivial
  refine ⟨sequential.coherent.move _, ?_, ?_, .inl ⟨after, accounts.kept⟩⟩
  · rw [idle']
    exact Nat.zero_le _
  · rw [Office.current_of_idle idle']
    exact owing

theorem ring (idle : site.office.errands = []) (id : Nat) :
    (site.move (.ring id)).Sequential := by
  obtain ⟨lives, kept⟩ := sequential.kept_of_idle idle
  obtain ⟨after, accounts⟩ := kept.accounts_move (.ring id)
  have coherent := sequential.coherent.move (.ring id)
  have accounted : (site.move (.ring id)).Accounted := .inl ⟨after, accounts.kept⟩
  have nothing := (sequential.accord idle).nothing { decision := .answer .nothing } rfl rfl rfl
    trivial
  simp only [Site.move, Site.ring] at coherent accounted ⊢
  split at coherent
  · exact sequential
  · rename_i alarm found
    simp only [found] at accounted ⊢
    split at coherent
    · rename_i opened
      rw [if_pos opened] at accounted ⊢
      let silent : Site := ⟨site.engine, site.office.silence (some id)⟩
      let errand : Errand := { decision := .expire alarm.execution }
      have busy : (silent.takeOn errand).office.errands =
          [((site.office.silence (some id)).nextErrand, errand)] := by
        show (site.office.silence (some id)).errands ++ _ = _
        rw [Office.silence_errands, idle]
        rfl
      have owing : Stride.Owing (silent.takeOn errand).engine (silent.takeOn errand).office
          errand := by
        refine ((sequential.accord idle).nothing errand rfl rfl rfl trivial).congr rfl ?_ ?_
        · exact Office.silence_desk _ _
        · exact Office.silence_board _ _
      have desk : (silent.takeOn errand).office.desk.Coherent := by
        show (site.office.silence (some id)).desk.Coherent
        rw [Office.silence_desk]
        exact sequential.coherent.desk
      obtain ⟨alone, owes⟩ := turn_owing busy owing desk trivial
      exact ⟨coherent, alone, owes, accounted⟩
    · rename_i closed
      rw [if_neg closed] at accounted ⊢
      have idle' : (site.office.silence (some id)).errands = [] := by
        rw [Office.silence_errands, idle]
      refine ⟨coherent, ?_, ?_, accounted⟩
      · rw [idle']
        exact Nat.zero_le _
      · rw [Office.current_of_idle idle']
        exact nothing.congr rfl (Office.silence_desk _ _) (Office.silence_board _ _)

/-- The engine goes on with something that the office has nothing to do with. -/
theorem aside {m : Move} (same : (site.move m).office = site.office)
    (ledger : (site.move m).engine.ledger = site.engine.ledger)
    (rests : (site.move m).resting = site.resting.move m) : (site.move m).Sequential := by
  have owing := sequential.owing.congr ledger (congrArg Office.desk same)
    (congrArg Office.board same)
  refine ⟨sequential.coherent.move m, same ▸ sequential.alone, ?_, ?_⟩
  · rw [same] at owing ⊢
    exact owing
  rcases sequential.accounted with ⟨lives, kept⟩ | ⟨restores, below, lives, kept⟩
  · obtain ⟨after, accounts⟩ := kept.accounts_move m
    exact .inl ⟨after, accounts.kept⟩
  · obtain ⟨after, accounts⟩ := kept.accounts_move m
    exact .inr ⟨same ▸ restores, same ▸ below, after, rests ▸ accounts.kept⟩

omit sequential in
/-- An errand that restores and finds nothing to take over changes no pending runs. -/
theorem accounted_of_rests (busy : site.office.errands = [(id, errand)])
    (below : ∀ entry ∈ site.office.errands, entry.1 < site.office.nextErrand)
    (kept : site.resting.Kept lives)
    (rests : Stride.Rests site.engine site.office errand
      (Stride.step site.engine site.office errand)) :
    (site.turn id).Accounted := by
  have asked : site.office.errand? id = some errand := by
    rw [Office.errand?, busy, List.lookup_cons, beq_self_eq_true]
  rw [Site.turn, asked]
  dsimp only
  generalize Stride.step site.engine site.office errand = stride at *
  have landed : land stride id = ⟨stride.engine, site.office.setErrand id stride.errand⟩ := by
    simp only [land, rests.proceeds, rests.office, reduceCtorEq, if_false]
  have set : (site.office.setErrand id stride.errand).errands = [(id, stride.errand)] := by
    simp only [Office.setErrand, busy, List.map_cons, List.map_nil, if_true]
  have inside : id < site.office.nextErrand :=
    below (id, errand) (busy ▸ List.mem_singleton_self _)
  have lower : ∀ entry ∈ (site.office.setErrand id stride.errand).errands,
      entry.1 < site.office.nextErrand := by
    rw [set]
    intro entry member
    rw [List.mem_singleton.mp member]
    exact inside
  have alone : (site.office.setErrand id stride.errand).errands.length ≤ 1 := by simp [set]
  rw [landed]
  rcases rests.goes with restores | ⟨answer, answers⟩
  · refine .inr ⟨?_, lower, lives, ?_⟩
    · rw [Office.current_of_busy set]
      exact restores
    · exact kept.rests rests.extending ⟨rfl, rfl, rfl⟩ rfl
  · have free : stride.errand.charges stride.engine = [] := by
      rw [Errand.charges, rests.acts, answers]
      rfl
    refine .inl ⟨lives, kept.lulls rests.extending ⟨rfl, rfl, rfl⟩
      (fun entry member => List.mem_singleton.mp (set ▸ member)) alone lower
      ⟨answers ▸ trivial, free ▸ Nat.zero_le _⟩ free⟩

theorem turn_cases (id : Nat) :
    site.turn id = site ∨ ∃ errand, site.office.errands = [(id, errand)] := by
  rw [Site.turn]
  cases errands : site.office.errands with
  | nil => exact .inl (by rw [Office.errand?, errands]; rfl)
  | cons entry rest =>
    have alone := sequential.alone
    rw [errands, List.length_cons] at alone
    obtain rfl : rest = [] := List.eq_nil_of_length_eq_zero (by omega)
    obtain ⟨other, errand⟩ := entry
    by_cases mine : id = other
    · exact .inr ⟨errand, by rw [mine]⟩
    · left
      rw [Office.errand?, errands, List.lookup_cons, beq_eq_false_iff_ne.mpr mine]
      rfl

theorem turn (id : Nat) : (site.move (.turn id)).Sequential := by
  show (site.turn id).Sequential
  rcases sequential.turn_cases id with still | ⟨errand, busy⟩
  · rwa [still]
  · have owing := sequential.owing
    have accounted := sequential.accounted
    have apt := sequential.coherent.errands _ (busy ▸ List.mem_singleton_self _)
    rw [Office.current_of_busy busy] at owing
    obtain ⟨few, owes⟩ := turn_owing busy owing sequential.coherent.desk apt.own
    refine ⟨sequential.coherent.turn id, few, owes, ?_⟩
    rcases accounted with ⟨lives, kept⟩ | ⟨restores, below, lives, kept⟩
    · obtain ⟨after, accounts⟩ := kept.accounts_move (.turn id)
      exact .inl ⟨after, accounts.kept⟩
    · rw [Office.current_of_busy busy] at restores
      exact accounted_of_rests busy below kept
        (Stride.restoring_rests kept.numbered owing.listed restores).2

/-- Whatever is asked for in turn, and whatever goes on, one errand at most is under way. -/
theorem occur {occurrence : Occurrence} (inTurn : site.InTurn occurrence) :
    (site.occur occurrence).Sequential := by
  cases occurrence with
  | demand demand =>
    cases demand with
    | move m =>
      cases m with
      | turn id => exact sequential.turn id
      | branch run id =>
        have ledger : (site.move (.branch run id)).engine.ledger = site.engine.ledger :=
          (site.engine.stepRun_keeps run (.branch id)).2
        exact sequential.aside rfl ledger rfl
      | pass clock =>
        have ledger : (site.move (.pass clock)).engine.ledger = site.engine.ledger := rfl
        exact sequential.aside rfl ledger rfl
      | order order => exact sequential.order (inTurn rfl).1 order
      | ring id => exact sequential.ring (inTurn rfl).1 id
      | learn d => exact sequential.learn (inTurn rfl).1 d
    | execute | resume | cancelRun => exact (inTurn rfl).2.elim
  | restore => exact sequential.restore (inTurn rfl).1 (inTurn rfl).2
  | outage => exact (inTurn rfl).2.elim

theorem undergo {history : List Occurrence} (oneByOne : site.OneByOne history) :
    (site.undergo history).Sequential := by
  induction history generalizing site with
  | nil => exact sequential
  | cons occurrence rest ih => exact ih (sequential.occur oneByOne.1) oneByOne.2

omit sequential in
/-- At first there is nothing, stored or otherwise. -/
theorem opened (catalog : Catalog) (limit : Nat) (epoch : Instant) (policy : TimeoutPolicy) :
    (Site.opened catalog limit (some {}) epoch policy).Sequential where
  coherent := Coherent.opened catalog limit (some {}) epoch policy
  alone := Nat.zero_le _
  owing := ⟨⟨{}, rfl, rfl⟩, fun _ => Nat.zero_le _, fun _ => Nat.zero_le _, nofun, fun _ => rfl,
    fun _ => rfl, fun _ _ => rfl, trivial⟩
  accounted := .inl ⟨_, Kept.opened catalog limit (some {}) epoch policy⟩

end Sequential

end Site

end DurableFlow
