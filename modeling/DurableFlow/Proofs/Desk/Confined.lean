import DurableFlow.Proofs.Desk.Coherence
import DurableFlow.Proofs.Desk.Recording
import DurableFlow.Proofs.Desk.Purposes

/-!
# What an errand about one run leaves alone

An errand that lets a run begin or go on makes no other run pending. `Errand.Confined` bounds the
executions that an errand may still make pending: those in its charge, and the one of the run that
it is going to begin. Each of its turns leaves the pending runs of other executions as they are, and
the deployments and the known definitions as well, whatever else happens between these turns.
-/

namespace DurableFlow

namespace Desk

/-- A desk is as it was but for the pauses of these executions, and some of these definitions may
have become known besides. -/
structure Leaves (desk after : Desk) (learned : Definition → Prop) (among : String → Prop) :
    Prop where
  policy : after.policy = desk.policy
  deployments : after.deployments = desk.deployments
  known : ∀ workflow d, desk.definition? workflow = some d → after.definition? workflow = some d
  learns : ∀ workflow d, desk.definition? workflow = none → after.definition? workflow = some d →
    learned d ∧ d.id = workflow
  pending : ∀ execution, ¬ among execution → after.pending? execution = desk.pending? execution

namespace Leaves

variable {desk middle after : Desk} {learned : Definition → Prop} {among : String → Prop}

theorem refl (desk : Desk) : desk.Leaves desk learned among where
  policy := rfl
  deployments := rfl
  known _ _ found := found
  learns _ d unknown found := absurd (unknown.symm.trans found) (Option.some_ne_none d).symm
  pending _ _ := rfl

theorem trans (first : desk.Leaves middle learned among)
    (second : middle.Leaves after learned among) : desk.Leaves after learned among where
  policy := second.policy.trans first.policy
  deployments := second.deployments.trans first.deployments
  known workflow d found := second.known workflow d (first.known workflow d found)
  learns workflow d unknown found := by
    cases between : middle.definition? workflow with
    | none => exact second.learns workflow d between found
    | some other =>
      cases (second.known workflow other between).symm.trans found
      exact first.learns workflow d unknown between
  pending execution other :=
    (second.pending execution other).trans (first.pending execution other)

/-- A run is pending no more. -/
theorem take {execution : String} (mine : among execution) :
    desk.Leaves (desk.take execution) learned among := by
  have same : desk.Leaves desk learned among := refl desk
  refine { same with pending := fun other foreign => ?_ }
  rw [pending?_take, if_neg]
  rintro rfl
  exact foreign mine

/-- A run becomes pending. -/
theorem hold {state : Suspended} (mine : among state.execution) (alarm : Option Nat) :
    desk.Leaves (desk.hold state alarm) learned among := by
  have same : desk.Leaves desk learned among := refl desk
  refine { same with pending := fun other foreign => ?_ }
  rw [pending?_hold, if_neg]
  rintro rfl
  exact foreign mine

/-- A definition becomes known unless one is known already. -/
theorem learnNew {d : Definition} (mine : learned d) :
    desk.Leaves (desk.learnNew d) learned among := by
  rw [Desk.learnNew]
  split
  · exact refl desk
  · rename_i new
    have unknown : desk.definition? d.id = none := Option.not_isSome_iff_eq_none.mp new
    have found : ∀ workflow, (desk.learn d).definition? workflow =
        if workflow = d.id then some d else desk.definition? workflow :=
      fun workflow => Fields.get?_insert desk.definitions d.id workflow d
    refine ⟨rfl, rfl, fun workflow e before => ?_, fun workflow e before later => ?_,
      fun _ _ => rfl⟩
    · rw [found, if_neg, before]
      rintro rfl
      rw [unknown] at before
      contradiction
    · rw [found] at later
      split at later
      · rename_i same
        cases later
        exact ⟨mine, same.symm⟩
      · rw [before] at later
        contradiction

/-- Where nothing is left to become known, the same definitions are known. -/
theorem definition?_eq (leaves : desk.Leaves after learned among)
    (known : ∀ d, learned d → (desk.definition? d.id).isSome) (workflow : String) :
    after.definition? workflow = desk.definition? workflow := by
  cases before : desk.definition? workflow with
  | some d => exact leaves.known workflow d before
  | none =>
    cases later : after.definition? workflow with
    | none => rfl
    | some d =>
      obtain ⟨mine, rfl⟩ := leaves.learns workflow d before later
      have there := known d mine
      rw [before] at there
      contradiction

end Leaves

end Desk

namespace Decision

/-- The definition that becomes known when the run of a pass becomes pending. -/
def definition? : Decision → Option Definition
  | start purpose .. | resume purpose .. | drive purpose _ | conclude purpose _
  | finish purpose _ => purpose.definition?
  | _ => none

/-- The decision begins a run. -/
def begins : Decision → Bool
  | start .. => true
  | _ => false

end Decision

/-- An errand is about one pass, makes runs pending of the executions `among` only, and makes
definitions known that are `learned` only. -/
structure Errand.Confined (engine : Engine) (learned : Definition → Prop) (among : String → Prop)
    (errand : Errand) : Prop where
  passes : errand.IsPass
  managed : errand.IsManaged engine
  charges : ∀ charge ∈ errand.charges engine, among charge.execution
  /-- A run that is yet to begin takes one of the ids that have not been given out. -/
  begins : errand.decision.begins = true → ∀ n, engine.moments ≤ n → among (Id.fresh n)
  acts : ∀ d state, .arm d state ∈ errand.acts → learned d
  purpose : ∀ d, errand.decision.definition? = some d → learned d

/-- Whatever the engine does, the errand has to do with no others. -/
theorem Errand.Confined.extending {engine after : Engine} {learned : Definition → Prop}
    {among : String → Prop} {errand : Errand} (confined : errand.Confined engine learned among)
    (extending : engine.Extends after) : errand.Confined after learned among where
  passes := confined.passes
  managed := confined.managed.extending extending
  charges charge charged :=
    confined.charges charge ((confined.managed.charges_extends extending).subset charged)
  begins begins n later := confined.begins begins n (Nat.le_trans extending.moments_le later)
  acts := confined.acts
  purpose := confined.purpose

namespace Errand.Confined

variable {engine : Engine} {learned : Definition → Prop} {among : String → Prop}
  {acts : List Act} (free : acts.filterMap Act.charge? = []) (isCancelled : Bool)

include free

/-- An errand that is about to answer. -/
theorem answer (answer : Answer) :
    Errand.Confined engine learned among { acts, decision := .answer answer, isCancelled } where
  passes := ⟨rfl, rfl⟩
  managed := ⟨trivial, by rw [Errand.charges, free]; exact Nat.zero_le _⟩
  charges charge charged := by
    rw [Errand.charges, free] at charged
    contradiction
  begins begins := absurd begins Bool.false_ne_true
  acts _ _ member := absurd (List.filterMap_eq_nil_iff.mp free _ member) (Option.some_ne_none _)
  purpose d is := absurd is (Option.some_ne_none d).symm

/-- An errand that is to let a run begin. -/
theorem start {purpose : Purpose} (d : Definition) (input : Data)
    (fresh : ∀ n, engine.moments ≤ n → among (Id.fresh n))
    (own : ∀ d, purpose.definition? = some d → learned d) :
    Errand.Confined engine learned among
      { acts, decision := .start purpose d input none, isCancelled } where
  passes := ⟨rfl, rfl⟩
  managed := ⟨rfl, by rw [Errand.charges, free]; exact Nat.zero_le _⟩
  charges charge charged := by
    rw [Errand.charges, free] at charged
    contradiction
  begins _ := fresh
  acts _ _ member := absurd (List.filterMap_eq_nil_iff.mp free _ member) (Option.some_ne_none _)
  purpose := own

/-- An errand that is to let a run go on. -/
theorem resume {purpose : Purpose} {d : Definition} {state : Suspended} {node : Option String}
    {delta : Fields Data} (mine : among state.execution)
    (own : ∀ d, purpose.definition? = some d → learned d) :
    Errand.Confined engine learned among
      { acts, decision := .resume purpose d state node delta, isCancelled } := by
  have charges : Errand.charges engine
      { acts, decision := .resume purpose d state node delta, isCancelled } =
        [{ execution := state.execution, claimed := some state }] := by
    rw [Errand.charges, free]
    rfl
  refine ⟨⟨rfl, rfl⟩, ⟨trivial, by simp [charges]⟩, fun charge charged => ?_,
    fun begins => absurd begins Bool.false_ne_true,
    fun _ _ member => absurd (List.filterMap_eq_nil_iff.mp free _ member) (Option.some_ne_none _),
    own⟩
  rw [charges, List.mem_singleton] at charged
  exact charged ▸ mine

end Errand.Confined

namespace Stride

variable {engine : Engine} {office : Office} {errand : Errand} {learned : Definition → Prop}
  {among : String → Prop}

/-- Whatever is decided, moments and ids are only given out. -/
theorem decide_extends (numbered : engine.Numbered) (office : Office) (errand : Errand) :
    engine.Extends (decide engine office errand).engine := by
  have plain : ∀ after : Engine, after.runs = engine.runs → after.nextRun = engine.nextRun →
      engine.moments ≤ after.moments → engine.Extends after :=
    fun after => numbered.extends_of_runs
  have decides := decide_decides engine office errand
  generalize decide engine office errand = stride at decides ⊢
  generalize errand.decision = decision at decides
  cases decides with
  | starts => exact numbered.tick.trans (numbered.tick.numbered.adopt _)
  | resumes => exact numbered.adopt _
  | drives | drivesHome => exact numbered.stepRun _ .driver
  | breaksDown | concludes => exact numbered.tick.trans (numbered.tick.numbered.close _)
  | callsStop | subscribeRefused | subscribes => exact plain _ rfl rfl (Nat.le_succ _)
  | callsTrigger => exact plain _ rfl rfl (Nat.le_add_right _ 2)
  | @adoptsSuspended states =>
    have armed := armedAll_extends numbered office (adoptable office.desk states)
    exact armed.trans (armed.numbered.extends_of_runs rfl rfl (Nat.le_refl _))
  | _ => exact plain _ rfl rfl (Nat.le_refl _)

/-- Whatever errand takes a step, moments and ids are only given out. -/
theorem step_extends (numbered : engine.Numbered) (office : Office) (errand : Errand) :
    engine.Extends (step engine office errand).engine := by
  rw [step]
  split
  · rename_i act rest acts
    cases act with
    | arm d state =>
      have armed := armed_extends numbered { office with desk := office.desk.learnNew d } state
      exact armed.trans (armed.numbered.extends_of_runs rfl rfl (Nat.le_refl _))
    | saveRun | settleRun | saveSuspended | deleteSuspended | saveSubscription
    | deleteSubscription => exact numbered.write _
    | publish | count => exact numbered.extends_of_runs rfl rfl (Nat.le_refl _)
    | register | unregister => exact numbered.extends_refl
  · exact decide_extends numbered office errand

section Steps

/-- The errand goes on with acts by which nothing becomes pending, and has no other run in its
charge than before. -/
theorem confined_goes {after : Engine} {acts : List Act} {decision : Decision}
    (alone : errand.delivery = none) (free : acts.filterMap Act.charge? = [])
    (passes : decision.isPass = true) (managed : decision.IsManaged after)
    (charges : ∀ charge, decision.charge? after = some charge → among charge.execution)
    (begun : decision.begins = false)
    (purpose : ∀ d, decision.definition? = some d → learned d) :
    (errand.go acts decision).Confined after learned among where
  passes := ⟨alone, passes⟩
  managed := by
    refine ⟨managed, ?_⟩
    rw [Errand.charges, show (errand.go acts decision).acts = acts from rfl, free, List.nil_append]
    cases (errand.go acts decision).decision.charge? after <;> simp
  charges charge charged := by
    rw [Errand.charges, show (errand.go acts decision).acts = acts from rfl, free,
      List.nil_append, Option.mem_toList] at charged
    exact charges charge charged
  begins begins := absurd (begun.symm.trans begins) Bool.false_ne_true
  acts d state member := absurd (List.filterMap_eq_nil_iff.mp free _ member) (Option.some_ne_none _)
  purpose := purpose

variable (confined : errand.Confined engine learned among)
include confined

/-- What a pass has come to is kept by acts after which a run is pending that the errand has to do
with. -/
theorem keep_confined {d : Definition} (own : learned d) {result : RunResult} {answer : Answer}
    (mine : ∀ state, result.suspended = some state → among state.execution) :
    (errand.go (keep d result) (.answer answer)).Confined engine learned among where
  passes := ⟨confined.passes.alone, rfl⟩
  managed := by
    refine ⟨trivial, ?_⟩
    rw [Errand.charges, Errand.go, keep_charges]
    cases result.suspended <;> simp [Decision.charge?]
  charges charge charged := by
    simp only [Errand.charges, Errand.go, keep_charges, Decision.charge?, Option.toList_none,
      List.append_nil, Option.mem_toList, Option.map_eq_some_iff] at charged
    obtain ⟨state, suspended, rfl⟩ := charged
    exact mine state suspended
  begins begins := absurd begins Bool.false_ne_true
  acts other state member := by
    simp only [Errand.go, keep] at member
    split at member <;> simp only [List.mem_cons, List.not_mem_nil, or_false] at member
    rcases member with is | is
    · contradiction
    · cases is
      exact own
  purpose other is := absurd is (Option.some_ne_none other).symm

variable (numbered : engine.Numbered)
include numbered

/-- The errand takes up a pass over a run that it has to do with. -/
theorem enter_confined {purpose : Purpose} (office : Office) (run : Run) {acts : List Act}
    (free : acts.filterMap Act.charge? = []) (mine : among run.context.execution)
    (own : ∀ d, purpose.definition? = some d → learned d) :
    (enter engine office errand purpose run acts).errand.Confined
      (enter engine office errand purpose run acts).engine learned among := by
  refine confined_goes confined.passes.alone free rfl (Nat.lt_succ_self _)
    (fun charge charged => ?_) rfl own
  have owned := numbered.owner?_adopt { run with isCancelled := errand.isCancelled }
  obtain ⟨execution, owner, rfl⟩ := Option.map_eq_some_iff.mp charged
  cases owned.symm.trans owner
  exact mine

/-- A decision about a pass leaves the office to others. -/
theorem decide_confined (office : Office) (acts : errand.acts = []) :
    (decide engine office errand).office = office ∧
      (decide engine office errand).errand.Confined (decide engine office errand).engine learned
        among := by
  have passes := confined.passes.decision
  have alone := confined.passes.alone
  have managed := confined.managed.decision
  have charges := confined.charges
  have own := confined.purpose
  have fresh := confined.begins
  rw [charges_of_acts acts] at charges
  have nothing : ∀ charge : Charge, none = some charge → among charge.execution :=
    fun charge charged => absurd charged (Option.some_ne_none charge).symm
  have later (run : Nat) := confined.extending (numbered.stepRun run .driver)
  have decides := decide_decides engine office errand
  generalize decide engine office errand = stride at decides ⊢
  generalize decision : errand.decision = stage at decides passes managed charges own fresh
  cases decides with
  | ends => exact ⟨rfl, confined⟩
  | handsOn more => exact absurd (alone.symm.trans more) (Option.some_ne_none _).symm
  | startRefused | resumeRefused => exact ⟨rfl, confined_goes alone rfl rfl trivial nothing rfl own⟩
  | starts valid begins =>
    obtain rfl : _ = none := managed
    subst begins
    have ticked := numbered.tick
    exact ⟨rfl, enter_confined (confined.extending ticked) ticked.numbered office _ rfl
      (fresh rfl _ (Nat.le_refl _)) own⟩
  | resumes =>
    exact ⟨rfl, enter_confined confined numbered office _ rfl
      (charges _ (List.mem_singleton_self _)) own⟩
  | drives => exact ⟨rfl, later _⟩
  | @drivesHome _ run =>
    have managed := (later run).managed.decision
    have charges := (later run).charges
    rw [charges_of_acts acts, decision] at charges
    rw [decision] at managed
    exact ⟨rfl, confined_goes alone rfl rfl managed
      (fun charge charged => charges charge (Option.mem_toList.mpr charged)) rfl own⟩
  | drivesOn =>
    exact ⟨rfl, confined_goes alone rfl rfl managed
      (fun charge charged => charges charge (Option.mem_toList.mpr charged)) rfl own⟩
  -- there is no result where the deadline of a wait is no date: the errand breaks down
  | runMissing | breaksDown => exact ⟨rfl, .answer rfl errand.isCancelled _⟩
  | @concludes _ run process _ result _ found concluded told =>
    refine ⟨rfl, confined_goes alone rfl rfl trivial (fun charge charged => ?_) rfl own⟩
    obtain ⟨state, suspended, rfl⟩ := Option.map_eq_some_iff.mp charged
    rw [execution_of_result told suspended]
    refine charges { execution := process.context.execution } ?_
    simp [Decision.charge?, Engine.owner?, found]
  | tells | refuses =>
    exact ⟨rfl, confined_goes alone rfl rfl trivial nothing rfl
      fun other is => absurd is (Option.some_ne_none other).symm⟩
  | keeps kept =>
    refine ⟨rfl, keep_confined confined (own _ kept) fun state suspended => ?_⟩
    refine charges { execution := state.execution } ?_
    simp [Decision.charge?, suspended]
  | abandons =>
    exact ⟨rfl, confined_goes alone rfl rfl trivial nothing rfl
      fun other is => absurd is (Option.some_ne_none other).symm⟩
  | _ => contradiction

/-- An act makes nothing pending but a run that the errand has to do with. -/
theorem act_confined {first : Act} {rest : List Act} (acts : errand.acts = first :: rest) :
    let stride := Stride.act engine office { errand with acts := rest } first
    office.desk.Leaves stride.office.desk learned among ∧
      stride.errand.Confined stride.engine learned among := by
  obtain ⟨_, still, arms⟩ := act_desk engine office { errand with acts := rest } first
  have same := act_errand engine office { errand with acts := rest } first
  have deals : Deals engine office errand errand.deed
      (Stride.act engine office { errand with acts := rest } first) :=
    act_deals numbered confined.managed acts
  have extending := deals.extending
  generalize Stride.act engine office { errand with acts := rest } first = stride at *
  have later := confined.extending extending
  have fewer : (stride.errand.charges stride.engine).Sublist (errand.charges stride.engine) := by
    rw [same, Errand.charges, Errand.charges, acts]
    exact ((List.sublist_cons_self first rest).filterMap _).append (List.Sublist.refl _)
  have passes : stride.errand.IsPass := by
    rw [same]
    exact ⟨confined.passes.alone, confined.passes.decision⟩
  refine ⟨?_, ⟨passes, deals.managed confined.managed.charges,
    fun charge charged => later.charges charge (fewer.subset charged), ?_, ?_, ?_⟩⟩
  · -- to arm a run is the only act that makes one pending
    by_cases arming : ∃ d state, first = .arm d state
    · obtain ⟨d, state, rfl⟩ := arming
      have charge : { execution := state.execution } ∈ errand.charges engine := by
        rw [Errand.charges, acts]
        exact List.mem_append_left _ List.mem_cons_self
      rw [arms d state rfl]
      exact (Desk.Leaves.learnNew (confined.acts d state (acts ▸ List.mem_cons_self))).trans
        (.hold (confined.charges _ charge) _)
    · rw [still fun d state is => arming ⟨d, state, is⟩]
      exact .refl _
  · rw [same]
    exact later.begins
  · rw [same]
    exact fun d state member => confined.acts d state (acts ▸ List.mem_cons_of_mem _ member)
  · rw [same]
    exact confined.purpose

/-- A step leaves everything alone that the errand has nothing to do with. -/
theorem step_confined (office : Office) :
    office.desk.Leaves (step engine office errand).office.desk learned among ∧
      (step engine office errand).errand.Confined (step engine office errand).engine learned
        among := by
  rw [step]
  split
  · rename_i first rest acts
    exact act_confined confined numbered acts
  · rename_i acts
    obtain ⟨same, later⟩ := decide_confined confined numbered office acts
    rw [same]
    exact ⟨.refl _, later⟩

end Steps

end Stride

namespace Site

variable {site : Site} {id : Nat} {learned : Definition → Prop} {among : String → Prop}

/-- Whatever happens next, moments and ids are only given out. -/
theorem move_extends (numbered : site.engine.Numbered) (m : Move) :
    site.engine.Extends (site.move m).engine := by
  have turns : ∀ office id, site.engine.Extends (turn ⟨site.engine, office⟩ id).engine := by
    intro office id
    simp only [turn]
    split
    · exact numbered.extends_refl
    · exact Stride.step_extends numbered office _
  cases m with
  | turn asked => exact turns site.office asked
  | branch run task => exact numbered.stepRun run (.branch task)
  | ring asked =>
    simp only [move, ring]
    split
    · exact numbered.extends_refl
    · split
      · exact turns _ _
      · exact numbered.extends_refl
  | order | learn => exact numbered.extends_refl
  | pass clock => exact numbered.extends_of_runs rfl rfl (Nat.le_refl _)

/-- The errand with this id, as long as it is under way, makes runs pending of the executions
`among` only, and makes definitions known that are `learned` only. -/
structure Confines (site : Site) (id : Nat) (learned : Definition → Prop) (among : String → Prop) :
    Prop where
  numbered : site.engine.Numbered
  used : id < site.office.nextErrand
  errand : ∀ errand, site.office.errand? id = some errand →
    errand.Confined site.engine learned among

namespace Confines

/-- Whatever happens next, the errand remains what it is, and its own turns leave the others
alone. -/
theorem move (confines : site.Confines id learned among) (m : Move) :
    (site.move m).Confines id learned among ∧
      (m = .turn id → site.office.desk.Leaves (site.move m).office.desk learned among) := by
  have extending := move_extends confines.numbered m
  have used := Nat.lt_of_lt_of_le confines.used (nextErrand_le_move site m)
  by_cases own : m = .turn id
  · subst own
    cases found : site.office.errand? id with
    | none =>
      have still : site.move (.turn id) = site := by simp only [Site.move, turn, found]
      rw [still]
      exact ⟨confines, fun _ => .refl _⟩
    | some errand =>
      obtain ⟨leaves, confined⟩ :=
        Stride.step_confined (confines.errand errand found) confines.numbered site.office
      have moved := move_turn found
      refine ⟨⟨extending.numbered, used, fun next there => ?_⟩, fun _ => ?_⟩
      · rw [moved] at there ⊢
        rw [eq_of_mem_land (Table.mem_of_lookup there)]
        exact confined
      · rw [moved, desk_land]
        exact leaves
  · refine ⟨⟨extending.numbered, used, fun errand there => ?_⟩, fun is => absurd is own⟩
    rw [errand?_move confines.used own] at there
    exact (confines.errand errand there).extending extending

theorem play (confines : site.Confines id learned among) (schedule : List Move) :
    (site.play schedule).Confines id learned among := by
  induction schedule generalizing site with
  | nil => exact confines
  | cons m rest ih => exact ih (confines.move m).1

end Confines

/-- The move is a turn of the errand or of a branch, or lets time pass. -/
def Move.IsOf (id : Nat) : Move → Prop
  | .turn asked => asked = id
  | .branch .. | .pass _ => True
  | _ => False

instance decidableIsOf (id : Nat) : (m : Move) → Decidable (m.IsOf id)
  | .turn asked => inferInstanceAs (Decidable (asked = id))
  | .branch .. | .pass _ => inferInstanceAs (Decidable True)
  | .order _ | .ring _ | .learn _ => inferInstanceAs (Decidable False)

/-- After any schedule, a turn of the errand changes nothing at the desk but the pending runs of the
executions `among` and the definitions that are `learned`. After a schedule in which there is
nothing but turns of the errand, of branches and of the clock, the desk as a whole does not differ
in anything else from what it was before. -/
structure LeavesAlone (before : Desk) (site : Site) (id : Nat) (learned : Definition → Prop)
    (among : String → Prop) : Prop where
  turn : ∀ schedule, (site.play schedule).office.desk.Leaves
    ((site.play schedule).move (.turn id)).office.desk learned among
  whole : ∀ schedule, (∀ m ∈ schedule, m.IsOf id) →
    before.Leaves (site.play schedule).office.desk learned among

theorem Confines.leavesAlone {before : Desk} (confines : site.Confines id learned among)
    (begins : before.Leaves site.office.desk learned among) :
    LeavesAlone before site id learned among where
  turn schedule := ((confines.play schedule).move (.turn id)).2 rfl
  whole schedule own := by
    induction schedule generalizing site with
    | nil => exact begins
    | cons m rest ih =>
      have later := ih (confines.move m).1
      have here := own m List.mem_cons_self
      have further : ∀ other ∈ rest, other.IsOf id :=
        fun other member => own other (List.mem_cons_of_mem m member)
      cases m with
      | turn asked =>
        obtain rfl : asked = id := here
        exact later (begins.trans ((confines.move (.turn asked)).2 rfl)) further
      | branch | pass => exact later begins further
      | order | ring | learn => exact here.elim

end Site

end DurableFlow
