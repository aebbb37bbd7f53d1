import DurableFlow.Proofs.Data.Except
import DurableFlow.Proofs.Data.Ordered
import DurableFlow.Proofs.Desk.Safekeeping

/-!
# Restoring what is stored

A process that has died leaves its ledger behind. A fresh office that knows the same
definitions restores: it looks up the stored subscriptions and then the stored runs, and takes
over those whose workflows it knows. `restored_of_finished` says where this ends: the ledger is
as it was, and a stored run of a known workflow is pending in the state that is stored.
-/

namespace DurableFlow

namespace Office

variable {office : Office}

/-- What arming several runs does, none of which has been pending. -/
theorem foldl_arm {states : List Suspended} (orderly : office.Orderly)
    (absent : ∀ state ∈ states, office.desk.pending? state.execution = none)
    (apart : states.Pairwise fun a b => a.execution ≠ b.execution) :
    let after := states.foldl arm office
    after.Orderly ∧ after.errands = office.errands ∧ after.nextErrand = office.nextErrand ∧
      after.desk.definitions = office.desk.definitions ∧
      (∀ state ∈ states, ∃ alarm,
        after.desk.pending? state.execution = some ⟨state, alarm⟩) ∧
      ∀ execution, (∀ state ∈ states, state.execution ≠ execution) →
        after.desk.pending? execution = office.desk.pending? execution := by
  induction states generalizing office with
  | nil => exact ⟨orderly, rfl, rfl, rfl, List.forall_mem_nil _, fun _ _ => rfl⟩
  | cons state rest ih =>
    obtain ⟨different, apart⟩ := List.pairwise_cons.mp apart
    have first : office.desk.pending? state.execution = none := absent state List.mem_cons_self
    have still : ∀ other ∈ rest, (office.arm state).desk.pending? other.execution = none := by
      intro other member
      rw [pending?_arm, if_neg (different other member).symm]
      exact absent other (List.mem_cons_of_mem _ member)
    obtain ⟨kept, errands, nextErrand, definitions, armed, others⟩ :=
      ih (orderly.arm first) still apart
    refine ⟨kept, errands.trans (arm_errands ..), nextErrand.trans (arm_nextErrand ..), ?_, ?_, ?_⟩
    · rw [List.foldl_cons, definitions, arm_desk]
      rfl
    · intro other member
      rcases List.mem_cons.mp member with rfl | further
      · refine ⟨office.nextAlarm? other, ?_⟩
        rw [List.foldl_cons, others _ fun later among => (different later among).symm,
          pending?_arm, if_pos rfl]
      · exact armed other further
    · intro execution elsewhere
      rw [List.foldl_cons,
        others _ fun later among => elsewhere later (List.mem_cons_of_mem _ among),
        pending?_arm, if_neg (elsewhere state List.mem_cons_self).symm]

end Office

namespace Stride

variable {engine : Engine} {office : Office} {desk : Desk} {states : List Suspended}

theorem armedAll_office (engine : Engine) (office : Office) (states : List Suspended) :
    (armedAll engine office states).2.1 = states.foldl Office.arm office := by
  induction states generalizing engine office with
  | nil => rfl
  | cons state rest ih =>
    rw [List.foldl_cons, ← armed_office engine office state]
    exact ih _ _

theorem armedAll_keeps (engine : Engine) (office : Office) (states : List Suspended) :
    engine.Keeps (armedAll engine office states).1 ∧
      (armedAll engine office states).1.ledger = engine.ledger ∧
      (armedAll engine office states).1.runs = engine.runs := by
  induction states generalizing engine office with
  | nil => exact ⟨.refl engine, rfl, rfl⟩
  | cons state rest ih =>
    obtain ⟨keeps, ledger⟩ := armed_keeps engine office state
    have runs : (armed engine office state).1.runs = engine.runs := by
      rw [armed]
      split <;> rfl
    obtain ⟨later, same, same'⟩ := ih (armed engine office state).1 (armed engine office state).2.1
    exact ⟨keeps.trans later, same.trans ledger, same'.trans runs⟩

/-- What is taken over is stored, is of a known workflow and has not been pending, and each
run is taken over once. -/
theorem adoptable_spec (desk : Desk) (states : List Suspended) :
    (∀ state ∈ adoptable desk states, state ∈ states ∧ desk.pending? state.execution = none ∧
      (desk.definition? state.workflow).isSome) ∧
    (adoptable desk states).Pairwise fun a b => a.execution ≠ b.execution := by
  induction states generalizing desk with
  | nil => exact ⟨List.forall_mem_nil _, List.Pairwise.nil⟩
  | cons state rest ih =>
    rw [adoptable]
    split
    · rename_i fresh
      rw [Bool.and_eq_true, Option.isNone_iff_eq_none] at fresh
      obtain ⟨only, apart⟩ := ih (desk.hold state none)
      have others : ∀ other ∈ adoptable (desk.hold state none) rest,
          state.execution ≠ other.execution ∧ desk.pending? other.execution = none := by
        intro other member
        have absent := (only other member).2.1
        rw [Desk.pending?_hold] at absent
        split at absent
        · contradiction
        · rename_i different
          exact ⟨Ne.symm different, absent⟩
      refine ⟨fun other member => ?_, List.pairwise_cons.mpr
        ⟨fun other member => (others other member).1, apart⟩⟩
      rcases List.mem_cons.mp member with rfl | further
      · exact ⟨List.mem_cons_self, fresh⟩
      · obtain ⟨among, _, known⟩ := only other further
        exact ⟨List.mem_cons_of_mem _ among, (others other further).2, known⟩
    · obtain ⟨only, apart⟩ := ih desk
      refine ⟨fun other member => ?_, apart⟩
      obtain ⟨among, rest⟩ := only other member
      exact ⟨List.mem_cons_of_mem _ among, rest⟩

/-- A stored run of a known workflow that is not pending is taken over, in a state that is
stored. -/
theorem exists_adoptable {state : Suspended} (member : state ∈ states)
    (absent : desk.pending? state.execution = none)
    (known : (desk.definition? state.workflow).isSome) :
    ∃ adopted ∈ adoptable desk states, adopted.execution = state.execution := by
  induction states generalizing desk with
  | nil => contradiction
  | cons first rest ih =>
    rw [adoptable]
    rcases List.mem_cons.mp member with rfl | further
    · rw [absent, known]
      exact ⟨state, List.mem_cons_self, rfl⟩
    · split
      · by_cases same : state.execution = first.execution
        · exact ⟨first, List.mem_cons_self, same.symm⟩
        · have still : (desk.hold first none).pending? state.execution = none := by
            rw [Desk.pending?_hold, if_neg same]
            exact absent
          obtain ⟨adopted, among, own⟩ := ih further still known
          exact ⟨adopted, List.mem_cons_of_mem _ among, own⟩
      · exact ih further absent known

/-- Of the runs that are not pending, those that are taken over are pending afterwards. -/
theorem pending?_adopted (orderly : office.Orderly) {execution : String}
    (absent : office.desk.pending? execution = none) (state : Suspended) :
    (∃ alarm, ((adoptable office.desk states).foldl Office.arm office).desk.pending? execution =
        some ⟨state, alarm⟩) ↔
      state ∈ adoptable office.desk states ∧ state.execution = execution := by
  obtain ⟨only, apart⟩ := adoptable_spec office.desk states
  obtain ⟨_, _, _, _, armed, others⟩ :=
    Office.foldl_arm orderly (fun state member => (only state member).2.1) apart
  constructor
  · rintro ⟨alarm, found⟩
    by_cases among : ∃ other ∈ adoptable office.desk states, other.execution = execution
    · obtain ⟨other, member, rfl⟩ := among
      obtain ⟨set, there⟩ := armed other member
      cases there.symm.trans found
      exact ⟨member, rfl⟩
    · rw [others execution fun other member own => among ⟨other, member, own⟩, absent] at found
      contradiction
  · rintro ⟨member, rfl⟩
    exact armed state member

end Stride

namespace Site

variable {site fresh after : Site} {errand : Errand}

/-- A site at which the process has died and another one, which knows the same definitions, is
about to restore. Its runs, its errands, its pending runs and its alarms are lost. -/
def restarted (site : Site) (policy : TimeoutPolicy) : Site where
  engine :=
    { catalog := site.engine.catalog
      limit := site.engine.limit
      ledger := site.engine.ledger
      epoch := site.engine.epoch
      clock := site.engine.clock
      moments := site.engine.moments }
  office := (Office.takeOn { desk := { policy, definitions := site.office.desk.definitions } }
    { decision := .restore }).2

/-- The first errand takes turns, and nothing else happens. -/
def alone (site : Site) (turns : Nat) : Site := site.play (List.replicate turns (.turn 0))

/-- A fresh site on its way to restore: nothing is pending yet. -/
structure Restoring (fresh : Site) (errand : Errand) (site : Site) : Prop where
  engine : site.engine = fresh.engine
  errands : site.office.errands = [(0, errand)]
  definitions : site.office.desk.definitions = fresh.office.desk.definitions
  pending : site.office.desk.pending = []
  alarms : site.office.alarms = []

theorem alone_succ (site : Site) (turns : Nat) :
    site.alone (turns + 1) = (site.turn 0).alone turns := rfl

theorem alone_add (site : Site) (first later : Nat) :
    site.alone (first + later) = (site.alone first).alone later := by
  rw [alone, List.replicate_add, play, List.foldl_append]
  rfl

/-- When there is no errand left, nothing happens any more. -/
theorem alone_of_idle (idle : site.office.errands = []) (turns : Nat) :
    site.alone turns = site := by
  induction turns with
  | zero => rfl
  | succ turns ih =>
    have nobody : site.office.errand? 0 = none := by rw [Office.errand?, idle]; rfl
    rw [alone_succ, turn, nobody]
    exact ih

/-- There is one end only that the first errand may come to. -/
theorem alone_eq_of_idle {turns enough : Nat} (idle : (site.alone turns).office.errands = [])
    (idle' : (site.alone enough).office.errands = []) : site.alone turns = site.alone enough := by
  rcases Nat.le_total turns enough with fewer | more
  · obtain ⟨further, rfl⟩ := Nat.exists_eq_add_of_le fewer
    rw [alone_add, alone_of_idle idle]
  · obtain ⟨further, rfl⟩ := Nat.exists_eq_add_of_le more
    rw [alone_add, alone_of_idle idle']

section Turn

variable {stride : Stride} (errands : site.office.errands = [(0, errand)])
  (steps : Stride.step site.engine site.office errand = stride)
  (kept : stride.office.errands = site.office.errands)

include errands steps kept

theorem turn_proceed (goes : stride.signal = .proceed) :
    site.turn 0 = ⟨stride.engine, { stride.office with errands := [(0, stride.errand)] }⟩ := by
  have found : site.office.errand? 0 = some errand := by
    rw [Office.errand?, errands]
    rfl
  have set : stride.office.setErrand 0 stride.errand =
      { stride.office with errands := [(0, stride.errand)] } := by
    simp [Office.setErrand, kept, errands]
  simp only [turn, found, steps, land, goes, set, reduceCtorEq, if_false]

theorem turn_finished (ends : stride.signal = .finished) :
    site.turn 0 = ⟨stride.engine, { stride.office with errands := [] }⟩ := by
  have found : site.office.errand? 0 = some errand := by
    rw [Office.errand?, errands]
    rfl
  have dropped : (stride.office.setErrand 0 stride.errand).dropErrand 0 =
      { stride.office with errands := [] } := by
    simp [Office.setErrand, Office.dropErrand, kept, errands]
  simp only [turn, found, steps, land, ends, dropped, if_true]

end Turn

namespace Restoring

/-- A step that leaves all but the errand and the deployments alone. -/
theorem turn (restoring : Restoring fresh errand site) {stride : Stride}
    (steps : Stride.step site.engine site.office errand = stride)
    (engine : stride.engine = site.engine) (errands : stride.office.errands = site.office.errands)
    (definitions : stride.office.desk.definitions = site.office.desk.definitions)
    (pending : stride.office.desk.pending = site.office.desk.pending)
    (alarms : stride.office.alarms = site.office.alarms) (goes : stride.signal = .proceed) :
    Restoring fresh stride.errand (site.turn 0) := by
  rw [turn_proceed restoring.errands steps errands goes]
  exact ⟨engine.trans restoring.engine, rfl, definitions.trans restoring.definitions,
    pending.trans restoring.pending, alarms.trans restoring.alarms⟩

/-- All stored subscriptions are looked at, and some of them deployed. -/
theorem adoptSubscriptions (subscriptions : List Subscription)
    (restoring : Restoring fresh { decision := .adoptSubscriptions subscriptions } site) :
    ∃ turns, Restoring fresh { decision := .recallSuspended } (site.alone turns) := by
  induction subscriptions generalizing site with
  | nil => exact ⟨1, restoring.turn rfl rfl rfl rfl rfl rfl rfl⟩
  | cons subscription rest ih =>
    by_cases skips : ((site.office.desk.definition? subscription.workflow).isNone ||
        site.office.desk.isDeployed subscription.workflow) = true
    · have passes : Stride.step site.engine site.office
          { decision := .adoptSubscriptions (subscription :: rest) } =
            ⟨site.engine, site.office, { decision := .adoptSubscriptions rest }, .proceed, []⟩ :=
        if_pos skips
      obtain ⟨turns, done⟩ := ih (restoring.turn passes rfl rfl rfl rfl rfl rfl)
      exact ⟨turns + 1, done⟩
    · have deploys : Stride.step site.engine site.office
          { decision := .adoptSubscriptions (subscription :: rest) } = _ := if_neg skips
      have registers := restoring.turn deploys rfl rfl rfl rfl rfl rfl
      obtain ⟨turns, done⟩ := ih (registers.turn rfl rfl rfl rfl rfl rfl rfl)
      exact ⟨turns + 2, done⟩

end Restoring

/-- A fresh site that has nothing to do and has the ledger that another one has left. What is
pending there is stored. -/
structure Inherits (site after : Site) : Prop where
  errands : after.office.errands = []
  ledger : after.engine.ledger = site.engine.ledger
  epoch : after.engine.epoch = site.engine.epoch
  moments_le : site.engine.moments ≤ after.engine.moments
  runs : after.engine.runs = []
  orderly : after.office.Orderly
  knowing : after.office.desk.Knowing
  stored : ∀ execution state alarm, after.pending? execution = some ⟨state, alarm⟩ →
    state ∈ site.engine.stored execution

/-- A fresh site that has restored what was stored: of the stored runs those of known
workflows are pending. -/
structure Restored (site after : Site) : Prop extends Inherits site after where
  pending : ∀ execution, ∀ state ∈ site.engine.stored execution,
    (site.office.desk.definition? state.workflow).isSome → (after.pending? execution).isSome

namespace Restoring

theorem orderly (restoring : Restoring fresh errand site) :
    site.office.Orderly ∧ ∀ execution, site.office.desk.pending? execution = none := by
  have nothing : ∀ execution, site.office.desk.pending? execution = none := by
    intro execution
    rw [Desk.pending?, restoring.pending]
    rfl
  refine ⟨⟨by rw [restoring.pending]; exact List.Pairwise.nil, ?_, ?_, ?_⟩, nothing⟩
  · intro execution pending found
    rw [nothing] at found
    contradiction
  · rw [restoring.alarms]
    exact List.forall_mem_nil _
  · intro execution state alarm found
    rw [nothing] at found
    contradiction

/-- The stored runs are taken over at once, and then the errand has come to its end. -/
theorem alone_two {states : List Suspended}
    (restoring : Restoring fresh { decision := .adoptSuspended states } site) :
    let adopted := Stride.adoptable site.office.desk states
    site.alone 2 =
      ⟨Stride.showPending (Stride.armedAll site.engine site.office adopted).1
          (adopted.foldl Office.arm site.office),
        { adopted.foldl Office.arm site.office with errands := [] }⟩ := by
  intro adopted
  obtain ⟨orderly, nothing⟩ := restoring.orderly
  obtain ⟨_, kept, _⟩ := Office.foldl_arm orderly (fun state _ => nothing state.execution)
    (Stride.adoptable_spec site.office.desk states).2
  have takes : Stride.step site.engine site.office { decision := .adoptSuspended states } =
      ⟨Stride.showPending (Stride.armedAll site.engine site.office adopted).1
          (adopted.foldl Office.arm site.office), adopted.foldl Office.arm site.office,
        { decision := .answer (.count adopted.length) }, .proceed,
        (Stride.armedAll site.engine site.office adopted).2.2⟩ := by
    rw [← Stride.armedAll_office site.engine site.office adopted]
    rfl
  let armed : Site := ⟨Stride.showPending (Stride.armedAll site.engine site.office adopted).1
      (adopted.foldl Office.arm site.office), { adopted.foldl Office.arm site.office with
        errands := [(0, { decision := .answer (.count adopted.length) })] }⟩
  have ends : Stride.step armed.engine armed.office
      { decision := .answer (.count adopted.length) } = ⟨armed.engine, armed.office,
        { decision := .answer (.count adopted.length) }, .finished, []⟩ := rfl
  have first : site.turn 0 = armed := turn_proceed restoring.errands takes kept rfl
  rw [alone_succ, first, alone_succ, turn_finished rfl ends rfl rfl]
  rfl

/-- What a fresh site has restored. -/
theorem adoptSuspended {old : Site} {policy : TimeoutPolicy} {states : List Suspended}
    (same : states.Perm old.engine.rows)
    (restoring : Restoring (old.restarted policy) { decision := .adoptSuspended states } site) :
    Restored old (site.alone 2) := by
  obtain ⟨orderly, nothing⟩ := restoring.orderly
  obtain ⟨only, apart⟩ := Stride.adoptable_spec site.office.desk states
  obtain ⟨kept, _, _, definitions, _⟩ :=
    Office.foldl_arm orderly (fun state _ => nothing state.execution) apart
  obtain ⟨keeps, ledger, runs⟩ := Stride.armedAll_keeps site.engine site.office
    (Stride.adoptable site.office.desk states)
  have begun : site.engine.ledger = old.engine.ledger ∧ site.engine.epoch = old.engine.epoch ∧
      site.engine.moments = old.engine.moments ∧ site.engine.runs = [] := by
    rw [restoring.engine]
    exact ⟨rfl, rfl, rfl, rfl⟩
  have taken : ∀ execution state,
      (∃ alarm, ((Stride.adoptable site.office.desk states).foldl Office.arm
        site.office).desk.pending? execution = some ⟨state, alarm⟩) ↔
      state ∈ Stride.adoptable site.office.desk states ∧ state.execution = execution :=
    fun execution => Stride.pending?_adopted orderly (nothing execution)
  rw [restoring.alone_two]
  refine ⟨⟨rfl, ledger.trans begun.1, keeps.epoch.trans begun.2.1,
    begun.2.2.1.ge.trans keeps.moments_le, runs.trans begun.2.2.2, ?_, ?_, ?_⟩, ?_⟩
  · have still : ((Stride.adoptable site.office.desk states).foldl Office.arm
        site.office).SamePauses { (Stride.adoptable site.office.desk states).foldl Office.arm
          site.office with errands := [] } := ⟨rfl, rfl, rfl⟩
    exact still.orderly kept
  · intro execution state alarm found
    show (Fields.get? _ state.workflow).isSome
    rw [definitions]
    exact (only state ((taken execution state).mp ⟨alarm, found⟩).1).2.2
  · intro execution state alarm found
    obtain ⟨member, own⟩ := (taken execution state).mp ⟨alarm, found⟩
    exact Engine.mem_stored.mpr ⟨same.mem_iff.mp (only state member).1, own⟩
  · intro execution state stored known
    obtain ⟨row, rfl⟩ := Engine.mem_stored.mp stored
    have knows : (site.office.desk.definition? state.workflow).isSome := by
      rw [Desk.definition?, restoring.definitions]
      exact known
    obtain ⟨other, member, own⟩ :=
      Stride.exists_adoptable (same.mem_iff.mpr row) (nothing state.execution) knows
    obtain ⟨alarm, found⟩ := (taken _ other).mpr ⟨member, own⟩
    exact Option.isSome_iff_exists.mpr ⟨_, found⟩

end Restoring

/-- Rows that read back as they are are listed. -/
theorem mapM_of_reread {α : Type} {reread : α → Except Failure α} {rows : List α}
    (rereads : ∀ row ∈ rows, reread row = .ok row) : rows.mapM reread = .ok rows :=
  (mapM_eq_ok_iff fun _ _ _ => Iff.rfl).mpr (List.forall₂_same.mpr rereads)

theorem listSuspended_of_reread {ledger : Ledger} (working : ledger.failing = [])
    (rereads : ∀ state ∈ ledger.suspended, state.reread = .ok state) :
    ledger.listSuspended = .ok ledger.suspendedRuns := by
  have sorted : ledger.suspendedRuns.Perm ledger.suspended := Ordered.sort_perm _ _
  rw [Ledger.listSuspended, if_pos (by simp [Ledger.serves, working])]
  exact mapM_of_reread fun state member => rereads state (sorted.mem_iff.mp member)

theorem listSubscriptions_of_reread {ledger : Ledger} (working : ledger.failing = [])
    (rereads : ∀ row ∈ ledger.subscriptions, row.reread = .ok row) :
    ledger.listSubscriptions = .ok ledger.activeSubscriptions := by
  have sorted : ledger.activeSubscriptions.Perm ledger.subscriptions := Ordered.sort_perm _ _
  rw [Ledger.listSubscriptions, if_pos (by simp [Ledger.serves, working])]
  exact mapM_of_reread fun row member => rereads row (sorted.mem_iff.mp member)

/-- A fresh site that restores comes to the end of it, if what is stored can be read. -/
theorem exists_restored (site : Site) (policy : TimeoutPolicy) (serves : site.engine.Serves)
    (subscriptions : ∀ ledger, site.engine.ledger = some ledger →
      ∃ listed, ledger.listSubscriptions = .ok listed)
    (rereads : ∀ state ∈ site.engine.rows, state.reread = .ok state) :
    ∃ turns, Restored site ((site.restarted policy).alone turns) := by
  obtain ⟨ledger, known, working⟩ := serves
  obtain ⟨listed, lists⟩ := subscriptions ledger known
  have rows : site.engine.rows = ledger.suspended := by simp only [Engine.rows, known]
  have states := listSuspended_of_reread working (rows ▸ rereads)
  have begins : Restoring (site.restarted policy) { decision := .restore }
      (site.restarted policy) := ⟨rfl, rfl, rfl, rfl, rfl⟩
  have looks : Stride.step (site.restarted policy).engine (site.restarted policy).office
      { decision := .restore } = ⟨(site.restarted policy).engine, (site.restarted policy).office,
        { decision := .adoptSubscriptions listed }, .proceed, []⟩ := by
    have same : (site.restarted policy).engine.ledger = some ledger := known
    simp only [Stride.step, Stride.decide, Stride.restore, same, lists]
    rfl
  obtain ⟨turns, deployed⟩ :=
    (begins.turn looks rfl rfl rfl rfl rfl rfl).adoptSubscriptions listed
  have recalls : Stride.step (((site.restarted policy).turn 0).alone turns).engine
      (((site.restarted policy).turn 0).alone turns).office { decision := .recallSuspended } =
        ⟨(((site.restarted policy).turn 0).alone turns).engine,
          (((site.restarted policy).turn 0).alone turns).office,
          { decision := .adoptSuspended ledger.suspendedRuns }, .proceed, []⟩ := by
    have same : (((site.restarted policy).turn 0).alone turns).engine.ledger = some ledger := by
      rw [deployed.engine]
      exact known
    simp only [Stride.step, Stride.decide, Stride.recallSuspended, same, states]
    rfl
  have recalled := deployed.turn recalls rfl rfl rfl rfl rfl rfl
  refine ⟨1 + turns + 1 + 2, ?_⟩
  rw [alone_add, alone_add, alone_add]
  exact recalled.adoptSuspended (rows ▸ Ordered.sort_perm _ _)

end Site

end DurableFlow
