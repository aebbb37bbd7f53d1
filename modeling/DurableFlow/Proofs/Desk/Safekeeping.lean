import DurableFlow.Proofs.Desk.AtMostOnce
import DurableFlow.Proofs.Desk.Filing

/-!
# The ledger has every pending run, and no run that goes on

`Filed` ties the stored states to the pending runs, to the runs in the charge of errands and to the
passages that have been told: a stored state has been suspended later than every state of its run
that has been resumed (`News`). Only the errand that has a run in its charge, or is going to delete
its state, changes what is stored of it, so a step of one errand leaves what is stored of the runs
of all others alone.
-/

namespace DurableFlow

/-- The state that the engine is asked to let go on. -/
def Passage.resumed? : Passage → Option Suspended
  | resumed state => some state
  | _ => none

namespace Deed

theorem resumed?_passages (deed : Deed) (execution : String) (before after : Option Pending) :
    (deed.passages execution before after).filterMap Passage.resumed? =
      match deed with
      | resume state => if state.execution = execution then [state] else []
      | _ => [] := by
  have gone : (if before.isSome ∧ after ≠ before then [Passage.left deed.exit] else []).filterMap
      Passage.resumed? = [] := by
    split <;> rfl
  unfold passages
  rw [List.filterMap_append, gone, List.nil_append]
  cases deed with
  | pause state => by_cases same : state.execution = execution <;> simp [same, Passage.resumed?]
  | resume state => by_cases same : state.execution = execution <;> simp [same, Passage.resumed?]
  | _ => rfl

theorem resumed_mem_passages {deed : Deed} {execution : String} {before after : Option Pending}
    {state : Suspended} (h : .resumed state ∈ deed.passages execution before after) :
    deed = resume state ∧ state.execution = execution := by
  have member : state ∈ (deed.passages execution before after).filterMap Passage.resumed? :=
    List.mem_filterMap.mpr ⟨_, h, rfl⟩
  rw [resumed?_passages] at member
  split at member
  · split at member
    · rename_i same
      rw [List.mem_singleton.mp member]
      exact ⟨rfl, same⟩
    · contradiction
  · contradiction

end Deed

namespace Site

variable {site after : Site} {lives : String → Life} {told : String → List Passage}

/-- The state has been suspended after every state of its run that has been resumed. -/
def News (site : Site) (told : String → List Passage) (state : Suspended) : Prop :=
  state.pausedAt.nanos < site.engine.now ∧
    ∀ resumed, .resumed resumed ∈ told state.execution →
      resumed.pausedAt.nanos < state.pausedAt.nanos

/-- The states of the pending runs are stored, and of a run in the charge of an errand what the
stage of the errand calls for. No stored state is older than one that has been resumed. -/
structure Filed (site : Site) (told : String → List Passage) : Prop where
  serves : site.engine.Serves
  single : ∀ execution, (site.engine.stored execution).length ≤ 1
  issued : ∀ execution, site.engine.stored execution ≠ [] → site.engine.Issued execution
  pending : ∀ execution state alarm, site.pending? execution = some ⟨state, alarm⟩ →
    site.engine.stored execution = [state]
  knowing : site.office.desk.Knowing
  errands : ∀ entry ∈ site.office.errands, entry.2.IsFiled site.engine
  /-- What an errand is to forget is nobody else's. -/
  forgets : ∀ entry ∈ site.office.errands, ∀ execution ∈ entry.2.forgets,
    site.engine.Issued execution ∧ site.pending? execution = none ∧
      ∀ other ∈ site.office.errands, ∀ charge ∈ other.2.charges site.engine,
        charge.execution = execution → other.1 = entry.1
  stored : ∀ execution, ∀ state ∈ site.engine.stored execution, site.News told state
  inHand : ∀ entry ∈ site.office.errands, ∀ state ∈ entry.2.inHand, site.News told state
  past : ∀ execution state, .resumed state ∈ told execution →
    state.execution = execution ∧ state.pausedAt.nanos < site.engine.now
  rising : ∀ execution, ((told execution).filterMap Passage.resumed?).Pairwise
    fun a b => a.pausedAt.nanos < b.pausedAt.nanos

/-- A state remains later than those that have been resumed, unless its run is resumed again. -/
theorem News.later {state : Suspended} (news : site.News told state)
    (keeps : site.engine.Keeps after.engine) {deed : Deed}
    (apart : ∀ resumed, deed = .resume resumed → resumed.execution ≠ state.execution) :
    after.News (fun execution => told execution ++ deed.tells site after execution) state := by
  refine ⟨news.1.trans_le keeps.now_le, fun resumed member => ?_⟩
  rcases List.mem_append.mp member with before | now
  · exact news.2 resumed before
  · obtain ⟨goes, same⟩ := Deed.resumed_mem_passages now
    exact absurd same (apart resumed goes)

/-- A state that an errand is going to make pending or to let go on is of a run in its charge. -/
theorem exists_charge_of_inHand {errand : Errand} {state : Suspended} (engine : Engine)
    (member : state ∈ errand.inHand) :
    ∃ charge ∈ errand.charges engine, charge.execution = state.execution := by
  rcases List.mem_append.mp member with among | decided
  · obtain ⟨act, there, holds⟩ := List.mem_filterMap.mp among
    cases act with
    | arm d held =>
      cases holds
      exact ⟨_, List.mem_append_left _ (List.mem_filterMap.mpr ⟨_, there, rfl⟩), rfl⟩
    | _ => contradiction
  · rw [Option.mem_toList] at decided
    cases decision : errand.decision with
    | resume purpose d held node delta =>
      rw [decision] at decided
      cases decided
      exact ⟨_, List.mem_append_right _ (by rw [decision]; exact List.mem_singleton_self _), rfl⟩
    | finish purpose result =>
      rw [decision] at decided
      cases result with
      | error failure => contradiction
      | ok result =>
        refine ⟨{ execution := state.execution }, List.mem_append_right _ ?_, rfl⟩
        have suspended : result.suspended = some state := decided
        rw [decision]
        simp [Decision.charge?, suspended]
    | _ =>
      rw [decision] at decided
      contradiction

/-- The errand touches the row of the run, if anybody does. -/
def Touches (engine : Engine) (errand : Errand) (execution : String) : Prop :=
  (∃ charge ∈ errand.charges engine, charge.execution = execution) ∨ execution ∈ errand.forgets

section Deal

variable {id : Nat} {office : Office} {errand : Errand} {deed : Deed} {stride : Stride}

/-- Where an errand gets the runs in its charge from. -/
theorem charge_source (deals : Stride.Deals site.engine office errand deed stride)
    {charge : Charge} (member : charge ∈ stride.errand.charges stride.engine) :
    (∃ more ∈ errand.charges site.engine, more.execution = charge.execution) ∨
      (office.desk.pending? charge.execution).isSome ∨
        charge.execution = Id.fresh site.engine.moments := by
  cases deals.dealing with
  | keep calm agrees charges => exact .inl ⟨charge, charges.subset member, rfl⟩
  | start agrees moments charges =>
    rw [charges, List.mem_singleton] at member
    exact .inr (.inr (by rw [member]))
  | pause state held agrees charges =>
    rw [charges] at member
    contradiction
  | resume state held agrees charges =>
    rw [List.mem_singleton.mp (charges.subset member)]
    exact .inl ⟨_, held, rfl⟩
  | release exit state alarm found fits agrees charges =>
    have claimed := charges.subset member
    rw [Exit.charges] at claimed
    split at claimed
    · rw [List.mem_singleton.mp claimed]
      exact .inr (.inl (by simp [found]))
    · contradiction
  | detach workflow agrees charges =>
    rw [charges] at member
    contradiction

/-- Which runs come to be pending or cease to be. -/
theorem pending_source (deals : Stride.Deals site.engine office errand deed stride)
    (orderly : office.Orderly) (execution : String) :
    stride.office.desk.pending? execution = office.desk.pending? execution ∨
      stride.office.desk.pending? execution = none ∨
        ∃ state, deed = .pause state ∧ state.execution = execution ∧
          { execution := state.execution } ∈ errand.charges site.engine ∧
            ∃ alarm, stride.office.desk.pending? execution = some ⟨state, alarm⟩ := by
  cases deals.dealing with
  | keep calm agrees charges => exact .inl (agrees.pending? execution)
  | start agrees moments charges => exact .inl (agrees.pending? execution)
  | pause state held agrees charges =>
    by_cases same : execution = state.execution
    · refine .inr (.inr ⟨state, rfl, same.symm, held, office.nextAlarm? state, ?_⟩)
      rw [agrees.pending?, Office.pending?_arm, if_pos same]
    · left
      rw [agrees.pending?, Office.pending?_arm, if_neg same]
  | resume state held agrees charges => exact .inl (agrees.pending? execution)
  | release exit state alarm found fits agrees charges =>
    rw [agrees.pending?, Office.pending?_release]
    split
    · exact .inr (.inl rfl)
    · exact .inl rfl
  | detach workflow agrees charges =>
    rw [agrees.pending?, orderly.pending?_detach]
    cases office.desk.pending? execution with
    | none => exact .inl rfl
    | some pending =>
      rw [Option.filter_some]
      split
      · exact .inl rfl
      · exact .inr (.inl rfl)

/-- An errand of a site takes a step: what it does about pauses, and what about the ledger. -/
structure Handles (site after : Site) (id : Nat) (office : Office) (errand : Errand) (deed : Deed)
    (stride : Stride) : Prop where
  takes : site.Takes id office errand
  /-- It is one of the errands of the site, or a new one. -/
  own : (id, errand) ∈ site.office.errands ∨ errand.forgets = [] ∧ errand.inHand = []
  deals : Stride.Deals site.engine office errand deed stride
  files : Stride.Files site.engine office errand stride
  lands : site.Lands after id stride
  desk : after.office.desk = stride.office.desk
  does : ∀ state, deed = .resume state → errand.deed = .resume state
  pauses : ∀ state, deed = .pause state →
    stride.engine.stored state.execution = [state] ∧ errand.forgets = []

namespace Handles

variable (handles : site.Handles after id office errand deed stride)

include handles

/-- A run whose row the errand touches is not pending, and in nobody else's charge. -/
theorem alone (filed : site.Filed told) (kept : site.Kept lives) {execution : String}
    (touches : Touches site.engine errand execution) :
    site.engine.Issued execution ∧ site.pending? execution = none ∧
      ∀ other ∈ site.office.errands, ∀ charge ∈ other.2.charges site.engine,
        charge.execution = execution → other.1 = id := by
  rcases touches with ⟨charge, charged, rfl⟩ | forgotten
  · obtain ⟨old, member, held⟩ := handles.takes.charged charge charged
    refine ⟨kept.issued_of_charge _ member charge held, kept.pending?_eq_none ?_,
      fun other among more further same => ?_⟩
    · intro state alarm waits
      rw [kept.charged _ member charge held] at waits
      exact charge.life_ne_waiting state alarm waits
    · exact kept.exclusive other among _ member more further charge held same
  · rcases handles.own with member | ⟨nothing, _⟩
    · exact filed.forgets _ member execution forgotten
    · rw [nothing] at forgotten
      contradiction

theorem stored_eq {execution : String} (untouched : ¬ Touches site.engine errand execution) :
    after.engine.stored execution = site.engine.stored execution := by
  rw [handles.lands.engine]
  exact (handles.files.stored execution).resolve_right fun changed => untouched changed.1

theorem keeps : site.engine.Keeps after.engine := by
  rw [handles.lands.engine]
  exact handles.files.keeps

theorem extending : site.engine.Extends after.engine := by
  rw [handles.lands.engine]
  exact handles.deals.extending

/-- The row of a run in the charge of another errand stays as it is. -/
theorem stored_of_other (filed : site.Filed told) (kept : site.Kept lives) {entry : Nat × Errand}
    (member : entry ∈ site.office.errands) (different : entry.1 ≠ id) {charge : Charge}
    (charged : charge ∈ entry.2.charges site.engine) :
    after.engine.stored charge.execution = site.engine.stored charge.execution :=
  handles.stored_eq fun touches =>
    different ((handles.alone filed kept touches).2.2 entry member charge charged rfl)

/-- A run that is resumed is in the charge of the errand, and its state is the one that the errand
holds. -/
theorem resumes {state : Suspended} (goes : deed = .resume state) :
    state ∈ errand.inHand ∧ after.engine.stored state.execution = [] ∧
      stride.errand.inHand = [] := by
  have does := handles.does state goes
  have decides : ∃ purpose d node delta, errand.decision = .resume purpose d state node delta := by
    rw [Errand.deed] at does
    split at does <;> cases does
    exact ⟨_, _, _, _, by assumption⟩
  obtain ⟨purpose, d, node, delta, decision⟩ := decides
  rw [handles.lands.engine]
  refine ⟨List.mem_append_right _ ?_, handles.files.resumes state does⟩
  rw [decision]
  exact List.mem_singleton_self _

theorem pending (filed : site.Filed told) (kept : site.Kept lives) {execution : String}
    {state : Suspended} {alarm : Option Nat}
    (found : after.pending? execution = some ⟨state, alarm⟩) :
    after.engine.stored execution = [state] := by
  have there : stride.office.desk.pending? execution = some ⟨state, alarm⟩ := by
    rw [← handles.desk]
    exact found
  rcases pending_source handles.deals handles.takes.orderly execution with
    same | gone | ⟨paused, does, rfl, _, set, held⟩
  · rw [same, handles.takes.pending?] at there
    rw [handles.stored_eq, filed.pending execution state alarm there]
    intro touches
    rw [(handles.alone filed kept touches).2.1] at there
    contradiction
  · rw [gone] at there
    contradiction
  · cases held.symm.trans there
    rw [handles.lands.engine]
    exact (handles.pauses state does).1

/-- Whoever is not pending stays so, unless the errand makes it pending. -/
theorem pending_eq_none {execution : String} (absent : site.pending? execution = none)
    (foreign : ∀ state, deed = .pause state →
      { execution := state.execution } ∈ errand.charges site.engine →
        state.execution ≠ execution) :
    after.pending? execution = none := by
  show after.office.desk.pending? execution = none
  rw [handles.desk]
  rcases pending_source handles.deals handles.takes.orderly execution with
    same | gone | ⟨paused, does, same, charged, _⟩
  · rw [same, handles.takes.pending?, absent]
  · exact gone
  · exact absurd same (foreign paused does charged)

/-- What the errand is to forget from now on is nobody else's. -/
theorem forgets_own (filed : site.Filed told) (kept : site.Kept lives) {execution : String}
    (forgotten : execution ∈ stride.errand.forgets) :
    site.engine.Issued execution ∧ after.pending? execution = none ∧
      ∀ other ∈ site.office.errands, ∀ charge ∈ other.2.charges site.engine,
        charge.execution = execution → other.1 = id := by
  rcases handles.files.forgets execution forgotten with old | ⟨there, gone⟩
  · obtain ⟨issued, absent, others⟩ := handles.alone filed kept (.inr old)
    refine ⟨issued, handles.pending_eq_none absent fun state does _ _ => ?_, others⟩
    rw [(handles.pauses state does).2] at old
    contradiction
  · rw [handles.takes.pending?] at there
    obtain ⟨state, alarm, waits⟩ := kept.waiting_of_isSome there
    refine ⟨kept.issued execution (by simp [waits]), ?_, fun other among charge held same => ?_⟩
    · show after.office.desk.pending? execution = none
      rw [handles.desk, gone]
    · have elsewhere := kept.charged other among charge held
      rw [same, waits] at elsewhere
      exact absurd elsewhere.symm (charge.life_ne_waiting state alarm)

/-- What another errand is to forget is still nobody else's. -/
theorem forgets_other (filed : site.Filed told) {entry : Nat × Errand}
    (member : entry ∈ site.office.errands) (different : entry.1 ≠ id) {execution : String}
    (forgotten : execution ∈ entry.2.forgets) :
    after.pending? execution = none ∧
      ∀ charge ∈ stride.errand.charges after.engine, charge.execution ≠ execution := by
  obtain ⟨issued, absent, others⟩ := filed.forgets entry member execution forgotten
  have foreign : ∀ charge ∈ errand.charges site.engine, charge.execution ≠ execution := by
    intro charge charged same
    obtain ⟨old, among, held⟩ := handles.takes.charged charge charged
    exact different (others _ among charge held same).symm
  refine ⟨handles.pending_eq_none absent fun state _ charged => foreign _ charged, ?_⟩
  rintro charge member rfl
  rw [handles.lands.engine] at member
  rcases charge_source handles.deals member with ⟨more, held, same⟩ | there | fresh
  · exact foreign more held same
  · rw [handles.takes.pending?, absent] at there
    contradiction
  · obtain ⟨n, old, same⟩ := issued
    have equal := Id.fresh_injective (fresh.symm.trans same)
    omega

theorem forgets (filed : site.Filed told) (kept : site.Kept lives) {entry : Nat × Errand}
    (member : entry ∈ after.office.errands) {execution : String}
    (forgotten : execution ∈ entry.2.forgets) :
    after.engine.Issued execution ∧ after.pending? execution = none ∧
      ∀ other ∈ after.office.errands, ∀ charge ∈ other.2.charges after.engine,
        charge.execution = execution → other.1 = entry.1 := by
  have old : ∀ other ∈ site.office.errands, ∀ charge ∈ other.2.charges after.engine,
      charge ∈ other.2.charges site.engine := fun other among charge charged =>
    ((kept.managed other among).charges_extends handles.extending).subset charged
  rcases handles.lands.alters.others entry member with rfl | ⟨before, different⟩
  · obtain ⟨issued, absent, others⟩ := handles.forgets_own filed kept forgotten
    refine ⟨handles.extending.issued issued, absent, fun other among charge charged same => ?_⟩
    rcases handles.lands.alters.others other among with rfl | ⟨earlier, _⟩
    · rfl
    · exact others other earlier charge (old other earlier charge charged) same
  · obtain ⟨issued, _, others⟩ := filed.forgets entry before execution forgotten
    obtain ⟨absent, none_new⟩ := handles.forgets_other filed before different forgotten
    refine ⟨handles.extending.issued issued, absent, fun other among charge charged same => ?_⟩
    rcases handles.lands.alters.others other among with rfl | ⟨earlier, _⟩
    · exact absurd same (none_new charge charged)
    · exact others other earlier charge (old other earlier charge charged) same

/-- A stored state is later than those that have been resumed: of a run that goes on none is stored.
-/
theorem stored_news (filed : site.Filed told) {execution : String} {state : Suspended}
    (member : state ∈ after.engine.stored execution) :
    after.News (fun execution => told execution ++ deed.tells site after execution) state := by
  have own : state.execution = execution := (Engine.mem_stored.mp member).2
  have before : site.News told state := by
    have member := member
    rw [handles.lands.engine] at member
    rcases handles.files.stored execution with same | ⟨_, gone | ⟨saved, held, now⟩⟩
    · exact filed.stored execution state (same ▸ member)
    · rw [gone] at member
      contradiction
    · rw [now, List.mem_singleton] at member
      rcases handles.own with there | ⟨_, nothing⟩
      · exact filed.inHand _ there state (member ▸ held)
      · rw [nothing] at held
        contradiction
  refine before.later handles.keeps fun resumed goes same => ?_
  rw [← own, ← same, (handles.resumes goes).2.1] at member
  contradiction

/-- A state that an errand holds is later than those that have been resumed: only this errand can
resume its run. -/
theorem inHand_news (filed : site.Filed told) (kept : site.Kept lives) {entry : Nat × Errand}
    (member : entry ∈ after.office.errands) {state : Suspended} (held : state ∈ entry.2.inHand) :
    after.News (fun execution => told execution ++ deed.tells site after execution) state := by
  rcases handles.lands.alters.others entry member with rfl | ⟨before, different⟩
  · have apart : ∀ resumed, deed = .resume resumed → resumed.execution ≠ state.execution := by
      intro resumed goes
      rw [(handles.resumes goes).2.2] at held
      contradiction
    rcases handles.files.inHand state held with old | ⟨alarm, found⟩ | ⟨now, later⟩
    · rcases handles.own with there | ⟨_, nothing⟩
      · exact (filed.inHand _ there state old).later handles.keeps apart
      · rw [nothing] at old
        contradiction
    · rw [handles.takes.pending?] at found
      have row := filed.pending _ state alarm found
      exact (filed.stored _ state (row ▸ List.mem_singleton_self _)).later handles.keeps apart
    · refine ⟨?_, fun resumed reported => ?_⟩
      · rw [now, handles.lands.engine]
        exact handles.files.keeps.now_lt later
      · rw [now]
        rcases List.mem_append.mp reported with before | tells
        · exact (filed.past _ _ before).2
        · obtain ⟨goes, same⟩ := Deed.resumed_mem_passages tells
          exact absurd same (apart resumed goes)
  · refine (filed.inHand entry before state held).later handles.keeps fun resumed goes same => ?_
    obtain ⟨charge, charged, there⟩ := exists_charge_of_inHand site.engine held
    obtain ⟨more, mine, here⟩ := exists_charge_of_inHand site.engine (handles.resumes goes).1
    have alone := (handles.alone filed kept (.inl ⟨more, mine, rfl⟩)).2.2
    exact different (alone entry before charge charged (by rw [there, here, same]))

/-- Whatever a step of an errand does, the ledger has every pending run and no run that goes
on. -/
theorem filed (filed : site.Filed told) (kept : site.Kept lives) :
    after.Filed fun execution => told execution ++ deed.tells site after execution := by
  have engine := handles.lands.engine
  have resumed : ∀ execution state, .resumed state ∈ deed.tells site after execution →
      state.execution = execution ∧ site.News told state := by
    intro execution state tells
    obtain ⟨goes, same⟩ := Deed.resumed_mem_passages tells
    have held := (handles.resumes goes).1
    rcases handles.own with there | ⟨_, nothing⟩
    · exact ⟨same, filed.inHand _ there state held⟩
    · rw [nothing] at held
      contradiction
  refine ⟨engine ▸ handles.files.serves, fun execution => ?_, fun execution there => ?_,
    fun execution state alarm found => handles.pending filed kept found,
    handles.desk ▸ handles.files.knowing, fun entry member => ?_,
    fun entry member execution => handles.forgets filed kept member,
    fun execution state => handles.stored_news filed,
    fun entry member state => handles.inHand_news filed kept member,
    fun execution state reported => ?_, fun execution => ?_⟩
  · rw [engine]
    rcases handles.files.stored execution with same | ⟨_, gone | ⟨saved, held, now⟩⟩
    · rw [same]
      exact filed.single execution
    · simp [gone]
    · simp [now]
  · by_cases touches : Touches site.engine errand execution
    · exact handles.extending.issued (handles.alone filed kept touches).1
    · rw [handles.stored_eq touches] at there
      exact handles.extending.issued (filed.issued execution there)
  · rcases handles.lands.alters.others entry member with rfl | ⟨before, different⟩
    · rw [engine]
      exact handles.files.filed
    · obtain ⟨paper, stage, charged⟩ := filed.errands entry before
      have managed := kept.managed entry before
      refine ⟨paper, stage.keeps managed.decision handles.keeps, fun charge member => ?_⟩
      have old := (managed.charges_extends handles.extending).subset member
      rw [handles.stored_of_other filed kept before different old]
      exact charged charge old
  · rcases List.mem_append.mp reported with before | now
    · obtain ⟨own, past⟩ := filed.past execution state before
      exact ⟨own, past.trans_le handles.keeps.now_le⟩
    · obtain ⟨own, news⟩ := resumed execution state now
      exact ⟨own, news.1.trans_le handles.keeps.now_le⟩
  · rw [List.filterMap_append, List.pairwise_append]
    refine ⟨filed.rising execution, ?_, fun earlier old later new => ?_⟩
    · rw [Deed.tells, Deed.resumed?_passages]
      split
      · split
        · exact List.pairwise_singleton ..
        · exact List.Pairwise.nil
      · exact List.Pairwise.nil
    · obtain ⟨passage, before, is⟩ := List.mem_filterMap.mp old
      obtain ⟨passage', now, is'⟩ := List.mem_filterMap.mp new
      obtain rfl : passage = .resumed earlier := by cases passage <;> cases is; rfl
      obtain rfl : passage' = .resumed later := by cases passage' <;> cases is'; rfl
      obtain ⟨own, news⟩ := resumed execution later now
      exact news.2 earlier (own.symm ▸ before)

end Handles

end Deal

theorem isFree_order (order : Order) (engine : Engine) :
    Stride.IsFree engine { decision := order.decision } := by
  refine ⟨List.forall_mem_nil _, rfl, ?_, order.charge?_decision engine, ?_, ?_⟩
  · cases order with
    | run d input => exact fun own named => (Option.some.inj named).symm
    | _ => trivial
  · cases order <;> rfl
  · cases order <;> rfl

theorem desk_land (stride : Stride) (id : Nat) :
    (land stride id).office.desk = stride.office.desk := by
  unfold land
  dsimp only
  split <;> rfl

namespace Filed

/-- What is given to a step of an errand. -/
theorem given (filed : site.Filed told) {id : Nat} {office : Office}
    {errand : Errand} (takes : site.Takes id office errand)
    (desk : office.desk = site.office.desk) (stage : errand.IsFiled site.engine) :
    Stride.Filed site.engine office errand where
  serves := filed.serves
  unused := by
    by_contra there
    obtain ⟨n, old, same⟩ := filed.issued _ there
    have equal := Id.fresh_injective same
    omega
  pending execution state alarm found :=
    filed.pending execution state alarm (takes.pending? execution ▸ found)
  knowing := desk ▸ filed.knowing
  errand := stage

/-- What changes neither the ledger nor the pending runs, and adds no errands but free ones. -/
theorem aside (filed : site.Filed told) (kept : site.Kept lives) (after : Site) {deed : Deed}
    (calm : deed.IsCalm) (keeps : site.engine.Keeps after.engine)
    (extending : site.engine.Extends after.engine)
    (ledger : after.engine.ledger = site.engine.ledger) (knowing : after.office.desk.Knowing)
    (pending : ∀ execution, after.pending? execution = site.pending? execution)
    (errands : ∀ entry ∈ after.office.errands,
      entry ∈ site.office.errands ∨ Stride.IsFree after.engine entry.2) :
    after.Filed fun execution => told execution ++ deed.tells site after execution := by
  have nothing : ∀ execution, deed.tells site after execution = [] := by
    intro execution
    rw [Deed.tells, pending]
    exact calm.passages_self execution _
  simp only [nothing, List.append_nil]
  have same := Engine.stored_of_ledger ledger
  have news : ∀ state, site.News told state → after.News told state :=
    fun state news => ⟨news.1.trans_le keeps.now_le, news.2⟩
  have old : ∀ other ∈ site.office.errands, ∀ charge ∈ other.2.charges after.engine,
      charge ∈ other.2.charges site.engine := fun other among charge charged =>
    ((kept.managed other among).charges_extends extending).subset charged
  refine ⟨filed.serves.of_ledger ledger, same ▸ filed.single, fun execution there => ?_,
    fun execution state alarm found => ?_, knowing, fun entry member => ?_,
    fun entry member execution forgotten => ?_, fun execution state member => ?_,
    fun entry member state held => ?_, fun execution state member => ?_, filed.rising⟩
  · exact extending.issued (filed.issued execution (same ▸ there))
  · rw [same]
    exact filed.pending execution state alarm (pending execution ▸ found)
  · rcases errands entry member with before | free
    · obtain ⟨paper, stage, charged⟩ := filed.errands entry before
      refine ⟨paper, stage.keeps (kept.managed entry before).decision keeps,
        fun charge member => ?_⟩
      rw [same]
      exact charged charge (old entry before charge member)
    · obtain ⟨stage, charges, _⟩ := free.stage
      refine ⟨none, stage, fun charge member => ?_⟩
      rw [charges] at member
      contradiction
  · rcases errands entry member with before | free
    · obtain ⟨issued, absent, others⟩ := filed.forgets entry before execution forgotten
      refine ⟨extending.issued issued, (pending execution).trans absent,
        fun other among charge charged same => ?_⟩
      rcases errands other among with earlier | free
      · exact others other earlier charge (old other earlier charge charged) same
      · rw [free.stage.2.1] at charged
        contradiction
    · rw [free.stage.2.2.2] at forgotten
      contradiction
  · exact news state (filed.stored execution state (same ▸ member))
  · rcases errands entry member with before | free
    · exact news state (filed.inHand entry before state held)
    · rw [free.stage.2.2.1] at held
      contradiction
  · obtain ⟨own, past⟩ := filed.past execution state member
    exact ⟨own, past.trans_le keeps.now_le⟩

/-- Each move keeps the ledger up with the pending runs. -/
theorem move (filed : site.Filed told) (kept : site.Kept lives) (m : Move) :
    (site.move m).Filed fun execution => told execution ++ site.passages m execution := by
  have still := kept.numbered.extends_refl
  cases m with
  | order order =>
    have calm : (site.deed (.order order)).IsCalm := trivial
    refine filed.aside kept _ calm (.refl _) still rfl filed.knowing (fun _ => rfl)
      fun entry member => ?_
    rcases List.mem_append.mp member with old | new
    · exact .inl old
    · rw [List.mem_singleton.mp new]
      exact .inr (isFree_order order site.engine)
  | turn id =>
    cases found : site.office.errand? id with
    | none =>
      have same : site.move (.turn id) = site := by simp only [Site.move, turn, found]
      have nothing : site.deed (.turn id) = .nothing := by simp [deed, found]
      have calm : (site.deed (.turn id)).IsCalm := nothing ▸ trivial
      rw [passages, same]
      exact filed.aside kept site calm (.refl _) still rfl filed.knowing (fun _ => rfl)
        fun entry member => .inl member
    | some errand =>
      have member : (id, errand) ∈ site.office.errands := Table.mem_of_lookup found
      obtain ⟨takes, deals, lands⟩ := kept.deal_turn found
      have given := filed.given takes rfl (filed.errands _ member)
      have files := Stride.step_files kept.numbered kept.orderly (kept.managed _ member) given
      have handles : site.Handles (land (Stride.step site.engine site.office errand) id) id
          site.office errand errand.deed (Stride.step site.engine site.office errand) :=
        ⟨takes, .inl member, deals, files, lands, desk_land _ id, fun _ same => same,
          fun _ pauses => Stride.step_pauses given pauses⟩
      have does : site.deed (.turn id) = errand.deed := by simp [deed, found]
      rw [passages, move_turn found, does]
      exact handles.filed filed kept
  | branch run id =>
    obtain ⟨keeps, ledger⟩ := site.engine.stepRun_keeps run (.branch id)
    have calm : (site.deed (.branch run id)).IsCalm := trivial
    exact filed.aside kept (site.move (.branch run id)) calm keeps
      (kept.numbered.stepRun run (.branch id)) ledger filed.knowing (fun _ => rfl)
      fun entry member => .inl member
  | ring id =>
    have calm : (site.deed (.ring id)).IsCalm := trivial
    cases found : site.office.alarms.find? (·.id == id) with
    | none =>
      have same : site.move (.ring id) = site := by simp only [Site.move, ring, found]
      rw [passages, same]
      exact filed.aside kept site calm (.refl _) still rfl filed.knowing (fun _ => rfl)
        fun entry member => .inl member
    | some alarm =>
      obtain rfl : alarm.id = id := by simpa using List.find?_some found
      by_cases opened : (site.office.silence (some alarm.id)).isOpen = true
      · have moved := kept.ring_of_mem found opened
        obtain ⟨takes, deals, lands⟩ := kept.deal_ring found
        have free : Stride.IsFree site.engine { decision := .expire alarm.execution } :=
          ⟨List.forall_mem_nil _, rfl, trivial, rfl, rfl, rfl⟩
        obtain ⟨stage, charges, inHand, forgets⟩ := free.stage
        have given := filed.given takes rfl ⟨none, stage, by simp [charges]⟩
        have files := Stride.expire_files takes.orderly given rfl rfl
        rw [passages, Site.move, moved]
        exact Handles.filed ⟨takes, .inr ⟨forgets, inHand⟩, deals, files, lands, desk_land _ _,
          by simp [deed], by simp [deed]⟩ filed kept
      · rw [passages, Kept.ring_of_closed found opened]
        exact filed.aside kept _ calm (.refl _) still rfl filed.knowing (fun _ => rfl)
          fun entry member => .inl member
  | learn d =>
    have calm : (site.deed (.learn d)).IsCalm := trivial
    exact filed.aside kept (site.move (.learn d)) calm (.refl _) still rfl
      (filed.knowing.learn d) (fun _ => rfl) fun entry member => .inl member
  | pass clock =>
    have calm : (site.deed (.pass clock)).IsCalm := trivial
    exact filed.aside kept (site.move (.pass clock)) calm (.of_runs rfl rfl rfl (Nat.le_refl _))
      (kept.numbered.extends_of_runs rfl rfl (Nat.le_refl _)) rfl filed.knowing (fun _ => rfl)
      fun entry member => .inl member

end Filed

end Site

end DurableFlow
