import DurableFlow.Proofs.Desk.Apart
import DurableFlow.Proofs.Desk.Records

/-!
# What is left of runs that nobody has in hand

A row of the ledger does not stay behind: its run is pending, or an errand owes it something,
namely to make its run pending or to forget it. `Site.Tidy` is this invariant, up to rows that
have been there from the beginning. And a run that is neither pending nor in the charge of an
errand is over: nothing is told of it any more.
-/

namespace DurableFlow

/-- An errand is to forget the row of a run, or to make the run pending. -/
def Errand.Owes (errand : Errand) (execution : String) : Prop :=
  execution ∈ errand.forgets ∨
    ∃ d state, errand.acts = [.arm d state] ∧ state.execution = execution

namespace Stride

variable {engine : Engine} {office : Office} {errand : Errand} {execution : String}

/-- An act that neither saves nor deletes a state nor makes a run pending. -/
theorem act_owes_aside (given : Filed engine office errand) {act : Act} {rest : List Act}
    (acts : errand.acts = act :: rest) (plain : act.isKeeping = false)
    (forgets : act.forgets? = none)
    (row : (Stride.act engine office { errand with acts := rest } act).engine.stored execution ≠ [])
    (before : engine.stored execution = [] ∨ (office.desk.pending? execution).isSome ∨
      errand.Owes execution) :
    ((Stride.act engine office { errand with acts := rest } act).office.desk.pending?
        execution).isSome ∨
      (Stride.act engine office { errand with acts := rest } act).errand.Owes execution := by
  obtain ⟨same, _, _, stored, _⟩ :=
    act_aside { errand with acts := rest } given.serves given.knowing plain forgets
  have desk := (act_desk engine office { errand with acts := rest } act).2.1 fun d state arms => by
    rw [arms] at plain
    contradiction
  rw [stored] at row
  rw [desk, same]
  rcases before with absent | pending | forgotten | ⟨d, state, only, _⟩
  · exact absurd absent row
  · exact .inl pending
  · rw [Errand.forgets, acts, List.filterMap_cons, forgets] at forgotten
    exact .inr (.inl forgotten)
  · rw [acts, List.cons.injEq] at only
    rw [only.1] at plain
    contradiction

/-- After an act, a state that the errand was going to delete or to make pending is so still, unless
it is deleted or its run is pending; and so is a state that the act saves. -/
theorem act_owes (given : Filed engine office errand) {act : Act} {rest : List Act}
    (acts : errand.acts = act :: rest)
    (row : (Stride.act engine office { errand with acts := rest } act).engine.stored execution ≠ [])
    (before : engine.stored execution = [] ∨ (office.desk.pending? execution).isSome ∨
      errand.Owes execution) :
    ((Stride.act engine office { errand with acts := rest } act).office.desk.pending?
        execution).isSome ∨
      (Stride.act engine office { errand with acts := rest } act).errand.Owes execution := by
  obtain ⟨paper, stage, _⟩ := given.errand
  have first : act ∈ errand.acts := acts ▸ List.mem_cons_self
  cases act with
  | saveSuspended state =>
    cases stage with
    | free plain | forgetting plain | releasing _ plain => cases plain _ first
    | arming d held same => simp [acts] at same
    | saving d held same own answer answers =>
      rw [acts, List.cons.injEq, Act.saveSuspended.injEq] at same
      obtain ⟨rfl, rfl⟩ := same
      by_cases mine : state.execution = execution
      · exact .inr (.inr ⟨d, state, rfl, mine⟩)
      · have stored := (Engine.saveSuspended_stored given.serves state).2 execution
        rw [if_neg mine] at stored
        rcases before with absent | pending | forgotten | ⟨_, _, only, _⟩
        · exact absurd (stored.trans absent) row
        · exact .inl pending
        · simp [Errand.forgets, acts, answers, Act.forgets?, Decision.drops] at forgotten
        · simp [acts] at only
  | deleteSuspended deleted =>
    have stored := (Engine.deleteSuspended_stored given.serves deleted).2 execution
    by_cases mine : execution = deleted
    · rw [if_pos mine] at stored
      exact absurd stored row
    · rw [if_neg mine] at stored
      rcases before with absent | pending | forgotten | ⟨_, _, only, _⟩
      · exact absurd (stored.trans absent) row
      · exact .inl pending
      · refine .inr (.inl ?_)
        simpa [Errand.forgets, acts, Act.forgets?, mine, Stride.act] using forgotten
      · simp [acts] at only
  | arm d state =>
    have ledger := (armed_keeps engine { office with desk := office.desk.learnNew d } state).2
    have same : engine.stored execution ≠ [] := by
      intro absent
      exact row ((congrFun (Engine.stored_of_ledger ledger) execution).trans absent)
    have pending : (Stride.act engine office { errand with acts := rest }
        (.arm d state)).office.desk.pending? execution =
          if execution = state.execution then some ⟨state, office.nextAlarm? state⟩
          else office.desk.pending? execution := by
      rw [(act_desk engine office _ (.arm d state)).2.2 d state rfl, Desk.pending?_hold,
        (learnNew_agrees office d).toSamePauses.pending?]
    left
    rw [pending]
    split
    · rfl
    · rename_i foreign
      cases stage with
      | free plain | forgetting plain | releasing _ plain => cases plain _ first
      | saving d held only => simp [acts] at only
      | arming d held only own answer answers =>
        rcases before with absent | there | forgotten | ⟨_, _, mine, rfl⟩
        · exact absurd absent same
        · exact there
        · simp [Errand.forgets, only, answers, Act.forgets?, Decision.drops] at forgotten
        · rw [acts, List.cons.injEq, Act.arm.injEq] at mine
          exact absurd (congrArg Suspended.execution mine.1.2).symm foreign
  | saveRun | settleRun | saveSubscription | deleteSubscription | publish | count | register
  | unregister =>
    exact act_owes_aside given acts rfl rfl row before

section Decisions

variable (acts : errand.acts = [])

include acts

/-- When an errand decides, it has states left to delete only if it takes back a deployment. -/
theorem drops_of_owes (owes : errand.Owes execution) : execution ∈ errand.decision.drops := by
  rcases owes with forgotten | ⟨_, _, only, _⟩
  · simpa [Errand.forgets, acts] using forgotten
  · simp [acts] at only

/-- Whatever drops nothing finds the run pending. -/
theorem pending_of_drops (drops : errand.decision.drops = [])
    (before : (office.desk.pending? execution).isSome ∨ errand.Owes execution) :
    (office.desk.pending? execution).isSome := by
  refine before.resolve_right fun owes => ?_
  have dropped := drops_of_owes acts owes
  rw [drops] at dropped
  contradiction

end Decisions

/-- The state of a run that is taken out of the pending ones is going to be deleted. -/
theorem owes_release {stride : Stride} {state : Suspended}
    (released : stride.office = office.release state.execution)
    (forgets : state.execution ∈ stride.errand.forgets)
    (before : (office.desk.pending? execution).isSome) :
    (stride.office.desk.pending? execution).isSome ∨ stride.errand.Owes execution := by
  by_cases mine : execution = state.execution
  · exact .inr (.inl (mine ▸ forgets))
  · left
    rw [released, Office.pending?_release, if_neg mine]
    exact before

/-- The states of the pending runs of a workflow that is stopped are going to be deleted, and no
other runs are taken out. -/
theorem stops_owes (orderly : office.Orderly) {workflow : String} {stride : Stride}
    (detached : stride.office = office.detach workflow)
    (forgets : stride.errand.decision.drops =
      (office.desk.pendingOf workflow).map Suspended.execution)
    (pending : (office.desk.pending? execution).isSome) :
    (stride.office.desk.pending? execution).isSome ∨ stride.errand.Owes execution := by
  obtain ⟨⟨state, alarm⟩, found⟩ := Option.isSome_iff_exists.mp pending
  by_cases own : state.workflow = workflow
  · have dropped : state ∈ office.desk.pendingOf workflow :=
      List.mem_filter.mpr ⟨List.mem_map.mpr ⟨⟨state, alarm⟩, Fields.mem_values_of_get? found, rfl⟩,
        by simpa using own⟩
    obtain rfl : state.execution = execution := orderly.keyed _ _ found
    exact .inr (.inl (List.mem_append_right _ (forgets ▸ List.mem_map_of_mem dropped)))
  · left
    rw [detached, orderly.pending?_detach, found]
    simp [own]

/-- After a decision, a state that the errand was going to delete is so still, and so is that of a
run that was pending, unless it still is. -/
theorem decide_owes (orderly : office.Orderly) (managed : errand.IsManaged engine)
    (acts : errand.acts = [])
    (before : (office.desk.pending? execution).isSome ∨ errand.Owes execution) :
    ((decide engine office errand).office.desk.pending? execution).isSome ∨
      (decide engine office errand).errand.Owes execution := by
  have allowed := managed.decision
  have pending (drops : errand.decision.drops = []) : (office.desk.pending? execution).isSome :=
    pending_of_drops acts drops before
  have dropped (owes : errand.Owes execution) : execution ∈ errand.decision.drops :=
    drops_of_owes acts owes
  have decides := decide_decides engine office errand
  generalize decide engine office errand = stride at decides ⊢
  generalize decision : errand.decision = stage at decides allowed pending dropped
  cases decides with
  | claims =>
    exact owes_release rfl (by simp [Errand.forgets, Errand.go, Act.forgets?]) (pending rfl)
  | @cancels _ state _ found =>
    obtain rfl : state.execution = _ := orderly.keyed _ _ found
    exact owes_release rfl (by simp [Errand.forgets, Errand.go, Act.forgets?]) (pending rfl)
  | stops => exact stops_owes orderly rfl rfl (pending rfl)
  | forgets | stopped =>
    exact before.imp_right fun owes =>
      .inl ((forgetWorkflow_stage engine errand _ _).2.2.symm ▸ dropped owes)
  | callsStop => exact before.imp_right fun owes => .inl (dropped owes)
  | awaitsStop =>
    exact before.imp_right fun owes => .inl (List.mem_append_right _ (decision ▸ dropped owes))
  | attended | attends | expiryMissed | lapses | timesOut | transitions | restoresNothing
  | restoreFailed | restores | adopted | passesOver | adopts | recallsNothing | recallFailed
  | recalls | adoptsSuspended => exact allowed.elim
  | _ => exact .inl (pending rfl)

/-- After a step of a managed errand, a stored state is that of a pending run or is going to be
deleted or made pending by the errand, if it was so before or is new. -/
theorem step_owes (orderly : office.Orderly) (managed : errand.IsManaged engine)
    (given : Filed engine office errand)
    (row : (step engine office errand).engine.stored execution ≠ [])
    (before : engine.stored execution = [] ∨ (office.desk.pending? execution).isSome ∨
      errand.Owes execution) :
    ((step engine office errand).office.desk.pending? execution).isSome ∨
      (step engine office errand).errand.Owes execution := by
  rw [step] at row ⊢
  split at row
  · rename_i act rest acts
    exact act_owes given acts row before
  · rename_i acts
    rw [Engine.stored_of_ledger (decide_leaves engine office errand).1] at row
    exact decide_owes orderly managed acts (before.resolve_left row)

/-- When the wait of a run is over, its state is going to be deleted. -/
theorem expire_owes (orderly : office.Orderly) (errand : Errand) (other : String)
    (before : (office.desk.pending? execution).isSome) :
    ((expire engine office errand other).office.desk.pending? execution).isSome ∨
      (expire engine office errand other).errand.Owes execution := by
  have decides := expire_decides engine office errand other
  generalize expire engine office errand other = stride at decides ⊢
  cases decides with
  | expiryMissed => exact .inl before
  | lapses found | timesOut found | transitions found =>
    obtain rfl : _ = other := orderly.keyed _ _ found
    exact owes_release rfl (by simp [Errand.forgets, Errand.go, Act.forgets?]) before

end Stride

namespace Site

variable {site after : Site} {lives : String → Life} {told : String → List Passage}
  {execution : String}

/-- A row that has not been there from the beginning is that of a pending run, or some errand
owes it something. -/
def Tidy (site : Site) (old : String → Prop) : Prop :=
  ∀ execution, site.engine.stored execution ≠ [] → old execution ∨
    (site.pending? execution).isSome ∨
      ∃ entry ∈ site.office.errands, entry.2.Owes execution

/-- The run has begun, is not pending, and is in the charge of no errand. -/
structure IsOver (site : Site) (execution : String) : Prop where
  issued : site.engine.Issued execution
  absent : site.pending? execution = none
  nobody : ∀ entry ∈ site.office.errands, ∀ charge ∈ entry.2.charges site.engine,
    charge.execution ≠ execution

section Deal

variable {id : Nat} {office : Office} {errand : Errand} {deed : Deed} {stride : Stride}

/-- A run that is over stays over, whatever an errand does, and nothing is told of it. -/
theorem IsOver.deal (ended : site.IsOver execution) (kept : site.Kept lives)
    (takes : site.Takes id office errand)
    (deals : Stride.Deals site.engine office errand deed stride)
    (lands : site.Lands after id stride) :
    after.IsOver execution ∧ deed.tells site after execution = [] := by
  have foreign : ∀ charge ∈ errand.charges site.engine, charge.execution ≠ execution := by
    intro charge charged
    obtain ⟨old, member, held⟩ := takes.charged charge charged
    exact ended.nobody _ member charge held
  have unpaused : ∀ state, deed = .pause state → state.execution ≠ execution := by
    rintro state rfl
    cases deals.dealing with
    | keep calm agrees charges => exact calm.elim
    | pause _ charge agrees charges => exact foreign _ charge
  have absent : after.pending? execution = none := by
    rw [Site.pending?, lands.pauses.pending?]
    rcases pending_source deals takes.orderly execution with
      same | gone | ⟨state, paused, own, _⟩
    · rw [same, takes.pending?, ended.absent]
    · exact gone
    · exact absurd own (unpaused state paused)
  refine ⟨⟨?_, absent, ?_⟩, ?_⟩
  · rw [lands.engine]
    exact deals.extending.issued ended.issued
  · rintro entry member charge charged rfl
    rcases lands.alters.others entry member with rfl | ⟨before, _⟩
    · rw [lands.engine] at charged
      rcases charge_source deals charged with ⟨more, held, own⟩ | there | fresh
      · exact foreign more held own
      · rw [takes.pending?, ended.absent] at there
        contradiction
      · obtain ⟨n, old, issued⟩ := ended.issued
        have equal := Id.fresh_injective (fresh.symm.trans issued)
        omega
    · rw [lands.engine] at charged
      have managed := kept.managed entry before
      exact ended.nobody entry before charge
        ((managed.charges_extends deals.extending).subset charged) rfl
  · rw [Deed.tells, ended.absent, absent]
    cases deed with
    | pause state => simp [Deed.passages, unpaused state rfl]
    | resume state =>
      have apart : state.execution ≠ execution := by
        cases deals.dealing with
        | keep calm agrees charges => exact calm.elim
        | resume _ charge agrees charges => exact foreign _ charge
      simp [Deed.passages, apart]
    | _ => simp [Deed.passages]

end Deal

/-- What leaves the runs where they are, and adds no errands but such as are in charge of
nothing. -/
theorem IsOver.aside (ended : site.IsOver execution) (kept : site.Kept lives)
    (extending : site.engine.Extends after.engine)
    (pending : after.pending? execution = site.pending? execution)
    (errands : ∀ entry ∈ after.office.errands,
      entry ∈ site.office.errands ∨ entry.2.charges after.engine = []) :
    after.IsOver execution := by
  refine ⟨extending.issued ended.issued, pending.trans ended.absent, ?_⟩
  intro entry member charge charged
  rcases errands entry member with before | nothing
  · exact ended.nobody entry before charge
      (((kept.managed entry before).charges_extends extending).subset charged)
  · rw [nothing] at charged
    contradiction

/-- A run that is over stays over, and nothing is told of it any more. -/
theorem IsOver.move (ended : site.IsOver execution) (kept : site.Kept lives) (m : Move) :
    (site.move m).IsOver execution ∧ site.passages m execution = [] := by
  have still := kept.numbered.extends_refl
  have moved := kept.moves m
  rw [passages]
  generalize site.move m = after at moved ⊢
  have nothing : (site.deed m).IsCalm → after.pending? execution = site.pending? execution →
      (site.deed m).tells site after execution = [] := by
    intro calm same
    rw [Deed.tells, same]
    exact calm.passages_self execution _
  cases moved with
  | order order =>
    refine ⟨ended.aside kept still rfl fun entry member => ?_, nothing trivial rfl⟩
    rcases List.mem_append.mp member with before | new
    · exact .inl before
    · rw [List.mem_singleton.mp new]
      exact .inr (isFree_order order site.engine).stage.2.1
  | @turn id errand found =>
    obtain ⟨takes, deals, lands⟩ := kept.deal_turn found
    have does : site.deed (.turn id) = errand.deed := by simp [deed, found]
    rw [does]
    exact ended.deal kept takes deals lands
  | @noErrand id absent =>
    have calm : (site.deed (.turn id)).IsCalm := by simp [deed, absent, Deed.IsCalm]
    exact ⟨ended, nothing calm rfl⟩
  | branch run id =>
    exact ⟨ended.aside kept (kept.numbered.stepRun run (.branch id)) rfl
      fun entry member => .inl member, nothing trivial rfl⟩
  | ring found =>
    obtain ⟨takes, deals, lands⟩ := kept.deal_ring found
    exact ended.deal kept takes deals lands
  | closed =>
    exact ⟨ended.aside kept still rfl fun entry member => .inl member, nothing trivial rfl⟩
  | noAlarm id => exact ⟨ended, nothing trivial rfl⟩
  | learn d =>
    exact ⟨ended.aside kept still rfl fun entry member => .inl member, nothing trivial rfl⟩
  | pass clock =>
    exact ⟨ended.aside kept (kept.numbered.extends_of_runs rfl rfl (Nat.le_refl _)) rfl
      fun entry member => .inl member, nothing trivial rfl⟩

/-- What leaves the rows and the pending runs alone, and takes no errand away. -/
theorem Tidy.aside {old : String → Prop} (tidy : site.Tidy old)
    (ledger : after.engine.ledger = site.engine.ledger)
    (pending : ∀ execution, after.pending? execution = site.pending? execution)
    (errands : ∀ entry ∈ site.office.errands, entry ∈ after.office.errands) : after.Tidy old := by
  intro execution row
  rw [Engine.stored_of_ledger ledger] at row
  rw [pending]
  rcases tidy execution row with from_old | waits | ⟨entry, member, owes⟩
  · exact .inl from_old
  · exact .inr (.inl waits)
  · exact .inr (.inr ⟨entry, errands entry member, owes⟩)

/-- One errand takes a step, after which it is going to delete or to make pending what it was before
and what is new. -/
theorem Tidy.deal {old : String → Prop} (tidy : site.Tidy old) {id : Nat} {errand : Errand}
    {stride : Stride} (strides : site.Strides id errand stride)
    (owes : ∀ execution, stride.engine.stored execution ≠ [] →
      (site.engine.stored execution = [] ∨ (site.pending? execution).isSome ∨
        errand.Owes execution) →
      (stride.office.desk.pending? execution).isSome ∨ stride.errand.Owes execution) :
    (land stride id).Tidy old := by
  intro execution row
  have idle : ∀ answer, errand.acts = [] → errand.decision = .answer answer →
      ¬ errand.Owes execution := by
    intro answer acts decision owed
    have dropped := Stride.drops_of_owes acts owed
    rw [decision] at dropped
    contradiction
  have before : old execution ∨
      (site.engine.stored execution = [] ∨ (site.pending? execution).isSome) ∨
        ∃ entry ∈ site.office.errands, entry.2.Owes execution := by
    by_cases absent : site.engine.stored execution = []
    · exact .inr (.inl (.inl absent))
    · exact (tidy execution absent).imp_right (·.imp_left .inr)
  rw [Site.pending?, desk_land]
  exact before.imp_right
    (strides.exists_land (·.Owes execution) idle fun had => owes execution row (or_assoc.mp had))

/-- No move leaves a row behind. -/
theorem Tidy.move {old : String → Prop} (tidy : site.Tidy old) (kept : site.Kept lives)
    (filed : site.Filed told) (m : Move) : (site.move m).Tidy old := by
  have moved := kept.moves m
  generalize site.move m = after at moved ⊢
  cases moved with
  | order order =>
    exact tidy.aside rfl (fun _ => rfl) fun entry member => List.mem_append_left _ member
  | @turn id errand found =>
    have member : (id, errand) ∈ site.office.errands := Table.mem_of_lookup found
    obtain ⟨takes, _, _⟩ := kept.deal_turn found
    have given := filed.given takes rfl (filed.errands _ member)
    exact tidy.deal (kept.strides_turn found) fun execution =>
      Stride.step_owes kept.orderly (kept.managed _ member) given
  | branch run id =>
    obtain ⟨_, ledger⟩ := site.engine.stepRun_keeps run (.branch id)
    exact tidy.aside ledger (fun _ => rfl) fun _ member => member
  | @ring alarm found =>
    obtain ⟨takes, _, _⟩ := kept.deal_ring found
    refine tidy.deal (kept.strides_ring found) fun execution row before => ?_
    rw [← takes.pending?] at before
    have ledger : ∀ office errand, (Stride.expire site.engine office errand
        alarm.execution).engine.ledger = site.engine.ledger := by
      intro office errand
      rw [Stride.expire]
      split <;> rfl
    rw [Engine.stored_of_ledger (ledger _ _)] at row
    refine Stride.expire_owes takes.orderly _ _ ?_
    refine (before.resolve_left row).resolve_right fun owed => ?_
    have dropped := Stride.drops_of_owes rfl owed
    contradiction
  | noErrand | noAlarm => exact tidy
  | closed | learn | pass => exact tidy.aside rfl (fun _ => rfl) fun _ member => member

/-- A run that is over stays over in any schedule, and nothing is told of it. -/
theorem IsOver.play (ended : site.IsOver execution) (kept : site.Kept lives)
    (schedule : List Move) :
    (site.play schedule).IsOver execution ∧ site.log execution schedule = [] := by
  induction schedule generalizing site lives with
  | nil => exact ⟨ended, rfl⟩
  | cons m rest ih =>
    obtain ⟨middle, accounts⟩ := kept.accounts_move m
    obtain ⟨still, nothing⟩ := ended.move kept m
    obtain ⟨later, nothing'⟩ := ih still accounts.kept
    exact ⟨later, by rw [log, nothing, nothing', List.append_nil]⟩

/-- No schedule leaves a row behind, and the ledger keeps up with the pending runs. -/
theorem Tidy.play {old : String → Prop} (tidy : site.Tidy old) (kept : site.Kept lives)
    (filed : site.Filed told) (schedule : List Move) :
    (site.play schedule).Tidy old ∧
      (site.play schedule).Filed
        fun execution => told execution ++ site.log execution schedule := by
  induction schedule generalizing site lives told with
  | nil => exact ⟨tidy, by simpa [log] using filed⟩
  | cons m rest ih =>
    obtain ⟨middle, accounts⟩ := kept.accounts_move m
    obtain ⟨later, files⟩ := ih (tidy.move kept filed m) accounts.kept (filed.move kept m)
    simp only [List.append_assoc] at files
    exact ⟨later, files⟩

end Site

end DurableFlow
