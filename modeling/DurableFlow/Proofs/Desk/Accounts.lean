import DurableFlow.Proofs.Desk.Custody

/-!
# Accounts of what has happened

`Accounts` relates two sites by the passages that have been told in between: `Life.follow` leads
every run along them from where it stood to where it stands. Accounts compose, so that what is shown
of one move holds of every schedule. Whatever an errand does about pauses at a step is accounted
for.
-/

namespace DurableFlow

namespace Site

variable {site middle after : Site} {lives lives' : String → Life}

/-- The passages that have been told between two sites lead each run from where it stood to where it
stands. The alarms that have been set in between are new, and no two of them are the same. -/
structure Accounts (site : Site) (lives : String → Life) (after : Site) (lives' : String → Life)
    (told : String → List Passage) : Prop where
  kept : after.Kept lives'
  follow : ∀ execution, (lives execution).follow (told execution) = some (lives' execution)
  nextAlarm_le : site.office.nextAlarm ≤ after.office.nextAlarm
  set : ∀ execution, ∀ alarm ∈ (told execution).filterMap Passage.alarm?,
    site.office.nextAlarm ≤ alarm ∧ alarm < after.office.nextAlarm
  nodup : ∀ execution, ((told execution).filterMap Passage.alarm?).Nodup

namespace Accounts

theorem refl (kept : site.Kept lives) : Accounts site lives site lives fun _ => [] :=
  ⟨kept, fun _ => rfl, Nat.le_refl _, by simp, by simp⟩

theorem trans {lives'' : String → Life} {told more : String → List Passage}
    (first : Accounts site lives middle lives' told)
    (second : Accounts middle lives' after lives'' more) :
    Accounts site lives after lives'' fun execution => told execution ++ more execution where
  kept := second.kept
  follow execution := by
    rw [Life.follow_append, first.follow, Option.bind_some, second.follow]
  nextAlarm_le := first.nextAlarm_le.trans second.nextAlarm_le
  set execution alarm member := by
    rw [List.filterMap_append, List.mem_append] at member
    have before := first.nextAlarm_le
    have later := second.nextAlarm_le
    rcases member with old | new
    · have := first.set execution alarm old
      omega
    · have := second.set execution alarm new
      omega
  nodup execution := by
    rw [List.filterMap_append, List.nodup_append]
    refine ⟨first.nodup execution, second.nodup execution, fun a old b new => ?_⟩
    have := first.set execution a old
    have := second.set execution b new
    omega

end Accounts

/-- The passages that one deed tells. -/
theorem accounts_of_deed {deed : Deed} (kept : after.Kept lives')
    (follow : ∀ execution, (lives execution).follow
      (deed.passages execution (site.pending? execution) (after.pending? execution)) =
        some (lives' execution))
    (nextAlarm_le : site.office.nextAlarm ≤ after.office.nextAlarm)
    (set : ∀ state, deed = .pause state → ∀ alarm,
      (after.pending? state.execution).bind Pending.alarm = some alarm →
        site.office.nextAlarm ≤ alarm ∧ alarm < after.office.nextAlarm) :
    Accounts site lives after lives' (deed.tells site after) where
  kept := kept
  follow := follow
  nextAlarm_le := nextAlarm_le
  set execution alarm member := by
    rw [Deed.tells, Deed.alarms_passages] at member
    split at member
    · rename_i state
      split at member
      · rename_i same
        subst same
        exact set state rfl alarm (Option.mem_toList.mp member)
      · simp at member
    · simp at member
  nodup execution := by
    rw [Deed.tells, Deed.alarms_passages]
    split
    · split
      · exact Option.toList_nodup _
      · exact List.nodup_nil
    · exact List.nodup_nil

/-- A step that leaves the pending runs alone, and after which the errand has no run in its charge
but new ones and those that it had before. -/
theorem Kept.accounts_still (kept : site.Kept lives) {id : Nat} {errand : Errand} {deed : Deed}
    (alters : site.Alters after id errand) (extending : site.engine.Extends after.engine)
    (orderly : after.office.Orderly) (managed : errand.IsManaged after.engine)
    (pending : ∀ execution, after.pending? execution = site.pending? execution)
    (nextAlarm : after.office.nextAlarm = site.office.nextAlarm)
    (charges : ∀ charge ∈ errand.charges after.engine,
      lives charge.execution = charge.life ∧ (site.Holds id charge.execution ∨
        ∃ n, site.engine.moments ≤ n ∧ n < after.engine.moments ∧
          charge.execution = Id.fresh n))
    (calm : deed.IsCalm) :
    Accounts site lives after lives (deed.tells site after) := by
  refine accounts_of_deed ?_ ?_ nextAlarm.ge ?_
  · refine kept.carry id errand alters extending orderly managed ?_
      (fun charge charged => (charges charge charged).1) (fun _ => .inl rfl)
      (fun charge charged => (charges charge charged).2)
    intro execution
    rw [pending]
    exact kept.pending execution
  · intro execution
    rw [pending, calm.passages_self]
    rfl
  · rintro state rfl
    exact calm.elim

/-- The site after a stride of an errand, from which the errand may have been dropped since. -/
structure Lands (site after : Site) (id : Nat) (stride : Stride) : Prop where
  alters : site.Alters after id stride.errand
  engine : after.engine = stride.engine
  pauses : stride.office.SamePauses after.office

/-- An errand of a site and the office that it takes its step in: the office of the site,
where some alarms may have been stopped. -/
structure Takes (site : Site) (id : Nat) (office : Office) (errand : Errand) : Prop where
  pending : office.desk.pending = site.office.desk.pending
  nextAlarm : office.nextAlarm = site.office.nextAlarm
  orderly : office.Orderly
  few : (errand.charges site.engine).length ≤ 1
  charged : ∀ charge ∈ errand.charges site.engine,
    ∃ old, (id, old) ∈ site.office.errands ∧ charge ∈ old.charges site.engine

section Deal

variable {id : Nat} {office : Office} {errand : Errand} {deed : Deed} {stride : Stride}

theorem Takes.pending? (takes : site.Takes id office errand) (execution : String) :
    office.desk.pending? execution = site.pending? execution := by
  rw [Desk.pending?, takes.pending, Site.pending?, Desk.pending?]

theorem Takes.holds (takes : site.Takes id office errand) {charge : Charge}
    (charged : charge ∈ errand.charges site.engine) : site.Holds id charge.execution := by
  obtain ⟨old, member, held⟩ := takes.charged charge charged
  exact .inr ⟨old, member, charge, held, rfl⟩

theorem Takes.lives_eq (takes : site.Takes id office errand) (kept : site.Kept lives)
    {charge : Charge} (charged : charge ∈ errand.charges site.engine) :
    lives charge.execution = charge.life := by
  obtain ⟨old, member, held⟩ := takes.charged charge charged
  exact kept.charged _ member charge held

/-- A step that leaves all but one run alone. -/
theorem Kept.accounts_update (kept : site.Kept lives) (takes : site.Takes id office errand)
    (deals : Stride.Deals site.engine office errand deed stride)
    (lands : site.Lands after id stride) (orderly : stride.office.Orderly) (execution : String)
    (life : Life) (holds : site.Holds id execution)
    (there : ∀ state alarm,
      stride.office.desk.pending? execution = some ⟨state, alarm⟩ ↔ life = .waiting state alarm)
    (elsewhere : ∀ other, other ≠ execution →
      stride.office.desk.pending? other = site.pending? other ∧
        deed.passages other (site.pending? other) (site.pending? other) = [])
    (charges : ∀ charge ∈ stride.errand.charges stride.engine,
      charge.execution = execution ∧ charge.life = life)
    (step : (lives execution).follow (deed.passages execution (site.pending? execution)
      (stride.office.desk.pending? execution)) = some life)
    (nextAlarm_le : site.office.nextAlarm ≤ stride.office.nextAlarm)
    (set : ∀ state, deed = .pause state → ∀ alarm,
      (stride.office.desk.pending? state.execution).bind Pending.alarm = some alarm →
        site.office.nextAlarm ≤ alarm ∧ alarm < stride.office.nextAlarm) :
    Accounts site lives after (Function.update lives execution life) (deed.tells site after) := by
  have engine := lands.engine
  have pending : ∀ other, after.pending? other = stride.office.desk.pending? other :=
    lands.pauses.pending?
  refine accounts_of_deed ?_ ?_ ?_ ?_
  · refine kept.carry id stride.errand lands.alters (engine ▸ deals.extending)
      (lands.pauses.orderly orderly) (engine ▸ deals.managed takes.few) ?_ ?_ ?_ ?_
    · intro other state alarm
      rw [pending]
      by_cases same : other = execution
      · rw [same, Function.update_self]
        exact there state alarm
      · rw [(elsewhere other same).1, Function.update_of_ne same]
        exact kept.pending other state alarm
    · intro charge charged
      obtain ⟨same, located⟩ := charges charge (engine ▸ charged)
      rw [same, Function.update_self, located]
    · intro other
      by_cases same : other = execution
      · exact .inr (same ▸ holds)
      · exact .inl (Function.update_of_ne same _ _)
    · intro charge charged
      exact .inl ((charges charge (engine ▸ charged)).1 ▸ holds)
  · intro other
    rw [pending]
    by_cases same : other = execution
    · rw [same, Function.update_self]
      exact step
    · obtain ⟨still, nothing⟩ := elsewhere other same
      rw [still, nothing, Function.update_of_ne same]
      rfl
  · rw [lands.pauses.nextAlarm]
    exact nextAlarm_le
  · intro state paused alarm armed
    rw [pending] at armed
    rw [lands.pauses.nextAlarm]
    exact set state paused alarm armed

/-- A run in the charge of the errand has become pending. -/
theorem Kept.accounts_pause (kept : site.Kept lives) (takes : site.Takes id office errand)
    {state : Suspended} (deals : Stride.Deals site.engine office errand (.pause state) stride)
    (lands : site.Lands after id stride)
    (charge : { execution := state.execution } ∈ errand.charges site.engine)
    (agrees : (office.arm state).Agrees stride.office)
    (charges : stride.errand.charges stride.engine = []) :
    ∃ lives', Accounts site lives after lives' ((Deed.pause state).tells site after) := by
  have away : lives state.execution = .away := takes.lives_eq kept charge
  have absent : site.pending? state.execution = none :=
    kept.pending?_eq_none fun held alarm waits => by simp [away] at waits
  have pending : ∀ other, stride.office.desk.pending? other =
      if other = state.execution then some ⟨state, office.nextAlarm? state⟩
      else site.pending? other := by
    intro other
    rw [agrees.pending?, Office.pending?_arm, takes.pending?]
  have there := pending state.execution
  rw [if_pos rfl] at there
  refine ⟨_, kept.accounts_update takes deals lands
    (agrees.orderly (takes.orderly.arm (by rw [takes.pending?, absent]))) state.execution
    (.waiting state (office.nextAlarm? state)) (takes.holds charge) ?_ ?_ ?_ ?_ ?_ ?_⟩
  · intro held alarm
    rw [there, Option.some.injEq, Pending.mk.injEq, Life.waiting.injEq]
  · intro other different
    refine ⟨by rw [pending, if_neg different], ?_⟩
    simp [Deed.passages, Ne.symm different]
  · intro charge member
    rw [charges] at member
    contradiction
  · simp [Deed.passages, absent, there, away, Life.follow, Life.next]
  · rw [agrees.nextAlarm, ← takes.nextAlarm]
    exact office.nextAlarm_le_arm state
  · rintro _ ⟨⟩ alarm armed
    rw [there] at armed
    rw [agrees.nextAlarm, ← takes.nextAlarm]
    exact Office.lt_arm_of_nextAlarm? armed

/-- The engine has been asked to let a run go on. -/
theorem Kept.accounts_resume (kept : site.Kept lives) (takes : site.Takes id office errand)
    {state : Suspended} (deals : Stride.Deals site.engine office errand (.resume state) stride)
    (lands : site.Lands after id stride)
    (charge : { execution := state.execution, claimed := some state } ∈
      errand.charges site.engine)
    (agrees : office.Agrees stride.office)
    (charges : (stride.errand.charges stride.engine).Sublist
      [{ execution := state.execution }]) :
    ∃ lives', Accounts site lives after lives' ((Deed.resume state).tells site after) := by
  have claimed : lives state.execution = .claimed state := takes.lives_eq kept charge
  have absent : site.pending? state.execution = none :=
    kept.pending?_eq_none fun held alarm waits => by simp [claimed] at waits
  have pending : ∀ other, stride.office.desk.pending? other = site.pending? other := by
    intro other
    rw [agrees.pending?, takes.pending?]
  refine ⟨_, kept.accounts_update takes deals lands (agrees.orderly takes.orderly)
    state.execution .away (takes.holds charge) ?_ ?_ ?_ ?_ ?_ ?_⟩
  · intro held alarm
    simp [pending, absent]
  · intro other different
    refine ⟨pending other, ?_⟩
    simp [Deed.passages, Ne.symm different]
  · intro other member
    rw [List.mem_singleton.mp (charges.subset member)]
    exact ⟨rfl, rfl⟩
  · simp [Deed.passages, pending, claimed, Life.follow, Life.next]
  · rw [agrees.nextAlarm, takes.nextAlarm]
  · rintro _ ⟨⟩

/-- A run has been taken out of the pending ones. -/
theorem Kept.accounts_release (kept : site.Kept lives) (takes : site.Takes id office errand)
    {exit : Exit} (deals : Stride.Deals site.engine office errand (.release exit) stride)
    (lands : site.Lands after id stride) {state : Suspended} {alarm : Option Nat}
    (found : office.desk.pending? state.execution = some ⟨state, alarm⟩)
    (fits : exit.fits alarm = true) (agrees : (office.release state.execution).Agrees stride.office)
    (charges : (stride.errand.charges stride.engine).Sublist (exit.charges state)) :
    ∃ lives', Accounts site lives after lives' ((Deed.release exit).tells site after) := by
  rw [takes.pending?] at found
  have waits : lives state.execution = .waiting state alarm := (kept.pending _ _ _).mp found
  have pending : ∀ other, stride.office.desk.pending? other =
      if other = state.execution then none else site.pending? other := by
    intro other
    rw [agrees.pending?, Office.pending?_release, takes.pending?]
  have there := pending state.execution
  rw [if_pos rfl] at there
  refine ⟨_, kept.accounts_update takes deals lands
    (agrees.orderly (takes.orderly.release state.execution)) state.execution
    (Life.after state exit) (.inl (by simp [found])) ?_ ?_ ?_ ?_ ?_ ?_⟩
  · intro held other
    rw [Life.after]
    split <;> simp [there]
  · intro other different
    refine ⟨by rw [pending, if_neg different], ?_⟩
    simp [Deed.passages]
  · intro charge member
    have claimed := charges.subset member
    rw [Exit.charges] at claimed
    split at claimed
    · rename_i claims
      rw [List.mem_singleton.mp claimed]
      exact ⟨rfl, by rw [Life.after, if_pos claims]; rfl⟩
    · contradiction
  · simp [Deed.passages, Deed.exit, found, there, waits, Life.follow, Life.next, fits]
  · rw [agrees.nextAlarm, Office.release_nextAlarm, takes.nextAlarm]
  · rintro _ ⟨⟩

/-- The runs of a workflow have been dropped. -/
theorem Kept.accounts_detach (kept : site.Kept lives) (takes : site.Takes id office errand)
    (deals : Stride.Deals site.engine office errand (.release .stop) stride)
    (lands : site.Lands after id stride) {workflow : String}
    (agrees : (office.detach workflow).Agrees stride.office)
    (charges : stride.errand.charges stride.engine = []) :
    ∃ lives', Accounts site lives after lives' ((Deed.release .stop).tells site after) := by
  have engine := lands.engine
  have pending : ∀ execution, after.pending? execution =
      (site.pending? execution).filter fun pending => pending.state.workflow != workflow := by
    intro execution
    have same := lands.pauses.pending? execution
    rw [agrees.pending?, takes.orderly.pending?_detach, takes.pending?] at same
    exact same
  have nextAlarm : after.office.nextAlarm = site.office.nextAlarm := by
    rw [lands.pauses.nextAlarm, agrees.nextAlarm, Office.detach_nextAlarm, takes.nextAlarm]
  have none_left : ∀ charge, charge ∉ stride.errand.charges after.engine := by
    rw [engine, charges]
    exact fun _ => List.not_mem_nil
  refine ⟨fun execution => (lives execution).stop workflow,
    accounts_of_deed ?_ ?_ nextAlarm.ge ?_⟩
  · refine kept.carry id stride.errand lands.alters (engine ▸ deals.extending)
      (lands.pauses.orderly (agrees.orderly (takes.orderly.detach workflow)))
      (engine ▸ deals.managed takes.few) ?_ (fun charge charged => absurd charged (none_left _)) ?_
      (fun charge charged => absurd charged (none_left _))
    · intro execution state alarm
      rw [pending, Option.filter_eq_some_iff, kept.pending, Life.stop_eq_waiting_iff]
      simp
    · intro execution
      cases located : lives execution with
      | waiting state alarm =>
        refine .inr (.inl ?_)
        rw [(kept.pending _ _ _).mpr located]
        rfl
      | _ => exact .inl rfl
  · intro execution
    rw [pending]
    cases located : lives execution with
    | waiting state alarm =>
      rw [(kept.pending _ _ _).mpr located]
      by_cases own : state.workflow = workflow
      · simp [Deed.passages, Deed.exit, own, Life.follow, Life.next, Life.stop, Exit.fits,
          Life.after, Exit.claims]
      · simp [Deed.passages, own, Life.stop]
    | _ =>
      rw [kept.pending?_eq_none fun state alarm waits => by simp [located] at waits]
      rfl
  · rintro _ ⟨⟩

/-- Whatever a step of an errand does about pauses is accounted for. -/
theorem Kept.accounts_deal (kept : site.Kept lives) (takes : site.Takes id office errand)
    (deals : Stride.Deals site.engine office errand deed stride)
    (lands : site.Lands after id stride) :
    ∃ lives', Accounts site lives after lives' (deed.tells site after) := by
  have engine := lands.engine
  have extending : site.engine.Extends after.engine := engine ▸ deals.extending
  have managed : stride.errand.IsManaged after.engine := engine ▸ deals.managed takes.few
  have unchanged : office.Agrees stride.office → after.office.Orderly ∧
      (∀ execution, after.pending? execution = site.pending? execution) ∧
      after.office.nextAlarm = site.office.nextAlarm := by
    intro agrees
    refine ⟨lands.pauses.orderly (agrees.orderly takes.orderly), fun execution => ?_, ?_⟩
    · rw [← takes.pending? execution, ← agrees.pending? execution]
      exact lands.pauses.pending? execution
    · rw [lands.pauses.nextAlarm, agrees.nextAlarm, takes.nextAlarm]
  cases deals.dealing with
  | keep calm agrees charges =>
    obtain ⟨orderly, pending, nextAlarm⟩ := unchanged agrees
    refine ⟨lives, kept.accounts_still lands.alters extending orderly managed pending nextAlarm
      (fun charge charged => ?_) calm⟩
    have held := charges.subset (engine ▸ charged)
    exact ⟨takes.lives_eq kept held, .inl (takes.holds held)⟩
  | start agrees moments charges =>
    obtain ⟨orderly, pending, nextAlarm⟩ := unchanged agrees
    refine ⟨lives, kept.accounts_still lands.alters extending orderly managed pending nextAlarm
      (fun charge charged => ?_) trivial⟩
    rw [engine, charges, List.mem_singleton] at charged
    subst charged
    refine ⟨?_, .inr ⟨_, Nat.le_refl _, engine ▸ moments, rfl⟩⟩
    show lives (Id.fresh site.engine.moments) = .away
    by_contra further
    obtain ⟨n, old, same⟩ := kept.issued _ further
    have equal := Id.fresh_injective same
    omega
  | pause state charge agrees charges =>
    exact kept.accounts_pause takes deals lands charge agrees charges
  | resume state charge agrees charges =>
    exact kept.accounts_resume takes deals lands charge agrees charges
  | release exit state alarm found fits agrees charges =>
    exact kept.accounts_release takes deals lands found fits agrees charges
  | detach workflow agrees charges =>
    exact kept.accounts_detach takes deals lands agrees charges

end Deal

end Site

end DurableFlow
