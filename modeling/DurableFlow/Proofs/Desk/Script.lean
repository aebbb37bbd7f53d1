import DurableFlow.Proofs.Desk.Chronicle
import DurableFlow.Proofs.Desk.Recording

/-!
# What errands are going to publish

An act that publishes a notice does not look at the notices before it. A `Chapter` is where the
notices of a run have come to. `Errand.InTune` says of an errand that the notices which its acts are
going to publish may follow one another from the chapters in which the runs are, and that its
decision comes in the chapter that it needs. Nothing of this depends on the ledger.

`step_carries` goes through all acts and decisions once: an errand that is in tune stays in tune
with the chapters after the step, and where a notice tells that a run is paused, the errand is going
to make the run pending until it has done so.
-/

namespace DurableFlow

/-- The run that a notice is about which the act publishes, or that the act makes pending. -/
def Act.voices? : Act → Option String
  | .publish notice => some notice.execution
  | .arm _ state => some state.execution
  | _ => none

/-- The run that a decision is about is in the chapter in which this decision may be made, and its
pass is one that makes the run pending when it is suspended. -/
def Decision.Finds (engine : Engine) (chapters : String → Chapter) : Decision → Prop
  | start purpose .. => purpose.definition?.isSome ∧ purpose.state? = none
  | resume purpose _ state _ _ =>
    purpose.definition?.isSome ∧ purpose.state? = some state ∧
      chapters state.execution = .waiting state
  | drive purpose id | conclude purpose id =>
    purpose.definition?.isSome ∧
      ∃ run, engine.run? id = some run ∧ chapters run.context.execution = .underWay id
  | finish purpose (.ok result) =>
    purpose.definition?.isSome ∧ ∀ state, result.suspended = some state →
      chapters state.execution = .paused state
  | finish purpose (.error _) => ∀ state, purpose.state? = some state →
      chapters state.execution = .waiting state
  | _ => True

/-- The chapters after an act: a notice that is published leads to a chapter which may follow, and a
run that has been told to be paused waits once it is pending. -/
def Act.Advances (engine : Engine) (decision : Decision) (chapters after : String → Chapter) :
    Act → Prop
  | publish notice =>
    ∃ next, (chapters notice.execution).Turns (Errand.telling engine decision notice) next ∧
      after = Function.update chapters notice.execution next
  | arm _ state =>
    chapters state.execution = .paused state ∧
      after = Function.update chapters state.execution (.waiting state)
  | _ => after = chapters

/-- The notices of a list of acts may follow one another, and after them the decision may be made.
-/
def Script (engine : Engine) (decision : Decision) :
    (String → Chapter) → List Act → Prop
  | chapters, [] => decision.Finds engine chapters
  | chapters, act :: rest =>
    ∃ after, act.Advances engine decision chapters after ∧ Script engine decision after rest

namespace Errand

/-- The runs that an errand is to publish notices of or to make pending, or that its decision is
about. -/
def voices (engine : Engine) (errand : Errand) : List String :=
  errand.acts.filterMap Act.voices? ++ (errand.decision.about? engine).toList

/-- The errand is going to make a run pending. -/
def IsToPause (errand : Errand) (state : Suspended) : Prop :=
  (∃ d, .arm d state ∈ errand.acts) ∨
    ∃ purpose result, errand.decision = .finish purpose (.ok result) ∧
      purpose.definition?.isSome ∧ result.suspended = some state

/-- The acts and the decision of the errand fit the chapters of the runs. -/
structure InTune (engine : Engine) (chapters : String → Chapter) (errand : Errand) : Prop where
  script : Script engine errand.decision chapters errand.acts
  /-- An errand that makes a run pending is about no other run, and about this one no more then. -/
  arms : ∀ d state, .arm d state ∈ errand.acts → errand.voices engine = [state.execution]

/-- The chapters after the next step of an errand. -/
def Advances (engine : Engine) (chapters after : String → Chapter) (errand : Errand) : Prop :=
  match errand.acts with
  | act :: _ => act.Advances engine errand.decision chapters after
  | [] => after = chapters

end Errand

section Frame

variable {engine after : Engine} {chapters other next : String → Chapter} {decision : Decision}

namespace Act

variable {act : Act}

/-- What an act makes of a chapter depends on the chapter of its run only. -/
theorem Advances.congr (advances : act.Advances engine decision chapters next)
    (agree : ∀ execution, act.voices? = some execution →
      other execution = chapters execution) :
    ∃ next', act.Advances engine decision other next' ∧
      ∀ execution, other execution = chapters execution → next' execution = next execution := by
  cases act with
  | publish notice =>
    obtain ⟨chapter, turns, rfl⟩ := advances
    refine ⟨_, ⟨chapter, agree notice.execution rfl ▸ turns, rfl⟩, fun execution same => ?_⟩
    simp only [Function.update_apply, same]
  | arm d state =>
    obtain ⟨paused, rfl⟩ := advances
    refine ⟨_, ⟨(agree state.execution rfl).trans paused, rfl⟩, fun execution same => ?_⟩
    simp only [Function.update_apply, same]
  | _ =>
    obtain rfl : next = chapters := advances
    exact ⟨other, rfl, fun _ same => same⟩

end Act

theorem Decision.Finds.congr (finds : decision.Finds engine chapters)
    (agree : ∀ execution, decision.about? engine = some execution →
      other execution = chapters execution) : decision.Finds engine other := by
  cases decision with
  | resume purpose d state node delta =>
    exact ⟨finds.1, finds.2.1, (agree _ rfl).trans finds.2.2⟩
  | drive purpose id | conclude purpose id =>
    obtain ⟨own, run, found, underWay⟩ := finds
    refine ⟨own, run, found, (agree _ ?_).trans underWay⟩
    simp only [about?, Engine.owner?, found, Option.map_some]
  | finish purpose result =>
    cases result with
    | ok result =>
      refine ⟨finds.1, fun state is => (agree _ ?_).trans (finds.2 state is)⟩
      simp only [about?, is, Option.map_some]
    | error failure =>
      intro state is
      refine (agree _ ?_).trans (finds state is)
      simp only [about?, is, Option.map_some]
  | _ => exact finds

/-- Wherever the other passes have gone on to, a decision is about the same run. -/
theorem Decision.Finds.spared {closed : Option Nat} (finds : decision.Finds engine chapters)
    (spares : engine.Spares after closed)
    (unclosed : ∀ purpose id, decision = .drive purpose id ∨ decision = .conclude purpose id →
      closed ≠ some id) :
    decision.Finds after chapters ∧ decision.about? after = decision.about? engine := by
  cases decision with
  | drive purpose id | conclude purpose id =>
    obtain ⟨own, run, found, underWay⟩ := finds
    obtain ⟨later, found', goesOn⟩ := spares id run found (unclosed purpose id (by simp))
    refine ⟨⟨own, later, found', goesOn.execution ▸ underWay⟩, ?_⟩
    simp only [about?, Engine.owner?, found, found', Option.map_some, goesOn.execution]
  | finish purpose result => cases result <;> exact ⟨finds, rfl⟩
  | _ => exact ⟨finds, rfl⟩

namespace Script

variable {acts : List Act}

/-- Behind all acts the decision finds its run. -/
theorem finds (script : Script engine decision chapters acts) :
    ∃ last, decision.Finds engine last := by
  induction acts generalizing chapters with
  | nil => exact ⟨chapters, script⟩
  | cons act rest ih =>
    obtain ⟨_, _, later⟩ := script
    exact ih later

/-- The chapters of other runs are of no concern. -/
theorem congr (script : Script engine decision chapters acts)
    (agree : ∀ execution ∈ acts.filterMap Act.voices? ++ (decision.about? engine).toList,
      other execution = chapters execution) : Script engine decision other acts := by
  induction acts generalizing chapters other with
  | nil =>
    exact Decision.Finds.congr script fun execution about =>
      agree execution (by simpa using about)
  | cons act rest ih =>
    obtain ⟨next, advances, later⟩ := script
    obtain ⟨next', advances', same⟩ := advances.congr fun execution voices =>
      agree execution (List.mem_append_left _
        (List.mem_filterMap.mpr ⟨act, List.mem_cons_self, voices⟩))
    refine ⟨next', advances', ih later fun execution member => same execution ?_⟩
    refine agree execution (List.mem_append.mpr ((List.mem_append.mp member).imp_left ?_))
    exact fun among => ((List.sublist_cons_self act rest).filterMap _).subset among

/-- Wherever the other passes have gone on to, the same may be told. -/
theorem spared {closed : Option Nat} (script : Script engine decision chapters acts)
    (spares : engine.Spares after closed)
    (unclosed : ∀ purpose id, decision = .drive purpose id ∨ decision = .conclude purpose id →
      closed ≠ some id) : Script after decision chapters acts := by
  induction acts generalizing chapters with
  | nil => exact (Decision.Finds.spared script spares unclosed).1
  | cons act rest ih =>
    obtain ⟨next, advances, later⟩ := script
    refine ⟨next, ?_, ih later⟩
    cases act with
    | publish notice =>
      obtain ⟨chapter, turns, rfl⟩ := advances
      refine ⟨chapter, ?_, rfl⟩
      cases decision with
      | drive purpose id =>
        obtain ⟨_, _, run, found, _⟩ := later.finds
        obtain ⟨run', found', _⟩ := spares id run found (unclosed purpose id (.inl rfl))
        simp only [Errand.telling, found, found', Option.map_some, Option.getD_some] at turns ⊢
        exact turns.opens run'
      | finish purpose result => cases result <;> exact turns
      | _ => exact turns
    | _ => exact advances

/-- Acts that tell nothing. -/
theorem of_plain (plain : ∀ act ∈ acts, act.voices? = none)
    (finds : decision.Finds engine chapters) : Script engine decision chapters acts := by
  induction acts with
  | nil => exact finds
  | cons act rest ih =>
    refine ⟨chapters, ?_, ih fun other among => plain other (List.mem_cons_of_mem act among)⟩
    have nothing := plain act List.mem_cons_self
    cases act <;> first | rfl | contradiction

end Script

namespace Errand

variable {errand : Errand}

theorem InTune.congr (inTune : errand.InTune engine chapters)
    (agree : ∀ execution ∈ errand.voices engine, other execution = chapters execution) :
    errand.InTune engine other :=
  ⟨inTune.script.congr agree, inTune.arms⟩

theorem InTune.spared {closed : Option Nat} (inTune : errand.InTune engine chapters)
    (spares : engine.Spares after closed)
    (unclosed : ∀ purpose id,
      errand.decision = .drive purpose id ∨ errand.decision = .conclude purpose id →
        closed ≠ some id) :
    errand.InTune after chapters ∧ errand.voices after = errand.voices engine := by
  obtain ⟨_, finds⟩ := inTune.script.finds
  have same : errand.voices after = errand.voices engine := by
    rw [voices, voices, (finds.spared spares unclosed).2]
  exact ⟨⟨inTune.script.spared spares unclosed, same ▸ inTune.arms⟩, same⟩

/-- An errand that drives a pass has the run of the pass in its hands. -/
theorem InTune.voices_of_pass (inTune : errand.InTune engine chapters) {purpose : Purpose}
    {id : Nat} (drives : errand.decision = .drive purpose id ∨
      errand.decision = .conclude purpose id) :
    ∃ execution, engine.owner? id = some execution ∧ execution ∈ errand.voices engine := by
  obtain ⟨_, finds⟩ := inTune.script.finds
  have about : errand.decision.about? engine = engine.owner? id := by
    rcases drives with decision | decision <;> rw [decision] <;> rfl
  obtain ⟨run, found⟩ : ∃ run, engine.run? id = some run := by
    rcases drives with decision | decision <;> rw [decision] at finds <;>
      exact ⟨_, finds.2.choose_spec.1⟩
  have owner : engine.owner? id = some run.context.execution := by
    rw [Engine.owner?, found, Option.map_some]
  exact ⟨_, owner, List.mem_append_right _ (Option.mem_toList.mpr (about.trans owner))⟩

/-- A step changes the chapters of the runs that the errand has to do with only. -/
theorem Advances.of_not_mem (advances : errand.Advances engine chapters next)
    {execution : String} (foreign : execution ∉ errand.voices engine) :
    next execution = chapters execution := by
  unfold Errand.Advances at advances
  split at advances
  · rename_i act rest acts
    have apart : act.voices? ≠ some execution := fun voices =>
      foreign (List.mem_append_left _ (List.mem_filterMap.mpr ⟨act, by simp [acts], voices⟩))
    cases act with
    | publish notice =>
      obtain ⟨chapter, _, rfl⟩ := advances
      exact Function.update_of_ne (fun same => apart (congrArg some same.symm)) _ _
    | arm d state =>
      obtain ⟨_, rfl⟩ := advances
      exact Function.update_of_ne (fun same => apart (congrArg some same.symm)) _ _
    | _ =>
      obtain rfl : next = chapters := advances
      rfl
  · rw [advances]

theorem InTune.of_plain (plain : ∀ act ∈ errand.acts, act.voices? = none)
    (finds : errand.decision.Finds engine chapters) : errand.InTune engine chapters :=
  ⟨.of_plain plain finds, fun d state among => by cases plain _ among⟩

theorem voices_of_plain (plain : ∀ act ∈ errand.acts, act.voices? = none) (engine : Engine) :
    errand.voices engine = (errand.decision.about? engine).toList := by
  rw [voices, List.filterMap_eq_nil_iff.mpr plain, List.nil_append]

theorem voices_of_rest (acts : errand.acts = []) (engine : Engine) :
    errand.voices engine = (errand.decision.about? engine).toList :=
  voices_of_plain (by simp [acts]) engine

end Errand

end Frame

namespace Stride

/-- What a step makes of the chapters of runs, and of the errand, which fits the new chapters. -/
structure Carries (engine : Engine) (office : Office) (errand : Errand) (stride : Stride)
    (chapters after : String → Chapter) : Prop where
  advances : errand.Advances engine chapters after
  /-- Only the errand's own pass may be closed. -/
  spares : engine.Spares stride.engine errand.run?
  inTune : stride.errand.InTune stride.engine after
  /-- A run that the errand is about then is one that it was about before, was pending, or is new.
  -/
  voices : ∀ execution ∈ stride.errand.voices stride.engine,
    execution ∈ errand.voices engine ∨
      (office.desk.pending? execution).isSome ∧ stride.office.desk.pending? execution = none ∨
        execution = Id.fresh engine.moments ∧ engine.moments < stride.engine.moments
  /-- A run that has been told to be paused and is not pending yet is going to be made pending by
  the errand, if the errand has told so at this step or was going to make it pending before. -/
  owes : ∀ state, after state.execution = .paused state →
    chapters state.execution ≠ .paused state ∨ errand.IsToPause state →
      stride.errand.IsToPause state
  /-- An errand that has made a run pending is about no run any more. -/
  pauses : ∀ state, errand.deed = .pause state →
    state.execution ∈ errand.voices engine ∧ stride.errand.voices stride.engine = []

/-- What holds before a step: the runs that are pending are in the chapter in which they wait, a run
that is yet to begin is in the first one, and the errand fits the chapters. -/
structure Narrated (engine : Engine) (office : Office) (errand : Errand)
    (chapters : String → Chapter) : Prop where
  pending : ∀ execution state alarm, office.desk.pending? execution = some ⟨state, alarm⟩ →
    chapters execution = .waiting state
  untold : chapters (Id.fresh engine.moments) = .untold
  inTune : errand.InTune engine chapters

variable {engine : Engine} {office : Office} {errand : Errand} {chapters : String → Chapter}
  {stride : Stride}

/-- An act leaves the errand with what is left of it, and the passes alone. -/
theorem act_rest (engine : Engine) (office : Office) (errand : Errand) (act : Act) :
    (Stride.act engine office errand act).errand = errand ∧
      (Stride.act engine office errand act).engine.runs = engine.runs := by
  have kept : ∀ change : Ledger → Except Failure Ledger,
      (engine.write change).runs = engine.runs := by
    intro change
    rw [Engine.write]
    repeat' split
    all_goals rfl
  cases act with
  | publish | count | register | unregister => exact ⟨rfl, rfl⟩
  | arm d state =>
    refine ⟨rfl, ?_⟩
    show (armed engine { office with desk := office.desk.learnNew d } state).1.runs = engine.runs
    rw [armed]
    split <;> rfl
  | _ => exact ⟨rfl, kept _⟩

/-- What an errand is to tell, its next act apart. -/
theorem voices_cons {act : Act} {rest : List Act} (acts : errand.acts = act :: rest)
    (engine : Engine) :
    errand.voices engine =
      act.voices?.toList ++ ({ errand with acts := rest } : Errand).voices engine := by
  rw [Errand.voices, acts, List.filterMap_cons, Errand.voices]
  cases act.voices? <;> rfl

/-- A run that an act has told to be paused, or that was going to be made pending before it, is
going to be made pending. -/
theorem owes_of_act {act : Act} {rest : List Act} {after : String → Chapter}
    (acts : errand.acts = act :: rest)
    (advances : act.Advances engine errand.decision chapters after)
    (later : Script engine errand.decision after rest) {state : Suspended}
    (paused : after state.execution = .paused state)
    (owed : chapters state.execution ≠ .paused state ∨ errand.IsToPause state) :
    ({ errand with acts := rest } : Errand).IsToPause state := by
  rcases owed with turned | owed
  · cases act with
    | publish notice =>
      obtain ⟨next, turns, rfl⟩ := advances
      by_cases mine : state.execution = notice.execution
      · rw [mine, Function.update_self] at paused
        obtain ⟨_, result, closes, _, keeps⟩ := (paused ▸ turns).of_paused
        obtain ⟨_, purpose, decision⟩ := Errand.result_of_telling closes
        obtain ⟨_, finds⟩ := later.finds
        rw [decision] at finds
        exact .inr ⟨purpose, result, decision, finds.1, keeps⟩
      · rw [Function.update_of_ne mine] at paused
        exact absurd paused turned
    | arm d held =>
      obtain ⟨_, rfl⟩ := advances
      rw [Function.update_apply] at paused
      split at paused
      · contradiction
      · exact absurd paused turned
    | _ =>
      obtain rfl : after = chapters := advances
      exact absurd paused turned
  · refine owed.imp_left fun ⟨d, among⟩ => ?_
    rw [acts] at among
    rcases List.mem_cons.mp among with here | later
    · subst here
      obtain ⟨_, rfl⟩ := advances
      rw [Function.update_self] at paused
      contradiction
    · exact ⟨d, later⟩

/-- An act of an errand that fits the chapters leaves one that fits the chapters after it. -/
theorem act_carries (given : Narrated engine office errand chapters) {act : Act}
    {rest : List Act} (acts : errand.acts = act :: rest) :
    ∃ after, Carries engine office errand
      (Stride.act engine office { errand with acts := rest } act) chapters after := by
  obtain ⟨same, runs⟩ := act_rest engine office { errand with acts := rest } act
  have script := given.inTune.script
  rw [acts] at script
  obtain ⟨after, advances, later⟩ := script
  have parts := voices_cons acts engine
  have left : ({ errand with acts := rest } : Errand).InTune engine after := by
    refine ⟨later, fun d state among => ?_⟩
    have only := given.inTune.arms d state (acts ▸ List.mem_cons_of_mem act among)
    have still : state.execution ∈ ({ errand with acts := rest } : Errand).voices engine :=
      List.mem_append_left _ (List.mem_filterMap.mpr ⟨_, among, rfl⟩)
    rw [parts] at only
    cases voices : act.voices? with
    | none =>
      rw [voices] at only
      exact only
    | some execution =>
      rw [voices, Option.toList_some, List.singleton_append, List.cons.injEq] at only
      rw [only.2] at still
      contradiction
  generalize Stride.act engine office { errand with acts := rest } act = stride at same runs ⊢
  obtain ⟨engine', office', errand', signal, requests⟩ := stride
  obtain rfl : errand' = { errand with acts := rest } := same
  have spares : ∀ closed, engine.Spares engine' closed := fun closed => .of_runs runs
  obtain ⟨inTune, sameVoices⟩ := left.spared (spares none) fun _ id _ =>
    (Option.some_ne_none id).symm
  refine ⟨after, ?_, spares _, inTune, fun execution member => .inl ?_,
    fun state paused owed => owes_of_act acts advances later paused owed, fun state does => ?_⟩
  · rw [Errand.Advances, acts]
    exact advances
  · rw [sameVoices] at member
    rw [parts]
    exact List.mem_append_right _ member
  · obtain ⟨d, _, arms⟩ := deed_eq_pause does
    have only := given.inTune.arms d state (by simp [arms])
    obtain ⟨rfl, rfl⟩ := List.cons.inj (acts.symm.trans arms)
    rw [sameVoices]
    rw [parts] at only ⊢
    simpa [Act.voices?] using only

/-- Only an act makes a run pending. -/
theorem deed_ne_pause (acts : errand.acts = []) (state : Suspended) :
    errand.deed ≠ .pause state := by
  intro does
  obtain ⟨_, _, arms⟩ := deed_eq_pause does
  rw [acts] at arms
  contradiction

section Decisions

/-- A decision that has no result in its hands tells nothing. -/
theorem carries_still (acts : errand.acts = [])
    (unfinished : ∀ purpose result, errand.decision ≠ .finish purpose (.ok result))
    (spares : engine.Spares stride.engine errand.run?)
    (inTune : stride.errand.InTune stride.engine chapters)
    (voices : ∀ execution ∈ stride.errand.voices stride.engine,
      execution ∈ errand.voices engine ∨
        (office.desk.pending? execution).isSome ∧ stride.office.desk.pending? execution = none ∨
          execution = Id.fresh engine.moments ∧ engine.moments < stride.engine.moments) :
    Carries engine office errand stride chapters chapters where
  advances := by rw [Errand.Advances, acts]
  spares := spares
  inTune := inTune
  voices := voices
  owes state paused owed := by
    rcases owed with turned | ⟨d, among⟩ | ⟨purpose, result, decision, _⟩
    · exact absurd paused turned
    · rw [acts] at among
      contradiction
    · exact absurd decision (unfinished purpose result)
  pauses state does := absurd does (deed_ne_pause acts state)

/-- A decision that leaves the errand with no run in its hands. -/
theorem carries_idle (acts : errand.acts = [])
    (unfinished : ∀ purpose result, errand.decision ≠ .finish purpose (.ok result))
    (spares : engine.Spares stride.engine errand.run?)
    (plain : ∀ act ∈ stride.errand.acts, act.voices? = none)
    (finds : stride.errand.decision.Finds stride.engine chapters)
    (about : stride.errand.decision.about? stride.engine = none) :
    Carries engine office errand stride chapters chapters := by
  refine carries_still acts unfinished spares (.of_plain plain finds) fun execution member => ?_
  rw [Errand.voices_of_plain plain, about] at member
  contradiction

/-- Nothing changes but whose turn it is. -/
theorem carries_stay (given : Narrated engine office errand chapters) (acts : errand.acts = [])
    (unfinished : ∀ purpose result, errand.decision ≠ .finish purpose (.ok result))
    (signal : Signal) (requests : List Request) :
    Carries engine office errand ⟨engine, office, errand, signal, requests⟩ chapters chapters :=
  carries_still acts unfinished (.of_runs rfl) given.inTune fun _ member => .inl member

/-- The errand goes on with the same run in its hands, and is to make pending what it was to. -/
theorem carries_on (acts : errand.acts = []) {errand' : Errand}
    (inTune : errand'.InTune engine chapters)
    (voices : errand'.voices engine = errand.voices engine)
    (owes : ∀ state, errand.IsToPause state → errand'.IsToPause state) :
    Carries engine office errand ⟨engine, office, errand', .proceed, []⟩ chapters chapters where
  advances := by rw [Errand.Advances, acts]
  spares := .of_runs rfl
  inTune := inTune
  voices _ member := .inl (voices ▸ member)
  owes state paused owed := owes state (owed.resolve_left fun turned => turned paused)
  pauses state does := absurd does (deed_ne_pause acts state)

/-- An errand that is to make a run pending has been told so by its pass. -/
theorem suspended_of_isToPause (acts : errand.acts = []) {purpose : Purpose}
    {result : Except Failure RunResult} (decision : errand.decision = .finish purpose result)
    {state : Suspended} (owes : errand.IsToPause state) :
    ∃ told, result = .ok told ∧ told.suspended = some state := by
  obtain ⟨d, among⟩ | ⟨_, told, same, _, keeps⟩ := owes
  · rw [acts] at among
    contradiction
  · cases decision.symm.trans same
    exact ⟨told, rfl, keeps⟩

theorem Narrated.finds (given : Narrated engine office errand chapters)
    (acts : errand.acts = []) : errand.decision.Finds engine chapters := by
  have script := given.inTune.script
  rw [acts] at script
  exact script

section Passes

variable {purpose : Purpose}

/-- An errand that hands a pass to the engine fits the chapters if the notice of its beginning may
follow. -/
theorem enter_inTune (numbered : engine.Numbered) (office : Office) (errand : Errand) (run : Run)
    (notice : Notice) {act : Act} (plain : act.voices? = none)
    (about : notice.execution = run.context.execution) (own : purpose.definition?.isSome)
    (turns : ∀ begun : Run, (chapters run.context.execution).Turns
      (.opens notice engine.nextRun begun) (.underWay engine.nextRun)) :
    let stride := enter engine office errand purpose run [.publish notice, act]
    stride.errand.InTune stride.engine chapters ∧
      ∀ execution ∈ stride.errand.voices stride.engine, execution = run.context.execution := by
  have taken := Engine.run?_adopt numbered { run with isCancelled := errand.isCancelled }
  have owned := numbered.owner?_adopt { run with isCancelled := errand.isCancelled }
  have skips : ∀ (engine : Engine) (decision : Decision) (chapters : String → Chapter),
      act.Advances engine decision chapters chapters := by
    intro engine decision chapters
    cases act <;> first | rfl | contradiction
  refine ⟨⟨⟨_, ⟨.underWay engine.nextRun, ?_, rfl⟩, _, skips _ _ _, own, _, taken, ?_⟩, ?_⟩, ?_⟩
  · have opens : Errand.telling (engine.adopt { run with isCancelled := errand.isCancelled }).2
        (.drive purpose engine.nextRun) notice =
          .opens notice engine.nextRun { run with isCancelled := errand.isCancelled } := by
      simp [Errand.telling, taken]
    rw [about]
    exact opens ▸ turns _
  · rw [about]
    exact Function.update_self ..
  · intro d state among
    simp only [enter, Errand.go, List.mem_cons, List.not_mem_nil, or_false] at among
    rcases among with other | rfl
    · contradiction
    · contradiction
  · intro execution member
    rw [voices_cons rfl, Errand.voices_of_plain (by simpa using plain)] at member
    rcases List.mem_append.mp member with told | decided
    · exact (Option.some.inj (Option.mem_toList.mp told)).symm.trans about
    · exact (Option.some.inj (owned.symm.trans (Option.mem_toList.mp decided))).symm

/-- A run begins, and this is told. -/
theorem starts_carries (numbered : engine.Numbered)
    (given : Narrated engine office errand chapters) (acts : errand.acts = [])
    (unfinished : ∀ purpose result, errand.decision ≠ .finish purpose (.ok result))
    (own : purpose.definition?.isSome) {d : Definition} {context : Context} {input : Data}
    (begins : context = .start d.id engine.moment.freshId (Context.bindInput d.vars input)
      engine.moment.now) :
    Carries engine office errand
      (enter engine.tick office errand purpose (.start d context engine.limit [d.start])
        [.publish ⟨d.id, context.execution, .started⟩,
          .saveRun (.started context.execution d.id context.startedAt)])
      chapters chapters := by
  subst begins
  let run : Run := .start d (Context.start d.id engine.moment.freshId
    (Context.bindInput d.vars input) engine.moment.now) engine.limit [d.start]
  let record := RunRecord.started engine.moment.freshId d.id engine.moment.now
  have quiet : (Act.saveRun record).voices? = none := rfl
  have turns : ∀ begun : Run, (chapters run.context.execution).Turns
      (.opens ⟨d.id, engine.moment.freshId, .started⟩ engine.tick.nextRun begun)
      (.underWay engine.tick.nextRun) := by
    intro begun
    show (chapters (Id.fresh engine.moments)).Turns _ _
    rw [given.untold]
    exact .starts rfl
  obtain ⟨inTune, voices⟩ := enter_inTune numbered.tick.numbered office errand run
    ⟨d.id, engine.moment.freshId, .started⟩ quiet rfl own turns
  refine carries_still acts unfinished ?_ inTune fun execution member =>
    .inr (.inr ⟨voices execution member, Nat.lt_succ_self _⟩)
  exact (Engine.Spares.of_runs rfl).trans (engine.tick.spares_open _ _)

/-- A paused run goes on, and this is told. -/
theorem resumes_carries (numbered : engine.Numbered) (acts : errand.acts = [])
    (unfinished : ∀ purpose result, errand.decision ≠ .finish purpose (.ok result))
    (own : purpose.definition?.isSome) {state : Suspended}
    (before : errand.decision.about? engine = some state.execution)
    (waiting : chapters state.execution = .waiting state) (d : Definition) (delta : Fields Data)
    (next : List String) :
    Carries engine office errand
      (enter engine office errand purpose (.start d (state.toContext delta) engine.limit next)
        [.publish ⟨state.workflow, state.execution, .resumed state.node⟩,
          .settleRun state.execution
            ((state.toContext delta).outcome engine.moment.now .running none none)])
      chapters chapters := by
  let run : Run := .start d (state.toContext delta) engine.limit next
  let outcome := (state.toContext delta).outcome engine.moment.now .running none none
  have quiet : (Act.settleRun state.execution outcome).voices? = none := rfl
  have turns : ∀ begun : Run, (chapters run.context.execution).Turns
      (.opens ⟨state.workflow, state.execution, .resumed state.node⟩ engine.nextRun begun)
      (.underWay engine.nextRun) := by
    intro begun
    show (chapters state.execution).Turns _ _
    rw [waiting]
    exact .goesOn rfl
  obtain ⟨inTune, voices⟩ := enter_inTune numbered office errand run
    ⟨state.workflow, state.execution, .resumed state.node⟩ quiet rfl own turns
  refine carries_still acts unfinished (engine.spares_open _ _) inTune
    fun execution member => .inl ?_
  rw [Errand.voices_of_rest acts, before]
  exact List.mem_singleton.mpr (voices execution member)

/-- What is published at the end of a pass that is under way may be told. -/
theorem turns_of_result {now : Instant} {context : Context} {conclusion : Conclusion}
    {result : RunResult} {happening : Happening}
    (told : conclusion.result now context = .ok (result, happening)) (workflow : String)
    (id : Nat) :
    ∃ next, (Chapter.underWay id).Turns
        (.closes ⟨workflow, context.execution, happening⟩ result) next ∧
      ∀ state, result.suspended = some state → next = .paused state := by
  unfold Conclusion.result at told
  split at told
  · cases told
    exact ⟨.closed, .completes rfl, by simp [Context.result]⟩
  · split at told
    · contradiction
    · rename_i state captured
      cases told
      obtain ⟨_, own, node, _⟩ := Suspended.capture?_eq_some captured
      exact ⟨.paused state, .pauses (by rw [node]) own rfl, by simp [Context.result]⟩
  · cases told
    exact ⟨.closed, .fails .cancelled, by simp [Context.result]⟩
  · contradiction
  · cases told
    exact ⟨.closed, .fails (.failed _), by simp [Context.result]⟩

/-- A pass comes to its result, which is told. -/
theorem concludes_carries (numbered : engine.Numbered)
    (given : Narrated engine office errand chapters) (acts : errand.acts = []) {id : Nat}
    (decision : errand.decision = .conclude purpose id) {run : Run} {conclusion : Conclusion}
    {result : RunResult} {happening : Happening} (found : engine.run? id = some run)
    (told : conclusion.result engine.moment.now run.context = .ok (result, happening)) :
    Carries engine office errand
      ⟨engine.tick.close id, office,
        errand.go (concluding run.context engine.moment.now result happening)
          (.finish purpose (.ok result)),
        .proceed, []⟩ chapters chapters := by
  have finds := given.finds acts
  rw [decision] at finds
  obtain ⟨own, run, there, underWay⟩ := finds
  cases found.symm.trans there
  have before : errand.voices engine = [run.context.execution] := by
    rw [Errand.voices_of_rest acts, decision]
    simp [Decision.about?, Engine.owner?, found]
  have closes : engine.Spares (engine.tick.close id) errand.run? := by
    have mine : errand.run? = some id := by rw [Errand.run?, decision]
    rw [mine]
    exact (Engine.Spares.of_runs rfl).trans (Engine.spares_close numbered.tick.numbered id)
  have mine : result.execution = run.context.execution := (Conclusion.kept_of_result told).1.1
  obtain ⟨next, turns, keeps⟩ := turns_of_result told result.workflow id
  have executes : ∀ state, result.suspended = some state →
      state.execution = run.context.execution :=
    fun state suspended => execution_of_result told suspended
  refine carries_still acts (by simp [decision]) closes ⟨⟨_, ⟨next, ?_, rfl⟩, _, rfl, _, rfl, own,
    fun state suspended => ?_⟩, by simp [Errand.go, concluding]⟩ fun execution member => .inl ?_
  · show (chapters result.execution).Turns
      (.closes ⟨result.workflow, result.execution, happening⟩ result) next
    rw [mine, underWay]
    exact turns
  · rw [executes state suspended, ← mine, keeps state suspended]
    exact Function.update_self ..
  · rw [before, List.mem_singleton, ← mine]
    rcases List.mem_append.mp member with among | decided
    · simpa [concluding, Act.voices?, Errand.go, eq_comm] using among
    · obtain ⟨state, suspended, rfl⟩ := Option.map_eq_some_iff.mp (Option.mem_toList.mp decided)
      rw [mine]
      exact executes state suspended

/-- The errand goes on to tell that a run that waits has come to its end. -/
theorem ends_inTune {quiet : List Act} (before : ∀ act ∈ quiet, act.voices? = none)
    (notice : Notice) (fails : notice.happening.Fails) (answer : Answer) {state : Suspended}
    (waiting : chapters notice.execution = .waiting state) (errand : Errand) (engine : Engine) :
    let errand' := errand.go (quiet ++ [.publish notice]) (.answer answer)
    errand'.InTune engine chapters ∧ errand'.voices engine = [notice.execution] := by
  have telling : Script engine (.answer answer) chapters [.publish notice] := by
    refine ⟨_, ⟨.closed, ?_, rfl⟩, trivial⟩
    rw [waiting]
    exact .ends fails
  refine ⟨⟨?_, fun d held among => ?_⟩, ?_⟩
  · show Script engine (.answer answer) chapters (quiet ++ _)
    induction quiet with
    | nil => exact telling
    | cons act rest ih =>
      refine ⟨chapters, ?_, ih fun other among => before other (List.mem_cons_of_mem act among)⟩
      have nothing := before act List.mem_cons_self
      cases act <;> first | rfl | contradiction
  · rcases List.mem_append.mp among with early | late
    · cases before _ early
    · cases List.mem_singleton.mp late
  · show (quiet ++ [Act.publish notice]).filterMap Act.voices? ++ [] = _
    rw [List.filterMap_append, List.filterMap_eq_nil_iff.mpr before]
    rfl

/-- The errand goes on to tell that a run that waits has failed. -/
theorem fail_inTune {quiet : List Act} (plain : ∀ act ∈ quiet, act.voices? = none)
    (now : Instant) (error : String) (answer : Answer) {state : Suspended}
    (waiting : chapters state.execution = .waiting state) (errand : Errand) (engine : Engine) :
    let errand' := errand.go (quiet ++ fail now state error) (.answer answer)
    errand'.InTune engine chapters ∧ errand'.voices engine = [state.execution] := by
  have before : ∀ act ∈ quiet ++ [.settleRun state.execution (endOutcome now state .failed error),
      .count (.run .failed)], act.voices? = none := by
    simpa [or_imp, forall_and, Act.voices?] using plain
  have ends := ends_inTune before ⟨state.workflow, state.execution, .failed error⟩
    (.failed error) answer waiting errand engine
  rw [List.append_assoc] at ends
  exact ends

/-- The errand goes on to have its run pending if it is suspended. -/
theorem keep_inTune (errand : Errand) (d : Definition) {result : RunResult} (answer : Answer)
    (suspended : ∀ state, result.suspended = some state →
      chapters state.execution = .paused state) (engine : Engine) :
    (errand.go (keep d result) (.answer answer)).InTune engine chapters ∧
      (errand.go (keep d result) (.answer answer)).voices engine =
        (result.suspended.map Suspended.execution).toList ∧
      ∀ state, result.suspended = some state →
        (errand.go (keep d result) (.answer answer)).IsToPause state := by
  cases is : result.suspended with
  | none =>
    have nothing : keep d result = [] := by simp only [keep, is]
    rw [nothing]
    exact ⟨.of_plain (List.forall_mem_nil _) trivial, rfl, by simp⟩
  | some state =>
    have saves : keep d result = [.saveSuspended state, .arm d state] := by simp only [keep, is]
    rw [saves]
    refine ⟨⟨⟨chapters, rfl, _, ⟨suspended state is, rfl⟩, trivial⟩, fun other held among => ?_⟩,
      rfl, fun other same => .inl ⟨d, ?_⟩⟩
    · simp only [Errand.go, List.mem_cons, List.not_mem_nil, or_false] at among
      rcases among with other | same
      · contradiction
      · cases same
        rfl
    · cases same
      simp [Errand.go]

end Passes

section Releases

/-- A run is taken out of the pending ones and comes into the hands of the errand, or it is
dropped. -/
theorem carries_release (acts : errand.acts = [])
    (unfinished : ∀ purpose result, errand.decision ≠ .finish purpose (.ok result))
    {state : Suspended} {alarm : Option Nat}
    (found : office.desk.pending? state.execution = some ⟨state, alarm⟩) {errand' : Errand}
    (inTune : errand'.InTune (showPending engine (office.release state.execution)) chapters)
    (voices : ∀ execution ∈
      errand'.voices (showPending engine (office.release state.execution)),
        execution = state.execution) :
    Carries engine office errand
      ⟨showPending engine (office.release state.execution), office.release state.execution,
        errand', .proceed, []⟩ chapters chapters := by
  refine carries_still acts unfinished (.of_runs rfl) inTune fun execution member =>
    .inr (.inl ?_)
  rw [voices execution member]
  exact ⟨by rw [found]; rfl, by rw [Office.pending?_release, if_pos rfl]⟩

theorem expire_carries (orderly : office.Orderly)
    (given : Narrated engine office errand chapters) (acts : errand.acts = [])
    {execution : String} (decision : errand.decision = .expire execution) {state : Suspended}
    {alarm : Option Nat} (found : office.desk.pending? execution = some ⟨state, alarm⟩) :
    Carries engine office errand (expire engine office errand execution) chapters chapters := by
  have unfinished : ∀ purpose result, errand.decision ≠ .finish purpose (.ok result) := by
    simp [decision]
  obtain rfl : state.execution = execution := orderly.keyed _ _ found
  have waiting := given.pending _ state alarm found
  have decides := expire_decides engine office errand state.execution
  generalize expire engine office errand state.execution = stride at decides ⊢
  cases decides with
  | expiryMissed gone => cases gone.symm.trans found
  | lapses there =>
    cases found.symm.trans there
    exact carries_release acts unfinished found
      (.of_plain (by simp [Errand.go, Act.voices?]) trivial)
      (by simp [Errand.voices, Errand.go, Act.voices?, Decision.about?])
  | timesOut there =>
    cases found.symm.trans there
    have plain : ∀ act ∈ ([.deleteSuspended state.execution,
        .count (.timeout (office.release state.execution).desk.policy)] : List Act),
        act.voices? = none := by simp [Act.voices?]
    obtain ⟨inTune, voices⟩ := fail_inTune plain engine.moment.now (timeoutText state) .nothing
      waiting errand (showPending engine (office.release state.execution))
    exact carries_release acts unfinished found inTune fun execution member =>
      List.mem_singleton.mp (voices ▸ member)
  | transitions there =>
    cases found.symm.trans there
    exact carries_release acts unfinished found
      (.of_plain (by simp [Errand.go, Act.voices?]) ⟨rfl, rfl, waiting⟩)
      (by simp [Errand.voices, Errand.go, Act.voices?, Decision.about?])

end Releases

/-- A decision of an errand that fits the chapters leaves one that does. -/
theorem decide_carries (numbered : engine.Numbered) (orderly : office.Orderly)
    (managed : errand.IsManaged engine) (given : Narrated engine office errand chapters)
    (acts : errand.acts = []) :
    Carries engine office errand (decide engine office errand) chapters chapters := by
  have allowed := managed.decision
  have finds := given.finds acts
  have before := Errand.voices_of_rest acts engine
  have decides := decide_decides engine office errand
  generalize decide engine office errand = stride at decides ⊢
  generalize decision : errand.decision = stage at decides allowed finds before
  cases decides with
  | ends | awaitsStop | awaitsReply => exact carries_stay given acts (by simp [decision]) _ _
  | startRefused =>
    refine carries_idle acts (by simp [decision]) (.of_runs rfl) (List.forall_mem_nil _)
      (fun state is => ?_) ?_
    · rw [finds.2] at is
      contradiction
    · rw [Errand.go, Decision.about?, finds.2]
      rfl
  | starts valid begins =>
    obtain rfl : _ = none := allowed
    exact starts_carries numbered given acts (by simp [decision]) finds.1 begins
  | @resumeRefused purpose d state =>
    obtain ⟨own, resumes, waiting⟩ := finds
    refine carries_still acts (by simp [decision]) (.of_runs rfl)
      (.of_plain (List.forall_mem_nil _) fun other is => ?_) fun execution member => .inl ?_
    · cases resumes.symm.trans is
      exact waiting
    · rw [before]
      have there := Option.mem_toList.mp member
      change purpose.state?.map Suspended.execution = some execution at there
      rw [resumes] at there
      exact List.mem_singleton.mpr (Option.some.inj there).symm
  | resumes =>
    exact resumes_carries numbered acts (by simp [decision]) finds.1 (by rw [decision]; rfl)
      finds.2.2 _ _ _
  | @drives purpose run =>
    have spares := engine.spares_stepRun run .driver
    obtain ⟨inTune, voices⟩ := given.inTune.spared (spares none) fun _ _ _ =>
      (Option.some_ne_none _).symm
    exact carries_still acts (by simp [decision]) (spares _) inTune fun execution member =>
      .inl (voices ▸ member)
  | @drivesHome purpose run =>
    have spares := engine.spares_stepRun run .driver
    obtain ⟨inTune, voices⟩ := given.inTune.spared (spares none) fun _ _ _ =>
      (Option.some_ne_none _).symm
    have driven := inTune.script
    rw [acts, decision] at driven
    refine carries_still acts (by simp [decision]) (spares _)
      (.of_plain (List.forall_mem_nil _) driven) fun execution member => .inl ?_
    rw [← voices, Errand.voices_of_rest acts, decision]
    exact member
  | runMissing missing =>
    obtain ⟨own, run, found, _⟩ := finds
    cases missing.symm.trans found
  | drivesOn =>
    refine carries_still acts (by simp [decision]) (.of_runs rfl)
      (.of_plain (List.forall_mem_nil _) finds) fun execution member => .inl ?_
    rw [before]
    exact member
  | @breaksDown purpose run =>
    have mine : errand.run? = some run := by rw [Errand.run?, decision]
    have closes : engine.Spares (engine.tick.close run) errand.run? :=
      mine ▸ (Engine.Spares.of_runs rfl).trans (Engine.spares_close numbered.tick.numbered run)
    exact carries_idle acts (by simp [decision]) closes (List.forall_mem_nil _) trivial rfl
  | concludes found concluded told =>
    exact concludes_carries numbered given acts decision found told
  | tells =>
    obtain ⟨named, _⟩ := finds
    contradiction
  | refuses unclaimed =>
    refine carries_on acts (.of_plain (List.forall_mem_nil _) trivial) ?_ fun state owes => ?_
    · rw [before, Decision.about?, unclaimed]
      rfl
    · obtain ⟨_, same, _⟩ := suspended_of_isToPause acts decision owes
      contradiction
  | @keeps purpose d result kept =>
    obtain ⟨inTune, voices, owes⟩ := keep_inTune errand d (purpose.answer result) finds.2 engine
    refine carries_on acts inTune (voices.trans before.symm) fun state owed => ?_
    obtain ⟨_, same, is⟩ := suspended_of_isToPause acts decision owed
    cases same
    exact owes state is
  | @abandons purpose state failure claimed =>
    obtain ⟨inTune, voices⟩ := fail_inTune (List.forall_mem_nil _) engine.moment.now
      ("resume failed: " ++ failure.message) (purpose.refusal failure) (finds state claimed) errand
      engine
    refine carries_on acts inTune (voices.trans ?_) fun state owes => ?_
    · rw [before, Decision.about?, claimed]
      rfl
    · obtain ⟨_, same, _⟩ := suspended_of_isToPause acts decision owes
      contradiction
  | @claims d event state matched =>
    obtain ⟨alarm, found⟩ := orderly.pending?_of_match? matched
    exact carries_release acts (by simp [decision]) found
      (.of_plain (by simp [Errand.go, Act.voices?]) ⟨rfl, rfl, given.pending _ state alarm found⟩)
      (by simp [Errand.voices, Errand.go, Act.voices?, Decision.about?])
  | startsFor =>
    exact carries_idle acts (by simp [decision]) (.of_runs rfl) (by simp [Errand.go, Act.voices?])
      ⟨rfl, rfl⟩ rfl
  | @cancels execution state alarm found =>
    obtain rfl : state.execution = execution := orderly.keyed _ _ found
    have plain : ∀ act ∈ ([.deleteSuspended state.execution, .settleRun state.execution
        (endOutcome engine.moment.now state .cancelled Failure.cancelled.message)] : List Act),
        act.voices? = none := by simp [Act.voices?]
    obtain ⟨inTune, voices⟩ := ends_inTune plain ⟨state.workflow, state.execution, .cancelled⟩
      .cancelled (.suspended state) (given.pending _ state alarm found) errand
      (showPending engine (office.release state.execution))
    exact carries_release acts (by simp [decision]) found inTune fun execution member =>
      List.mem_singleton.mp (voices ▸ member)
  | forgets | stopped =>
    exact carries_idle acts (by simp [decision]) (.of_runs rfl)
      (forall_forgetWorkflow errand (fun _ _ => rfl) rfl) trivial rfl
  | attended | attends | expiryMissed | lapses | timesOut | transitions | restoresNothing
  | restoreFailed | restores | adopted | passesOver | adopts | recallsNothing | recallFailed
  | recalls | adoptsSuspended => exact allowed.elim
  | _ =>
    exact carries_idle acts (by simp [decision]) (.of_runs rfl) (by simp [Errand.go, Act.voices?])
      trivial rfl

/-- A step of an errand that fits the chapters leaves one that fits the chapters after it. -/
theorem step_carries (numbered : engine.Numbered) (orderly : office.Orderly)
    (managed : errand.IsManaged engine) (given : Narrated engine office errand chapters) :
    ∃ after, Carries engine office errand (step engine office errand) chapters after := by
  rw [step]
  split
  · rename_i first rest acts
    exact act_carries given acts
  · rename_i acts
    exact ⟨chapters, decide_carries numbered orderly managed given acts⟩

end Decisions

end Stride

end DurableFlow
