import DurableFlow.Proofs.Desk.Records
import DurableFlow.Proofs.Desk.Script
import DurableFlow.Proofs.Run.Handling

/-!
# What is told of runs, from move to move

`Site.Narrated` ties the chapters of the runs to the site: a run that is pending is in the chapter
in which it waits, the notices that errands are going to publish fit the chapters, a run that has
been told to be paused is going to be made pending by an errand, and no two errands are about one
run. A step of an errand leads to the next chapters, and the notices that it publishes and the run
that it makes pending extend the `Chronicle` of each run. Branches publish notices of nodes only,
which leave the chapters alone.
-/

namespace DurableFlow

/-- What a step within a node publishes is about a node. -/
theorem Phase.isOfNode_of_publish {around : Surroundings} {d : Definition} {context : Context}
    {phase : Phase} {happening : Happening}
    (shown : .publish happening ∈ (phase.step around d context).2.2) :
    happening.isOfNode = true := by
  cases phase with
  | settling node ending =>
    match ending with
    | .ok (.goOn next) =>
      simp only [step, settle, List.mem_singleton] at shown
      cases shown
      rfl
    | .ok (.suspend id pause) => simp [step, settle] at shown
    | .error failure =>
      simp only [step, settle, List.mem_singleton] at shown
      cases shown
      rfl
  | announcing node =>
    simp only [step, List.mem_cons, List.not_mem_nil, or_false] at shown
    rcases shown with starts | counted
    · cases starts
      rfl
    · contradiction
  | acting node =>
    simp only [step, act, call] at shown
    repeat' split at shown
    all_goals simp at shown
  | entering id =>
    simp only [step] at shown
    split at shown <;> contradiction
  | replying node procedure reply due =>
    simp only [step] at shown
    split at shown <;> contradiction
  | _ => contradiction

/-- What a step of a task tells is about nodes, and about the run that the pass belongs to. -/
theorem Engine.shows_of_shown {engine : Engine} {id : Nat} {task : TaskId} {telling : Telling}
    (member : telling ∈ engine.shown id task) :
    ∃ notice run, telling = .shows notice id ∧ notice.happening.isOfNode = true ∧
      engine.run? id = some run ∧ notice.execution = run.context.execution := by
  unfold shown at member
  split at member
  · contradiction
  · rename_i run found
    obtain ⟨happening, published, rfl⟩ := List.mem_map.mp member
    obtain ⟨effect, among, publishes⟩ := List.mem_filterMap.mp published
    refine ⟨_, run, rfl, ?_, found, rfl⟩
    cases effect with
    | publish other =>
      cases publishes
      have shows : .publish happening ∈
          run.effectsOf engine.catalog (.step task engine.moment engine.clock) := among
      obtain ⟨_, _, _, _, _, _, within⟩ := Run.exists_phase_of_effect shows
      exact Phase.isOfNode_of_publish within
    | _ => contradiction

theorem Deed.entered?_passages (deed : Deed) (execution : String)
    (before after : Option Pending) :
    (deed.passages execution before after).filterMap Passage.entered? =
      match deed with
      | pause state => if state.execution = execution then [state] else []
      | _ => [] := by
  have gone : (if before.isSome ∧ after ≠ before then [Passage.left deed.exit] else []).filterMap
      Passage.entered? = [] := by
    split <;> rfl
  unfold passages
  rw [List.filterMap_append, gone, List.nil_append]
  cases deed with
  | pause state => by_cases same : state.execution = execution <;> simp [same, Passage.entered?]
  | resume state => by_cases same : state.execution = execution <;> simp [same, Passage.entered?]
  | _ => rfl

namespace Chronicle

variable {told : List Telling} {entered : List Suspended} {chapter : Chapter}

/-- What happens to nodes may be told at any time. -/
theorem append (chronicle : Chronicle told entered chapter) {more : List Telling}
    (nodes : ∀ telling ∈ more, ∃ notice id, telling = .shows notice id ∧
      notice.happening.isOfNode = true) : Chronicle (told ++ more) entered chapter := by
  induction more generalizing told with
  | nil => simpa using chronicle
  | cons first rest ih =>
    obtain ⟨notice, id, rfl, node⟩ := nodes first List.mem_cons_self
    rw [← List.singleton_append, ← List.append_assoc]
    exact ih (chronicle.shows id node) fun other among =>
      nodes other (List.mem_cons_of_mem _ among)

theorem append_shown (chronicle : Chronicle told entered chapter) (engine : Engine) (id : Nat)
    (task : TaskId) (execution : String) :
    Chronicle (told ++ (engine.shown id task).filter (·.execution == execution)) entered
      chapter := by
  refine chronicle.append fun telling among => ?_
  obtain ⟨notice, _, shows, node, _⟩ := Engine.shows_of_shown (List.mem_of_mem_filter among)
  exact ⟨notice, id, shows, node⟩

end Chronicle

section Advance

variable {engine : Engine} {chapters next : String → Chapter} {errand : Errand}

/-- A run is told to be paused with a state that bears its id. -/
theorem Errand.Advances.execution_of_paused (advances : errand.Advances engine chapters next)
    (keyed : ∀ execution state, chapters execution = .paused state → state.execution = execution)
    {execution : String} {state : Suspended} (paused : next execution = .paused state) :
    state.execution = execution := by
  unfold Errand.Advances at advances
  split at advances
  · rename_i act rest acts
    cases act with
    | publish notice =>
      obtain ⟨chapter, turns, rfl⟩ := advances
      rw [Function.update_apply] at paused
      split at paused
      · rename_i same
        subst paused same
        obtain ⟨_, _, closes, own, _⟩ := turns.of_paused
        rw [own, ← (Errand.result_of_telling closes).1]
      · exact keyed execution state paused
    | arm d held =>
      obtain ⟨_, rfl⟩ := advances
      rw [Function.update_apply] at paused
      split at paused
      · contradiction
      · exact keyed execution state paused
    | _ =>
      obtain rfl : next = chapters := advances
      exact keyed execution state paused
  · rw [advances] at paused
    exact keyed execution state paused

/-- What a step of an errand tells of a run, and makes pending, goes on with its chronicle. -/
theorem Errand.Advances.chronicle (advances : errand.Advances engine chapters next)
    {execution : String} {told : List Telling} {entered : List Suspended}
    (chronicle : Chronicle told entered (chapters execution)) (before after : Option Pending) :
    Chronicle (told ++ (errand.tells engine).filter (·.execution == execution))
      (entered ++ (errand.deed.passages execution before after).filterMap Passage.entered?)
      (next execution) := by
  rw [Deed.entered?_passages]
  unfold Errand.Advances at advances
  unfold Errand.tells Errand.deed
  split at advances
  · rename_i act rest acts
    rw [acts]
    cases act with
    | publish notice =>
      obtain ⟨chapter, turns, rfl⟩ := advances
      have about : (Errand.telling engine errand.decision notice).execution =
          notice.execution := by
        rw [Telling.execution, Errand.notice_telling]
      simp only [List.append_nil, List.filter_singleton, about]
      by_cases same : notice.execution = execution
      · subst same
        rw [Function.update_self, beq_self_eq_true]
        exact chronicle.turn turns
      · rw [Function.update_of_ne (Ne.symm same), beq_false_of_ne same]
        simpa using chronicle
    | arm d state =>
      obtain ⟨paused, rfl⟩ := advances
      simp only [List.filter_nil, List.append_nil]
      split
      · rename_i same
        subst same
        rw [Function.update_self]
        rw [paused] at chronicle
        exact chronicle.arms
      · rename_i different
        rw [Function.update_of_ne (Ne.symm different), List.append_nil]
        exact chronicle
    | _ =>
      obtain rfl : next = chapters := advances
      simpa using chronicle
  · rename_i acts
    rw [advances, acts]
    cases errand.decision with
    | drive purpose id => simpa using chronicle.append_shown engine id .driver execution
    | _ => simpa using chronicle

end Advance

namespace Site

variable {site after : Site} {lives : String → Life} {chapters next : String → Chapter}

/-- The chapters of the runs fit the pending runs and what the errands are about to do. -/
structure Narrated (site : Site) (chapters : String → Chapter) : Prop where
  untold : ∀ n, site.engine.moments ≤ n → chapters (Id.fresh n) = .untold
  pending : ∀ execution state alarm, site.pending? execution = some ⟨state, alarm⟩ →
    chapters execution = .waiting state
  inTune : ∀ entry ∈ site.office.errands, entry.2.InTune site.engine chapters
  alone : site.Alone Errand.voices
  keyed : ∀ execution state, chapters execution = .paused state → state.execution = execution
  owed : ∀ state, chapters state.execution = .paused state →
    ∃ entry ∈ site.office.errands, entry.2.IsToPause state

/-- What the step of an errand does about pauses, and which notices it publishes. -/
structure Speaks (site : Site) (id : Nat) (office : Office) (errand : Errand) (deed : Deed)
    (stride : Stride) (chapters next : String → Chapter) : Prop where
  /-- It is one of the errands of the site, or a new one. -/
  own : (id, errand) ∈ site.office.errands ∨
    errand.voices site.engine = [] ∧ errand.run? = none
  strides : site.Strides id errand stride
  takes : site.Takes id office errand
  deals : Stride.Deals site.engine office errand deed stride
  carries : Stride.Carries site.engine office errand stride chapters next
  lands : site.Lands (land stride id) id stride
  does : ∀ state, deed = .pause state → errand.deed = .pause state

namespace Speaks

variable {id : Nat} {office : Office} {errand : Errand} {deed : Deed} {stride : Stride}

variable (speaks : site.Speaks id office errand deed stride chapters next)

include speaks

theorem extending : site.engine.Extends (land stride id).engine := speaks.deals.extending

/-- A run that the errand has to do with is not pending, and no other errand has to do with it. -/
theorem alone (narrated : site.Narrated chapters) {execution : String}
    (voices : execution ∈ errand.voices site.engine) :
    site.engine.Issued execution ∧ site.pending? execution = none ∧
      ∀ other ∈ site.office.errands, execution ∈ other.2.voices site.engine → other.1 = id := by
  rcases speaks.own with member | ⟨nothing, _⟩
  · exact narrated.alone _ member execution voices
  · rw [nothing] at voices
    contradiction

/-- The chapter of a run that another errand has to do with is the same. -/
theorem next_eq (narrated : site.Narrated chapters) {entry : Nat × Errand}
    (member : entry ∈ site.office.errands) (different : entry.1 ≠ id) {execution : String}
    (voices : execution ∈ entry.2.voices site.engine) : next execution = chapters execution :=
  speaks.carries.advances.of_not_mem fun mine =>
    different ((speaks.alone narrated mine).2.2 entry member voices)

/-- No other errand drives the pass that the errand drives. -/
theorem run?_ne (narrated : site.Narrated chapters) (kept : site.Kept lives)
    {entry : Nat × Errand} (member : entry ∈ site.office.errands) (different : entry.1 ≠ id)
    {purpose : Purpose} {run : Nat} (drives : entry.2.decision = .drive purpose run ∨
      entry.2.decision = .conclude purpose run) : errand.run? ≠ some run := by
  intro closes
  obtain ⟨execution, owner, voices⟩ := (narrated.inTune entry member).voices_of_pass drives
  rcases speaks.own with there | ⟨_, idle⟩
  · obtain ⟨purpose', drives'⟩ : ∃ purpose, errand.decision = .drive purpose run ∨
        errand.decision = .conclude purpose run := by
      have allowed := (kept.managed _ there).decision
      rw [Errand.run?] at closes
      split at closes <;> rename_i decision <;> cases closes
      · exact ⟨_, .inl decision⟩
      · exact ⟨_, .inr decision⟩
      · rw [decision] at allowed
        exact allowed.elim
    obtain ⟨execution', owner', voices'⟩ := (narrated.inTune _ there).voices_of_pass drives'
    cases owner.symm.trans owner'
    exact different ((speaks.alone narrated voices').2.2 entry member voices)
  · rw [idle] at closes
    contradiction

/-- Other errands fit the new chapters, and are about the same runs. -/
theorem other (narrated : site.Narrated chapters) (kept : site.Kept lives)
    {entry : Nat × Errand} (member : entry ∈ site.office.errands) (different : entry.1 ≠ id) :
    entry.2.InTune (land stride id).engine next ∧
      entry.2.voices (land stride id).engine = entry.2.voices site.engine := by
  obtain ⟨inTune, voices⟩ := (narrated.inTune entry member).spared speaks.carries.spares
    fun purpose run drives => speaks.run?_ne narrated kept member different drives
  refine ⟨inTune.congr fun execution among => ?_, voices⟩
  rw [voices] at among
  exact speaks.next_eq narrated member different among

/-- Which runs come to be pending or cease to be. -/
theorem pending_source (execution : String) :
    (land stride id).pending? execution = site.pending? execution ∨
      (land stride id).pending? execution = none ∨
        ∃ state alarm, deed = .pause state ∧ state.execution = execution ∧
          (land stride id).pending? execution = some ⟨state, alarm⟩ := by
  rw [Site.pending?, desk_land, ← speaks.takes.pending?]
  rcases Site.pending_source speaks.deals speaks.takes.orderly execution with
    same | gone | ⟨state, paused, own, _, alarm, set⟩
  · exact .inl same
  · exact .inr (.inl gone)
  · exact .inr (.inr ⟨state, alarm, paused, own, set⟩)

/-- What becomes pending is waiting next. -/
theorem waiting_of_pause {state : Suspended} (pauses : deed = .pause state) :
    next state.execution = .waiting state := by
  obtain ⟨d, rest, acts⟩ := Stride.deed_eq_pause (speaks.does state pauses)
  have advances := speaks.carries.advances
  rw [Errand.Advances, acts] at advances
  obtain ⟨_, rfl⟩ := advances
  exact Function.update_self ..

/-- Whatever a step of an errand tells, the next chapters fit what it leaves. -/
theorem narrated (narrated : site.Narrated chapters) (kept : site.Kept lives) :
    (land stride id).Narrated next := by
  have advances := speaks.carries.advances
  refine ⟨fun n later => ?_, fun execution state alarm found => ?_, fun entry member => ?_, ?_,
    fun execution state paused => advances.execution_of_paused narrated.keyed paused,
    fun state paused => ?_⟩
  · have before : site.engine.moments ≤ n := Nat.le_trans speaks.extending.moments_le later
    rw [advances.of_not_mem fun voices => ?_, narrated.untold n before]
    obtain ⟨m, earlier, same⟩ := (speaks.alone narrated voices).1
    exact absurd (Id.fresh_injective same) (by omega)
  · rcases speaks.pending_source execution with same | gone | ⟨held, set, pauses, rfl, there⟩
    · rw [same] at found
      rw [advances.of_not_mem fun voices => ?_]
      · exact narrated.pending execution state alarm found
      · rw [(speaks.alone narrated voices).2.1] at found
        contradiction
    · rw [gone] at found
      contradiction
    · cases there.symm.trans found
      exact speaks.waiting_of_pause pauses
  · rcases speaks.strides.others entry member with rfl | ⟨before, different⟩
    · exact speaks.carries.inTune
    · exact (speaks.other narrated kept before different).1
  · refine narrated.alone.step kept (speaks.own.imp_right And.left) speaks.lands.alters
      speaks.extending (fun entry member different =>
        (speaks.other narrated kept member different).2) (fun execution voices => ?_)
      fun execution => ?_
    · refine (speaks.carries.voices execution voices).imp_right (Or.imp_left ?_)
      rintro ⟨there, left⟩
      rw [speaks.takes.pending?] at there
      exact ⟨there, by rw [Site.pending?, desk_land, left]⟩
    · rcases speaks.pending_source execution with same | gone | ⟨state, _, pauses, rfl, _⟩
      · exact .inl same
      · exact .inr (.inl gone)
      · exact .inr (.inr (speaks.carries.pauses state (speaks.does state pauses)))
  · -- the run has been told to be paused before, or the errand has just told of it
    have before : chapters state.execution ≠ .paused state ∨
        ∃ entry ∈ site.office.errands, entry.2.IsToPause state :=
      or_iff_not_imp_left.mpr fun already => narrated.owed state (not_not.mp already)
    have after : False ∨ ∃ entry ∈ (land stride id).office.errands, entry.2.IsToPause state := by
      refine speaks.strides.exists_land (Errand.IsToPause · state) ?_
        (fun owed => .inr (speaks.carries.owes state paused owed)) before
      rintro answer acts decision (⟨d, among⟩ | ⟨_, _, other, _⟩)
      · rw [acts] at among
        contradiction
      · rw [decision] at other
        contradiction
    exact after.resolve_left not_false

end Speaks

/-- What is given to a step of an errand. -/
theorem Narrated.given (narrated : site.Narrated chapters) {id : Nat} {office : Office}
    {errand : Errand} (takes : site.Takes id office errand)
    (inTune : errand.InTune site.engine chapters) :
    Stride.Narrated site.engine office errand chapters where
  pending execution state alarm found :=
    narrated.pending execution state alarm (takes.pending? execution ▸ found)
  untold := narrated.untold _ (Nat.le_refl _)
  inTune := inTune

/-- An errand takes its turn. -/
theorem Narrated.speaks_turn (narrated : site.Narrated chapters) (kept : site.Kept lives)
    {id : Nat} {errand : Errand} (found : site.office.errand? id = some errand) :
    ∃ next, site.Speaks id site.office errand errand.deed
      (Stride.step site.engine site.office errand) chapters next := by
  have member : (id, errand) ∈ site.office.errands := Table.mem_of_lookup found
  obtain ⟨takes, deals, lands⟩ := kept.deal_turn found
  obtain ⟨next, carries⟩ := Stride.step_carries kept.numbered kept.orderly
    (kept.managed _ member) (narrated.given takes (narrated.inTune _ member))
  exact ⟨next, .inl member, kept.strides_turn found, takes, deals, carries, lands,
    fun _ same => same⟩

/-- An alarm rings, and a new errand takes its only step at once. -/
theorem Narrated.speaks_ring (narrated : site.Narrated chapters) (kept : site.Kept lives)
    {alarm : Alarm} (found : site.office.alarms.find? (·.id == alarm.id) = some alarm) :
    let errand : Errand := { decision := .expire alarm.execution }
    let taken := ((site.office.silence (some alarm.id)).takeOn errand).2
    site.Speaks site.office.nextErrand taken errand (.release (.expiry alarm.id))
      (Stride.expire site.engine taken errand alarm.execution) chapters chapters := by
  intro errand taken
  obtain ⟨takes, deals, lands⟩ := kept.deal_ring found
  obtain ⟨state, paused⟩ := kept.orderly.alarms alarm (List.mem_of_find?_eq_some found)
  have inTune : errand.InTune site.engine chapters := .of_plain (List.forall_mem_nil _) trivial
  exact ⟨.inr ⟨rfl, rfl⟩, kept.strides_ring found, takes, deals,
    Stride.expire_carries takes.orderly (narrated.given takes inTune) rfl rfl paused, lands,
    by simp⟩

/-- What leaves the pending runs alone, closes no pass, and adds no errands but such as have to
do with no run. -/
theorem Narrated.aside (narrated : site.Narrated chapters)
    (spares : site.engine.Spares after.engine none) (extending : site.engine.Extends after.engine)
    (pending : ∀ execution, after.pending? execution = site.pending? execution)
    (stays : ∀ entry ∈ site.office.errands, entry ∈ after.office.errands)
    (errands : ∀ entry ∈ after.office.errands, entry ∈ site.office.errands ∨
      entry.2.InTune after.engine chapters ∧ entry.2.voices after.engine = []) :
    after.Narrated chapters := by
  have same : ∀ entry ∈ site.office.errands, entry.2.InTune after.engine chapters ∧
      entry.2.voices after.engine = entry.2.voices site.engine := fun entry member =>
    (narrated.inTune entry member).spared spares fun _ run _ => (Option.some_ne_none run).symm
  refine ⟨fun n later => narrated.untold n (Nat.le_trans extending.moments_le later),
    fun execution state alarm found =>
      narrated.pending execution state alarm (pending execution ▸ found),
    fun entry member => ?_, fun entry member execution voices => ?_, narrated.keyed,
    fun state paused => ?_⟩
  · rcases errands entry member with before | ⟨inTune, _⟩
    · exact (same entry before).1
    · exact inTune
  · rcases errands entry member with before | ⟨_, nothing⟩
    · rw [(same entry before).2] at voices
      obtain ⟨issued, absent, others⟩ := narrated.alone entry before execution voices
      refine ⟨extending.issued issued, (pending execution).trans absent,
        fun other among touches => ?_⟩
      rcases errands other among with earlier | ⟨_, nothing⟩
      · rw [(same other earlier).2] at touches
        exact others other earlier touches
      · rw [nothing] at touches
        contradiction
    · rw [nothing] at voices
      contradiction
  · obtain ⟨entry, member, owes⟩ := narrated.owed state paused
    exact ⟨entry, stays entry member, owes⟩

/-- What is told and what becomes pending extends the chronicle of each run. -/
def GoesOn (chapters next : String → Chapter) (told : List Telling)
    (passages : String → List Passage) : Prop :=
  ∀ execution before entered, Chronicle before entered (chapters execution) →
    Chronicle (before ++ told.filter (·.execution == execution))
      (entered ++ (passages execution).filterMap Passage.entered?) (next execution)

/-- Every move leads to the next chapters, with what it tells and makes pending. -/
theorem Narrated.move (narrated : site.Narrated chapters) (kept : site.Kept lives) (m : Move) :
    ∃ next, (site.move m).Narrated next ∧
      GoesOn chapters next (site.tells m) (site.passages m) := by
  have quiet : ∀ (deed : Deed) (after : Site), (∀ state, deed ≠ .pause state) →
      GoesOn chapters chapters [] (deed.tells site after) := by
    intro deed after unpaused execution before entered chronicle
    have nothing : (deed.tells site after execution).filterMap Passage.entered? = [] := by
      rw [Deed.tells, Deed.entered?_passages]
      split
      · exact absurd rfl (unpaused _)
      · rfl
    simpa [nothing] using chronicle
  have still := kept.numbered.extends_refl
  have aside : ∀ after : Site, after.engine.runs = site.engine.runs →
      site.engine.Extends after.engine → (∀ e, after.pending? e = site.pending? e) →
      after.office.errands = site.office.errands → after.Narrated chapters :=
    fun after runs extending pending errands => narrated.aside (.of_runs runs) extending pending
      (fun _ member => errands ▸ member) fun _ member => .inl (errands ▸ member)
  have moved := kept.moves m
  rw [passages]
  generalize site.move m = after at moved ⊢
  cases moved with
  | @turn id errand found =>
    obtain ⟨next, speaks⟩ := narrated.speaks_turn kept found
    refine ⟨next, speaks.narrated narrated kept, fun execution before entered chronicle => ?_⟩
    have tells : site.tells (.turn id) = errand.tells site.engine := by simp [Site.tells, found]
    have does : site.deed (.turn id) = errand.deed := by simp [deed, found]
    rw [tells, does]
    exact speaks.carries.advances.chronicle chronicle _ _
  | ring found =>
    exact ⟨chapters, (narrated.speaks_ring kept found).narrated narrated kept,
      quiet _ _ fun _ => Deed.noConfusion⟩
  | branch run id =>
    refine ⟨chapters, narrated.aside (site.engine.spares_stepRun run _ _)
      (kept.numbered.stepRun run (.branch id)) (fun _ => rfl) (fun _ member => member)
      (fun _ member => .inl member), fun execution before entered chronicle => ?_⟩
    have nothing := Deed.entered?_passages .nothing execution (site.pending? execution)
      (site.pending? execution)
    show Chronicle _ (entered ++ (Deed.passages .nothing execution (site.pending? execution)
      (site.pending? execution)).filterMap Passage.entered?) _
    rw [nothing, List.append_nil]
    exact chronicle.append_shown site.engine run (.branch id) execution
  | order order =>
    refine ⟨chapters, narrated.aside (.of_runs rfl) still (fun _ => rfl)
      (fun _ member => List.mem_append_left _ member) (fun entry member => ?_),
      quiet _ _ fun _ => Deed.noConfusion⟩
    rcases List.mem_append.mp member with before | new
    · exact .inl before
    · rw [List.mem_singleton.mp new]
      have finds : order.decision.Finds site.engine chapters ∧
          order.decision.about? site.engine = none := by
        refine ⟨?_, by cases order <;> rfl⟩
        cases order <;>
          simp [Order.decision, Decision.Finds, Purpose.definition?, Purpose.state?]
      refine .inr ⟨.of_plain (List.forall_mem_nil _) finds.1, ?_⟩
      rw [Errand.voices_of_rest rfl]
      exact congrArg Option.toList finds.2
  | @noErrand id absent =>
    refine ⟨chapters, narrated, ?_⟩
    have tells : site.tells (.turn id) = [] := by simp [Site.tells, absent]
    rw [tells]
    exact quiet _ _ (by simp [deed, absent])
  | closed found =>
    exact ⟨chapters, aside _ rfl still (fun _ => rfl) rfl, quiet _ _ fun _ => Deed.noConfusion⟩
  | noAlarm id =>
    exact ⟨chapters, narrated, quiet _ _ fun _ => Deed.noConfusion⟩
  | learn d =>
    exact ⟨chapters, aside _ rfl still (fun _ => rfl) rfl, quiet _ _ fun _ => Deed.noConfusion⟩
  | pass clock =>
    exact ⟨chapters, aside _ rfl (kept.numbered.extends_of_runs rfl rfl (Nat.le_refl _))
      (fun _ => rfl) rfl, quiet _ _ fun _ => Deed.noConfusion⟩

end Site

end DurableFlow
