import DurableFlow.Proofs.Desk.Conducting

/-!
# The events of a run form a life cycle

Whatever is published of a run as a whole follows the language of life cycles, every state that
it is told to be paused with becomes pending, and over sequential definitions each pass tells of
its nodes in blocks. `Site.Follows` is what moves keep besides the chapters: what has been told
of passes agrees with the runs of the engine, and so does what the errands are to tell of them.
-/

namespace DurableFlow

namespace Errand

variable {engine : Engine} {decision : Decision} {notice other : Notice} {id : Nat}

/-- Only an errand that goes on to drive a pass tells that it begins. -/
theorem opens_of_telling {run : Run}
    (opens : telling engine decision notice = .opens other id run) :
    other = notice ∧ engine.run? id = some run ∧ ∃ purpose, decision = .drive purpose id := by
  unfold telling at opens
  split at opens
  · rename_i purpose pass
    cases found : engine.run? pass with
    | none =>
      rw [found] at opens
      contradiction
    | some run' =>
      rw [found] at opens
      cases opens
      exact ⟨rfl, found, _, rfl⟩
  · contradiction
  · contradiction

/-- No errand tells of nodes with a notice of its own. -/
theorem telling_ne_shows : telling engine decision notice ≠ .shows other id := by
  unfold telling
  split
  · cases engine.run? _ <;> exact Telling.noConfusion
  · exact Telling.noConfusion
  · exact Telling.noConfusion

end Errand

namespace Site

variable {site after : Site} {lives : String → Life} {chapters : String → Chapter}
  {told : String → List Telling}

/-- The notices of passes that have been published, and those that errands are going to publish,
agree with the runs of the engine. -/
structure Follows (site : Site) (told : String → List Telling) : Prop where
  passes : site.engine.Follows told
  ready : ∀ entry ∈ site.office.errands, entry.2.Ready site.engine told

/-- Nothing is told while passes are closed and new ones are taken up. Errands that go on to
drive a pass find it as it was. -/
theorem Follows.carry (follows : site.Follows told)
    (nextRun : site.engine.nextRun ≤ after.engine.nextRun)
    (runs : ∀ id run, after.engine.run? id = some run →
      site.engine.run? id = some run ∨ site.engine.nextRun ≤ id ∧ run.AtStart)
    (errands : ∀ entry ∈ after.office.errands, entry.2.Ready after.engine told ∨
      entry ∈ site.office.errands ∧ ∀ purpose id, entry.2.decision = .drive purpose id →
        after.engine.run? id = site.engine.run? id) :
    after.Follows told := by
  refine ⟨follows.passes.leaves nextRun runs, fun entry member => ?_⟩
  rcases errands entry member with ready | ⟨before, same⟩
  · exact ready
  · intro notice publishes
    refine (follows.ready entry before notice publishes).congr
      (fun purpose id run drives found _ => (same purpose id drives).trans found)
      fun pass isTold gone => ?_
    cases found : after.engine.run? pass.id with
    | none => rfl
    | some run =>
      have earlier := (follows.passes.sound _ pass isTold).earlier
      rcases runs pass.id run found with there | ⟨new, _⟩
      · rw [gone] at there
        contradiction
      · omega

/-- Nothing is told, and the engine has the same runs. -/
theorem Follows.aside (follows : site.Follows told) (runs : after.engine.runs = site.engine.runs)
    (nextRun : site.engine.nextRun ≤ after.engine.nextRun)
    (errands : ∀ entry ∈ after.office.errands, entry ∈ site.office.errands ∨
      entry.2.Ready after.engine told) :
    after.Follows told := by
  have same := Engine.run?_congr runs
  refine follows.carry nextRun (fun id run there => .inl ((same id).symm.trans there))
    fun entry among => ?_
  rcases errands entry among with before | ready
  · exact .inr ⟨before, fun _ id _ => same id⟩
  · exact .inl ready

/-- What an errand publishes next of a run is told, and all errands stay ready. -/
theorem Follows.publish (follows : site.Follows told) (narrated : site.Narrated chapters)
    (kept : site.Kept lives) {id : Nat} {errand : Errand}
    (taken : site.office.errand? id = some errand) {notice : Notice} {rest : List Act}
    (acts : errand.acts = .publish notice :: rest) :
    site.Follows (Telling.added told [Errand.telling site.engine errand.decision notice]) := by
  have member : (id, errand) ∈ site.office.errands := Table.mem_of_lookup taken
  have about : (Errand.telling site.engine errand.decision notice).execution =
      notice.execution := by
    rw [Telling.execution, Errand.notice_telling]
  have voices : ∀ (errand : Errand) (notice : Notice), .publish notice ∈ errand.acts →
      notice.execution ∈ errand.voices site.engine := fun errand notice among =>
    List.mem_append_left _ (List.mem_filterMap.mpr ⟨_, among, rfl⟩)
  have first : .publish notice ∈ errand.acts := by simp [acts]
  refine ⟨?_, fun entry among other publishes => ?_⟩
  · have ready := follows.ready _ member notice first
    refine follows.passes.tell kept.numbered (fun other pass run opens => ?_)
      (fun other result closes => ?_) fun other pass => Errand.telling_ne_shows
    · obtain ⟨rfl, found, purpose, decision⟩ := Errand.opens_of_telling opens
      rw [decision] at ready
      obtain ⟨run', found', begins, own⟩ := ready
      cases found.symm.trans found'
      exact ⟨found, begins, own⟩
    · obtain ⟨rfl, purpose, decision⟩ := Errand.result_of_telling closes
      rw [decision] at ready
      exact ready
  · obtain ⟨key, errand'⟩ := entry
    have ready := follows.ready _ among other publishes
    by_cases same : notice.execution = other.execution
    · -- only the errand itself has to do with the run
      obtain rfl : key = id := (narrated.alone _ member _ (voices _ _ first)).2.2 _ among
        (same ▸ voices _ _ publishes)
      obtain rfl : errand' = errand := (kept.strides_turn taken).mine errand' among
      rw [← same, ← about, Telling.added_self]
      rw [← same, ← about] at ready
      exact ready.concat notice
    · rw [Telling.added_of_ne (about ▸ same)]
      exact ready

/-- An act of an errand. -/
theorem Follows.act (follows : site.Follows told) (narrated : site.Narrated chapters)
    (kept : site.Kept lives) {id : Nat} {errand : Errand}
    (taken : site.office.errand? id = some errand) {act : Act} {rest : List Act}
    (acts : errand.acts = act :: rest) :
    (land (Stride.step site.engine site.office errand) id).Follows
      (Telling.added told (errand.tells site.engine)) := by
  have strides := kept.strides_turn taken
  have member : (id, errand) ∈ site.office.errands := Table.mem_of_lookup taken
  obtain ⟨_, speaks⟩ := narrated.speaks_turn kept taken
  have later := speaks.extending.nextRun_le
  have tells : site.Follows (Telling.added told (errand.tells site.engine)) := by
    unfold Errand.tells
    rw [acts]
    cases act with
    | publish notice => exact follows.publish narrated kept taken acts
    | _ => simpa using follows
  obtain ⟨left, runs⟩ := Stride.act_rest site.engine site.office { errand with acts := rest } act
  have stepped : Stride.step site.engine site.office errand =
      Stride.act site.engine site.office { errand with acts := rest } act := by
    simp only [Stride.step, acts]
  rw [stepped] at strides later ⊢
  generalize Stride.act site.engine site.office { errand with acts := rest } act = stride at *
  refine tells.aside runs later fun entry among => ?_
  rcases strides.others entry among with rfl | ⟨before, _⟩
  · refine .inr fun notice publishes => ?_
    have same := Engine.run?_congr runs
    rw [left] at publishes ⊢
    exact (tells.ready _ member notice (acts ▸ List.mem_cons_of_mem act publishes)).congr
      (fun _ run _ _ found _ => (same run).trans found)
      fun pass _ gone => (same pass.id).trans gone
  · exact .inl before

/-- The pass that a run is said to have under way is the one that has been opened last. -/
theorem head_of_underWay {execution : String} (chronicles : ∀ execution, ∃ entered,
      Chronicle (told execution) entered (chapters execution)) {id : Nat}
    (underWay : chapters execution = .underWay id) :
    ∃ pass rest, Pass.all (told execution) = pass :: rest ∧ pass.id = id := by
  obtain ⟨_, chronicle⟩ := chronicles execution
  obtain ⟨pass, rest, all, same, _⟩ := chronicle.head underWay
  exact ⟨pass, rest, all, same⟩

section Decisions

variable {id : Nat} {errand : Errand} {stride : Stride} {purpose : Purpose} {pass : Nat}
  {run : Run}

variable (follows : site.Follows told) (kept : site.Kept lives)
  (strides : site.Strides id errand stride)
  (chronicles : ∀ execution, ∃ entered,
    Chronicle (told execution) entered (chapters execution))
  (finds : errand.decision.Finds site.engine chapters)
  (others : ∀ entry ∈ site.office.errands, entry.1 ≠ id → ∀ purpose pass,
    entry.2.decision = .drive purpose pass → errand.run? ≠ some pass)

include follows kept strides

/-- A pass is taken up, and is yet to be told of. -/
theorem Follows.opening (begins : run.AtStart)
    (runs : stride.engine.runs = (site.engine.adopt run).2.runs)
    (later : site.engine.nextRun ≤ stride.engine.nextRun)
    (decision : stride.errand.decision = .drive purpose site.engine.nextRun)
    (about : ∀ notice, .publish notice ∈ stride.errand.acts →
      run.context.execution = notice.execution) :
    (land stride id).Follows told := by
  have same := Engine.run?_congr runs
  have taken := Engine.run?_adopt kept.numbered run
  refine follows.carry later (fun pass found there => ?_) fun entry among => ?_
  · rw [show (land stride id).engine.run? pass = _ from same pass] at there
    by_cases new : pass = site.engine.nextRun
    · subst new
      cases taken.symm.trans there
      exact .inr ⟨Nat.le_refl _, begins⟩
    · rw [Engine.run?_adopt_of_ne site.engine run new] at there
      exact .inl there
  · rcases strides.others entry among with rfl | ⟨before, _⟩
    · refine .inl fun notice publishes => ?_
      rw [show ((id, stride.errand) : Nat × Errand).2.decision = _ from decision]
      exact ⟨run, (same _).trans taken, begins, about notice publishes⟩
    · refine .inr ⟨before, fun purpose pass drives => ?_⟩
      have old : pass < site.engine.nextRun := by
        have managed := (kept.managed entry before).decision
        rwa [drives] at managed
      exact (same pass).trans (Engine.run?_adopt_of_ne site.engine run (Nat.ne_of_lt old))

include chronicles finds others

/-- The driver of a pass takes a step, and what it tells is told. -/
theorem Follows.drive (decision : errand.decision = .drive purpose pass)
    (engine_eq : stride.engine = (site.engine.stepRun pass .driver).1)
    (silent : stride.errand.acts = []) :
    (land stride id).Follows (Telling.added told (site.engine.shown pass .driver)) := by
  rw [decision] at finds
  obtain ⟨_, run, found, underWay⟩ := finds
  constructor
  · rw [show (land stride id).engine = _ from engine_eq]
    refine follows.passes.stepRun kept.numbered pass .driver fun _ other there => ?_
    cases found.symm.trans there
    obtain ⟨opened, rest, all, same⟩ := head_of_underWay chronicles underWay
    exact ⟨opened, all ▸ List.mem_cons_self, same⟩
  · intro entry among notice publishes
    rcases strides.others entry among with rfl | ⟨before, different⟩
    · rw [silent] at publishes
      contradiction
    · rw [show (land stride id).engine = _ from engine_eq]
      refine (follows.ready entry before notice publishes).stepRun notice.execution ?_
      intro purpose' drives
      exact absurd (by rw [Errand.run?, decision]) (others entry before different _ _ drives)

/-- A pass is closed, and its result is yet to be told. -/
theorem Follows.concluding (decision : errand.decision = .conclude purpose pass)
    {conclusion : Conclusion} (found : site.engine.run? pass = some run)
    (concluded : run.drive = .concluded conclusion)
    (runs : stride.engine.runs = (site.engine.close pass).runs)
    (later : site.engine.nextRun ≤ stride.engine.nextRun)
    (undriven : ∀ purpose id, stride.errand.decision ≠ .drive purpose id)
    (tells : ∀ notice, .publish notice ∈ stride.errand.acts →
      run.context.execution = notice.execution ∧
        ∀ purpose result, stride.errand.decision = .finish purpose (.ok result) →
          conclusion.result site.engine.moment.now run.context =
            .ok (result, notice.happening)) :
    (land stride id).Follows told := by
  have same : ∀ other, stride.engine.run? other =
      (site.engine.run? other).filter fun run => other != pass || !run.branches.isEmpty := by
    intro other
    rw [Engine.run?_congr runs]
    exact kept.numbered.run?_close pass other
  refine follows.carry later (fun other later there => ?_) fun entry among => ?_
  · rw [show (land stride id).engine.run? other = _ from same other] at there
    exact .inl (Option.filter_eq_some_iff.mp there).1
  · rcases strides.others entry among with rfl | ⟨before, different⟩
    · refine .inl fun notice publishes => ?_
      obtain ⟨own, verdict⟩ := tells notice publishes
      cases ends : stride.errand.decision with
      | drive purpose other => exact absurd ends (undriven purpose other)
      | finish purpose' result =>
        cases result with
        | error failure => trivial
        | ok result =>
          intro last first sequential
          rw [decision] at finds
          obtain ⟨_, run', found', underWay⟩ := finds
          cases found.symm.trans found'
          obtain ⟨head, rest, all, named⟩ := head_of_underWay chronicles underWay
          rw [← own, all] at first
          obtain rfl : head = last := Option.some.inj first
          obtain ⟨_, blocks⟩ := (follows.passes.sound _ head
            (all ▸ List.mem_cons_self)).underWay sequential run (named ▸ found)
          refine ⟨?_, blocks.result concluded (verdict purpose' result ends)⟩
          rw [show (land stride id).engine.run? head.id = _ from same head.id, named, found]
          simp [blocks.branches]
      | _ => trivial
    · refine .inr ⟨before, fun purpose' other drives => ?_⟩
      have apart : other ≠ pass := by
        rintro rfl
        exact others entry before different _ _ drives (by rw [Errand.run?, decision])
      rw [show (land stride id).engine.run? other = _ from same other]
      cases site.engine.run? other <;> simp [apart]

end Decisions

/-- An errand takes its turn. -/
theorem Follows.turn (follows : site.Follows told) (narrated : site.Narrated chapters)
    (kept : site.Kept lives) (chronicles : ∀ execution, ∃ entered,
      Chronicle (told execution) entered (chapters execution))
    {id : Nat} {errand : Errand} (taken : site.office.errand? id = some errand) :
    (land (Stride.step site.engine site.office errand) id).Follows
      (Telling.added told (errand.tells site.engine)) := by
  cases acts : errand.acts with
  | cons act rest => exact follows.act narrated kept taken acts
  | nil =>
    have member : (id, errand) ∈ site.office.errands := Table.mem_of_lookup taken
    obtain ⟨_, speaks⟩ := narrated.speaks_turn kept taken
    have strides := speaks.strides
    have later := speaks.extending.nextRun_le
    have finds : errand.decision.Finds site.engine chapters := by
      have script := (narrated.inTune _ member).script
      rwa [acts] at script
    have others : ∀ entry ∈ site.office.errands, entry.1 ≠ id → ∀ purpose pass,
        entry.2.decision = .drive purpose pass → errand.run? ≠ some pass :=
      fun _ among different _ _ drives =>
        speaks.run?_ne narrated kept among different (.inl drives)
    have silent : (∀ purpose pass, errand.decision ≠ .drive purpose pass) →
        errand.tells site.engine = [] := by
      intro undriven
      unfold Errand.tells
      rw [acts]
      cases decision : errand.decision with
      | drive purpose pass => exact absurd decision (undriven purpose pass)
      | _ => rfl
    have managed : errand.IsManaged site.engine := kept.managed _ member
    have conducts := Stride.decide_conducts managed acts site.office
    have stepped : Stride.step site.engine site.office errand =
        Stride.decide site.engine site.office errand := by
      simp only [Stride.step, acts]
    rw [stepped] at strides later ⊢
    generalize Stride.decide site.engine site.office errand = stride at *
    cases conducts with
    | rests runs undriven quiet =>
      rw [silent undriven, Telling.added_nil]
      refine follows.aside runs later fun entry among => ?_
      rcases strides.others entry among with rfl | ⟨before, _⟩
      · exact .inr (quiet.elim (.of_silent · _ _) (.of_not_isOfPass · _ _))
      · exact .inl before
    | begins begins runs undriven decision about =>
      rw [silent undriven, Telling.added_nil]
      exact follows.opening kept strides begins runs later decision about
    | @drives purpose pass decision engine_eq quiet =>
      have tells : errand.tells site.engine = site.engine.shown pass .driver := by
        simp only [Errand.tells, acts, decision]
      rw [tells]
      exact follows.drive kept strides chronicles finds others decision engine_eq quiet
    | ends decision found concluded runs undriven tells =>
      have driven : ∀ purpose pass, errand.decision ≠ .drive purpose pass := by simp [decision]
      rw [silent driven, Telling.added_nil]
      exact follows.concluding kept strides chronicles finds others decision found concluded runs
        later
        undriven tells

/-- Whatever a move tells, what has been told agrees with the runs of the engine. -/
theorem Follows.move (follows : site.Follows told) (narrated : site.Narrated chapters)
    (kept : site.Kept lives) (chronicles : ∀ execution, ∃ entered,
      Chronicle (told execution) entered (chapters execution)) (m : Move) :
    (site.move m).Follows (Telling.added told (site.tells m)) := by
  have moved := kept.moves m
  generalize site.move m = after at moved ⊢
  cases moved with
  | @turn id errand found =>
    have tells : site.tells (.turn id) = errand.tells site.engine := by simp [Site.tells, found]
    rw [tells]
    exact follows.turn narrated kept chronicles found
  | @noErrand id absent =>
    have tells : site.tells (.turn id) = [] := by simp [Site.tells, absent]
    rw [tells, Telling.added_nil]
    exact follows
  | branch run id =>
    refine ⟨follows.passes.stepRun kept.numbered run (.branch id) fun other => ?_, ?_⟩
    · contradiction
    · intro entry member notice publishes
      exact (follows.ready entry member notice publishes).stepRun notice.execution fun _ _ =>
        TaskId.noConfusion
  | @ring alarm found =>
    have speaks := narrated.speaks_ring kept found
    have strides := speaks.strides
    have later := speaks.extending.nextRun_le
    obtain ⟨runs, plain⟩ := Stride.expire_rests site.engine
      ((site.office.silence (some alarm.id)).takeOn { decision := .expire alarm.execution }).2
      { decision := .expire alarm.execution } alarm.execution
    have tells : site.tells (.ring alarm.id) = [] := rfl
    rw [tells, Telling.added_nil]
    generalize Stride.expire site.engine
      ((site.office.silence (some alarm.id)).takeOn { decision := .expire alarm.execution }).2
      { decision := .expire alarm.execution } alarm.execution = stride at *
    refine follows.aside runs later fun entry among => ?_
    rcases strides.others entry among with rfl | ⟨before, _⟩
    · exact .inr (.of_not_isOfPass plain _ _)
    · exact .inl before
  | order order =>
    rw [show site.tells (.order order) = [] from rfl, Telling.added_nil]
    refine follows.aside rfl (Nat.le_refl _) fun entry member => ?_
    rcases List.mem_append.mp member with before | new
    · exact .inl before
    · rw [List.mem_singleton.mp new]
      exact .inr (.of_silent rfl _ _)
  | noAlarm | closed | learn | pass =>
    change Site.Follows _ (Telling.added told [])
    rw [Telling.added_nil]
    exact follows.aside rfl (Nat.le_refl _) fun _ member => .inl member

/-- The chapters of all runs are those that the notices and the pauses so far lead to. -/
structure Chronicled (site : Site) (chapters : String → Chapter) (told : String → List Telling)
    (entered : String → List Suspended) : Prop where
  narrated : site.Narrated chapters
  follows : site.Follows told
  chronicle : ∀ execution, Chronicle (told execution) (entered execution) (chapters execution)

/-- At first nothing has been told. -/
theorem Chronicled.opened (catalog : Catalog) (limit : Nat) (ledger : Option Ledger)
    (epoch : Instant) (policy : TimeoutPolicy) :
    (Site.opened catalog limit ledger epoch policy).Chronicled (fun _ => .untold) (fun _ => [])
      fun _ => [] where
  narrated :=
    { untold := fun _ _ => rfl
      pending := fun _ _ _ found => by contradiction
      inTune := fun _ member => absurd member List.not_mem_nil
      alone := fun _ member => absurd member List.not_mem_nil
      keyed := fun _ _ paused => by contradiction
      owed := fun _ paused => by contradiction }
  follows :=
    { passes :=
        { sound := fun _ _ member => absurd member List.not_mem_nil
          opened := fun _ _ found => by contradiction
          placed := fun _ => .nil }
      ready := fun _ member => absurd member List.not_mem_nil }
  chronicle _ := .nil

variable {entered : String → List Suspended}

/-- Every move leads on. -/
theorem Chronicled.move (chronicled : site.Chronicled chapters told entered)
    (kept : site.Kept lives) (m : Move) :
    ∃ next, (site.move m).Chronicled next (Telling.added told (site.tells m)) fun execution =>
      entered execution ++ (site.passages m execution).filterMap Passage.entered? := by
  obtain ⟨narrated, follows, chronicle⟩ := chronicled
  obtain ⟨next, later, goesOn⟩ := narrated.move kept m
  exact ⟨next, later, follows.move narrated kept (fun execution => ⟨_, chronicle execution⟩) m,
    fun execution => goesOn execution _ _ (chronicle execution)⟩

/-- Every schedule leads on. -/
theorem Chronicled.play (chronicled : site.Chronicled chapters told entered)
    (kept : site.Kept lives) (schedule : List Move) :
    ∃ next, (site.play schedule).Chronicled next (Telling.added told (site.tellings schedule))
      fun execution =>
        entered execution ++ (site.log execution schedule).filterMap Passage.entered? := by
  induction schedule generalizing site lives chapters told entered with
  | nil => exact ⟨chapters, by simpa [tellings, log] using chronicled⟩
  | cons m rest ih =>
    obtain ⟨_, accounts⟩ := kept.accounts_move m
    obtain ⟨_, middle⟩ := chronicled.move kept m
    obtain ⟨next, later⟩ := ih middle accounts.kept
    refine ⟨next, ?_⟩
    simpa only [play_cons, tellings, log, Telling.added_added, List.filterMap_append,
      List.append_assoc] using later

end Site

end DurableFlow
