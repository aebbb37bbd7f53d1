import DurableFlow.Proofs.Run.Joining

/-!
# What becomes of the branches

A branch that is set off to enter a node enters it with its first step, or fails since there is no
such node, and never enters another. Until it has ended it is at work on this node, and an output
that its procedure replies with is kept. What a task takes up that waits for all its branches
therefore tells what each of them has done.
-/

namespace DurableFlow

namespace Run

variable {catalog : Catalog} {run after begun : Run} {task : TaskId} {join : Join}
  {group : Nat}

section Careers

variable {id : Nat} {name : String} {schedule : List Move}

/-- A branch that is not about to enter a node never will be. -/
theorem Transition.not_entering (happens : Transition catalog run after) (tended : run.Tended)
    (known : id < run.nextBranch) (beyond : ∀ name, run.phase? (.branch id) ≠ some (.entering name))
    (name : String) : after.phase? (.branch id) ≠ some (.entering name) := by
  intro enters
  obtain ⟨group, there⟩ := exists_branch_of_phase? enters
  rcases happens.source there with ⟨⟨group, phase⟩, stood, _⟩ | ⟨above, _⟩
  · have located : run.phase? (.branch id) = some phase := by rw [phase?, stood]; rfl
    cases tended.fate happens located with
    | stays still => exact beyond name (located.trans (still.symm.trans enters))
    | acts around _ plain _ still =>
      exact Phase.step_ne_entering plain _ _ _ name (Option.some.inj (still.symm.trans enters))
    | forks still => cases Option.some.inj (still.symm.trans enters)
    | @joins _ join _ _ _ _ still =>
      cases join <;> cases Option.some.inj (still.symm.trans enters)
    | arrives _ left =>
      rw [left, branch?_arrive, if_pos rfl] at there
      contradiction
  · exact absurd known (Nat.not_lt.mpr above)

theorem Transition.phase?_none (happens : Transition catalog run after)
    (known : id < run.nextBranch) (gone : run.phase? (.branch id) = none) :
    after.phase? (.branch id) = none :=
  Option.map_eq_none_iff.mpr (happens.still_gone known (Option.map_eq_none_iff.mp gone))

/-- How far a branch has come that was set off to enter a node. -/
structure Career (catalog : Catalog) (begun : Run) (id : Nat) (name : String)
    (schedule : List Move) : Prop where
  enters : (begun.play catalog schedule).phase? (.branch id) = some (.entering name) ∧
      begun.enteredBy catalog schedule (.branch id) = [] ∨
    (∀ name, (begun.play catalog schedule).phase? (.branch id) ≠ some (.entering name)) ∧
      (begun.enteredBy catalog schedule (.branch id) = [name] ∨
        ∃ failure, begun.Comes catalog schedule (.branch id) (.ended (.error failure)))
  works : ∀ phase node, (begun.play catalog schedule).phase? (.branch id) = some phase →
    phase.working? = some node → node.id = name

namespace Career

/-- A branch that stays where it stands comes no further. -/
theorem stays (career : Career catalog begun id name schedule) {m : Move}
    (same : (begun.play catalog (schedule ++ [m])).phase? (.branch id) =
      (begun.play catalog schedule).phase? (.branch id))
    (entered : begun.enteredBy catalog (schedule ++ [m]) (.branch id) =
      begun.enteredBy catalog schedule (.branch id)) :
    Career catalog begun id name (schedule ++ [m]) := by
  refine ⟨?_, fun phase node stands => ?_⟩
  · rw [same, entered]
    exact career.enters.imp_right fun known =>
      ⟨known.1, known.2.imp_right fun failed => failed.imp fun _ comes => comes.later m⟩
  · rw [same] at stands
    exact career.works phase node stands

/-- With its first step a branch enters its node, or it fails since there is no such node. -/
theorem first (career : Career catalog begun id name schedule) {other : String}
    (located : (begun.play catalog schedule).phase? (.branch id) = some (.entering other))
    (moment : Moment) (clock : Nat) :
    Career catalog begun id name (schedule ++ [.step (.branch id) moment clock]) := by
  have beyond : (begun.play catalog schedule).phase? (.branch id) = some (.entering name) ∧
      begun.enteredBy catalog schedule (.branch id) = [] :=
    career.enters.resolve_right fun known => known.1 other located
  obtain ⟨stood, none_yet⟩ := beyond
  obtain rfl : other = name := by
    rw [located] at stood
    cases stood
    rfl
  have entered := enteredBy_own catalog begun schedule (.branch id) moment clock
  rw [located, Option.map_some, Option.getD_some, none_yet, List.nil_append] at entered
  have stands : (begun.play catalog (schedule ++ [.step (.branch id) moment clock])).phase?
      (.branch id) = some ((Phase.entering other).step ⟨catalog, moment, clock⟩
        (begun.play catalog schedule).definition (begun.play catalog schedule).context).1 := by
    rw [play_concat]
    exact phase?_move_plain located trivial catalog moment clock
  cases found : (begun.play catalog schedule).definition.node? other with
  | none =>
    simp only [Phase.step, found] at stands
    refine ⟨.inr ⟨fun name same => ?_, .inr ⟨_, comes_of_phase? stands⟩⟩,
      fun phase node now works => ?_⟩
    · cases Option.some.inj (stands.symm.trans same)
    · cases Option.some.inj (stands.symm.trans now)
      cases works
  | some node =>
    have named := Definition.id_of_node? found
    simp only [Phase.step, found] at stands
    simp only [Phase.enters, found, Option.map_some, Option.toList_some, named] at entered
    refine ⟨.inr ⟨fun name same => ?_, .inl entered⟩, fun phase node' now works => ?_⟩
    · cases Option.some.inj (stands.symm.trans same)
    · cases Option.some.inj (stands.symm.trans now)
      cases works
      exact named

/-- With every later step a branch goes on with its node. -/
theorem later (career : Career catalog begun id name schedule)
    (tended : (begun.play catalog schedule).Tended)
    (known : id < (begun.play catalog schedule).nextBranch) {phase : Phase}
    (located : (begun.play catalog schedule).phase? (.branch id) = some phase)
    (elsewhere : ∀ other, phase ≠ .entering other) (moment : Moment) (clock : Nat) :
    Career catalog begun id name (schedule ++ [.step (.branch id) moment clock]) := by
  have happens := move_transition catalog (begun.play catalog schedule)
    (.step (.branch id) moment clock)
  have entered := enteredBy_own catalog begun schedule (.branch id) moment clock
  rw [located, Option.map_some, Option.getD_some, Phase.enters_of_ne elsewhere,
    List.append_nil] at entered
  have beyond : ∀ name, (begun.play catalog schedule).phase? (.branch id) ≠
      some (.entering name) :=
    fun other same => elsewhere other (Option.some.inj (located.symm.trans same))
  refine ⟨.inr ⟨?_, ?_⟩, fun next node stands works => ?_⟩
  · rw [play_concat]
    exact happens.not_entering tended known beyond
  · rw [entered]
    have known := (career.enters.resolve_left fun known => beyond name known.1).2
    exact known.imp_right fun failed => failed.imp fun _ comes => comes.later _
  · rw [play_concat] at stands
    cases tended.fate happens located with
    | stays still =>
      cases Option.some.inj (still.symm.trans stands)
      exact career.works phase node located works
    | acts around _ _ _ still =>
      cases Option.some.inj (still.symm.trans stands)
      rcases Phase.step_working works with before | ⟨_, entered⟩
      · exact career.works phase node located before
      · rw [Phase.enters_of_ne elsewhere] at entered
        contradiction
    | forks still =>
      cases Option.some.inj (still.symm.trans stands)
      cases works
    | @joins _ join _ _ _ _ still =>
      cases Option.some.inj (still.symm.trans stands)
      cases join <;> cases works
    | arrives _ left =>
      rw [left, phase?, branch?_arrive, if_pos rfl] at stands
      contradiction

theorem move (career : Career catalog begun id name schedule)
    (tended : (begun.play catalog schedule).Tended)
    (known : id < (begun.play catalog schedule).nextBranch) (m : Move) :
    Career catalog begun id name (schedule ++ [m]) := by
  have happens := move_transition catalog (begun.play catalog schedule) m
  rw [← play_concat] at happens
  by_cases own : ∃ moment clock, m = .step (.branch id) moment clock
  · obtain ⟨moment, clock, rfl⟩ := own
    cases located : (begun.play catalog schedule).phase? (.branch id) with
    | none =>
      have entered := enteredBy_own catalog begun schedule (.branch id) moment clock
      rw [located, Option.map_none, Option.getD_none, List.append_nil] at entered
      exact career.stays ((happens.phase?_none known located).trans located.symm) entered
    | some phase =>
      by_cases entering : ∃ other, phase = .entering other
      · obtain ⟨other, rfl⟩ := entering
        exact career.first located moment clock
      · have onward := fun other same => entering ⟨other, same⟩
        exact career.later tended known located onward moment clock
  · have others : ∀ moment clock, m ≠ .step (.branch id) moment clock :=
      fun moment clock same => own ⟨moment, clock, same⟩
    refine career.stays ?_ (enteredBy_other catalog begun schedule others)
    cases located : (begun.play catalog schedule).phase? (.branch id) with
    | none => exact happens.phase?_none known located
    | some phase =>
      rw [play_concat]
      exact phase?_move others located

/-- Whatever any task does, a branch enters the node that it was set off to enter, and no other. -/
theorem play (catalog : Catalog) (tended : begun.Tended)
    (begins : begun.branch? id = some ⟨group, .entering name⟩) (schedule : List Move) :
    Career catalog begun id name schedule := by
  have stands : begun.phase? (.branch id) = some (.entering name) := by rw [phase?, begins]; rfl
  induction schedule using List.reverseRecOn with
  | nil =>
    refine ⟨.inl ⟨stands, rfl⟩, fun phase node located works => ?_⟩
    rw [play_nil, stands] at located
    cases located
    cases works
  | append_singleton schedule m ih =>
    have known := (tended.numbered _ (Table.mem_of_lookup begins)).1
    exact ih.move (tended.play catalog schedule)
      (Nat.lt_of_lt_of_le known (play_numbers catalog begun schedule).1) m

end Career

/-- Once a procedure has replied with an output, the task is about to keep it or has kept it. -/
theorem kept_of_replied (tended : begun.Tended) {node : Node} {procedure : String}
    {output : Data} {due : Nat}
    (replied : begun.Comes catalog schedule task (.replying node procedure (.output output) due)) :
    (begun.play catalog schedule).phase? task =
        some (.replying node procedure (.output output) due) ∨
      (begun.play catalog schedule).phase? task = some (.recording node output) ∨
        (node.id, output) ∈ begun.log catalog kept schedule := by
  induction schedule using List.reverseRecOn with
  | nil => exact .inl (comes_nil.mp replied)
  | append_singleton schedule m ih =>
    rcases comes_concat.mp replied with earlier | now
    · have tended := tended.play catalog schedule
      have happens := move_transition catalog (begun.play catalog schedule) m
      rw [log_concat, play_concat]
      rcases ih earlier with located | located | logged
      · cases tended.fate happens located with
        | stays still => exact .inl still
        | acts around _ _ _ still =>
          simp only [Phase.step, Phase.takeUp] at still
          split at still
          · exact .inl still
          · exact .inr (.inl still)
      · by_cases own : ∃ moment clock, m = .step task moment clock
        · obtain ⟨moment, clock, rfl⟩ := own
          refine .inr (.inr (List.mem_append_right _ ?_))
          rw [kept, leavesOf, located]
          exact List.mem_singleton_self _
        · refine .inr (.inl (phase?_move ?_ located))
          exact fun moment clock same => own ⟨moment, clock, same⟩
      · exact .inr (.inr (List.mem_append_left _ logged))
    · exact .inl now

/-- A branch that is gone and has not failed has entered its node. -/
theorem Career.entered (career : Career catalog begun id name schedule)
    (gone : (begun.play catalog schedule).phase? (.branch id) = none)
    (unfailed : ∀ failure,
      ¬ begun.Comes catalog schedule (.branch id) (.ended (.error failure))) :
    begun.enteredBy catalog schedule (.branch id) = [name] := by
  rcases career.enters with ⟨stands, _⟩ | ⟨_, entered | ⟨failure, comes⟩⟩
  · rw [gone] at stands
    contradiction
  · exact entered
  · exact absurd comes (unfailed failure)

/-- When a branch is gone, the output that its procedure has replied with has been kept. -/
theorem kept_of_gone (tended : begun.Tended)
    (begins : begun.branch? id = some ⟨group, .entering name⟩)
    (gone : (begun.play catalog schedule).phase? (.branch id) = none) {node : Node}
    {procedure : String} {output : Data} {due : Nat}
    (replied : begun.Comes catalog schedule (.branch id)
      (.replying node procedure (.output output) due)) :
    (name, output) ∈ begun.log catalog kept schedule := by
  have named : node.id = name := by
    obtain ⟨before, _, stands⟩ := replied
    exact (Career.play catalog tended begins before).works _ node stands rfl
  rw [← named]
  rcases kept_of_replied tended replied with stands | stands | logged
  · rw [gone] at stands
    contradiction
  · rw [gone] at stands
    contradiction
  · exact logged

end Careers

/-- What an ending says of branches, which have the numbers from `first` on. -/
structure Reports (catalog : Catalog) (begun : Run) (first : Nat) (join : Join) (ids : List String)
    (schedule : List Move) (ending : Ending) : Prop where
  /-- Some branch has ended with an error. -/
  failed : (∃ failure, ending = .error failure) ↔ ∃ i < ids.length, ∃ failure,
    begun.Comes catalog schedule (.branch (first + i)) (.ended (.error failure))
  /-- All branches have ended and are gone. -/
  finished : ∀ step, ending = .ok step → ∀ i < ids.length,
    (begun.play catalog schedule).branch? (first + i) = none ∧
      ∃ own, begun.Comes catalog schedule (.branch (first + i)) (.ended (.ok own))
  /-- Each branch has entered its node once. -/
  entered : ∀ step, ending = .ok step → ∀ i id, ids[i]? = some id →
    begun.enteredBy catalog schedule (.branch (first + i)) = [id]
  /-- The outputs of the branches have been kept. -/
  kept : ∀ step, ending = .ok step → ∀ i id, ids[i]? = some id → ∀ node procedure output due,
    begun.Comes catalog schedule (.branch (first + i))
      (.replying node procedure (.output output) due) →
        (id, output) ∈ begun.log catalog kept schedule
  /-- Some branch has suspended the run. -/
  suspended : ∀ step, ending = .ok step → ((∃ id pause, step = .suspend id pause) ↔
    ∃ i < ids.length, ∃ id pause,
      begun.Comes catalog schedule (.branch (first + i)) (.ended (.ok (.suspend id pause))))
  /-- A parallel node goes on to its own successors. -/
  parallel : ∀ node all next, join = .parallel node all → ending = .ok (.goOn next) →
    next = node.successors
  /-- The branches of a fan-out go on together to the one node that they all name. -/
  fanOut : ∀ next, join = .fanOut → ids ≠ [] → ending = .ok (.goOn next) →
    (next = [] ∨ ∃ target, next = [target]) ∧ ∀ target, next = [target] ↔ ∀ i < ids.length,
      begun.Comes catalog schedule (.branch (first + i)) (.ended (.ok (.goOn [target])))

theorem Reports.unfailed {first : Nat} {ids : List String} {schedule : List Move} {step : Step}
    (reports : Reports catalog begun first join ids schedule (.ok step)) (i : Nat)
    (inside : i < ids.length) (failure : Failure) :
    ¬ begun.Comes catalog schedule (.branch (first + i)) (.ended (.error failure)) := by
  intro comes
  obtain ⟨_, same⟩ := reports.failed.mpr ⟨i, inside, failure, comes⟩
  cases same

/-- What a task that waits for all its branches takes up says how the branches have ended. -/
theorem Gathers.reports {first : Nat} {ids : List String} {schedule : List Move}
    {arrived : List (Nat × Ending)} {ending : Ending} (tended : begun.Tended)
    (begins : ∀ i id, ids[i]? = some id →
      begun.branch? (first + i) = some ⟨group, .entering id⟩)
    (gathers : Gathers catalog begun first group ids.length schedule arrived)
    (located : (begun.play catalog schedule).phase? task =
      some (.joining join group ids.length)) (all : join.waitForAll = true)
    (outcome : join.outcome? ids.length ((begun.play catalog schedule).endingsOf group) =
      some ending) :
    Reports catalog begun first join ids schedule ending := by
  have played := tended.play catalog schedule
  have failed := gathers.failed_iff played located all outcome
  -- An ending that is no error leaves nothing to be said of a branch that has failed.
  have unfailed : ∀ step, ending = .ok step → ∀ i < ids.length, ∀ failure,
      ¬ begun.Comes catalog schedule (.branch (first + i)) (.ended (.error failure)) := by
    rintro step rfl i inside failure comes
    obtain ⟨_, same⟩ := failed.mpr ⟨i, inside, failure, comes⟩
    cases same
  have gone : ∀ step, ending = .ok step → ∀ i < ids.length,
      (begun.play catalog schedule).phase? (.branch (first + i)) = none := by
    rintro step rfl i inside
    obtain ⟨_, _, ended, _⟩ := gathers.resolved played located all outcome
    rw [phase?, (ended i inside).1]
    rfl
  refine ⟨failed, ?_, ?_, ?_, ?_, ?_, ?_⟩
  · rintro step rfl i inside
    obtain ⟨steps, _, ended, _⟩ := gathers.resolved played located all outcome
    obtain ⟨gone, own, _, only⟩ := ended i inside
    exact ⟨gone, own, (only _).mpr rfl⟩
  · rintro step rfl i id listed
    obtain ⟨inside, _⟩ := List.getElem?_eq_some_iff.mp listed
    exact (Career.play catalog tended (begins i id listed) schedule).entered
      (gone step rfl i inside) (unfailed step rfl i inside)
  · rintro step rfl i id listed node procedure output due replied
    obtain ⟨inside, _⟩ := List.getElem?_eq_some_iff.mp listed
    exact kept_of_gone tended (begins i id listed) (gone step rfl i inside) replied
  · rintro step rfl
    obtain ⟨steps, rfl, ended, named⟩ := gathers.resolved played located all outcome
    rw [Join.resolve_eq_suspend_iff]
    constructor
    · rintro ⟨id, pause, member⟩
      obtain ⟨i, inside, comes⟩ := named _ member
      exact ⟨i, inside, id, pause, comes⟩
    · rintro ⟨i, inside, id, pause, comes⟩
      obtain ⟨_, own, member, only⟩ := ended i inside
      cases (only _).mp comes
      exact ⟨id, pause, member⟩
  · rintro node waitForAll next rfl rfl
    obtain ⟨steps, resolves, _⟩ := gathers.resolved played located all outcome
    exact (Join.resolve_eq_goOn resolves.symm).2
  · rintro next rfl some_listed rfl
    obtain ⟨steps, resolves, ended, named⟩ := gathers.resolved played located all outcome
    obtain ⟨goes, rfl⟩ := Join.resolve_eq_goOn resolves.symm
    have some_steps : steps ≠ [] := by
      obtain ⟨_, own, member, _⟩ := ended 0 (List.length_pos_iff.mpr some_listed)
      exact List.ne_nil_of_mem member
    refine ⟨Join.agreed_short _, fun target => ?_⟩
    rw [Join.onward_fanOut_iff goes some_steps]
    constructor
    · intro all i inside
      obtain ⟨_, own, member, only⟩ := ended i inside
      exact (only _).mpr (congrArg Except.ok (all own member).symm)
    · intro comes own member
      obtain ⟨i, inside, comes'⟩ := named own member
      obtain ⟨_, other, _, only⟩ := ended i inside
      exact Except.ok.inj (((only _).mp comes').trans ((only _).mp (comes i inside)).symm)

end Run

end DurableFlow
