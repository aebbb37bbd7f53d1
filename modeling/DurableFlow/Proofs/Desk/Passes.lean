import DurableFlow.Proofs.Desk.Chronicle

/-!
# What is told of the passes of a run

A pass that has been told of keeps its id and the run that it has begun with; what happens to
nodes adds to it, and its result closes it. `Pass.Sound` ties such a pass to the runs of the
engine: over a sequential definition it has told in blocks how its run has got where it stands,
and once its result has been told, the engine does not have its run any more. `Engine.Follows`
says this of all passes, and that nothing is told of a node of a pass that has not been opened.
-/

namespace DurableFlow

namespace Pass

variable {told : List Telling} {pass : Pass} {id : Nat}

/-- Several things have happened to nodes of a pass. -/
def showAll (id : Nat) (happenings : List Happening) (pass : Pass) : Pass :=
  happenings.foldl (fun pass happening => pass.showIn id happening) pass

@[simp] theorem showAll_nil (id : Nat) (pass : Pass) : pass.showAll id [] = pass := rfl

@[simp] theorem showAll_cons (id : Nat) (happening : Happening) (rest : List Happening)
    (pass : Pass) :
    pass.showAll id (happening :: rest) = (pass.showIn id happening).showAll id rest := rfl

theorem showAll_keeps (id : Nat) (happenings : List Happening) (pass : Pass) :
    (pass.showAll id happenings).id = pass.id ∧
      (pass.showAll id happenings).begun = pass.begun := by
  induction happenings generalizing pass with
  | nil => exact ⟨rfl, rfl⟩
  | cons happening rest ih =>
    obtain ⟨sameId, begun⟩ := ih (pass.showIn id happening)
    exact ⟨sameId.trans (showIn_id ..), begun.trans (showIn_begun ..)⟩

/-- Other passes are not told of. -/
theorem showAll_of_ne (different : pass.id ≠ id) (happenings : List Happening) :
    pass.showAll id happenings = pass := by
  induction happenings with
  | nil => rfl
  | cons happening rest ih =>
    rw [showAll_cons, showIn, if_neg different]
    exact ih

/-- A pass that is open goes on with what happens to its nodes. -/
theorem showAll_of_open (unclosed : pass.closing = none) (happenings : List Happening) :
    pass.showAll pass.id happenings = { pass with nodes := pass.nodes ++ happenings } := by
  induction happenings generalizing pass with
  | nil => simp
  | cons happening rest ih =>
    have first : pass.showIn pass.id happening =
        { pass with nodes := pass.nodes ++ [happening] } := by
      rw [showIn, if_pos rfl, extend, unclosed]
    have later := @ih { pass with nodes := pass.nodes ++ [happening] } unclosed
    rw [showAll_cons, first]
    simpa using later

/-- What is told of nodes one after another adds to each of the passes. -/
theorem all_append_shows (told : List Telling) (workflow execution : String) (id : Nat)
    (happenings : List Happening) :
    all (told ++ happenings.map fun happening =>
      .shows ⟨workflow, execution, happening⟩ id) = (all told).map (showAll id happenings) := by
  induction happenings generalizing told with
  | nil =>
    have same : showAll id [] = fun pass => pass := funext (showAll_nil id)
    simp [same]
  | cons happening rest ih =>
    have first := all_concat told (.shows ⟨workflow, execution, happening⟩ id)
    rw [List.map_cons, ← List.singleton_append, ← List.append_assoc, ih, first, tell,
      List.map_map]
    rfl

/-- A pass has been told to have begun. -/
def Opened (told : List Telling) (id : Nat) : Prop := ∃ pass ∈ all told, pass.id = id

theorem Opened.concat (opened : Opened told id) (telling : Telling) :
    Opened (told ++ [telling]) id := by
  obtain ⟨pass, among, same⟩ := opened
  rw [Opened, all_concat]
  cases telling with
  | opens notice other run => exact ⟨pass, List.mem_cons_of_mem _ among, same⟩
  | shows notice other => exact ⟨_, List.mem_map_of_mem among, by rw [showIn_id, same]⟩
  | closes notice result =>
    obtain ⟨first, rest, split⟩ := List.exists_cons_of_ne_nil (List.ne_nil_of_mem among)
    rw [split] at among
    rw [split, tell, List.modifyHead_cons]
    rcases List.mem_cons.mp among with rfl | later
    · exact ⟨_, List.mem_cons_self, same⟩
    · exact ⟨pass, List.mem_cons_of_mem _ later, same⟩
  | ends notice => exact ⟨pass, among, same⟩

theorem Opened.append (opened : Opened told id) (more : List Telling) :
    Opened (told ++ more) id := by
  induction more generalizing told with
  | nil => rwa [List.append_nil]
  | cons telling rest ih =>
    rw [← List.singleton_append, ← List.append_assoc]
    exact ih (opened.concat telling)

/-- Whatever is told of nodes is told of a pass that has been opened before. -/
def Placed (told : List Telling) : Prop :=
  ∀ before notice id later, told = before ++ .shows notice id :: later → Opened before id

theorem Placed.nil : Placed [] := by
  intro before notice id later split
  simp at split

theorem Placed.concat (placed : Placed told) {telling : Telling}
    (opened : ∀ notice id, telling = .shows notice id → Opened told id) :
    Placed (told ++ [telling]) := by
  intro before notice id later split
  rcases later.eq_nil_or_concat with rfl | ⟨rest, last, rfl⟩
  · obtain ⟨rfl, same⟩ := List.append_inj' split rfl
    exact opened notice id (List.cons.inj same).1
  · rw [List.concat_eq_append, ← List.cons_append, ← List.append_assoc] at split
    exact placed before notice id rest (List.append_inj' split rfl).1

theorem Placed.append_shows (placed : Placed told) (opened : Opened told id)
    {more : List Telling} (nodes : ∀ telling ∈ more, ∃ notice, telling = .shows notice id) :
    Placed (told ++ more) := by
  induction more generalizing told with
  | nil => rwa [List.append_nil]
  | cons telling rest ih =>
    obtain ⟨notice, rfl⟩ := nodes telling List.mem_cons_self
    rw [← List.singleton_append, ← List.append_assoc]
    refine ih (placed.concat fun other id' same => ?_) (opened.concat _) fun other among =>
      nodes other (List.mem_cons_of_mem _ among)
    cases same
    exact opened

/-- A pass has ended with this result: the notices of its nodes are in blocks, one for each node
that it has added to the history, and the last block is open exactly if the pass is paused there. -/
def Ends (pass : Pass) (result : RunResult) (happening : Happening) : Prop :=
  ∃ ids bare, Blocks pass.nodes ids bare ∧
    result.history = pass.begun.context.history ++ ids ∧
      ∀ node, bare = some node ↔ ∃ state, happening = .paused node state

/-- The notices of a pass over a sequential definition are in blocks, and none of a node comes after
its end. -/
structure InBlocks (pass : Pass) : Prop where
  blocks : ∃ ids bare, Blocks pass.nodes ids bare
  ends : ∀ result happening, pass.closing = some (result, happening) →
    pass.Ends result happening
  later : pass.later = []

/-- The notices of a pass agree with the runs that the engine has. -/
structure Sound (engine : Engine) (execution : String) (pass : Pass) : Prop where
  execution : pass.begun.context.execution = execution
  begins : pass.begun.AtStart
  earlier : pass.id < engine.nextRun
  inBlocks : pass.begun.definition.IsSequential → pass.InBlocks
  underWay : pass.begun.definition.IsSequential → ∀ run, engine.run? pass.id = some run →
    pass.closing = none ∧ pass.begun.Tells run pass.nodes

end Pass

namespace Telling

/-- What has been told of each run, and something more that is told. -/
def added (told : String → List Telling) (more : List Telling) (execution : String) :
    List Telling :=
  told execution ++ more.filter (·.execution == execution)

variable {told : String → List Telling} {telling : Telling}

@[simp] theorem added_nil (told : String → List Telling) : added told [] = told := by
  funext execution
  rw [added, List.filter_nil, List.append_nil]

theorem added_added (told : String → List Telling) (more later : List Telling) :
    added (added told more) later = added told (more ++ later) := by
  funext execution
  rw [added, added, added, List.filter_append, List.append_assoc]

theorem added_self (told : String → List Telling) (telling : Telling) :
    added told [telling] telling.execution = told telling.execution ++ [telling] := by
  simp [added]

theorem added_of_ne {execution : String} (different : telling.execution ≠ execution) :
    added told [telling] execution = told execution := by
  simp [added, different]

end Telling

namespace Engine

/-- The notices of all passes agree with the runs of the engine. -/
structure Follows (engine : Engine) (told : String → List Telling) : Prop where
  sound : ∀ execution, ∀ pass ∈ Pass.all (told execution), pass.Sound engine execution
  /-- A pass that has taken a step has been told to have begun. -/
  opened : ∀ id run, engine.run? id = some run → ¬ run.AtStart →
    Pass.Opened (told run.context.execution) id
  placed : ∀ execution, Pass.Placed (told execution)

variable {engine after : Engine} {told : String → List Telling} {id : Nat} {run : Run}
  {task : TaskId}

/-- What a step of a task tells, as long as its pass is there. -/
theorem shown_eq (found : engine.run? id = some run) (task : TaskId) :
    engine.shown id task =
      ((run.step engine.surroundings task).effects.filterMap Effect.happening?).map fun happening =>
        .shows ⟨run.context.workflow, run.context.execution, happening⟩ id := by
  simp only [shown, found]

/-- What a step of a task tells is told of its run only. -/
theorem filter_shown (found : engine.run? id = some run) (task : TaskId) (execution : String) :
    (engine.shown id task).filter (·.execution == execution) =
      if run.context.execution = execution then engine.shown id task else [] := by
  rw [shown_eq found]
  split
  · rename_i same
    refine List.filter_eq_self.mpr fun telling among => ?_
    obtain ⟨happening, _, rfl⟩ := List.mem_map.mp among
    exact beq_iff_eq.mpr same
  · rename_i different
    refine List.filter_eq_nil_iff.mpr fun telling among => ?_
    obtain ⟨happening, _, rfl⟩ := List.mem_map.mp among
    exact fun same => different (beq_iff_eq.mp same)

end Engine

namespace Pass.Sound

variable {engine after : Engine} {execution : String} {pass : Pass} {run : Run}

/-- A pass that begins has told of no node. -/
theorem opens (numbered : engine.Numbered) {id : Nat} (found : engine.run? id = some run)
    (begins : run.AtStart) (own : run.context.execution = execution) :
    Sound engine execution { id, begun := run } where
  execution := own
  begins := begins
  earlier := numbered.lt _ (Table.mem_of_lookup found)
  inBlocks _ := ⟨⟨_, _, .nil⟩, fun _ _ closed => absurd closed.symm (Option.some_ne_none _), rfl⟩
  underWay sequential other there := by
    cases found.symm.trans there
    exact ⟨rfl, begins.tells sequential⟩

/-- As long as no run takes the place of its own, nothing else matters to a pass. -/
theorem stays (sound : pass.Sound engine execution) (later : engine.nextRun ≤ after.nextRun)
    (runs : pass.begun.definition.IsSequential → ∀ run, after.run? pass.id = some run →
      engine.run? pass.id = some run) :
    pass.Sound after execution where
  execution := sound.execution
  begins := sound.begins
  earlier := Nat.lt_of_lt_of_le sound.earlier later
  inBlocks := sound.inBlocks
  underWay sequential run there := sound.underWay sequential run (runs sequential run there)

/-- A pass whose run is closed comes to its end. -/
theorem close (sound : pass.Sound engine execution) (result : RunResult) (happening : Happening)
    (ends : pass.begun.definition.IsSequential →
      engine.run? pass.id = none ∧ pass.Ends result happening) :
    (pass.close result happening).Sound engine execution where
  execution := sound.execution
  begins := sound.begins
  earlier := sound.earlier
  inBlocks sequential := by
    obtain ⟨blocks, _, later⟩ := sound.inBlocks sequential
    refine ⟨blocks, fun other happening closing => ?_, later⟩
    cases closing
    exact (ends sequential).2
  underWay sequential run there := by
    cases there.symm.trans (ends sequential).1

/-- A step of a task of its run tells what a pass goes on with. -/
theorem shows (sound : pass.Sound engine execution) (numbered : engine.Numbered)
    (found : engine.run? pass.id = some run) (task : TaskId) :
    (pass.showAll pass.id ((run.step engine.surroundings task).effects.filterMap
      Effect.happening?)).Sound (engine.stepRun pass.id task).1 execution := by
  generalize shows : (run.step engine.surroundings task).effects.filterMap
    Effect.happening? = happenings
  obtain ⟨sameId, begun⟩ := pass.showAll_keeps pass.id happenings
  have goesOn : pass.begun.definition.IsSequential →
      pass.showAll pass.id happenings = { pass with nodes := pass.nodes ++ happenings } ∧
      pass.closing = none ∧
      pass.begun.Tells (run.step engine.surroundings task).run (pass.nodes ++ happenings) := by
    intro sequential
    obtain ⟨unclosed, tells⟩ := sound.underWay sequential run found
    exact ⟨showAll_of_open unclosed happenings, unclosed,
      shows ▸ tells.step sequential engine.surroundings task⟩
  constructor
  case execution => exact begun ▸ sound.execution
  case begins => exact begun ▸ sound.begins
  case earlier =>
    rw [sameId]
    exact Nat.lt_of_lt_of_le sound.earlier (numbered.stepRun pass.id task).nextRun_le
  case inBlocks =>
    rw [begun]
    intro sequential
    obtain ⟨extended, unclosed, tells⟩ := goesOn sequential
    obtain ⟨ids, bare, blocks, _⟩ := tells.blocks
    rw [extended]
    refine ⟨⟨ids, bare, blocks⟩, fun result happening closes => ?_,
      (sound.inBlocks sequential).later⟩
    cases unclosed.symm.trans closes
  case underWay =>
    rw [begun, sameId]
    intro sequential later there
    obtain ⟨extended, unclosed, tells⟩ := goesOn sequential
    rw [Engine.run?_stepRun, if_pos rfl, found, Option.map_some] at there
    cases there
    rw [extended]
    exact ⟨unclosed, tells⟩

end Pass.Sound

namespace Engine

variable {engine after : Engine} {told : String → List Telling} {id : Nat} {run : Run}

namespace Follows

/-- Passes may be closed and new ones be taken up that have taken no step. -/
theorem leaves (follows : engine.Follows told) (nextRun : engine.nextRun ≤ after.nextRun)
    (runs : ∀ id run, after.run? id = some run →
      engine.run? id = some run ∨ engine.nextRun ≤ id ∧ run.AtStart) :
    after.Follows told where
  sound execution pass among := by
    have sound := follows.sound execution pass among
    refine sound.stays nextRun fun _ run found => ?_
    rcases runs pass.id run found with before | ⟨new, _⟩
    · exact before
    · exact absurd sound.earlier (Nat.not_lt.mpr new)
  opened id run found begun := by
    rcases runs id run found with before | ⟨_, none_there⟩
    · exact follows.opened id run before begun
    · exact absurd none_there begun
  placed := follows.placed

/-- Whatever is told with a notice of a run is told of that run. -/
theorem tell (follows : engine.Follows told) (numbered : engine.Numbered) {telling : Telling}
    (opens : ∀ notice id run, telling = .opens notice id run →
      engine.run? id = some run ∧ run.AtStart ∧ run.context.execution = notice.execution)
    (closes : ∀ notice result, telling = .closes notice result →
      ∀ pass ∈ (Pass.all (told notice.execution)).head?, pass.begun.definition.IsSequential →
        engine.run? pass.id = none ∧ pass.Ends result notice.happening)
    (whole : ∀ notice id, telling ≠ .shows notice id) :
    engine.Follows (Telling.added told [telling]) := by
  have here := Telling.added_self told telling
  refine ⟨fun execution pass among => ?_, fun id run found begun => ?_, fun execution => ?_⟩
  · by_cases same : telling.execution = execution
    · subst same
      rw [here, Pass.all_concat] at among
      cases telling with
      | opens notice id run =>
        obtain ⟨found, begins, own⟩ := opens notice id run rfl
        rcases List.mem_cons.mp among with rfl | before
        · exact .opens numbered found begins own
        · exact follows.sound _ pass before
      | shows notice id => exact absurd rfl (whole notice id)
      | closes notice result =>
        have verdict := closes notice result rfl
        have sound := follows.sound notice.execution
        change pass ∈ (Pass.all (told notice.execution)).modifyHead _ at among
        cases passes : Pass.all (told notice.execution) with
        | nil =>
          rw [passes] at among
          contradiction
        | cons first rest =>
          rw [passes] at among verdict sound
          rw [List.modifyHead_cons] at among
          rcases List.mem_cons.mp among with rfl | before
          · exact (sound first List.mem_cons_self).close result notice.happening
              (verdict first rfl)
          · exact sound pass (List.mem_cons_of_mem _ before)
      | ends notice => exact follows.sound _ pass among
    · rw [Telling.added_of_ne same] at among
      exact follows.sound execution pass among
  · exact (follows.opened id run found begun).append _
  · by_cases same : telling.execution = execution
    · subst same
      rw [here]
      exact (follows.placed _).concat fun notice id shows => absurd shows (whole notice id)
    · rw [Telling.added_of_ne same]
      exact follows.placed execution

/-- A step of a task of a pass that has begun tells what the pass goes on with. -/
theorem shows (follows : engine.Follows told) (numbered : engine.Numbered)
    (found : engine.run? id = some run) (opened : Pass.Opened (told run.context.execution) id)
    (task : TaskId) :
    (engine.stepRun id task).1.Follows (Telling.added told (engine.shown id task)) := by
  have earlier : engine.nextRun ≤ (engine.stepRun id task).1.nextRun :=
    (numbered.stepRun id task).nextRun_le
  have elsewhere : ∀ execution, run.context.execution ≠ execution →
      Telling.added told (engine.shown id task) execution = told execution := by
    intro execution different
    rw [Telling.added, filter_shown found, if_neg different, List.append_nil]
  have here : Telling.added told (engine.shown id task) run.context.execution =
      told run.context.execution ++ engine.shown id task := by
    rw [Telling.added, filter_shown found, if_pos rfl]
  refine ⟨fun execution pass among => ?_, fun other later there begun => ?_,
    fun execution => ?_⟩
  · by_cases same : run.context.execution = execution
    · subst same
      rw [here, shown_eq found, Pass.all_append_shows] at among
      obtain ⟨before, member, rfl⟩ := List.mem_map.mp among
      have sound := follows.sound _ before member
      by_cases mine : before.id = id
      · subst mine
        exact sound.shows numbered found task
      · rw [Pass.showAll_of_ne mine]
        refine sound.stays earlier fun _ later there => ?_
        rwa [run?_stepRun, if_neg mine] at there
    · rw [elsewhere execution same] at among
      have sound := follows.sound execution pass among
      refine sound.stays earlier fun sequential later there => ?_
      rw [run?_stepRun] at there
      split at there
      · rename_i mine
        -- the run would belong to this execution
        obtain ⟨_, tells⟩ := sound.underWay sequential run (mine ▸ found)
        exact absurd (tells.execution.trans sound.execution) same
      · exact there
  · rw [run?_stepRun] at there
    split at there
    · rename_i mine
      rw [found, Option.map_some] at there
      cases there
      rw [mine, Run.step_run_execution]
      exact opened.append _
    · exact (follows.opened other later there begun).append _
  · by_cases same : run.context.execution = execution
    · subst same
      rw [here]
      refine (follows.placed _).append_shows opened fun telling among => ?_
      rw [shown_eq found] at among
      obtain ⟨happening, _, rfl⟩ := List.mem_map.mp among
      exact ⟨_, rfl⟩
    · rw [elsewhere execution same]
      exact follows.placed execution

/-- Whatever task takes a step, what it tells is what its pass goes on with. -/
theorem stepRun (follows : engine.Follows told) (numbered : engine.Numbered) (id : Nat)
    (task : TaskId) (opened : task = .driver → ∀ run, engine.run? id = some run →
      Pass.Opened (told run.context.execution) id) :
    (engine.stepRun id task).1.Follows (Telling.added told (engine.shown id task)) := by
  cases found : engine.run? id with
  | none =>
    have nothing : engine.shown id task = [] := by simp only [shown, found]
    have same : (engine.stepRun id task).1 = engine := by simp only [Engine.stepRun, found]
    rw [nothing, Telling.added_nil, same]
    exact follows
  | some run =>
    cases task with
    | driver => exact follows.shows numbered found (opened rfl run found) .driver
    | branch branch =>
      by_cases none_there : run.branches = []
      · -- there is no branch that could take a step
        have still := Run.step_branch_of_nil none_there engine.surroundings branch
        have nothing : engine.shown id (.branch branch) = [] := by simp [shown_eq found, still]
        rw [nothing, Telling.added_nil]
        refine follows.leaves (numbered.stepRun id (.branch branch)).nextRun_le
          fun other later there => .inl ?_
        rw [run?_stepRun] at there
        split at there
        · rename_i mine
          rw [found, Option.map_some, still] at there
          rw [mine, found, there]
        · exact there
      · exact follows.shows numbered found (follows.opened id run found (none_there ·.1)) _

end Follows

end Engine

end DurableFlow
