import DurableFlow.Proofs.Run.Handling
import DurableFlow.Proofs.Run.Lockstep

/-!
# Waiting in a branch

A run that is suspended in a branch goes on behind the node of this branch alone, when it is
resumed. What it does from there on is what the run does that does not wait, if behind the
node comes what comes behind the parallel node: then nothing is lost of what the definition
does without its waits. Otherwise something may be.
-/

namespace DurableFlow

/-- A suspended run has kept its whole context, but for the node that was entered last. -/
theorem Suspended.toContext_nil_of_capture? {now : Instant} {context : Context} {id : String}
    {pause : Pause} {state : Suspended} (h : capture? now context id pause = some state) :
    state.node = id ∧ state.toContext [] = { context with node := some id } := by
  have entered : capture? now { context with node := some id } id pause = some state := h
  obtain ⟨same, kept⟩ := toContext_of_capture? entered rfl []
  rw [Context.merge, Fields.merge_nil] at kept
  exact ⟨same, kept⟩

namespace Run

variable {d : Definition} {catalog : Catalog} {run after : Run} {calls : List Call}

/-- A run that is carried to completion without a failure. Whenever a pass is suspended, the
state that is captured is resumed without new bindings. A pass that is suspended at an await
node has no pause of a procedure to forget. -/
inductive Completes (catalog : Catalog) (d : Definition) : Run → List Call → Run → Prop where
  | last {run : Run} {schedule : List Move} (flawless : run.flawless catalog schedule = true)
      (completed : (run.play catalog schedule).drive = .concluded .completed) :
      Completes catalog d run (run.calls catalog schedule) (run.play catalog schedule)
  | resumed {run : Run} {schedule : List Move} (flawless : run.flawless catalog schedule = true)
      {id : String} {pause : Pause}
      (suspended : (run.play catalog schedule).drive = .concluded (.suspended id pause))
      (sole : d.WaitsAt id → run.raisesPause catalog schedule = false) {now : Instant}
      {state : Suspended}
      (captured : Suspended.capture? now (run.play catalog schedule).context id pause = some state)
      {engine : Engine} (equipped : engine.catalog = catalog) {next : List String}
      (accepted : Stride.checkResume engine d state none = .ok next) {calls : List Call}
      {after : Run}
      (rest : Completes catalog d (.start d (state.toContext []) engine.limit next) calls after) :
      Completes catalog d run (run.calls catalog schedule ++ calls) after

theorem history_play (catalog : Catalog) (run : Run) (schedule : List Move) :
    run.context.history <+: (run.play catalog schedule).context.history :=
  List.reverse_prefix.mpr (trail_play catalog run schedule)

/-- Whatever was executed before stays in the history of all passes to come. -/
theorem Completes.history (completes : Completes catalog d run calls after) :
    run.context.history <+: after.context.history := by
  induction completes with
  | last flawless completed => exact history_play ..
  | @resumed run schedule flawless id pause suspended sole now state captured engine equipped next
      accepted calls after rest ih =>
    obtain ⟨_, kept⟩ := Suspended.toContext_nil_of_capture? captured
    have begins : (state.toContext []).history <+: after.context.history := ih
    rw [kept] at begins
    exact (history_play catalog run schedule).trans begins

/-- A pass may be preceded by moves that nobody has asked to be cancelled. -/
theorem Passes.prepend {schedule : List Move} {deltas : List (Fields Data)}
    (passes : Passes catalog d (run.play catalog schedule) deltas calls after)
    (unasked : .cancel ∉ schedule) :
    Passes catalog d run deltas (run.calls catalog schedule ++ calls) after := by
  have both : ∀ {later : List Move}, .cancel ∉ later → .cancel ∉ schedule ++ later :=
    fun unasked' asked => (List.mem_append.mp asked).elim unasked unasked'
  cases passes with
  | last unasked' ended final =>
    rw [← play_append] at ended ⊢
    rw [← calls_append]
    exact .last (both unasked') ended final
  | resumed unasked' suspended captured equipped accepted rest =>
    rw [← play_append] at suspended captured
    rw [← List.append_assoc, ← calls_append]
    exact .resumed (both unasked') suspended captured equipped accepted rest

/-- A run that starts where the other run is about to go on. -/
theorem Mirrored.start {other : Run} (tended : other.Tended) (raised : Prop)
    (unwaiting : other.definition = d.withoutWaits) (unasked : other.isCancelled = false)
    {context : Context} (same : ∃ last, other.context = { context with node := last })
    {next : List String} (drive : other.drive = .choosing next) (limit : Nat) :
    (Run.start d context limit next).Mirrored d raised other.nextBranch other.nextGroup
      (fun _ => none) other where
  definition := rfl
  unwaiting := unwaiting
  unasked := unasked
  context := same
  drive := drive
  branches := by simp [Run.start, branch?]
  endings group := by
    refine ⟨[], [], rfl, ?_, .nil⟩
    exact tended.endingsOf_eq_nil (Nat.le_add_left ..)
  waits task join group count located := by
    cases task <;> simp [Run.start, Run.phase?, branch?] at located
  nextBranch := (Nat.zero_add _).symm
  nextGroup := (Nat.zero_add _).symm

/-- The passes of a run without its waits, which is resumed without new bindings wherever a
procedure suspends it, and which does nothing but what another run does. -/
def Reflects (catalog : Catalog) (d : Definition) (other : Run) (calls : List Call)
    (after : Run) : Prop :=
  ∃ pauses calls' after', Passes catalog d.withoutWaits other (List.replicate pauses []) calls'
      after' ∧
    after'.drive = .concluded .completed ∧
      after'.context.history <+: after.context.history ∧ calls' <+: calls

theorem Reflects.prepend {other : Run} {schedule : List Move}
    (reflects : Reflects catalog d (other.play catalog schedule) calls after)
    (unasked : .cancel ∉ schedule) :
    Reflects catalog d other (other.calls catalog schedule ++ calls) after := by
  obtain ⟨pauses, calls', after', passes, completed, history, called⟩ := reflects
  refine ⟨pauses, _, after', passes.prepend unasked, completed, history, ?_⟩
  exact (List.prefix_append_right_inj _).mpr called

/-- A run that has nowhere to go on does nothing that another run does not. -/
theorem Reflects.of_nowhere {other : Run} (nowhere : other.drive = .choosing [])
    (history : other.context.history <+: after.context.history) (calls : List Call) :
    Reflects catalog d other calls after := by
  have moved : other.move catalog (.step .driver ⟨⟨0, 0⟩, 0⟩ 0) = other.choose [] := by
    simp only [Run.move, step, stepDriver, nowhere]
  have silent : other.callsOf catalog (.step .driver ⟨⟨0, 0⟩, 0⟩ 0) = [] := by
    simp only [callsOf, step, stepDriver, nowhere, List.filterMap_nil]
  have ended : (other.play catalog [.step .driver ⟨⟨0, 0⟩, 0⟩ 0]).drive =
      .concluded .completed := by
    rw [play_cons, play_nil, moved]
    rfl
  refine ⟨0, _, _, .last (by simp) ended (by simp), ended, ?_, ?_⟩
  · rw [play_cons, play_nil, moved]
    exact history
  · rw [Run.calls, silent]
    exact List.nil_prefix

/-- A state that is accepted under a valid definition is accepted without its waits, and the
run goes on to the same nodes. -/
theorem checkResume_withoutWaits {engine : Engine} (valid : d.Valid engine.catalog.knows)
    {state : Suspended} {next : List String}
    (accepted : Stride.checkResume engine d state none = .ok next) (limit : Nat) :
    Stride.checkResume { engine with limit } d.withoutWaits state none = .ok next := by
  obtain ⟨node, found, rfl⟩ := Stride.exists_node_of_checkResume accepted
  have own : state.workflow = d.withoutWaits.id := (Stride.offers_of_checkResume accepted).2
  have valid' : d.withoutWaits.Valid ({ engine with limit } : Engine).catalog.knows :=
    valid.withoutWaits
  apply Stride.checkResume_eq_ok valid' own
  simp only [Stride.resumePoint, Definition.node?_withoutWaits, found, Option.map_some,
    Node.successors_withoutWait]

/-- Both runs are suspended by the same procedure, and both are resumed. -/
theorem Reflects.resume {other : Run} {id : String} {pause : Pause} {now : Instant}
    {state : Suspended} {engine : Engine} {next : List String} {limit : Nat}
    (suspended : other.drive = .concluded (.suspended id pause))
    (captured : Suspended.capture? now other.context id pause = some state)
    (valid : d.Valid engine.catalog.knows)
    (accepted : Stride.checkResume engine d state none = .ok next)
    (rest : Reflects engine.catalog d (.start d.withoutWaits (state.toContext []) limit next) calls
      after) :
    Reflects engine.catalog d other calls after := by
  obtain ⟨pauses, calls', after', passes, completed, history, called⟩ := rest
  have resumed : Passes engine.catalog d.withoutWaits other (List.replicate (pauses + 1) [])
      (other.calls engine.catalog [] ++ calls') after' :=
    .resumed List.not_mem_nil suspended captured rfl
      (checkResume_withoutWaits valid accepted limit) passes
  exact ⟨pauses + 1, calls', after', resumed, completed, history, called⟩

/-- Where the one run is suspended, the other goes on without a wait or is resumed with it,
given that it reflects what the one does from there on. -/
theorem Mirrored.reflects_of_suspended {raised : Prop} {before groups enough : Nat}
    {expected : Nat → Option (List String)} {other : Run}
    (mirrored : run.Mirrored d raised before groups expected other) (tended : other.Tended)
    (room : other.steps + enough ≤ other.limit) {id : String} {pause : Pause}
    (suspended : run.drive = .concluded (.suspended id pause)) (sole : d.WaitsAt id → ¬ raised)
    {now : Instant} {state : Suspended}
    (captured : Suspended.capture? now run.context id pause = some state) {engine : Engine}
    (valid : d.Valid engine.catalog.knows) {next : List String}
    (accepted : Stride.checkResume engine d state none = .ok next)
    (history : (state.toContext []).history <+: after.context.history)
    (reflects : ∀ other : Run, other.Tended → other.steps + enough ≤ other.limit →
      (∀ raised, ∃ before groups expected,
        (Run.start d (state.toContext []) engine.limit next).Mirrored d raised before groups
          expected other) →
        Reflects engine.catalog d other calls after) :
    Reflects engine.catalog d other calls after := by
  obtain ⟨node, found, rfl⟩ := Stride.exists_node_of_checkResume accepted
  obtain ⟨rfl, kept⟩ := Suspended.toContext_nil_of_capture? captured
  obtain ⟨last, context⟩ := mirrored.context
  have same : ∃ last, other.context = { state.toContext [] with node := last } := by
    rw [kept]
    exact ⟨last, context⟩
  have drive := mirrored.drive
  rw [suspended] at drive
  obtain ⟨step, drive, leads⟩ := drive
  -- The other goes on where the one is resumed, or nowhere, or it is suspended itself.
  cases leads with
  | @passed _ _ node' next found' waits follows fits =>
    cases found.symm.trans found'
    rcases follows with rfl | rfl
    · have behind : other.context.history <+: after.context.history := by
        obtain ⟨last, same⟩ := same
        rw [same]
        exact history
      exact .of_nowhere drive behind calls
    · apply reflects other tended room
      intro raised
      exact ⟨_, _, _, .start tended raised mirrored.unwaiting mirrored.unasked same drive _⟩
  | suspended raises =>
    have captured' : Suspended.capture? now other.context state.node pause = some state := by
      rw [context]
      exact captured
    apply Reflects.resume drive captured' valid accepted
    apply reflects (.start d.withoutWaits (state.toContext []) enough node.successors) (.start ..)
    · exact Nat.le_of_eq (Nat.zero_add _)
    · intro raised
      exact ⟨_, _, _, .start (.start ..) raised rfl rfl ⟨_, rfl⟩ rfl _⟩
  | dropped waits raises => exact absurd raises (sole waits)

/-- Given enough steps, a run without its waits that mirrors a run does nothing but what the run
and the passes after it do. -/
theorem Completes.reflects (completes : Completes catalog d run calls after)
    (valid : d.Valid catalog.knows) (all : d.WaitsForAll) (aligned : d.Aligned)
    (tended : run.Tended) :
    ∃ enough, ∀ other : Run, other.Tended → other.steps + enough ≤ other.limit →
      (∀ raised, ∃ before groups expected,
        run.Mirrored d raised before groups expected other) →
          Reflects catalog d other calls after := by
  -- By induction on the passes. All of them are answered within one pass of the other run, up
  -- to a pause of a procedure, and every one of them adds its moves to the steps that it needs.
  induction completes with
  | @last run schedule flawless completed =>
    refine ⟨schedule.length, fun other tended' room mirrored => ?_⟩
    obtain ⟨before, groups, expected, mirrored⟩ := mirrored True
    obtain ⟨answer, _, ⟨expected', mirrored'⟩, called, unasked⟩ :=
      mirrored.play tended tended' all aligned flawless (fun _ => trivial) room
    have drive := mirrored'.drive
    rw [completed] at drive
    obtain ⟨last, context⟩ := mirrored'.context
    have history : (other.play catalog answer).context.history =
        (run.play catalog schedule).context.history :=
      (congrArg Context.history context).trans rfl
    exact ⟨0, _, _, .last unasked drive (by simp), drive, ⟨[], by rw [history, List.append_nil]⟩,
      ⟨[], by rw [called, List.append_nil]⟩⟩
  | @resumed run schedule flawless id pause suspended sole now state captured engine equipped next
      accepted calls after rest ih =>
    subst equipped
    obtain ⟨enough, ih⟩ := ih (.start ..)
    refine ⟨schedule.length + enough, fun other tended' room mirrored => ?_⟩
    obtain ⟨before, groups, expected, mirrored⟩ :=
      mirrored (run.raisesPause engine.catalog schedule = true)
    obtain ⟨answer, short, ⟨expected', mirrored'⟩, called, unasked⟩ :=
      mirrored.play tended tended' all aligned flawless (fun raises => raises) (by omega)
    obtain ⟨taken, limit⟩ := steps_play engine.catalog other answer
    rw [← called]
    apply Reflects.prepend _ unasked
    apply mirrored'.reflects_of_suspended (tended'.play engine.catalog answer) (by omega)
      suspended _ captured valid accepted rest.history ih
    intro waits raises
    rw [sole waits] at raises
    contradiction

/-- Nothing is lost in a branch that waits, if behind the await nodes and the parallel nodes
among the branches of a parallel node comes what comes behind the parallel node: a run that is
resumed until it completes executes whatever the same passes execute without the waits, and
calls the same procedures with the same input, in the same order. -/
theorem waits_lose_nothing (valid : d.Valid catalog.knows) (all : d.WaitsForAll)
    (aligned : d.Aligned) {input : Data} {execution : String} {now : Instant} {limit : Nat}
    (completes : Completes catalog d
      (.start d (Context.start d.id execution (Context.bindInput d.vars input) now) limit
        [d.start]) calls after) :
    ∃ enough, ∀ limit, enough ≤ limit →
      Reflects catalog d
        (.start d.withoutWaits
          (Context.start d.id execution (Context.bindInput d.vars input) now) limit [d.start])
        calls after := by
  obtain ⟨enough, reflects⟩ := completes.reflects valid all aligned (.start ..)
  refine ⟨enough, fun limit more => ?_⟩
  apply reflects _ (.start ..)
  · show 0 + enough ≤ limit
    rwa [Nat.zero_add]
  · intro raised
    exact ⟨_, _, _, .start (.start ..) raised rfl rfl ⟨_, rfl⟩ rfl _⟩

/-- Two nodes wait side by side, and something is to be done when both have. -/
def gathering (behind : Option Next) : Definition where
  id := "gathering"
  name := "gathering"
  start := "both"
  nodes := [
    { id := "both", kind := .parallel ["hold", "sign"] true, next := some (.one "after") },
    { id := "hold", kind := .await ["go"] none none, next := behind },
    { id := "sign", kind := .await ["signed"] none none, next := some (.one "after") },
    { id := "after", kind := .sequential }]

/-- Behind the first wait comes what comes behind both. -/
def meeting : Definition := gathering (some (.one "after"))

/-- Behind the first wait comes nothing. -/
def parting : Definition := gathering none

/-- A run over `gathering`, with its waits or without. -/
def gather (d : Definition) (limit : Nat) : Run :=
  .start d (Context.start d.id "run" (Context.bindInput d.vars .null) ⟨0, 0⟩) limit [d.start]

/-- All tasks of `gather` in turn, up to where both branches have ended, and some steps of the
driver. -/
def gathered (steps : Nat) : List Move :=
  turns .driver 5 ++ turns (.branch 0) 5 ++ turns (.branch 1) 5 ++ turns .driver steps

/-- What is kept of `gather` where the first node waits. -/
def held : Suspended where
  workflow := "gathering"
  execution := "run"
  node := "hold"
  vars := []
  outputs := []
  history := ["both", "hold", "sign"]
  wait := { names := ["go"] }
  reason := "awaiting go"
  pausedAt := ⟨0, 0⟩
  startedAt := ⟨0, 0⟩

theorem gathering_waitsForAll (behind : Option Next) : (gathering behind).WaitsForAll := by
  intro node member branches waitForAll kind
  simp only [gathering, List.mem_cons, List.not_mem_nil, or_false] at member
  rcases member with rfl | rfl | rfl | rfl <;> cases kind
  rfl

theorem waits_lose_nothing_meeting :
    meeting.Valid (Catalog.knows []) ∧ meeting.WaitsForAll ∧ meeting.Aligned ∧ ∃ calls after,
      Completes [] meeting (gather meeting 10) calls after ∧
        after.context.history = ["both", "hold", "sign", "after"] ∧
          ∃ enough, ∀ limit, enough ≤ limit →
            Reflects [] meeting (gather meeting.withoutWaits limit) calls after := by
  have valid : meeting.Valid (Catalog.knows []) := by decide
  have all : meeting.WaitsForAll := gathering_waitsForAll _
  have aligned : meeting.Aligned := by
    intro node member branches waitForAll kind id listed branch found _ next same
    simp only [meeting, gathering, List.mem_cons, List.not_mem_nil, or_false] at member
    rcases member with rfl | rfl | rfl | rfl <;> cases kind
    cases same
    simp only [List.mem_cons, List.not_mem_nil, or_false] at listed
    rcases listed with rfl | rfl <;> cases found <;> rfl
  let engine : Engine := { catalog := [], limit := 10, epoch := ⟨0, 0⟩ }
  have accepted : Stride.checkResume engine meeting held none = .ok ["after"] := rfl
  have first : (gather meeting 10).flawless [] (gathered 3) = true := rfl
  have suspended : ((gather meeting 10).play [] (gathered 3)).drive =
    .concluded (.suspended "hold" (.awaiting ["go"] none none)) := rfl
  have sole : (gather meeting 10).raisesPause [] (gathered 3) = false := rfl
  have captured : Suspended.capture? ⟨0, 0⟩ ((gather meeting 10).play [] (gathered 3)).context
    "hold" (.awaiting ["go"] none none) = some held := rfl
  let resumed : Run := .start meeting (held.toContext []) engine.limit ["after"]
  have second : resumed.flawless [] (turns .driver 7) = true := rfl
  have completed : (resumed.play [] (turns .driver 7)).drive = .concluded .completed := rfl
  have history : (resumed.play [] (turns .driver 7)).context.history =
    ["both", "hold", "sign", "after"] := rfl
  have completes : Completes [] meeting (gather meeting 10) _ _ :=
    .resumed first suspended (fun _ => sole) captured rfl accepted (.last second completed)
  exact ⟨valid, all, aligned, _, _, completes, history,
    waits_lose_nothing valid all aligned completes⟩

/-- A run that waits in two branches is resumed once and completes, without a second wait and
without the node behind its branches, which comes next without the waits. -/
theorem work_lost_parting :
    parting.Valid (Catalog.knows []) ∧ parting.WaitsForAll ∧
      (∃ after, Completes [] parting (gather parting 10) [] after ∧
        after.drive = .concluded .completed ∧
          after.context.history = ["both", "hold", "sign"]) ∧
      ∃ after, Passes [] parting.withoutWaits (gather parting.withoutWaits 10) [] [] after ∧
        after.drive = .concluded .completed ∧
          after.context.history = ["both", "hold", "sign", "after"] := by
  have valid : parting.Valid (Catalog.knows []) := by decide
  let engine : Engine := { catalog := [], limit := 10, epoch := ⟨0, 0⟩ }
  have accepted : Stride.checkResume engine parting held none = .ok [] := rfl
  have first : (gather parting 10).flawless [] (gathered 3) = true := rfl
  have suspended : ((gather parting 10).play [] (gathered 3)).drive =
    .concluded (.suspended "hold" (.awaiting ["go"] none none)) := rfl
  have sole : (gather parting 10).raisesPause [] (gathered 3) = false := rfl
  have captured : Suspended.capture? ⟨0, 0⟩ ((gather parting 10).play [] (gathered 3)).context
    "hold" (.awaiting ["go"] none none) = some held := rfl
  let resumed : Run := .start parting (held.toContext []) engine.limit []
  have second : resumed.flawless [] (turns .driver 1) = true := rfl
  have completed : (resumed.play [] (turns .driver 1)).drive = .concluded .completed := rfl
  have completes : Completes [] parting (gather parting 10) [] _ :=
    .resumed first suspended (fun _ => sole) captured rfl accepted (.last second completed)
  have unwaiting : ((gather parting.withoutWaits 10).play [] (gathered 10)).drive =
    .concluded .completed := rfl
  have unasked : Move.cancel ∉ gathered 10 := by simp [gathered, turns]
  have passes : Passes [] parting.withoutWaits (gather parting.withoutWaits 10) [] [] _ :=
    .last unasked unwaiting (by simp)
  exact ⟨valid, gathering_waitsForAll _, ⟨_, completes, completed, rfl⟩, _, passes, unwaiting, rfl⟩

end Run

end DurableFlow
