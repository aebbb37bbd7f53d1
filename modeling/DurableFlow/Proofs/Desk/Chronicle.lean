import DurableFlow.Proofs.Desk.Telling

/-!
# The language of life cycles

`Lifecycle` is the language: a run is started, pauses and goes on any number of times, and may
come to an end, which is final.

A run is told of chapter by chapter. `Chapter.Turns` says what may be told in a chapter and
which one is next, and a `Chronicle` is told by such turns, with what happens to the nodes told
in between. Whatever a chronicle tells is in the language, and the states that it tells of are
those that have become pending, but for the last one, which may be about to.
-/

namespace DurableFlow

namespace Happening

/-- Whether it happens to a node, and not to the run as a whole. -/
def isOfNode : Happening → Bool
  | nodeStarted _ | nodeCompleted .. | nodeFailed .. => true
  | _ => false

/-- The state that a run is paused with. -/
def paused? : Happening → Option Suspended
  | paused _ state => some state
  | _ => none

/-- The run ends without its pass having completed. -/
inductive Fails : Happening → Prop where
  | failed (error : String) : Fails (.failed error)
  | cancelled : Fails .cancelled

theorem Fails.isOfRun {happening : Happening} (fails : happening.Fails) :
    happening.isOfNode = false ∧ happening.paused? = none := by
  cases fails <;> exact ⟨rfl, rfl⟩

end Happening

/-- The state with which a run becomes pending. -/
def Passage.entered? : Passage → Option Suspended
  | .entered state _ => some state
  | _ => none

/-- Pauses that a run goes on from. -/
inductive Pauses : List Happening → Prop where
  | nil : Pauses []
  | pause (state : Suspended) {later : List Happening} (rest : Pauses later) :
      Pauses (.paused state.node state :: .resumed state.node :: later)

/-- What a run has come to behind the pauses that it has gone on from. -/
inductive Outcome : List Happening → Prop where
  | none_yet : Outcome []
  | completed : Outcome [.completed]
  | fails {happening : Happening} (fails : happening.Fails) : Outcome [happening]
  | paused (state : Suspended) : Outcome [.paused state.node state]
  | dropped (state : Suspended) {happening : Happening} (fails : happening.Fails) :
      Outcome [.paused state.node state, happening]

/-- What may happen to a run as a whole. -/
inductive Lifecycle : List Happening → Prop where
  | nil : Lifecycle []
  | started {pauses outcome : List Happening} (goesOn : Pauses pauses) (ends : Outcome outcome) :
      Lifecycle (.started :: pauses ++ outcome)

namespace Pauses

variable {pauses : List Happening}

theorem concat (goesOn : Pauses pauses) (state : Suspended) :
    Pauses (pauses ++ [.paused state.node state, .resumed state.node]) := by
  induction goesOn with
  | nil => exact .pause state .nil
  | pause other rest ih => exact .pause other ih

end Pauses

/-- Where a run stands, going by the notices of it that have been published. -/
inductive Chapter where
  | untold
  /-- The pass with this id is under way. -/
  | underWay (id : Nat)
  /-- The run has been told to be paused, and has not become pending yet. -/
  | paused (state : Suspended)
  /-- The run has become pending, and nothing has been told since. -/
  | waiting (state : Suspended)
  | closed
deriving DecidableEq

namespace Chapter

/-- The notices of a run as a whole that may follow in a chapter, and the chapter that each of them
leads to. -/
inductive Turns : Chapter → Telling → Chapter → Prop where
  | starts {notice : Notice} {id : Nat} {run : Run} (is : notice.happening = .started) :
      Turns untold (.opens notice id run) (underWay id)
  | goesOn {notice : Notice} {id : Nat} {run : Run} {state : Suspended}
      (is : notice.happening = .resumed state.node) :
      Turns (waiting state) (.opens notice id run) (underWay id)
  | pauses {notice : Notice} {id : Nat} {result : RunResult} {state : Suspended}
      (is : notice.happening = .paused state.node state)
      (own : state.execution = notice.execution) (keeps : result.suspended = some state) :
      Turns (underWay id) (.closes notice result) (paused state)
  | completes {notice : Notice} {id : Nat} {result : RunResult}
      (is : notice.happening = .completed) : Turns (underWay id) (.closes notice result) closed
  | fails {notice : Notice} {id : Nat} {result : RunResult} (fails : notice.happening.Fails) :
      Turns (underWay id) (.closes notice result) closed
  | ends {notice : Notice} {state : Suspended} (fails : notice.happening.Fails) :
      Turns (waiting state) (.ends notice) closed

/-- What has happened to a run as a whole leads to a chapter. -/
def Reads (happened : List Happening) : Chapter → Prop
  | untold => happened = []
  | underWay _ => ∃ pauses, Pauses pauses ∧ happened = .started :: pauses
  | paused state | waiting state =>
    ∃ pauses, Pauses pauses ∧ happened = .started :: pauses ++ [.paused state.node state]
  | closed => Lifecycle happened

/-- The state that has been told of and is still to become pending. -/
def owed : Chapter → List Suspended
  | paused state => [state]
  | _ => []

variable {chapter next : Chapter} {telling : Telling} {happened : List Happening}

/-- A turn goes on with what leads to the next chapter. -/
theorem Turns.reads (turns : chapter.Turns telling next) (reads : chapter.Reads happened) :
    next.Reads (happened ++ [telling.happening]) := by
  cases turns with
  | starts is =>
    obtain rfl : happened = [] := reads
    exact ⟨[], .nil, by simp [Telling.happening, Telling.notice, is]⟩
  | @goesOn notice id run state is =>
    obtain ⟨pauses, goesOn, rfl⟩ := reads
    exact ⟨_, goesOn.concat state, by simp [Telling.happening, Telling.notice, is]⟩
  | pauses is own keeps =>
    obtain ⟨pauses, goesOn, rfl⟩ := reads
    exact ⟨pauses, goesOn, by simp [Telling.happening, Telling.notice, is]⟩
  | completes is =>
    obtain ⟨pauses, goesOn, rfl⟩ := reads
    show Lifecycle (_ ++ [_])
    rw [show Telling.happening (.closes _ _) = .completed from is]
    exact .started goesOn .completed
  | fails fails =>
    obtain ⟨pauses, goesOn, rfl⟩ := reads
    exact .started goesOn (.fails fails)
  | @ends notice state fails =>
    obtain ⟨pauses, goesOn, rfl⟩ := reads
    show Lifecycle (_ ++ [_])
    rw [List.append_assoc]
    exact .started goesOn (.dropped state fails)

/-- A turn is about the run as a whole. -/
theorem Turns.isOfNode (turns : chapter.Turns telling next) :
    telling.happening.isOfNode = false := by
  cases turns with
  | fails fails | ends fails => exact fails.isOfRun.1
  | starts is | goesOn is | pauses is | completes is =>
    simp [Telling.happening, Telling.notice, is, Happening.isOfNode]

/-- The state that a notice tells of is to become pending next, and none was to before. -/
theorem Turns.owed (turns : chapter.Turns telling next) :
    chapter.owed = [] ∧ telling.happening.paused?.toList = next.owed := by
  refine ⟨by cases turns <;> rfl, ?_⟩
  cases turns with
  | fails fails | ends fails =>
    simp [Telling.happening, Telling.notice, fails.isOfRun.2, Chapter.owed]
  | starts is | goesOn is | pauses is | completes is =>
    simp [Telling.happening, Telling.notice, is, Happening.paused?, Chapter.owed]

/-- A run is told to be paused when its pass has come to a result with this state. -/
theorem Turns.of_paused {state : Suspended} (turns : chapter.Turns telling (.paused state)) :
    ∃ notice result, telling = .closes notice result ∧ state.execution = notice.execution ∧
      result.suspended = some state := by
  cases turns with
  | pauses is own keeps => exact ⟨_, _, rfl, own, keeps⟩

/-- What is told with the opening of a pass does not depend on how the pass stands. -/
theorem Turns.opens {notice : Notice} {id : Nat} {run : Run}
    (turns : chapter.Turns (.opens notice id run) next) (other : Run) :
    chapter.Turns (.opens notice id other) next := by
  cases turns with
  | starts is => exact .starts is
  | goesOn is => exact .goesOn is

end Chapter

/-- The notices of a run, the states with which it has become pending, and the chapter that they
lead to. -/
inductive Chronicle : List Telling → List Suspended → Chapter → Prop where
  | nil : Chronicle [] [] .untold
  | turn {told : List Telling} {entered : List Suspended} {chapter next : Chapter}
      {telling : Telling} (before : Chronicle told entered chapter)
      (turns : chapter.Turns telling next) : Chronicle (told ++ [telling]) entered next
  | shows {told : List Telling} {entered : List Suspended} {chapter : Chapter} {notice : Notice}
      (id : Nat) (before : Chronicle told entered chapter)
      (node : notice.happening.isOfNode = true) :
      Chronicle (told ++ [.shows notice id]) entered chapter
  | arms {told : List Telling} {entered : List Suspended} {state : Suspended}
      (before : Chronicle told entered (.paused state)) :
      Chronicle told (entered ++ [state]) (.waiting state)

namespace Chronicle

variable {told : List Telling} {entered : List Suspended} {chapter : Chapter}

/-- What has happened to the run as a whole. -/
def ofRun (told : List Telling) : List Happening :=
  (told.map Telling.happening).filter (!·.isOfNode)

theorem reads (chronicle : Chronicle told entered chapter) : chapter.Reads (ofRun told) := by
  induction chronicle with
  | nil => exact rfl
  | turn before turns ih =>
    have adds : ∀ told telling, telling.happening.isOfNode = false →
        ofRun (told ++ [telling]) = ofRun told ++ [telling.happening] := by
      intro told telling whole
      simp [ofRun, whole]
    rw [adds _ _ turns.isOfNode]
    exact turns.reads ih
  | @shows told entered chapter notice id before node ih =>
    have same : ofRun (told ++ [.shows notice id]) = ofRun told := by
      simp [ofRun, Telling.happening, Telling.notice, node]
    rwa [same]
  | arms before ih => exact ih

/-- The pass that is under way is the one that has been opened last, and is open still. -/
theorem head (chronicle : Chronicle told entered chapter) {id : Nat}
    (underWay : chapter = .underWay id) :
    ∃ pass rest, Pass.all told = pass :: rest ∧ pass.id = id ∧ pass.closing = none := by
  induction chronicle with
  | nil => contradiction
  | turn before turns ih =>
    subst underWay
    rw [Pass.all_concat]
    cases turns <;> exact ⟨_, _, rfl, rfl, rfl⟩
  | shows id before node ih =>
    obtain ⟨pass, rest, all, same, unclosed⟩ := ih underWay
    rw [Pass.all_concat, all]
    exact ⟨_, _, rfl, by simpa using same, by simpa using unclosed⟩
  | arms before ih => contradiction

/-- A pass begins only when all others have come to a result, and nothing else is told of a run
but while its latest pass is under way. -/
theorem closed (chronicle : Chronicle told entered chapter) :
    (∀ pass ∈ (Pass.all told).tail, pass.closing.isSome) ∧
      ((∀ id, chapter ≠ .underWay id) → ∀ pass ∈ Pass.all told, pass.closing.isSome) := by
  induction chronicle with
  | nil => exact ⟨fun _ none_there => by contradiction, fun _ _ none_there => by contradiction⟩
  | @turn told entered chapter next telling before turns ih =>
    rw [Pass.all_concat]
    cases turns with
    | starts | goesOn => exact ⟨ih.2 fun _ => Chapter.noConfusion, fun idle => absurd rfl (idle _)⟩
    | ends => exact ⟨ih.1, fun _ => ih.2 fun _ => Chapter.noConfusion⟩
    | pauses | completes | fails =>
      rw [Pass.tell]
      cases passes : Pass.all told with
      | nil => exact ⟨fun _ none_there => by contradiction, fun _ _ none_there => by contradiction⟩
      | cons first rest =>
        rw [passes] at ih
        refine ⟨ih.1, fun _ pass among => ?_⟩
        rcases List.mem_cons.mp among with rfl | later
        · rfl
        · exact ih.1 pass later
  | shows id before node ih =>
    rw [Pass.all_concat, Pass.tell, ← List.map_tail]
    refine ⟨fun pass among => ?_, fun idle pass among => ?_⟩
    · obtain ⟨old, there, rfl⟩ := List.mem_map.mp among
      simpa using ih.1 old there
    · obtain ⟨old, there, rfl⟩ := List.mem_map.mp among
      simpa using ih.2 idle old there
  | arms before ih => exact ⟨ih.1, fun _ => ih.2 fun _ => Chapter.noConfusion⟩

end Chronicle

end DurableFlow
