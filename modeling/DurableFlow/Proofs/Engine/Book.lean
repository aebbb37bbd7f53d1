import DurableFlow.Proofs.Engine.Stored
import DurableFlow.Proofs.Run.History
import DurableFlow.Proofs.Run.Redirect

/-!
# The records of executions

A book says what is recorded of each execution. Two operations on a ledger that serves every
call write into it: one enters a record, the other settles a record that is there. Both are
about one execution and leave what is recorded of all others. The steps of passes write
nothing, and only add to the history of the pass.
-/

namespace DurableFlow

/-- What is recorded of each execution. -/
abbrev Book := String → Option RunRecord

namespace Book

/-- Enter a record, over the one that is there. -/
def enter (book : Book) (record : RunRecord) : Book :=
  Function.update book record.execution
    (some (((book record.execution).map (·.replaceBy record)).getD record))

/-- Settle the record of an execution, if it is there. -/
def settle (book : Book) (execution : String) (outcome : RunOutcome) : Book :=
  Function.update book execution ((book execution).map (·.settle outcome))

/-- The run is recorded as running, with no node that the context has not entered. -/
def Runs (book : Book) (context : Context) : Prop :=
  ∃ record, book context.execution = some record ∧ record.status = .running ∧
    record.history <+: context.history

/-- The run is recorded as paused, with no node that its state does not have. -/
def Paused (book : Book) (state : Suspended) : Prop :=
  ∃ record, book state.execution = some record ∧ record.status = .paused ∧
    record.history <+: state.history

end Book

namespace Ledger

/-- What a ledger has recorded of an execution. -/
def book (ledger : Ledger) : Book := fun execution =>
  ledger.runs.find? fun record => record.execution == execution

theorem find?_upsert (record : RunRecord) (execution : String) (rows : List RunRecord) :
    (upsert (·.execution == record.execution) (·.replaceBy record) record rows).find?
        (·.execution == execution) =
      if execution = record.execution then
        some (((rows.find? (·.execution == execution)).map (·.replaceBy record)).getD record)
      else rows.find? (·.execution == execution) := by
  induction rows with
  | nil =>
    by_cases same : execution = record.execution
    · simp [upsert, same]
    · simp [upsert, same, Ne.symm same]
  | cons row rest ih =>
    by_cases there : row.execution = record.execution
    · by_cases same : execution = record.execution
      · simp [upsert, there, same, RunRecord.replaceBy]
      · simp [upsert, there, same, Ne.symm same, RunRecord.replaceBy]
    · have other : (row.execution == record.execution) = false := by simpa using there
      rw [upsert, if_neg (by simpa using there), List.find?_cons, List.find?_cons, ih]
      by_cases same : execution = record.execution
      · simp only [same, other]
      · simp [same]

theorem find?_settle (execution other : String) (outcome : RunOutcome) (rows : List RunRecord) :
    (rows.map fun row => if row.execution = execution then row.settle outcome else row).find?
        (·.execution == other) =
      if other = execution then (rows.find? (·.execution == other)).map (·.settle outcome)
      else rows.find? (·.execution == other) := by
  induction rows with
  | nil => simp
  | cons row rest ih =>
    have key : (if row.execution = execution then row.settle outcome else row).execution =
        row.execution := by
      split <;> rfl
    rw [List.map_cons, List.find?_cons, key, ih, List.find?_cons]
    cases found : row.execution == other with
    | false => rfl
    | true =>
      obtain rfl : row.execution = other := by simpa using found
      by_cases own : row.execution = execution <;> simp [own]

variable {ledger next : Ledger}

/-- A record that is saved is entered. -/
theorem book_of_saveRun {record : RunRecord} (saved : ledger.saveRun record = .ok next) :
    next.book = ledger.book.enter record := by
  rw [saveRun] at saved
  split at saved
  · cases saved
    funext execution
    simp only [book, Book.enter, find?_upsert, Function.update_apply]
    split
    · rename_i same
      rw [same]
    · rfl
  · contradiction

/-- An outcome is taken over by a record that is there. -/
theorem book_of_settleRun {execution : String} {outcome : RunOutcome}
    (settled : ledger.settleRun execution outcome = .ok next) :
    (∃ record, ledger.book execution = some record) ∧
      next.book = ledger.book.settle execution outcome := by
  rw [settleRun] at settled
  split at settled
  · split at settled
    · rename_i there
      cases settled
      refine ⟨?_, ?_⟩
      · rw [← Option.isSome_iff_exists, book, List.find?_isSome]
        exact List.any_eq_true.mp there
      · funext other
        simp only [book, Book.settle, find?_settle, Function.update_apply]
        split
        · rename_i same
          rw [same]
        · rfl
    · contradiction
  · contradiction

end Ledger

namespace Engine

variable {engine middle after : Engine}

/-- What an engine has recorded. -/
def book (engine : Engine) : Book := fun execution =>
  engine.ledger.bind fun ledger => ledger.book execution

theorem book_of_ledger (same : after.ledger = engine.ledger) : after.book = engine.book := by
  funext execution
  rw [book, book, same]

theorem book_of_known {ledger : Ledger} (known : engine.ledger = some ledger) :
    engine.book = ledger.book := by
  funext execution
  rw [book, known]
  rfl

section Write

theorem saveRun_book (serves : engine.Serves) (record : RunRecord) :
    (engine.write (·.saveRun record)).Serves ∧
      (engine.write (·.saveRun record)).book = engine.book.enter record := by
  obtain ⟨ledger, known, working⟩ := serves
  have done : ledger.serves .saveRun = true := by simp [Ledger.serves, working]
  have saved : ledger.saveRun record = .ok _ := if_pos done
  rw [write, known]
  simp only [saved]
  refine ⟨⟨_, rfl, working⟩, ?_⟩
  rw [book_of_known known]
  exact Ledger.book_of_saveRun saved

/-- An execution that is not there is not settled. -/
theorem book_settleRun_of_serves {ledger : Ledger} (known : engine.ledger = some ledger)
    (done : ledger.serves .settleRun = true) (execution : String) (outcome : RunOutcome) :
    (engine.write (·.settleRun execution outcome)).book =
      engine.book.settle execution outcome := by
  rw [write, known]
  by_cases there : ledger.runs.any (·.execution == execution) = true
  · have settled : ledger.settleRun execution outcome = .ok _ := (if_pos done).trans (if_pos there)
    simp only [settled]
    rw [book_of_known known]
    exact (Ledger.book_of_settleRun settled).2
  · have refused : ledger.settleRun execution outcome = .error _ :=
      (if_pos done).trans (if_neg there)
    simp only [refused]
    have absent : engine.book execution = none := by
      simpa [book, known, Ledger.book] using there
    rw [Book.settle, absent, Option.map_none, Function.update_eq_self_iff.mpr absent.symm]

theorem settleRun_book (serves : engine.Serves) (execution : String) (outcome : RunOutcome) :
    (engine.write (·.settleRun execution outcome)).Serves ∧
      (engine.write (·.settleRun execution outcome)).book =
        engine.book.settle execution outcome := by
  obtain ⟨ledger, known, working⟩ := serves
  have done : ledger.serves .settleRun = true := by simp [Ledger.serves, working]
  refine ⟨?_, book_settleRun_of_serves known done execution outcome⟩
  simp only [write, known, Ledger.settleRun, done, if_true]
  by_cases there : ledger.runs.any (·.execution == execution) = true
  · rw [if_pos there]
    exact ⟨_, rfl, working⟩
  · rw [if_neg there]
    exact ⟨ledger, known, working⟩

theorem book_write_of_runs {change : Ledger → Except Failure Ledger}
    (still : ∀ ledger next, change ledger = .ok next → next.runs = ledger.runs) :
    (engine.write change).book = engine.book := by
  rw [write]
  split
  · rfl
  · rename_i ledger known
    split
    · rename_i next written
      rw [book_of_known known]
      funext execution
      exact congrArg (List.find? _) (still ledger next written)
    · rfl

/-- A write that leaves the records alone. -/
theorem write_book {change : Ledger → Except Failure Ledger} (serves : engine.Serves)
    (still : ∀ ledger next, change ledger = .ok next →
      next.runs = ledger.runs ∧ next.failing = ledger.failing) :
    (engine.write change).Serves ∧ (engine.write change).book = engine.book := by
  refine ⟨?_, book_write_of_runs fun ledger next written => (still ledger next written).1⟩
  obtain ⟨ledger, known, working⟩ := serves
  rw [write, known]
  dsimp only
  split
  · rename_i next written
    exact ⟨next, rfl, (still ledger next written).2.trans working⟩
  · exact ⟨ledger, known, working⟩

end Write

end Engine

/-- A pass has gone on from one context to another: it has only entered more nodes. -/
structure Context.GoesOn (context later : Context) : Prop where
  execution : later.execution = context.execution
  workflow : later.workflow = context.workflow
  history : context.history <+: later.history

namespace Context.GoesOn

variable {context middle later : Context}

theorem refl (context : Context) : context.GoesOn context := ⟨rfl, rfl, List.prefix_refl _⟩

theorem trans (first : context.GoesOn middle) (second : middle.GoesOn later) :
    context.GoesOn later :=
  ⟨second.execution.trans first.execution, second.workflow.trans first.workflow,
    first.history.trans second.history⟩

end Context.GoesOn

theorem Run.step_goesOn (around : Surroundings) (run : Run) (task : TaskId) :
    run.context.GoesOn (run.step around task).run.context := by
  have happens := move_transition around.catalog run (.step task around.moment around.clock)
  exact ⟨step_run_execution around run task, step_run_workflow around run task,
    List.reverse_prefix.mpr happens.trail⟩

namespace Engine

variable {engine middle after : Engine}

/-- The passes of an engine have gone on, except for one that may have been closed. -/
def Spares (engine after : Engine) (closed : Option Nat) : Prop :=
  ∀ id found, engine.run? id = some found → closed ≠ some id →
    ∃ later, after.run? id = some later ∧ found.context.GoesOn later.context

namespace Spares

variable {closed : Option Nat}

theorem of_runs (runs : after.runs = engine.runs) : engine.Spares after closed :=
  fun id found there _ => ⟨found, (run?_congr runs id).trans there, .refl _⟩

theorem trans (first : engine.Spares middle closed) (second : middle.Spares after closed) :
    engine.Spares after closed := by
  intro id found there unclosed
  obtain ⟨between, known, goesOn⟩ := first id found there unclosed
  obtain ⟨later, known', goesOn'⟩ := second id between known unclosed
  exact ⟨later, known', goesOn.trans goesOn'⟩

end Spares

theorem spares_stepRun (engine : Engine) (id : Nat) (task : TaskId) (closed : Option Nat) :
    engine.Spares (engine.stepRun id task).1 closed := by
  intro other before there _
  rw [run?_stepRun]
  split
  · rename_i same
    exact ⟨_, by rw [← same, there, Option.map_some], Run.step_goesOn ..⟩
  · exact ⟨before, there, .refl _⟩

theorem spares_open (engine : Engine) (run : Run) (closed : Option Nat) :
    engine.Spares (engine.adopt run).2 closed := by
  intro id found there _
  exact ⟨found, by rw [run?_adopt_eq, there]; rfl, .refl _⟩

theorem spares_close (numbered : engine.Numbered) (id : Nat) :
    engine.Spares (engine.close id) (some id) := by
  intro other found there unclosed
  have apart : other ≠ id := fun same => unclosed (congrArg some same.symm)
  exact ⟨found, by rw [numbered.run?_close, there]; simp [apart], .refl _⟩

end Engine

end DurableFlow
