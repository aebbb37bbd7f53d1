import DurableFlow.Proofs.Engine.Stored
import Mathlib.Data.List.Induction

/-!
# What the tables of a ledger keep

A table keeps one row for each run: the state that was saved last, or the record that was saved
first with what was learned of the run since. `keeps_afterAll` says so of the ledger behind any
requests, and `record?_eq_first` that a record stays with its workflow and its start.
-/

namespace DurableFlow

/-- A request to change the rows of runs. -/
inductive Write where
  | saveSuspended (state : Suspended)
  | deleteSuspended (execution : String)
  | saveRun (record : RunRecord)
  | settleRun (execution : String) (outcome : RunOutcome)

namespace Write

def apply (ledger : Ledger) : Write → Except Failure Ledger
  | saveSuspended state => ledger.saveSuspended state
  | deleteSuspended execution => ledger.deleteSuspended execution
  | saveRun record => ledger.saveRun record
  | settleRun execution outcome => ledger.settleRun execution outcome

/-- The state that is stored of a run, behind a request. -/
def keep (execution : String) (kept : Option Suspended) : Write → Option Suspended
  | saveSuspended state => if state.execution = execution then some state else kept
  | deleteSuspended other => if other = execution then none else kept
  | _ => kept

/-- The record of a run, behind a request: when a run started and of which workflow it is is
taken from the record that is saved first. -/
def note (execution : String) (noted : Option RunRecord) : Write → Option RunRecord
  | saveRun record =>
    if record.execution = execution then
      some (match noted with
        | none => record
        | some old => { record with workflow := old.workflow, startedAt := old.startedAt })
    else noted
  | settleRun other outcome =>
    if other = execution then noted.map (·.settle outcome) else noted
  | _ => noted

/-- The output that a request brings. -/
def output : Write → Option Data
  | saveRun record => record.output
  | settleRun _ outcome => outcome.output
  | _ => none

/-- The record that a request saves for a run. -/
def saves? (execution : String) : Write → Option RunRecord
  | saveRun record => if record.execution = execution then some record else none
  | _ => none

end Write

namespace Ledger

/-- The ledger once requests have been made of an empty one. A request that fails changes
nothing. -/
def afterAll (writes : List Write) : Ledger :=
  writes.foldl (fun ledger write => (write.apply ledger).toOption.getD ledger) {}

/-- The last state that was saved of a run and not deleted since. -/
def lastState? (writes : List Write) (execution : String) : Option Suspended :=
  writes.foldl (Write.keep execution) none

/-- The record of a run. -/
def record? (writes : List Write) (execution : String) : Option RunRecord :=
  writes.foldl (Write.note execution) none

/-- The record that was first saved of a run. -/
def firstSave? (writes : List Write) (execution : String) : Option RunRecord :=
  writes.findSome? (Write.saves? execution)

/-- The rows of a table, one for every key that has one. -/
def Holds {α : Type} (key : α → String) (rows : List α) (held : String → Option α) : Prop :=
  ∀ k, rows.filter (fun r => key r == k) = (held k).toList

section Tables

variable {α : Type} {key : α → String} {rows : List α} {held : String → Option α}

theorem Holds.mem_iff (holds : Holds key rows held) {r : α} : r ∈ rows ↔ held (key r) = some r := by
  have own := holds (key r)
  constructor
  · intro member
    have here : r ∈ rows.filter fun s => key s == key r :=
      List.mem_filter.mpr ⟨member, beq_self_eq_true _⟩
    rw [own] at here
    exact Option.mem_toList.mp here
  · intro found
    have here : r ∈ (held (key r)).toList := Option.mem_toList.mpr found
    rw [← own] at here
    exact (List.mem_filter.mp here).1

theorem Holds.key_eq (holds : Holds key rows held) {k : String} {r : α} (found : held k = some r) :
    key r = k := by
  have here : r ∈ rows.filter fun s => key s == k := by
    rw [holds k, found]
    exact List.mem_singleton_self r
  exact eq_of_beq (List.mem_filter.mp here).2

/-- Rows that are sorted or otherwise moved are still held. -/
theorem Holds.perm (holds : Holds key rows held) {moved : List α} (perm : moved.Perm rows) :
    Holds key moved held := by
  intro k
  have same := perm.filter fun r => key r == k
  rw [holds k] at same
  cases is : held k with
  | none =>
    rw [is] at same
    exact List.perm_nil.mp same
  | some r =>
    rw [is] at same
    exact List.perm_singleton.mp same

/-- Of the rows some are held. -/
theorem Holds.filter (holds : Holds key rows held) (keep : α → Bool) :
    Holds key (rows.filter keep) fun k => (held k).filter keep := by
  intro k
  rw [List.filter_comm, holds k]
  dsimp only
  cases held k with
  | none => rfl
  | some r => cases kept : keep r <;> simp [kept, Option.filter]

theorem Holds.upsert (holds : Holds key rows held) (row : α) (replace : α → α)
    (same : ∀ r, key r = key row → key (replace r) = key r) :
    Holds key (Ledger.upsert (fun r => key r == key row) replace row rows) fun k =>
      if key row = k then some ((held k).elim row replace) else held k := by
  intro k
  have filtered : (Ledger.upsert (fun r => key r == key row) replace row rows).filter
      (fun r => key r == k) = if key row = k then
        (rows.filter fun r => key r == k).head?.elim row replace ::
          (rows.filter fun r => key r == k).tail
      else rows.filter fun r => key r == k := by
    clear holds
    induction rows with
    | nil => by_cases own : key row = k <;> simp [Ledger.upsert, own]
    | cons r rest ih =>
      by_cases there : key r = key row
      · have kept := same r there
        by_cases own : key row = k
        · simp [Ledger.upsert, there, kept, own]
        · simp [Ledger.upsert, there, kept, own]
      · rw [Ledger.upsert, if_neg (by simpa using there), List.filter_cons, ih, List.filter_cons]
        by_cases own : key row = k
        · have other : ¬ key r = k := fun equal => there (equal.trans own.symm)
          simp [own, other]
        · simp [own]
  rw [filtered, holds k]
  dsimp only
  split
  · cases held k <;> rfl
  · rfl

theorem Holds.map (holds : Holds key rows held) (change : α → α)
    (same : ∀ r, key (change r) = key r) :
    Holds key (rows.map change) fun k => (held k).map change := by
  intro k
  have moved : (rows.map change).filter (fun r => key r == k) =
      (rows.filter fun r => key r == k).map change := by
    rw [List.filter_map]
    congr 1
    exact List.filter_congr fun r _ => by rw [Function.comp_apply, same]
  rw [moved, holds k]
  dsimp only
  cases held k <;> rfl

theorem Holds.delete (holds : Holds key rows held) (deleted : String) :
    Holds key (rows.filter fun r => key r != deleted) fun k =>
      if deleted = k then none else held k := by
  intro k
  rw [filter_delete, holds k]
  dsimp only
  by_cases own : k = deleted
  · rw [if_pos own, if_pos own.symm]
    rfl
  · rw [if_neg own, if_neg (Ne.symm own)]

theorem Holds.congr (holds : Holds key rows held) {held' : String → Option α}
    (same : ∀ k, held k = held' k) : Holds key rows held' := fun k => by rw [holds k, same k]

end Tables

section Writes

variable {writes : List Write}

theorem afterAll_append (writes : List Write) (write : Write) :
    afterAll (writes ++ [write]) =
      (write.apply (afterAll writes)).toOption.getD (afterAll writes) := by
  rw [afterAll, List.foldl_append]
  rfl

theorem lastState?_append (writes : List Write) (write : Write) (execution : String) :
    lastState? (writes ++ [write]) execution =
      write.keep execution (lastState? writes execution) := by
  rw [lastState?, List.foldl_append]
  rfl

theorem record?_append (writes : List Write) (write : Write) (execution : String) :
    record? (writes ++ [write]) execution = write.note execution (record? writes execution) := by
  rw [record?, List.foldl_append]
  rfl

/-- What the rows of a ledger hold, none of whose operations fails. -/
structure Keeps (ledger : Ledger) (writes : List Write) : Prop where
  serves : ledger.failing = []
  suspended : Holds Suspended.execution ledger.suspended (lastState? writes)
  runs : Holds RunRecord.execution ledger.runs (record? writes)

theorem serves_of_failing {ledger : Ledger} (unfailing : ledger.failing = []) (call : LedgerCall) :
    ledger.serves call = true := by
  rw [serves, unfailing]
  rfl

/-- A request does to the rows what it does to what is kept of each run. -/
theorem Keeps.step {ledger : Ledger} (keeps : ledger.Keeps writes) (write : Write) :
    ((write.apply ledger).toOption.getD ledger).Keeps (writes ++ [write]) := by
  have serving := serves_of_failing keeps.serves
  cases write with
  | saveSuspended state =>
    have applied : (Write.saveSuspended state).apply ledger = .ok { ledger with
        suspended := Ledger.upsert (·.execution == state.execution) (fun _ => state) state
          ledger.suspended } := if_pos (serving _)
    rw [applied]
    refine ⟨keeps.serves, ?_,
      keeps.runs.congr fun k => (record?_append writes (.saveSuspended state) k).symm⟩
    refine (keeps.suspended.upsert state (fun _ => state) fun r same => same.symm).congr fun k => ?_
    rw [lastState?_append]
    dsimp only [Write.keep]
    split
    · cases lastState? writes k <;> rfl
    · rfl
  | deleteSuspended execution =>
    have applied : (Write.deleteSuspended execution).apply ledger = .ok { ledger with
        suspended := ledger.suspended.filter (·.execution != execution) } := if_pos (serving _)
    rw [applied]
    exact ⟨keeps.serves,
      (keeps.suspended.delete execution).congr fun k =>
        (lastState?_append writes (.deleteSuspended execution) k).symm,
      keeps.runs.congr fun k => (record?_append writes (.deleteSuspended execution) k).symm⟩
  | saveRun record =>
    have applied : (Write.saveRun record).apply ledger = .ok { ledger with
        runs := Ledger.upsert (·.execution == record.execution) (·.replaceBy record) record
          ledger.runs } := if_pos (serving _)
    rw [applied]
    refine ⟨keeps.serves,
      keeps.suspended.congr fun k => (lastState?_append writes (.saveRun record) k).symm, ?_⟩
    refine (keeps.runs.upsert record (·.replaceBy record) fun r same => same.symm).congr
      fun k => ?_
    rw [record?_append]
    dsimp only [Write.note]
    split
    · cases record? writes k <;> rfl
    · rfl
  | settleRun execution outcome =>
    have states := keeps.suspended.congr fun k =>
      (lastState?_append writes (.settleRun execution outcome) k).symm
    by_cases there : ledger.runs.any (·.execution == execution) = true
    · have applied : (Write.settleRun execution outcome).apply ledger = .ok { ledger with
          runs := ledger.runs.map fun r =>
            if r.execution = execution then r.settle outcome else r } :=
        (if_pos (serving _)).trans (if_pos there)
      rw [applied]
      refine ⟨keeps.serves, states, ?_⟩
      refine (keeps.runs.map _ fun r => by split <;> rfl).congr fun k => ?_
      rw [record?_append]
      dsimp only [Write.note]
      cases found : record? writes k with
      | none => split <;> rfl
      | some r =>
        have own : r.execution = k := keeps.runs.key_eq found
        rw [Option.map_some, own]
        by_cases same : k = execution
        · rw [if_pos same, if_pos same.symm]
          rfl
        · rw [if_neg same, if_neg (Ne.symm same)]
    · have refused : (Write.settleRun execution outcome).apply ledger =
          .error (.notFound (.execution execution)) :=
        (if_pos (serving _)).trans (if_neg there)
      rw [refused]
      refine ⟨keeps.serves, states, keeps.runs.congr fun k => ?_⟩
      rw [record?_append]
      dsimp only [Write.note]
      by_cases same : execution = k
      · subst same
        rw [if_pos rfl]
        cases found : record? writes execution with
        | none => rfl
        | some r =>
          have own : r.execution = execution := keeps.runs.key_eq found
          have member : r ∈ ledger.runs := keeps.runs.mem_iff.mpr (by rw [own, found])
          have found : ledger.runs.any (·.execution == execution) = true :=
            List.any_eq_true.mpr ⟨r, member, beq_iff_eq.mpr own⟩
          exact absurd found there
      · rw [if_neg same]

theorem keeps_afterAll (writes : List Write) : (afterAll writes).Keeps writes := by
  induction writes using List.reverseRecOn with
  | nil => exact ⟨rfl, fun _ => rfl, fun _ => rfl⟩
  | append_singleton writes write ih =>
    rw [afterAll_append]
    exact ih.step write

/-- A state that is stored has been saved. -/
theorem mem_of_lastState? {execution : String} {state : Suspended}
    (found : lastState? writes execution = some state) : .saveSuspended state ∈ writes := by
  induction writes using List.reverseRecOn with
  | nil => cases found
  | append_singleton writes write ih =>
    rw [lastState?_append] at found
    have kept : lastState? writes execution = some state ∨ write = .saveSuspended state := by
      cases write with
      | saveSuspended saved =>
        dsimp only [Write.keep] at found
        split at found
        · exact .inr (congrArg _ (Option.some.inj found))
        · exact .inl found
      | deleteSuspended other =>
        dsimp only [Write.keep] at found
        split at found
        · cases found
        · exact .inl found
      | saveRun record => exact .inl found
      | settleRun other outcome => exact .inl found
    rcases kept with old | rfl
    · exact List.mem_append_left _ (ih old)
    · exact List.mem_append_right _ List.mem_cons_self

/-- When a run started and of which workflow it is, is what was first saved of it. -/
theorem record?_eq_first (writes : List Write) (execution : String) :
    (record? writes execution).map (fun r => (r.startedAt, r.workflow)) =
      (firstSave? writes execution).map fun r => (r.startedAt, r.workflow) := by
  induction writes using List.reverseRecOn with
  | nil => rfl
  | append_singleton writes write ih =>
    rw [record?_append, firstSave?, List.findSome?_append, ← firstSave?]
    cases found : record? writes execution with
    | none =>
      cases first : firstSave? writes execution with
      | some r =>
        rw [found, first] at ih
        cases ih
      | none =>
        cases write with
        | saveRun record =>
          by_cases own : record.execution = execution <;> simp [Write.note, Write.saves?, own]
        | settleRun other outcome =>
          by_cases own : other = execution <;> simp [Write.note, Write.saves?, own]
        | _ => rfl
    | some r =>
      cases first : firstSave? writes execution with
      | none =>
        rw [found, first] at ih
        cases ih
      | some saved =>
        rw [found, first] at ih
        rw [Option.some_or, ← ih]
        cases write with
        | saveRun record =>
          by_cases own : record.execution = execution <;> simp [Write.note, own]
        | settleRun other outcome =>
          by_cases own : other = execution <;> simp [Write.note, own, RunRecord.settle]
        | _ => rfl

/-- The output of a record has come with a request. -/
theorem exists_output {execution : String} {r : RunRecord} {output : Data}
    (found : record? writes execution = some r) (has : output ∈ r.output) :
    ∃ write ∈ writes, output ∈ write.output := by
  induction writes using List.reverseRecOn generalizing r with
  | nil => cases found
  | append_singleton writes write ih =>
    rw [record?_append] at found
    have come : (∃ old, record? writes execution = some old ∧ output ∈ old.output) ∨
        output ∈ write.output := by
      cases write with
      | saveRun record =>
        dsimp only [Write.note] at found
        split at found
        · cases found
          refine .inr ?_
          split at has <;> exact has
        · exact .inl ⟨r, found, has⟩
      | settleRun other outcome =>
        dsimp only [Write.note] at found
        split at found
        · obtain ⟨old, -, rfl⟩ := Option.map_eq_some_iff.mp found
          exact .inr has
        · exact .inl ⟨r, found, has⟩
      | saveSuspended state => exact .inl ⟨r, found, has⟩
      | deleteSuspended other => exact .inl ⟨r, found, has⟩
    rcases come with ⟨old, is, had⟩ | new
    · obtain ⟨write', member, its⟩ := ih is had
      exact ⟨write', List.mem_append_left _ member, its⟩
    · exact ⟨write, List.mem_append_right _ List.mem_cons_self, new⟩

end Writes

end Ledger

end DurableFlow
