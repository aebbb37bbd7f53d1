import DurableFlow.Proofs.Data.Except
import DurableFlow.Proofs.Data.Ordered
import DurableFlow.Proofs.Ledger.Keeping
import DurableFlow.Proofs.Ledger.Rows

/-!
# Listings are chronological

A listing shows the rows of a table in the order of the texts of their instants, which is the order
of the instants. What it shows of a row is what is read back for it. So it shows the rows as they
were saved exactly if none of them nests too deeply to be read and each of their floats is the one
that is read for its text, which not every float is.
-/

namespace DurableFlow

namespace Suspended

/-- The row `read` is what comes back for the suspended run. -/
def ReadAs (state read : Suspended) : Prop :=
  state.toData.depth < Source.Reader.maxDepth ∧ state.echo? = some read

/-- The suspended run comes back as it was. -/
def Lasts (state : Suspended) : Prop :=
  state.toData.depth < Source.Reader.maxDepth ∧ Number.FloatsLast state.numbers

theorem readAs_self_iff {state : Suspended} (held : ∀ n ∈ state.numbers, n.InRange) :
    state.ReadAs state ↔ state.Lasts := by
  rw [ReadAs, Lasts, echo?_eq_self_iff, Number.floatsLast_iff held]

end Suspended

namespace RunRecord

/-- The row `read` is what comes back for the record. -/
def ReadAs (record read : RunRecord) : Prop :=
  (∀ output ∈ record.output, output.depth < Source.Reader.maxDepth) ∧ record.echo? = some read

/-- The record comes back as it was. -/
def Lasts (record : RunRecord) : Prop :=
  ∀ output ∈ record.output,
    output.depth < Source.Reader.maxDepth ∧ Number.FloatsLast output.numbers

theorem readAs_self_iff {record : RunRecord}
    (held : ∀ output ∈ record.output, ∀ n ∈ output.numbers, n.InRange) :
    record.ReadAs record ↔ record.Lasts := by
  rw [ReadAs, Lasts, echo?]
  cases is : record.output with
  | none => simp
  | some output =>
    have same : (∃ v, output.echo? = some v ∧ { record with output := some v } = record) ↔
        output.echo? = some output := by
      constructor
      · rintro ⟨v, found, equal⟩
        have its := congrArg RunRecord.output equal
        rw [is] at its
        rwa [Option.some.inj its] at found
      · exact fun found => ⟨output, found, by rw [← is]⟩
    simp only [Option.mem_def, Option.some.injEq, forall_eq', Option.map_eq_some_iff]
    rw [same, Data.echo?_eq_self_iff, Number.floatsLast_iff (held output is)]

end RunRecord

/-- The types of a request's parts hold objects with their names in order, instants of the
calendar and numbers in their range; what rows are sorted by is an instant of the years 0 to
9999. -/
def Write.Regular (write : Write) : Prop :=
  (∀ output ∈ write.output, output.Sorted ∧ ∀ n ∈ output.numbers, n.InRange) ∧
    match write with
    | saveSuspended state =>
      state.Proper ∧ (∀ t ∈ state.times, t.Dated) ∧ (∀ n ∈ state.numbers, n.InRange) ∧
        state.pausedAt.Current
    | saveRun record => record.startedAt.Current
    | _ => True

namespace Ledger

variable {α : Type} {writes : List Write} {ledger : Ledger}

/-- Rows sorted by the texts of their instants, the earliest first. -/
theorem earliestFirst_chronological (instant : α → Instant) {rows : List α}
    (current : ∀ r ∈ rows, (instant r).Current) :
    (earliestFirst instant rows).Pairwise fun a b => (instant a).atMost (instant b) = true := by
  have perm : (earliestFirst instant rows).Perm rows := Ordered.sort_perm ..
  refine (Ordered.sort_text_inOrder (fun r => (instant r).offsetText) rows).imp_of_mem
    fun {a b} member member' order => ?_
  have later := (current b (perm.mem_iff.mp member')).offsetText_lt_iff
    (current a (perm.mem_iff.mp member))
  rw [Instant.atMost, Bool.not_eq_true', ← Bool.not_eq_true, ← later]
  exact of_decide_eq_false order

/-- Rows sorted by the texts of their instants, the latest first. -/
theorem latestFirst_chronological (instant : α → Instant) {rows : List α}
    (current : ∀ r ∈ rows, (instant r).Current) :
    (latestFirst instant rows).Pairwise fun a b => (instant b).atMost (instant a) = true := by
  have perm : (latestFirst instant rows).Perm rows := Ordered.sort_perm ..
  refine (Ordered.sort_text_inOrder_reverse (fun r => (instant r).offsetText) rows).imp_of_mem
    fun {a b} member member' order => ?_
  have later := (current a (perm.mem_iff.mp member)).offsetText_lt_iff
    (current b (perm.mem_iff.mp member'))
  rw [Instant.atMost, Bool.not_eq_true', ← Bool.not_eq_true, ← later]
  exact of_decide_eq_false order

/-- What listing the suspended runs shows behind requests. -/
structure ListsSuspended (ledger : Ledger) (writes : List Write) : Prop where
  /-- Each run that has been saved and not deleted since has one row, its last state. -/
  holds : Holds Suspended.execution ledger.suspendedRuns (lastState? writes)
  /-- No run comes before one that was suspended earlier. -/
  chronological :
    ledger.suspendedRuns.Pairwise fun a b => a.pausedAt.atMost b.pausedAt = true
  /-- Each row is shown as what comes back for it, and none if one does not come back. -/
  shown : ∀ read, ledger.listSuspended = .ok read ↔
    List.Forall₂ Suspended.ReadAs ledger.suspendedRuns read
  /-- The rows are shown as they were saved if the data of each state lasts. -/
  whole : ledger.listSuspended = .ok ledger.suspendedRuns ↔
    ∀ execution state, lastState? writes execution = some state → state.Lasts

/-- What listing as many of the runs of a workflow or of all shows behind requests, where `rows`
are the records of these runs. -/
structure ListsRuns (ledger : Ledger) (writes : List Write) (workflow : Option String)
    (limit : Int) (rows : List RunRecord) : Prop where
  /-- Each run of the workflow has one row. -/
  holds : Holds RunRecord.execution rows fun execution =>
    (record? writes execution).filter fun r => workflow.all (r.workflow == ·)
  /-- No run comes before one that was started later. -/
  chronological : rows.Pairwise fun a b => b.startedAt.atMost a.startedAt = true
  /-- The first of them are the recent ones. -/
  recent : ledger.recentRuns workflow limit = rows.take limit.toNat
  /-- Each row is shown as what comes back for it, and none if one does not come back. -/
  shown : ∀ read, ledger.listRuns workflow limit = .ok read ↔
    List.Forall₂ RunRecord.ReadAs (rows.take limit.toNat) read
  /-- The rows are shown as they are kept if the output of each lasts. -/
  whole : ledger.listRuns workflow limit = .ok (rows.take limit.toNat) ↔
    ∀ r ∈ rows.take limit.toNat, r.Lasts

theorem Keeps.listsSuspended (keeps : ledger.Keeps writes)
    (regular : ∀ write ∈ writes, write.Regular) : ledger.ListsSuspended writes := by
  have perm : ledger.suspendedRuns.Perm ledger.suspended := Ordered.sort_perm ..
  have rows : Holds Suspended.execution ledger.suspendedRuns (lastState? writes) :=
    keeps.suspended.perm perm
  have saved : ∀ state ∈ ledger.suspendedRuns, (Write.saveSuspended state).Regular :=
    fun state member => regular _ (mem_of_lastState? (rows.mem_iff.mp member))
  have reread : ∀ state ∈ ledger.suspendedRuns, ∀ read,
      state.reread = .ok read ↔ state.ReadAs read := by
    intro state member read
    obtain ⟨-, proper, dated, -, -⟩ := saved state member
    exact Suspended.reread_eq_ok_iff proper dated
  have shown : ∀ read, ledger.listSuspended = .ok read ↔
      List.Forall₂ Suspended.ReadAs ledger.suspendedRuns read := by
    intro read
    rw [listSuspended, if_pos (serves_of_failing keeps.serves _)]
    exact mapM_eq_ok_iff reread
  refine ⟨rows, earliestFirst_chronological _ fun state member => ?_, shown, ?_⟩
  · obtain ⟨-, -, -, -, current⟩ := saved state (perm.mem_iff.mpr member)
    exact current
  · rw [shown, List.forall₂_same]
    constructor
    · intro each execution state found
      have member : state ∈ ledger.suspendedRuns :=
        rows.mem_iff.mpr (by rwa [rows.key_eq found])
      obtain ⟨-, -, -, held, -⟩ := saved state member
      exact (Suspended.readAs_self_iff held).mp (each state member)
    · intro each state member
      obtain ⟨-, -, -, held, -⟩ := saved state member
      exact (Suspended.readAs_self_iff held).mpr (each _ state (rows.mem_iff.mp member))

/-- A record has the start that came with the request that saved it first. -/
theorem startedAt_current (regular : ∀ write ∈ writes, write.Regular) {execution : String}
    {r : RunRecord} (found : record? writes execution = some r) : r.startedAt.Current := by
  have same := record?_eq_first writes execution
  rw [found] at same
  obtain ⟨first, is, times⟩ := Option.map_eq_some_iff.mp same.symm
  rw [← (Prod.mk.inj times).1]
  obtain ⟨write, member, saves⟩ := List.exists_of_findSome?_eq_some is
  obtain ⟨-, current⟩ := regular write member
  cases write with
  | saveRun record =>
    dsimp only [Write.saves?] at saves
    split at saves
    · cases saves
      exact current
    · cases saves
  | _ => cases saves

/-- Without a bound that is negative, the recent runs are the first of all that were asked for. -/
theorem recentRuns_eq (ledger : Ledger) (workflow : Option String) {limit : Int}
    (least : 0 ≤ limit) : ledger.recentRuns workflow limit =
      (latestFirst RunRecord.startedAt
        (ledger.runs.filter fun r => workflow.all (r.workflow == ·))).take limit.toNat := by
  rw [recentRuns, if_neg (by omega)]
  cases workflow <;> rfl

theorem Keeps.exists_listsRuns (keeps : ledger.Keeps writes)
    (regular : ∀ write ∈ writes, write.Regular) (workflow : Option String) {limit : Int}
    (least : 0 ≤ limit) : ∃ rows, ledger.ListsRuns writes workflow limit rows := by
  let asked : RunRecord → Bool := fun r => workflow.all (r.workflow == ·)
  let sorted := latestFirst RunRecord.startedAt (ledger.runs.filter asked)
  have perm : sorted.Perm (ledger.runs.filter asked) := Ordered.sort_perm ..
  have kept : ∀ r ∈ ledger.runs.filter asked, record? writes r.execution = some r :=
    fun r member => keeps.runs.mem_iff.mp (List.mem_of_mem_filter member)
  have recent : ledger.recentRuns workflow limit = sorted.take limit.toNat :=
    recentRuns_eq ledger workflow least
  have outputs : ∀ r ∈ sorted.take limit.toNat, ∀ output ∈ r.output,
      output.Sorted ∧ ∀ n ∈ output.numbers, n.InRange := by
    intro r member output has
    have found := kept r (perm.mem_iff.mp (List.mem_of_mem_take member))
    obtain ⟨write, brought, its⟩ := exists_output found has
    exact (regular write brought).1 output its
  have shown : ∀ read, ledger.listRuns workflow limit = .ok read ↔
      List.Forall₂ RunRecord.ReadAs (sorted.take limit.toNat) read := by
    intro read
    rw [listRuns, if_pos (serves_of_failing keeps.serves _), recent]
    exact mapM_eq_ok_iff fun r member read =>
      RunRecord.reread_eq_ok_iff fun output has => (outputs r member output has).1
  refine ⟨sorted, (keeps.runs.filter asked).perm perm, latestFirst_chronological _
    fun r member => startedAt_current regular (kept r member), recent, shown, ?_⟩
  rw [shown, List.forall₂_same]
  exact forall₂_congr fun r member =>
    RunRecord.readAs_self_iff fun output has => (outputs r member output has).2

/-- Behind any requests, the listing of the suspended runs holds the last state of each run that
has been saved and not deleted since, the earliest first; a listing of runs holds as many as asked
for of those that started last, the latest first, and each with the start and the workflow that it
was first saved with. Both show a row as what is read back for it. -/
theorem listings_chronological (regular : ∀ write ∈ writes, write.Regular) :
    (afterAll writes).ListsSuspended writes ∧
      (∀ (workflow : Option String) (limit : Int), 0 ≤ limit →
        ∃ rows, (afterAll writes).ListsRuns writes workflow limit rows) ∧
      ∀ execution, (record? writes execution).map (fun r => (r.startedAt, r.workflow)) =
        (firstSave? writes execution).map fun r => (r.startedAt, r.workflow) :=
  have keeps := keeps_afterAll writes
  ⟨keeps.listsSuspended regular, fun workflow _ least =>
    keeps.exists_listsRuns regular workflow least, record?_eq_first writes⟩

/-- A run that waits with a float that is not the one that is read for its text. -/
def drifting : Suspended where
  workflow := "w"
  execution := "e"
  node := "n"
  vars := [("x", .num (.float ⟨false, 7513972601201074, -118⟩))]
  outputs := []
  history := ["n"]
  wait := { names := ["go"] }
  pausedAt := ⟨1704067200, 0⟩
  startedAt := ⟨1704067200, 0⟩

/-- What is read back for it. -/
def drifted : Suspended :=
  { drifting with vars := [("x", .num (.float ⟨false, 7513972601201073, -118⟩))] }

/-- A run that is suspended half a second later. -/
def later : Suspended :=
  { drifting with execution := "f", vars := [], pausedAt := ⟨1704067200, 500000000⟩ }

theorem regular_drifting : (Write.saveSuspended drifting).Regular := by
  have current : drifting.pausedAt.Current := ⟨⟨by decide, by decide⟩, by decide, by decide⟩
  refine ⟨nofun, ⟨⟨List.pairwise_singleton .., trivial, trivial⟩, ⟨List.Pairwise.nil, trivial⟩,
    trivial⟩, fun t member => ?_, by decide, current⟩
  rcases List.mem_pair.mp member with rfl | rfl <;> exact current.toDated

theorem regular_later : (Write.saveSuspended later).Regular := by
  have current : later.pausedAt.Current := ⟨⟨by decide, by decide⟩, by decide, by decide⟩
  refine ⟨nofun, ⟨⟨List.Pairwise.nil, trivial⟩, ⟨List.Pairwise.nil, trivial⟩, trivial⟩,
    fun t member => ?_, by decide, current⟩
  rcases List.mem_pair.mp member with rfl | rfl
  · exact current.toDated
  · exact ⟨by decide, by decide⟩

/-- The run that is listed is not the run that was saved. -/
theorem listSuspended_drifting :
    (∀ write ∈ [Write.saveSuspended drifting], write.Regular) ∧
      lastState? [.saveSuspended drifting] "e" = some drifting ∧
      (afterAll [.saveSuspended drifting]).listSuspended = .ok [drifted] ∧
      drifted ≠ drifting := by
  have regular : ∀ write ∈ [Write.saveSuspended drifting], write.Regular :=
    List.forall_mem_singleton.mpr regular_drifting
  have lists := (keeps_afterAll [.saveSuspended drifting]).listsSuspended regular
  have readAs : drifting.ReadAs drifted := ⟨by decide +kernel, by decide +kernel⟩
  exact ⟨regular, rfl, (lists.shown _).mpr (.cons readAs .nil), by decide⟩

/-- Of two runs the one that is suspended earlier is saved once it has been deleted. -/
def severalWrites : List Write :=
  [.saveRun (.started "e" "w" ⟨1704067200, 0⟩),
    .saveSuspended drifting, .saveSuspended later, .deleteSuspended "e",
    .saveSuspended drifting, .saveSuspended later,
    .settleRun "e" { status := .completed, output := some (.obj [("x", .null)]) }]

theorem listings_chronological_several :
    (∀ write ∈ severalWrites, write.Regular) ∧
      (afterAll severalWrites).ListsSuspended severalWrites ∧
      (afterAll severalWrites).suspendedRuns = [drifting, later] ∧
      ∃ rows, (afterAll severalWrites).ListsRuns severalWrites (some "w") 5 rows := by
  have regular : ∀ write ∈ severalWrites, write.Regular := by
    have current := regular_drifting.2.2.2.2
    simp only [severalWrites, List.forall_mem_cons]
    refine ⟨⟨nofun, current⟩, regular_drifting, regular_later, ⟨nofun, trivial⟩,
      regular_drifting, regular_later, ⟨?_, trivial⟩, nofun⟩
    rintro output ⟨⟩
    exact ⟨⟨List.pairwise_singleton .., trivial, trivial⟩, nofun⟩
  obtain ⟨suspended, runs, -⟩ := listings_chronological regular
  exact ⟨regular, suspended, rfl, runs (some "w") 5 (by decide)⟩

end Ledger

end DurableFlow
