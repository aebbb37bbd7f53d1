import DurableFlow.Proofs.Desk.Paper
import DurableFlow.Proofs.Engine.Book
import Mathlib.Data.List.Chain

/-!
# Careers of records

The record of a run begins as running, goes from one status to another as the run pauses and
goes on, and is final once the run has ended. `Career` says so of all that is written over
one execution, in the order of the writes.

An act that writes a record does not look at the record that is there. `Errand.InOrder` says of an
errand that each of its acts meets a record on which it may be carried out, and that the decision
after them meets the record that it relies on. Whether it holds depends on the records of the runs
that the errand is about, and on no others.
-/

namespace DurableFlow

/-- Whether a record goes over from one status to another. -/
def Status.leadsTo : Status → Status → Bool
  | running, completed | running, failed | running, cancelled | running, paused => true
  | paused, running | paused, failed | paused, cancelled => true
  | _, _ => false

theorem Status.isTerminal_of_leadsTo {old new : Status} (leads : old.leadsTo new = true) :
    old.isTerminal = false := by
  cases old <;> first | rfl | cases new <;> contradiction

/-- The times of the end are told exactly of a run that has ended, and an error exactly of one
that has failed or has been cancelled. -/
structure RunRecord.Sound (record : RunRecord) : Prop where
  finishedAt : record.finishedAt.isSome = record.status.isTerminal
  durationMs : record.durationMs.isSome = record.status.isTerminal
  error : record.error.isSome = true ↔ record.status = .failed ∨ record.status = .cancelled

/-- What settles a record makes a sound one of it. -/
structure RunOutcome.Sound (outcome : RunOutcome) : Prop where
  finishedAt : outcome.finishedAt.isSome = outcome.status.isTerminal
  durationMs : outcome.durationMs.isSome = outcome.status.isTerminal
  error : outcome.error.isSome = true ↔ outcome.status = .failed ∨ outcome.status = .cancelled

/-- One record may be written over another one of the same run: the status goes over, and
nodes are only added to the history. -/
structure RunRecord.Follows (old new : RunRecord) : Prop where
  workflow : new.workflow = old.workflow
  startedAt : new.startedAt = old.startedAt
  status : old.status.leadsTo new.status = true
  history : old.history <+: new.history

/-- What is written of an execution, in the order of the writes. -/
structure Career (execution : String) (entries : List RunRecord) : Prop where
  own : ∀ record ∈ entries, record.execution = execution
  sound : ∀ record ∈ entries, record.Sound
  begins : ∀ record ∈ entries.head?, record.status = .running
  follows : entries.IsChain RunRecord.Follows

namespace Career

variable {execution : String} {entries : List RunRecord}

theorem nil (execution : String) : Career execution [] :=
  ⟨List.forall_mem_nil _, List.forall_mem_nil _, by simp, List.isChain_nil⟩

theorem append (career : Career execution entries) {record : RunRecord}
    (own : record.execution = execution) (sound : record.Sound)
    (begins : entries = [] → record.status = .running)
    (follows : ∀ old, entries.getLast? = some old → old.Follows record) :
    Career execution (entries ++ [record]) where
  own other member := by
    rcases List.mem_append.mp member with before | now
    · exact career.own other before
    · rw [List.mem_singleton.mp now, own]
  sound other member := by
    rcases List.mem_append.mp member with before | now
    · exact career.sound other before
    · rw [List.mem_singleton.mp now]
      exact sound
  begins other first := by
    cases entries with
    | nil =>
      obtain rfl : record = other := by simpa using first
      exact begins rfl
    | cons head rest => exact career.begins other first
  follows := by
    refine career.follows.append (List.isChain_singleton record) fun old last new here => ?_
    obtain rfl : record = new := by simpa using here
    exact follows old last

/-- Nothing is written over the record of a run that has ended. -/
theorem final (career : Career execution entries) {before later : List RunRecord}
    {record : RunRecord} (split : entries = before ++ record :: later)
    (ended : record.status.isTerminal = true) : later = [] := by
  cases later with
  | nil => rfl
  | cons next rest =>
    have follows : record.Follows next :=
      List.isChain_iff_forall_rel_of_append_cons_cons.mp career.follows split
    rw [Status.isTerminal_of_leadsTo follows.status] at ended
    contradiction

end Career

namespace Act

/-- The execution whose record an act writes. -/
def writes? : Act → Option String
  | saveRun record => some record.execution
  | settleRun execution _ => some execution
  | _ => none

/-- The execution whose record an act writes or relies on. -/
def about? : Act → Option String
  | saveRun record => some record.execution
  | settleRun execution _ => some execution
  | arm _ state => some state.execution
  | _ => none

/-- The status that an act writes. -/
def status? : Act → Option Status
  | saveRun record => some record.status
  | settleRun _ outcome => some outcome.status
  | _ => none

/-- What is recorded once the act is carried out. -/
def entered (book : Book) : Act → Book
  | saveRun record => book.enter record
  | settleRun execution outcome => book.settle execution outcome
  | _ => book

/-- The act meets a record on which it may be carried out. -/
def Proper (book : Book) : Act → Prop
  | saveRun record =>
    book record.execution = none ∧ record.status = .running ∧ record.Sound
  | settleRun execution outcome => outcome.Sound ∧
    ∃ old, book execution = some old ∧ old.status.leadsTo outcome.status = true ∧
      old.history <+: outcome.history
  | arm d state => state.workflow = d.id ∧ book.Paused state
  | _ => True

/-- Each act meets a record on which it may be carried out, after the acts before it. -/
def AllProper (book : Book) : List Act → Prop
  | [] => True
  | act :: rest => act.Proper book ∧ AllProper (act.entered book) rest

variable {book other : Book} {act : Act} {execution : String}

theorem entered_of_ne (elsewhere : act.writes? ≠ some execution) :
    act.entered book execution = book execution := by
  cases act with
  | saveRun record =>
    exact Function.update_of_ne (fun same => elsewhere (congrArg some same.symm)) _ _
  | settleRun own outcome =>
    exact Function.update_of_ne (fun same => elsewhere (congrArg some same.symm)) _ _
  | _ => rfl

/-- What an act makes of a record depends on that record only. -/
theorem entered_congr (agree : other execution = book execution) :
    act.entered other execution = act.entered book execution := by
  cases act with
  | saveRun record =>
    simp only [entered, Book.enter, Function.update_apply]
    split
    · rename_i same
      rw [← same, agree]
    · exact agree
  | settleRun own outcome =>
    simp only [entered, Book.settle, Function.update_apply]
    split
    · rename_i same
      rw [← same, agree]
    · exact agree
  | _ => exact agree

theorem foldl_entered_congr (acts : List Act) {book other : Book}
    (agree : other execution = book execution) :
    acts.foldl entered other execution = acts.foldl entered book execution := by
  induction acts generalizing book other with
  | nil => exact agree
  | cons act rest ih => exact ih (entered_congr agree)

/-- A write that is in order extends the career of its record. -/
theorem Proper.career (proper : act.Proper book) (writes : act.writes? = some execution)
    {entries : List RunRecord} (career : Career execution entries)
    (last : book execution = entries.getLast?) :
    ∃ record, act.entered book execution = some record ∧
      Career execution (entries ++ [record]) := by
  cases act with
  | saveRun record =>
    obtain rfl : record.execution = execution := Option.some.inj writes
    obtain ⟨unused, running, sound⟩ := proper
    refine ⟨record, ?_, career.append rfl sound (fun _ => running) fun old there => ?_⟩
    · simp [entered, Book.enter, unused]
    · rw [← last, unused] at there
      contradiction
  | settleRun own outcome =>
    obtain rfl : own = execution := Option.some.inj writes
    obtain ⟨sound, old, known, leads, history⟩ := proper
    refine ⟨old.settle outcome, by simp [entered, Book.settle, known],
      career.append ?_ ⟨sound.finishedAt, sound.durationMs, sound.error⟩ (fun none_yet => ?_)
        fun before there => ?_⟩
    · exact career.own old (List.mem_of_getLast? (last ▸ known))
    · rw [last, none_yet] at known
      contradiction
    · cases (last ▸ known).symm.trans there
      exact ⟨rfl, rfl, leads, history⟩
  | _ => contradiction

end Act

namespace Book

variable {book other : Book}

theorem Paused.congr {state : Suspended} (paused : book.Paused state)
    (agree : other state.execution = book state.execution) : other.Paused state := by
  rw [Paused, agree]
  exact paused

theorem Runs.congr {context : Context} (runs : book.Runs context)
    (agree : other context.execution = book context.execution) : other.Runs context := by
  rw [Runs, agree]
  exact runs

theorem Runs.goesOn {context later : Context} (runs : book.Runs context)
    (goesOn : context.GoesOn later) : book.Runs later := by
  obtain ⟨record, known, running, history⟩ := runs
  exact ⟨record, by rw [goesOn.execution, known], running, history.trans goesOn.history⟩

end Book

namespace Decision

/-- The execution whose record a decision relies on. -/
def about? (engine : Engine) : Decision → Option String
  | resume _ _ state _ _ => some state.execution
  | drive _ run | conclude _ run => engine.owner? run
  | finish _ (.ok result) => result.suspended.map Suspended.execution
  | finish purpose (.error _) => purpose.state?.map Suspended.execution
  | _ => none

/-- The run that a decision is about has the record that the decision relies on, and its pass is one
that makes the run pending when it is suspended. -/
def Placed (engine : Engine) (book : Book) : Decision → Prop
  | start purpose d _ _ => purpose.definition? = some d ∧ purpose.state? = none
  | resume purpose d state _ _ =>
    purpose.definition? = some d ∧ purpose.state? = some state ∧ book.Paused state
  | drive purpose run | conclude purpose run =>
    ∃ d found, purpose.definition? = some d ∧ engine.run? run = some found ∧
      found.context.workflow = d.id ∧ book.Runs found.context
  | finish purpose (.ok result) =>
    ∃ d, purpose.definition? = some d ∧ ∀ state, result.suspended = some state →
      state.workflow = d.id ∧ book.Paused state
  | finish purpose (.error _) => ∀ state, purpose.state? = some state → book.Paused state
  | _ => True

variable {engine after : Engine} {book other : Book} {decision : Decision}

theorem Placed.congr (placed : decision.Placed engine book)
    (agree : ∀ execution, decision.about? engine = some execution →
      other execution = book execution) : decision.Placed engine other := by
  cases decision with
  | resume purpose d state node delta =>
    exact ⟨placed.1, placed.2.1, placed.2.2.congr (agree _ rfl)⟩
  | drive purpose run | conclude purpose run =>
    obtain ⟨d, found, own, there, workflow, runs⟩ := placed
    refine ⟨d, found, own, there, workflow, runs.congr (agree _ ?_)⟩
    simp only [about?, Engine.owner?, there, Option.map_some]
  | finish purpose result =>
    cases result with
    | ok result =>
      obtain ⟨d, own, suspended⟩ := placed
      refine ⟨d, own, fun state is => ⟨(suspended state is).1,
        (suspended state is).2.congr (agree _ ?_)⟩⟩
      simp only [about?, is, Option.map_some]
    | error failure =>
      intro state is
      refine (placed state is).congr (agree _ ?_)
      simp only [about?, is, Option.map_some]
  | _ => exact placed

/-- Wherever the other passes have gone on to, a decision is about the same run. -/
theorem Placed.spared {closed : Option Nat} (placed : decision.Placed engine book)
    (spares : engine.Spares after closed)
    (unclosed : ∀ purpose run, decision = .drive purpose run ∨ decision = .conclude purpose run →
      closed ≠ some run) :
    decision.Placed after book ∧ decision.about? after = decision.about? engine := by
  cases decision with
  | drive purpose run | conclude purpose run =>
    obtain ⟨d, found, own, there, workflow, runs⟩ := placed
    obtain ⟨later, found', goesOn⟩ := spares run found there (unclosed purpose run (by simp))
    refine ⟨⟨d, later, own, found', goesOn.workflow.trans workflow, runs.goesOn goesOn⟩, ?_⟩
    simp only [about?, Engine.owner?, there, found', Option.map_some, goesOn.execution]
  | finish purpose result => cases result <;> exact ⟨placed, rfl⟩
  | _ => exact ⟨placed, rfl⟩

/-- A decision relies on the record of the run in its charge. -/
theorem about?_of_charge? {charge : Charge} (charged : decision.charge? engine = some charge) :
    decision.about? engine = some charge.execution := by
  cases decision with
  | resume purpose d state node delta =>
    cases charged
    rfl
  | drive purpose run | conclude purpose run =>
    obtain ⟨execution, owned, rfl⟩ := Option.map_eq_some_iff.mp charged
    exact owned
  | finish purpose result =>
    cases result with
    | ok result =>
      obtain ⟨state, suspended, rfl⟩ := Option.map_eq_some_iff.mp charged
      simp [about?, suspended]
    | error failure => contradiction
  | _ => contradiction

end Decision

namespace Errand

/-- The executions whose records an errand writes or relies on. -/
def about (engine : Engine) (errand : Errand) : List String :=
  errand.acts.filterMap Act.about? ++ (errand.decision.about? engine).toList

/-- The acts of an errand may be carried out one after another, and then its decision meets the
record that it relies on. If an act leaves a record with a status that is not final, the decision is
about its run. -/
structure InOrder (engine : Engine) (book : Book) (errand : Errand) : Prop where
  acts : Act.AllProper book errand.acts
  decision : errand.decision.Placed engine (errand.acts.foldl Act.entered book)
  stays : ∀ act ∈ errand.acts, ∀ execution, act.writes? = some execution →
    (∃ status, act.status? = some status ∧ status.isTerminal = true) ∨
      errand.decision.about? engine = some execution
  /-- To make a run pending is the last that an errand does about any run. -/
  arms : ∀ d state, .arm d state ∈ errand.acts → errand.about engine = [state.execution]

/-- The execution whose record the next step of an errand writes. -/
def writes? (errand : Errand) : Option String := errand.acts.head?.bind Act.writes?

/-- What is recorded once an errand has taken its next step. -/
def entered (errand : Errand) (book : Book) : Book :=
  match errand.acts with
  | act :: _ => act.entered book
  | [] => book

variable {engine after : Engine} {book other : Book} {errand : Errand}

theorem about_of_writes? {execution : String} (writes : errand.writes? = some execution) :
    execution ∈ errand.about engine := by
  obtain ⟨act, first, own⟩ := Option.bind_eq_some_iff.mp writes
  refine List.mem_append_left _ (List.mem_filterMap.mpr ⟨act, List.mem_of_mem_head? first, ?_⟩)
  cases act <;> first | exact own | contradiction

theorem entered_of_ne {execution : String} (elsewhere : errand.writes? ≠ some execution) :
    errand.entered book execution = book execution := by
  cases acts : errand.acts with
  | nil => simp only [entered, acts]
  | cons act rest =>
    simp only [entered, acts]
    exact Act.entered_of_ne fun writes => elsewhere (by rw [writes?, acts]; exact writes)

/-- An errand relies on the records of the runs in its charge. -/
theorem about_of_charge {charge : Charge} (charged : charge ∈ errand.charges engine) :
    charge.execution ∈ errand.about engine := by
  rcases List.mem_append.mp charged with among | decided
  · obtain ⟨act, there, arms⟩ := List.mem_filterMap.mp among
    refine List.mem_append_left _ (List.mem_filterMap.mpr ⟨act, there, ?_⟩)
    cases act <;> cases arms
    rfl
  · exact List.mem_append_right _
      (Option.mem_toList.mpr (Decision.about?_of_charge? (Option.mem_toList.mp decided)))

theorem allProper_congr {acts : List Act} {book other : Book}
    (proper : Act.AllProper book acts)
    (agree : ∀ execution ∈ acts.filterMap Act.about?, other execution = book execution) :
    Act.AllProper other acts := by
  induction acts generalizing book other with
  | nil => trivial
  | cons act rest ih =>
    have here : ∀ execution, act.about? = some execution → other execution = book execution :=
      fun execution about => agree execution
        (List.mem_filterMap.mpr ⟨act, List.mem_cons_self, about⟩)
    have later : ∀ execution ∈ rest.filterMap Act.about?, other execution = book execution := by
      intro execution member
      exact agree execution (((List.sublist_cons_self act rest).filterMap _).subset member)
    refine ⟨?_, ih proper.2 fun execution member => Act.entered_congr (later execution member)⟩
    have first := proper.1
    cases act with
    | saveRun record => exact ⟨(here _ rfl).trans first.1, first.2⟩
    | settleRun execution outcome =>
      obtain ⟨sound, old, known, fits⟩ := first
      exact ⟨sound, old, (here _ rfl).trans known, fits⟩
    | arm d state => exact ⟨first.1, first.2.congr (here _ rfl)⟩
    | _ => trivial

/-- Whether an errand is in order does not depend on the records of runs that it is not about. -/
theorem InOrder.congr (inOrder : errand.InOrder engine book)
    (agree : ∀ execution ∈ errand.about engine, other execution = book execution) :
    errand.InOrder engine other where
  acts := allProper_congr inOrder.acts fun execution member =>
    agree execution (List.mem_append_left _ member)
  decision := inOrder.decision.congr fun execution about =>
    Act.foldl_entered_congr _ (agree execution
      (List.mem_append_right _ (Option.mem_toList.mpr about)))
  stays := inOrder.stays
  arms := inOrder.arms

/-- Whether an errand is in order does not depend on where the passes of other errands stand. -/
theorem InOrder.spared {closed : Option Nat} (inOrder : errand.InOrder engine book)
    (spares : engine.Spares after closed)
    (unclosed : ∀ purpose run,
      errand.decision = .drive purpose run ∨ errand.decision = .conclude purpose run →
        closed ≠ some run) :
    errand.InOrder after book ∧ errand.about after = errand.about engine := by
  obtain ⟨placed, same⟩ := inOrder.decision.spared spares unclosed
  have about_eq : errand.about after = errand.about engine := by rw [about, about, same]
  exact ⟨⟨inOrder.acts, placed, same ▸ inOrder.stays, about_eq ▸ inOrder.arms⟩, about_eq⟩

/-- An errand that drives a pass is about the run of the pass. -/
theorem InOrder.about_of_pass (inOrder : errand.InOrder engine book) {purpose : Purpose}
    {run : Nat} (drives : errand.decision = .drive purpose run ∨
      errand.decision = .conclude purpose run) :
    ∃ execution, engine.owner? run = some execution ∧ execution ∈ errand.about engine := by
  have placed := inOrder.decision
  have about : errand.decision.about? engine = engine.owner? run := by
    rcases drives with decision | decision <;> rw [decision] <;> rfl
  obtain ⟨found, there⟩ : ∃ found, engine.run? run = some found := by
    rcases drives with decision | decision <;> rw [decision] at placed <;>
      exact ⟨_, placed.choose_spec.choose_spec.2.1⟩
  have owner : engine.owner? run = some found.context.execution := by
    rw [Engine.owner?, there, Option.map_some]
  exact ⟨_, owner, List.mem_append_right _ (Option.mem_toList.mpr (about.trans owner))⟩

end Errand

end DurableFlow
