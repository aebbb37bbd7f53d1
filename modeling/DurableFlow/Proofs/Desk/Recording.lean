import DurableFlow.Proofs.Desk.Career
import DurableFlow.Proofs.Desk.Filing
import DurableFlow.Proofs.Desk.Schedule

/-!
# What the steps of errands do about records

`step_records` goes through all acts and decisions once and says what a step makes of the records of
runs. An errand that is in order stays in order. It stays about a run (`Errand.about`) until the run
is pending or its record is final, unless the errand breaks down; and it is about a run from then on
that it takes out of the pending ones, unless the run is dropped.
-/

namespace DurableFlow

/-- The errand has broken down: a date has left the calendar. -/
def Decision.isBroken : Decision → Bool
  | .answer (.failed .dateRange) => true
  | _ => false

/-- A run that leaves its pause in this way is dropped: no errand lets it go on, and its end is not
recorded. -/
def Exit.Drops (policy : TimeoutPolicy) (state : Suspended) : Exit → Prop
  | .stop => True
  | .expiry _ => policy = .drop ∨ policy = .transition ∧ state.deadlineNode = none
  | _ => False

namespace Stride

/-- What a step makes of the records of runs, and which runs the errand is about then. -/
structure Records (engine : Engine) (office : Office) (errand : Errand) (deed : Deed)
    (stride : Stride) : Prop where
  serves : stride.engine.Serves
  book : stride.engine.book = errand.entered engine.book
  /-- Only the errand's own pass may be closed. -/
  spares : engine.Spares stride.engine errand.run?
  inOrder : stride.errand.InOrder stride.engine stride.engine.book
  /-- A run that the errand is about then is one that it was about before, was pending, or is new.
  -/
  about : ∀ execution ∈ stride.errand.about stride.engine, execution ∈ errand.about engine ∨
    (office.desk.pending? execution).isSome ∧ stride.office.desk.pending? execution = none ∨
      execution = Id.fresh engine.moments ∧ engine.moments < stride.engine.moments
  /-- The record of a run that becomes pending has the status `paused`, and the errand is about no
  run any more. -/
  pauses : ∀ state, deed = .pause state → engine.book.Paused state ∧
    state.execution ∈ errand.about engine ∧ errand.writes? = none ∧
      stride.errand.about stride.engine = []
  knowing : stride.office.desk.Knowing
  policy : stride.office.desk.policy = office.desk.policy
  /-- A run that the errand is about no more is pending or has a final record. -/
  covers : stride.errand.decision.isBroken = false → ∀ execution ∈ errand.about engine,
    execution ∈ stride.errand.about stride.engine ∨
      (stride.office.desk.pending? execution).isSome ∨
        ∃ record, stride.engine.book execution = some record ∧ record.status.isTerminal = true
  /-- What ceases to be pending is in the hands of the errand or dropped. -/
  releases : ∀ execution state alarm,
    office.desk.pending? execution = some ⟨state, alarm⟩ →
      stride.office.desk.pending? execution = none →
        execution ∈ stride.errand.about stride.engine ∨
          deed.exit.Drops office.desk.policy state

/-- What holds before a step: the records of pending runs have the status `paused`, a run that is
yet to begin has no record, and the errand is in order. -/
structure Recorded (engine : Engine) (office : Office) (errand : Errand) : Prop where
  serves : engine.Serves
  unused : engine.book (Id.fresh engine.moments) = none
  pending : ∀ execution state alarm, office.desk.pending? execution = some ⟨state, alarm⟩ →
    engine.book.Paused state
  knowing : office.desk.Knowing
  inOrder : errand.InOrder engine engine.book

variable {engine : Engine} {office : Office} {errand : Errand}

section Acts

variable {act : Act} {rest : List Act}

/-- An act writes into the book what it says, and leaves the passes alone. -/
theorem act_book (serves : engine.Serves) (office : Office) (errand : Errand) (act : Act) :
    let stride := Stride.act engine office errand act
    stride.errand = errand ∧ stride.engine.Serves ∧
      stride.engine.book = act.entered engine.book ∧ stride.engine.runs = engine.runs := by
  have kept : ∀ change : Ledger → Except Failure Ledger,
      (engine.write change).runs = engine.runs := by
    intro change
    rw [Engine.write]
    repeat' split
    all_goals rfl
  have aside : ∀ change : Ledger → Except Failure Ledger,
      (∀ ledger next, change ledger = .ok next →
        next.runs = ledger.runs ∧ next.failing = ledger.failing) →
      (engine.write change).Serves ∧ (engine.write change).book = engine.book ∧
        (engine.write change).runs = engine.runs := by
    intro change still
    obtain ⟨serving, same⟩ := Engine.write_book serves still
    exact ⟨serving, same, kept change⟩
  cases act with
  | saveRun record =>
    obtain ⟨serving, written⟩ := Engine.saveRun_book serves record
    exact ⟨rfl, serving, written, kept _⟩
  | settleRun execution outcome =>
    obtain ⟨serving, written⟩ := Engine.settleRun_book serves execution outcome
    exact ⟨rfl, serving, written, kept _⟩
  | saveSuspended state =>
    refine ⟨rfl, aside (·.saveSuspended state) fun ledger next done => ?_⟩
    rw [Ledger.saveSuspended] at done
    split at done <;> cases done
    exact ⟨rfl, rfl⟩
  | deleteSuspended execution =>
    refine ⟨rfl, aside (·.deleteSuspended execution) fun ledger next done => ?_⟩
    rw [Ledger.deleteSuspended] at done
    split at done <;> cases done
    exact ⟨rfl, rfl⟩
  | saveSubscription subscription =>
    refine ⟨rfl, aside (·.saveSubscription subscription) fun ledger next done => ?_⟩
    rw [Ledger.saveSubscription] at done
    split at done <;> cases done
    exact ⟨rfl, rfl⟩
  | deleteSubscription workflow =>
    refine ⟨rfl, aside (·.deleteSubscription workflow) fun ledger next done => ?_⟩
    rw [Ledger.deleteSubscription] at done
    split at done <;> cases done
    exact ⟨rfl, rfl⟩
  | arm d state =>
    have sameRuns : (armed engine { office with desk := office.desk.learnNew d } state).1.runs =
        engine.runs := by
      rw [armed]
      split <;> rfl
    have ledger := (armed_keeps engine { office with desk := office.desk.learnNew d } state).2
    exact ⟨rfl, serves.of_ledger ledger, Engine.book_of_ledger ledger, sameRuns⟩
  | publish | count | register | unregister => exact ⟨rfl, serves, rfl, rfl⟩

/-- What an act does about the known workflows, and about who is pending. -/
theorem act_desk (engine : Engine) (office : Office) (errand : Errand) (act : Act) :
    let stride := Stride.act engine office errand act
    stride.office.desk.policy = office.desk.policy ∧
      ((∀ d state, act ≠ .arm d state) → stride.office.desk = office.desk) ∧
      ∀ d state, act = .arm d state →
        (stride.office.desk = (office.desk.learnNew d).hold state (office.nextAlarm? state)) := by
  cases act with
  | arm d state =>
    have desk : (Stride.act engine office errand (.arm d state)).office.desk =
        (office.desk.learnNew d).hold state (office.nextAlarm? state) := by
      show (armed engine { office with desk := office.desk.learnNew d } state).2.1.desk = _
      rw [armed_office, Office.arm_desk]
      rfl
    refine ⟨?_, fun other => absurd rfl (other d state), ?_⟩
    · rw [desk, Desk.hold, Desk.learnNew]
      split <;> rfl
    · rintro _ _ ⟨⟩
      exact desk
  | _ => exact ⟨rfl, fun _ => rfl, by simp⟩

theorem deed_eq_pause {state : Suspended} (pauses : errand.deed = .pause state) :
    ∃ d rest, errand.acts = .arm d state :: rest := by
  rw [Errand.deed] at pauses
  split at pauses <;> cases pauses
  exact ⟨_, _, by assumption⟩

/-- What an errand is about, its next act apart. -/
theorem about_cons (acts : errand.acts = act :: rest) (engine : Engine) :
    errand.about engine =
      act.about?.toList ++ ({ errand with acts := rest } : Errand).about engine := by
  rw [Errand.about, acts, List.filterMap_cons, Errand.about]
  cases act.about? <;> rfl

/-- An act of an errand that is in order leaves it in order. -/
theorem act_records (given : Recorded engine office errand) (acts : errand.acts = act :: rest) :
    Records engine office errand errand.deed
      (Stride.act engine office { errand with acts := rest } act) := by
  obtain ⟨same, serves, book, runs⟩ :=
    act_book given.serves office { errand with acts := rest } act
  obtain ⟨policy, still, arms⟩ := act_desk engine office { errand with acts := rest } act
  have inOrder := given.inOrder
  have proper : act.Proper engine.book ∧ Act.AllProper (act.entered engine.book) rest := by
    have all := inOrder.acts
    rw [acts] at all
    exact all
  generalize Stride.act engine office { errand with acts := rest } act = stride at *
  obtain ⟨after, office', errand', signal, requests⟩ := stride
  obtain rfl : errand' = { errand with acts := rest } := same
  have spares : ∀ closed, engine.Spares after closed := fun closed => .of_runs runs
  have parts := about_cons acts engine
  have left : ({ errand with acts := rest } : Errand).InOrder engine (act.entered engine.book) := by
    refine ⟨proper.2, ?_, fun other among =>
      inOrder.stays other (acts ▸ List.mem_cons_of_mem act among), fun d state among => ?_⟩
    · have decision := inOrder.decision
      rw [acts] at decision
      exact decision
    · have only := inOrder.arms d state (acts ▸ List.mem_cons_of_mem act among)
      have still : state.execution ∈ ({ errand with acts := rest } : Errand).about engine :=
        List.mem_append_left _ (List.mem_filterMap.mpr ⟨_, among, rfl⟩)
      rw [parts] at only
      cases about : act.about? with
      | none =>
        rw [about] at only
        exact only
      | some execution =>
        rw [about, Option.toList_some, List.singleton_append, List.cons.injEq] at only
        rw [only.2] at still
        contradiction
  obtain ⟨inOrder', sameAbout⟩ := left.spared (spares none) fun _ run _ =>
    (Option.some_ne_none run).symm
  refine ⟨serves, ?_, spares _, ?_, fun execution member => .inl ?_, fun state pauses => ?_,
    ?_, policy, fun _ execution member => ?_, fun execution state alarm found gone => ?_⟩
  · rw [book, Errand.entered, acts]
  · rw [book]
    exact inOrder'
  · rw [sameAbout] at member
    rw [parts]
    exact List.mem_append_right _ member
  · obtain ⟨d, more, arming⟩ := deed_eq_pause pauses
    cases acts.symm.trans arming
    have only := inOrder.arms d state (acts ▸ List.mem_cons_self)
    refine ⟨proper.1.2, only ▸ List.mem_singleton_self _, ?_, ?_⟩
    · rw [Errand.writes?, acts]
      rfl
    · rw [parts, Act.about?, Option.toList_some, List.singleton_append, List.cons.injEq] at only
      exact sameAbout.trans only.2
  · show office'.desk.Knowing
    by_cases arming : ∃ d state, act = .arm d state
    · obtain ⟨d, state, rfl⟩ := arming
      rw [arms d state rfl]
      exact (given.knowing.learnNew d).hold _ (proper.1.1 ▸ office.desk.isSome_learnNew d)
    · rw [still fun d state is => arming ⟨d, state, is⟩]
      exact given.knowing
  · rw [parts] at member
    show execution ∈ ({ errand with acts := rest } : Errand).about after ∨ _
    rw [sameAbout]
    rcases List.mem_append.mp member with here | later
    · have about := Option.mem_toList.mp here
      cases act with
      | arm d state =>
        obtain rfl : state.execution = execution := Option.some.inj about
        right; left
        show (office'.desk.pending? state.execution).isSome = true
        rw [arms d state rfl, Desk.pending?_hold, if_pos rfl]
        rfl
      | saveRun record =>
        rcases inOrder.stays (.saveRun record) (acts ▸ List.mem_cons_self) execution about with
          ⟨status, is, ended⟩ | stays
        · obtain rfl : record.status = status := Option.some.inj is
          rw [proper.1.2.1] at ended
          contradiction
        · exact .inl (List.mem_append_right _ (Option.mem_toList.mpr stays))
      | settleRun own outcome =>
        rcases inOrder.stays (.settleRun own outcome) (acts ▸ List.mem_cons_self) execution about
          with ⟨status, is, ended⟩ | stays
        · obtain rfl : outcome.status = status := Option.some.inj is
          obtain rfl : own = execution := Option.some.inj about
          obtain ⟨_, old, known, _⟩ := proper.1
          refine .inr (.inr ⟨old.settle outcome, ?_, ended⟩)
          show after.book own = _
          rw [book]
          simp [Act.entered, Book.settle, known]
        · exact .inl (List.mem_append_right _ (Option.mem_toList.mpr stays))
      | _ => contradiction
    · exact .inl later
  · exfalso
    change office'.desk.pending? execution = none at gone
    by_cases arming : ∃ d state, act = .arm d state
    · obtain ⟨d, held, rfl⟩ := arming
      have there :
          (office.desk.learnNew d).pending? execution = office.desk.pending? execution := by
        rw [Desk.learnNew]
        split <;> rfl
      rw [arms d held rfl, Desk.pending?_hold, there, found] at gone
      split at gone <;> contradiction
    · rw [still fun d state is => arming ⟨d, state, is⟩, found] at gone
      contradiction

end Acts

section Decisions

variable {book : Book} {stride : Stride}

/-- Acts that are about no record. -/
theorem allProper_of_plain {acts : List Act} (plain : ∀ act ∈ acts, act.about? = none)
    (book : Book) : Act.AllProper book acts ∧ acts.foldl Act.entered book = book := by
  induction acts with
  | nil => exact ⟨trivial, rfl⟩
  | cons act rest ih =>
    have here := plain act List.mem_cons_self
    have later := ih fun other among => plain other (List.mem_cons_of_mem act among)
    have same : act.entered book = book := by cases act <;> first | rfl | contradiction
    refine ⟨⟨?_, by rw [same]; exact later.1⟩, by rw [List.foldl_cons, same]; exact later.2⟩
    cases act <;> trivial

theorem about_of_plain (plain : ∀ act ∈ errand.acts, act.about? = none) (engine : Engine) :
    errand.about engine = (errand.decision.about? engine).toList := by
  rw [Errand.about, List.filterMap_eq_nil_iff.mpr plain, List.nil_append]

theorem inOrder_of_plain (plain : ∀ act ∈ errand.acts, act.about? = none)
    (placed : errand.decision.Placed engine book) : errand.InOrder engine book := by
  obtain ⟨proper, same⟩ := allProper_of_plain plain book
  refine ⟨proper, same.symm ▸ placed, fun act among execution writes => ?_,
    fun d state among => ?_⟩
  · have nothing := plain act among
    cases act <;> contradiction
  · cases plain _ among

theorem Recorded.placed (given : Recorded engine office errand) (acts : errand.acts = []) :
    errand.decision.Placed engine engine.book := by
  have decision := given.inOrder.decision
  rw [acts] at decision
  exact decision

theorem about_of_rest (acts : errand.acts = []) (engine : Engine) :
    errand.about engine = (errand.decision.about? engine).toList :=
  about_of_plain (by simp [acts]) engine

/-- A decision that leaves the ledger and the pending runs alone. -/
theorem records_still (given : Recorded engine office errand) (acts : errand.acts = [])
    (ledger : stride.engine.ledger = engine.ledger)
    (spares : engine.Spares stride.engine errand.run?)
    (pending : stride.office.desk.pending = office.desk.pending)
    (knowing : stride.office.desk.Knowing)
    (policy : stride.office.desk.policy = office.desk.policy)
    (inOrder : stride.errand.InOrder stride.engine engine.book)
    (about : ∀ execution ∈ stride.errand.about stride.engine, execution ∈ errand.about engine ∨
      execution = Id.fresh engine.moments ∧ engine.moments < stride.engine.moments)
    (covers : stride.errand.decision.isBroken = false → ∀ execution ∈ errand.about engine,
      execution ∈ stride.errand.about stride.engine) :
    Records engine office errand errand.deed stride := by
  have same := Engine.book_of_ledger ledger
  refine ⟨given.serves.of_ledger ledger, ?_, spares, same ▸ inOrder,
    fun execution member => (about execution member).imp_right .inr, fun state pauses => ?_,
    knowing, policy, fun fine execution member => .inl (covers fine execution member),
    fun execution state alarm found gone => ?_⟩
  · rw [same, Errand.entered, acts]
  · obtain ⟨d, rest, arms⟩ := deed_eq_pause pauses
    rw [acts] at arms
    contradiction
  · rw [Desk.pending?, pending] at gone
    cases found.symm.trans gone

/-- A decision of an errand that is about no run, before and after. -/
theorem records_idle (given : Recorded engine office errand) (acts : errand.acts = [])
    (ledger : stride.engine.ledger = engine.ledger) (runs : stride.engine.runs = engine.runs)
    (pending : stride.office.desk.pending = office.desk.pending)
    (knowing : stride.office.desk.Knowing)
    (policy : stride.office.desk.policy = office.desk.policy)
    (plain : ∀ act ∈ stride.errand.acts, act.about? = none)
    (placed : stride.errand.decision.Placed stride.engine engine.book)
    (after : stride.errand.decision.about? stride.engine = none)
    (before : errand.decision.about? engine = none) :
    Records engine office errand errand.deed stride := by
  refine records_still given acts ledger (.of_runs runs) pending knowing policy
    (inOrder_of_plain plain placed) (fun execution member => ?_) fun _ execution member => ?_
  · rw [about_of_plain plain, after] at member
    contradiction
  · rw [about_of_rest acts, before] at member
    contradiction

/-- Nothing changes but whose turn it is. -/
theorem records_stay (given : Recorded engine office errand) (acts : errand.acts = [])
    (signal : Signal) (requests : List Request) :
    Records engine office errand errand.deed ⟨engine, office, errand, signal, requests⟩ :=
  records_still given acts rfl (.of_runs rfl) rfl given.knowing rfl given.inOrder
    (fun _ member => .inl member) fun _ _ member => member

section Passes

variable {purpose : Purpose}

/-- The times of the end and the error fit the status. -/
theorem outcome_sound (context : Context) (now : Instant) {status : Status}
    (output : Option Data) {error : Option String}
    (reason : error.isSome = true ↔ status = .failed ∨ status = .cancelled) :
    (context.outcome now status output error).Sound := by
  refine ⟨?_, ?_, reason⟩ <;> simp only [Context.outcome] <;> split <;> simp_all

/-- An errand that takes up a pass is in order when what it writes first has the run recorded
as running. -/
theorem enter_inOrder (numbered : engine.Numbered) (office : Office) (errand : Errand)
    (run : Run) (acts : List Act) (proper : Act.AllProper book acts)
    (runs : (acts.foldl Act.entered book).Runs run.context) {d : Definition}
    (own : purpose.definition? = some d) (workflow : run.context.workflow = d.id)
    (writes : ∀ act ∈ acts, ∀ execution, act.writes? = some execution →
      execution = run.context.execution) (plain : ∀ act ∈ acts, act.isKeeping = false) :
    let stride := enter engine office errand purpose run acts
    stride.errand.InOrder stride.engine book ∧
      stride.errand.decision.about? stride.engine = some run.context.execution := by
  have taken := Engine.run?_adopt numbered { run with isCancelled := errand.isCancelled }
  have owned := numbered.owner?_adopt { run with isCancelled := errand.isCancelled }
  refine ⟨⟨proper, ⟨d, _, own, taken, workflow, runs⟩, fun act among execution wrote =>
    .inr (writes act among execution wrote ▸ owned), fun d state among => ?_⟩, owned⟩
  cases plain _ among

/-- A run begins, and is recorded. -/
theorem starts_records (numbered : engine.Numbered) (given : Recorded engine office errand)
    (acts : errand.acts = []) (before : errand.decision.about? engine = none) {d : Definition}
    (own : purpose.definition? = some d) {context : Context} {input : Data}
    (begins : context = .start d.id engine.moment.freshId (Context.bindInput d.vars input)
      engine.moment.now) :
    Records engine office errand errand.deed
      (enter engine.tick office errand purpose (.start d context engine.limit [d.start])
        [.publish ⟨d.id, context.execution, .started⟩,
          .saveRun (.started context.execution d.id context.startedAt)]) := by
  subst begins
  let context := Context.start d.id engine.moment.freshId (Context.bindInput d.vars input)
    engine.moment.now
  let record := RunRecord.started engine.moment.freshId d.id engine.moment.now
  have unused : engine.book engine.moment.freshId = none := given.unused
  have runs : (engine.book.enter record).Runs context := by
    refine ⟨record, ?_, rfl, List.nil_prefix⟩
    show Function.update engine.book engine.moment.freshId _ engine.moment.freshId = some record
    rw [Function.update_self]
    show some (((engine.book engine.moment.freshId).map (·.replaceBy record)).getD record) = _
    rw [unused]
    rfl
  have sound : record.Sound := ⟨rfl, rfl, by simp [record, RunRecord.started]⟩
  have proper : Act.AllProper engine.book
      [.publish ⟨d.id, engine.moment.freshId, .started⟩, .saveRun record] :=
    ⟨trivial, ⟨unused, rfl, sound⟩, trivial⟩
  obtain ⟨inOrder, about⟩ := enter_inOrder numbered.tick.numbered office errand
    (.start d context engine.limit [d.start]) _ proper runs own rfl (by
      simp [Act.writes?, record, RunRecord.started, context, Run.start, Context.start])
    (by simp [Act.isKeeping])
  refine records_still given acts rfl ?_ rfl given.knowing rfl inOrder
    (fun execution member => .inr ⟨?_, Nat.lt_succ_self _⟩) fun _ execution member => ?_
  · exact (Engine.Spares.of_runs rfl).trans (engine.tick.spares_open _ _)
  · rcases List.mem_append.mp member with among | decided
    · have new : execution ∈ [engine.moment.freshId] := among
      exact List.mem_singleton.mp new
    · cases about.symm.trans (Option.mem_toList.mp decided)
      rfl
  · rw [about_of_rest acts, before] at member
    contradiction

/-- A paused run goes on, and is recorded as running. -/
theorem resumes_records (numbered : engine.Numbered) (given : Recorded engine office errand)
    (acts : errand.acts = []) {d : Definition} {state : Suspended} {node : Option String}
    {delta : Fields Data} {next : List String}
    (before : errand.decision.about? engine = some state.execution)
    (own : purpose.definition? = some d) (paused : engine.book.Paused state)
    (accepted : checkResume engine d state node = .ok next) :
    Records engine office errand errand.deed
      (enter engine office errand purpose (.start d (state.toContext delta) engine.limit next)
        [.publish ⟨state.workflow, state.execution, .resumed state.node⟩,
          .settleRun state.execution
            ((state.toContext delta).outcome engine.moment.now .running none none)]) := by
  let context := state.toContext delta
  let outcome := context.outcome engine.moment.now .running none none
  have history : outcome.history = state.history := Suspended.history_toContext state delta
  have sound : outcome.Sound := outcome_sound context engine.moment.now none (by simp)
  obtain ⟨old, known, is, shorter⟩ := paused
  have leads : old.status.leadsTo outcome.status = true := by rw [is]; rfl
  have runs : (engine.book.settle state.execution outcome).Runs context := by
    refine ⟨old.settle outcome, ?_, rfl, List.prefix_refl _⟩
    show Function.update engine.book state.execution _ state.execution = _
    rw [Function.update_self, known]
    rfl
  have proper : Act.AllProper engine.book
      [.publish ⟨state.workflow, state.execution, .resumed state.node⟩,
        .settleRun state.execution outcome] :=
    ⟨trivial, ⟨sound, old, known, leads, history ▸ shorter⟩, trivial⟩
  obtain ⟨inOrder, about⟩ := enter_inOrder numbered office errand
    (.start d context engine.limit next) _ proper runs own (workflow_of_checkResume accepted) (by
      simp [Act.writes?, context, Run.start, Suspended.toContext]) (by simp [Act.isKeeping])
  have only : errand.about engine = [state.execution] := by rw [about_of_rest acts, before]; rfl
  refine records_still given acts rfl (engine.spares_open _ _) rfl given.knowing rfl inOrder
    (fun execution member => .inl ?_) fun _ execution member => ?_
  · rw [only]
    rcases List.mem_append.mp member with among | decided
    · simpa [enter, Errand.go, Act.about?, eq_comm] using among
    · cases about.symm.trans (Option.mem_toList.mp decided)
      exact List.mem_singleton_self _
  · rw [only] at member
    rw [List.mem_singleton.mp member]
    exact List.mem_append_right _ (Option.mem_toList.mpr about)

/-- What is written when a pass has ended goes on from the record of a running run. A run that
has not ended is suspended. -/
theorem result_sound {now : Instant} {context : Context} {conclusion : Conclusion}
    {result : RunResult} {happening : Happening} (output : Option Data)
    (told : conclusion.result now context = .ok (result, happening)) :
    (context.outcome now result.status output result.error).Sound ∧
      Status.running.leadsTo result.status = true ∧
      (result.status.isTerminal = true ∨ ∃ state, result.suspended = some state) ∧
      ∀ state, result.suspended = some state → result.status = .paused := by
  unfold Conclusion.result at told
  split at told
  · cases told
    exact ⟨outcome_sound _ _ _ (by simp [Context.result]), rfl, .inl rfl, nofun⟩
  · split at told
    · contradiction
    · cases told
      exact ⟨outcome_sound _ _ _ (by simp [Context.result]), rfl, .inr ⟨_, rfl⟩, fun _ _ => rfl⟩
  · cases told
    exact ⟨outcome_sound _ _ _ (by simp [Context.result]), rfl, .inl rfl, nofun⟩
  · contradiction
  · cases told
    exact ⟨outcome_sound _ _ _ (by simp [Context.result]), rfl, .inl rfl, nofun⟩

/-- A pass comes to its result, with which its run is settled. -/
theorem concludes_records (numbered : engine.Numbered) (given : Recorded engine office errand)
    (acts : errand.acts = []) {id : Nat} (decision : errand.decision = .conclude purpose id)
    {run : Run} {conclusion : Conclusion} {result : RunResult} {happening : Happening}
    (found : engine.run? id = some run)
    (told : conclusion.result engine.moment.now run.context = .ok (result, happening)) :
    Records engine office errand errand.deed
      ⟨engine.tick.close id, office,
        errand.go (concluding run.context engine.moment.now result happening)
          (.finish purpose (.ok result)),
        .proceed, []⟩ := by
  have placed := given.placed acts
  rw [decision] at placed
  obtain ⟨d, run, own, there, workflow, old, known, running, shorter⟩ := placed
  cases found.symm.trans there
  have before : errand.about engine = [run.context.execution] := by
    rw [about_of_rest acts, decision]
    simp [Decision.about?, Engine.owner?, found]
  have closes : engine.Spares (engine.tick.close id) errand.run? := by
    have mine : errand.run? = some id := by rw [Errand.run?, decision]
    rw [mine]
    exact (Engine.Spares.of_runs rfl).trans (Engine.spares_close numbered.tick.numbered id)
  let outcome := run.context.outcome engine.moment.now result.status
    (some (.obj result.outputs)) result.error
  obtain ⟨⟨mine, _, _⟩, kept⟩ := Conclusion.kept_of_result told
  obtain ⟨sound, leads, ends, pauses⟩ := result_sound (some (.obj result.outputs)) told
  have written : engine.book.settle result.execution outcome run.context.execution =
      some (old.settle outcome) := by
    show Function.update engine.book result.execution _ run.context.execution = _
    rw [mine, Function.update_self, known]
    rfl
  have inOrder : ({ errand with
      acts := [.publish ⟨result.workflow, result.execution, happening⟩,
        .count (.run result.status), .settleRun result.execution outcome]
      decision := .finish purpose (.ok result) } : Errand).InOrder
        (engine.tick.close id) engine.book := by
    refine ⟨⟨trivial, trivial, ⟨sound, old, mine ▸ known, running ▸ leads, shorter⟩, trivial⟩,
      ⟨d, own, fun state suspended => ⟨?_, old.settle outcome, ?_, pauses state suspended, ?_⟩⟩,
      fun act among execution writes => ?_, by simp⟩
    · rw [(captured_of_result told suspended).1, workflow]
    · rw [(kept state suspended).1]
      exact written
    · rw [(kept state suspended).2.1]
      exact List.prefix_refl _
    · have is : act = .settleRun result.execution outcome := by
        simp only [List.mem_cons, List.not_mem_nil, or_false] at among
        rcases among with rfl | rfl | rfl <;> first | rfl | contradiction
      subst is
      rcases ends with ended | ⟨state, suspended⟩
      · exact .inl ⟨_, rfl, ended⟩
      · right
        obtain rfl : result.execution = execution := Option.some.inj writes
        show result.suspended.map Suspended.execution = _
        rw [suspended, Option.map_some, (kept state suspended).1, mine]
  refine records_still given acts rfl closes rfl given.knowing rfl inOrder
    (fun execution member => .inl ?_) fun _ execution member => ?_
  · rw [before, List.mem_singleton, ← mine]
    rcases List.mem_append.mp member with among | decided
    · simpa [concluding, Act.about?, Errand.go, eq_comm, mine] using among
    · have there := Option.mem_toList.mp decided
      obtain ⟨state, suspended, rfl⟩ := Option.map_eq_some_iff.mp there
      exact (kept state suspended).1.trans mine.symm
  · rw [before, List.mem_singleton] at member
    refine List.mem_append_left _ ?_
    simp [Errand.go, concluding, Act.about?, member, mine]

/-- A run that is recorded as paused may be settled with an end. -/
theorem endOutcome_proper (now : Instant) {state : Suspended} {status : Status} (error : String)
    (ends : status = .failed ∨ status = .cancelled) (paused : book.Paused state) :
    (Act.settleRun state.execution (endOutcome now state status error)).Proper book := by
  obtain ⟨old, known, is, shorter⟩ := paused
  rcases ends with rfl | rfl <;>
    exact ⟨⟨rfl, rfl, by simp [endOutcome]⟩, old, known, by rw [is]; rfl, shorter⟩

/-- The errand records the end of a run that does not go on. -/
theorem fail_inOrder (now : Instant) (errand : Errand) {state : Suspended} (error : String)
    (answer : Answer) (paused : book.Paused state) (engine : Engine) :
    (errand.go (fail now state error) (.answer answer)).InOrder engine book ∧
      (errand.go (fail now state error) (.answer answer)).about engine = [state.execution] := by
  refine ⟨⟨⟨endOutcome_proper now error (.inl rfl) paused, trivial, trivial, trivial⟩, trivial,
    fun act among execution writes => .inl ⟨.failed, ?_, rfl⟩, by simp [Errand.go, fail]⟩, rfl⟩
  simp only [Errand.go, fail, List.mem_cons, List.not_mem_nil, or_false] at among
  rcases among with rfl | rfl | rfl <;> first | rfl | contradiction

/-- The errand goes on to have its run pending if it is suspended. -/
theorem keep_inOrder (errand : Errand) {d : Definition} {result : RunResult} (answer : Answer)
    (suspended : ∀ state, result.suspended = some state →
      state.workflow = d.id ∧ book.Paused state) (engine : Engine) :
    (errand.go (keep d result) (.answer answer)).InOrder engine book ∧
      (errand.go (keep d result) (.answer answer)).about engine =
        (result.suspended.map Suspended.execution).toList := by
  cases is : result.suspended with
  | none =>
    have nothing : keep d result = [] := by simp only [keep, is]
    rw [nothing]
    exact ⟨inOrder_of_plain (List.forall_mem_nil _) trivial, rfl⟩
  | some state =>
    have saves : keep d result = [.saveSuspended state, .arm d state] := by simp only [keep, is]
    rw [saves]
    refine ⟨⟨⟨trivial, suspended state is, trivial⟩, trivial, fun act among execution writes => ?_,
      fun other held among => ?_⟩, rfl⟩ <;>
      simp only [Errand.go, List.mem_cons, List.not_mem_nil, or_false] at among
    · rcases among with rfl | rfl <;> contradiction
    · rcases among with other | same
      · contradiction
      · cases same
        rfl

end Passes

section Releases

theorem policy_release (office : Office) (execution : String) :
    (office.release execution).desk.policy = office.desk.policy := by
  rw [Office.release]
  split <;> rfl

/-- A run is taken out of the pending ones and comes into the hands of the errand, or it is
dropped. -/
theorem records_release (given : Recorded engine office errand) (acts : errand.acts = [])
    (before : errand.decision.about? engine = none) {exit : Exit} {state : Suspended}
    {alarm : Option Nat} (found : office.desk.pending? state.execution = some ⟨state, alarm⟩)
    {errand' : Errand} (inOrder : errand'.InOrder
      (showPending engine (office.release state.execution)) engine.book)
    (about : errand'.about (showPending engine (office.release state.execution)) =
        [state.execution] ∨
      errand'.about (showPending engine (office.release state.execution)) = [] ∧
        exit.Drops office.desk.policy state) :
    Records engine office errand (.release exit)
      ⟨showPending engine (office.release state.execution), office.release state.execution,
        errand', .proceed, []⟩ := by
  have nothing : errand.about engine = [] := by rw [about_of_rest acts, before]; rfl
  refine ⟨given.serves.of_ledger rfl, by rw [Errand.entered, acts]; rfl, .of_runs rfl, inOrder,
    fun execution member => .inr (.inl ?_), (fun state goes => by cases goes),
    Office.knowing_release given.knowing _, policy_release office _,
    fun _ execution member => ?_, fun execution held set there gone => ?_⟩
  · rcases about with only | ⟨none_left, _⟩
    · rw [only, List.mem_singleton] at member
      rw [member]
      exact ⟨by rw [found]; rfl, by rw [Office.pending?_release, if_pos rfl]⟩
    · rw [none_left] at member
      contradiction
  · rw [nothing] at member
    contradiction
  · change (office.release state.execution).desk.pending? execution = none at gone
    rw [Office.pending?_release] at gone
    split at gone
    · rename_i same
      subst same
      cases found.symm.trans there
      rcases about with only | ⟨_, drops⟩
      · exact .inl (only ▸ List.mem_singleton_self _)
      · exact .inr drops
    · cases there.symm.trans gone

/-- The pending runs of a workflow are dropped together. -/
theorem records_detach (orderly : office.Orderly) (given : Recorded engine office errand)
    (acts : errand.acts = []) (before : errand.decision.about? engine = none) (workflow : String)
    {errand' : Errand} (plain : ∀ act ∈ errand'.acts, act.about? = none)
    (placed : errand'.decision.Placed (showPending engine (office.detach workflow)) engine.book)
    (after : errand'.decision.about? (showPending engine (office.detach workflow)) = none) :
    Records engine office errand (.release .stop)
      ⟨showPending engine (office.detach workflow), office.detach workflow, errand', .proceed,
        []⟩ := by
  have policy : (office.detach workflow).desk.policy = office.desk.policy := by
    simp only [Office.detach, (Office.foldl_silence _ office).1, Desk.detach]
  refine ⟨given.serves.of_ledger rfl, by rw [Errand.entered, acts]; rfl, .of_runs rfl,
    inOrder_of_plain plain placed, fun execution member => ?_, (fun state goes => by cases goes),
    Office.knowing_detach orderly given.knowing workflow, policy,
    fun _ execution member => ?_, fun _ _ _ _ _ => .inr trivial⟩
  · rw [about_of_plain plain, after] at member
    contradiction
  · rw [about_of_rest acts, before] at member
    contradiction

/-- The wait of a run is over. -/
theorem expire_records (orderly : office.Orderly) (given : Recorded engine office errand)
    (acts : errand.acts = []) {execution : String}
    (decision : errand.decision = .expire execution) {state : Suspended} {alarm : Option Nat}
    (found : office.desk.pending? execution = some ⟨state, alarm⟩) (id : Nat) :
    Records engine office errand (.release (.expiry id))
      (expire engine office errand execution) := by
  have before : errand.decision.about? engine = none := by rw [decision]; rfl
  obtain rfl : state.execution = execution := orderly.keyed _ _ found
  have paused := given.pending _ state alarm found
  have decides := expire_decides engine office errand state.execution
  generalize expire engine office errand state.execution = stride at decides ⊢
  cases decides with
  | expiryMissed gone => cases gone.symm.trans found
  | timesOut there =>
    cases found.symm.trans there
    refine records_release given acts before found ⟨⟨trivial, trivial,
      endOutcome_proper _ _ (.inl rfl) paused, trivial, trivial, trivial⟩, trivial,
      fun act among other writes => .inl ⟨.failed, ?_, rfl⟩, by simp [Errand.go, fail]⟩ (.inl rfl)
    simp only [Errand.go, fail, List.cons_append, List.nil_append, List.mem_cons,
      List.not_mem_nil, or_false] at among
    rcases among with rfl | rfl | rfl | rfl | rfl <;> first | rfl | contradiction
  | transitions there =>
    cases found.symm.trans there
    exact records_release given acts before found
      (inOrder_of_plain (by simp [Errand.go, Act.about?]) ⟨rfl, rfl, paused⟩) (.inl rfl)
  | lapses there policy =>
    cases found.symm.trans there
    refine records_release given acts before found
      (inOrder_of_plain (by simp [Errand.go, Act.about?]) trivial) (.inr ⟨rfl, ?_⟩)
    rw [policy_release, Desk.definition?, Office.definitions_release] at policy
    refine policy.imp_right fun unnamed => ⟨unnamed.1, ?_⟩
    -- the workflow of a pending run is known
    obtain ⟨d, known⟩ := Option.isSome_iff_exists.mp (given.knowing _ _ _ found)
    cases node : state.deadlineNode with
    | none => rfl
    | some id => exact absurd known (unnamed.2 id d node)

end Releases

/-- A decision of an errand that is in order leaves it in order. -/
theorem decide_records (numbered : engine.Numbered) (orderly : office.Orderly)
    (managed : errand.IsManaged engine) (given : Recorded engine office errand)
    (acts : errand.acts = []) :
    Records engine office errand errand.deed (decide engine office errand) := by
  have allowed := managed.decision
  have placed := given.placed acts
  have rest := about_of_rest acts engine
  have decides := decide_decides engine office errand
  generalize decide engine office errand = stride at decides ⊢
  generalize decision : errand.decision = stage at decides allowed placed rest
  -- the errand goes on to be about the same run
  have goes (errand' : Errand) (stays : errand'.InOrder engine engine.book ∧
      errand'.about engine = (stage.about? engine).toList) :
      Records engine office errand errand.deed ⟨engine, office, errand', .proceed, []⟩ :=
    records_still given acts rfl (.of_runs rfl) rfl given.knowing rfl stays.1
      (fun _ member => .inl (by rwa [rest, ← stays.2]))
      fun _ _ member => by rwa [stays.2, ← rest]
  cases decides with
  | ends | awaitsStop | awaitsReply => exact records_stay given acts _ _
  | startRefused =>
    refine records_idle given acts rfl rfl rfl given.knowing rfl (List.forall_mem_nil _)
      (fun state is => ?_) ?_ (by rw [decision]; rfl)
    · rw [placed.2] at is
      contradiction
    · rw [Errand.go, Decision.about?, placed.2]
      rfl
  | starts valid begins =>
    obtain rfl : _ = none := allowed
    exact starts_records numbered given acts (by rw [decision]; rfl) placed.1 begins
  | resumeRefused =>
    obtain ⟨own, resumes, paused⟩ := placed
    refine goes _ ⟨inOrder_of_plain (List.forall_mem_nil _) fun other is => ?_, ?_⟩
    · cases resumes.symm.trans is
      exact paused
    · show (Option.map Suspended.execution _).toList = _
      rw [resumes]
      rfl
  | resumes accepted =>
    exact resumes_records numbered given acts (by rw [decision]; rfl) placed.1 placed.2.2 accepted
  | @drives purpose run =>
    have spares := engine.spares_stepRun run .driver
    obtain ⟨inOrder, about⟩ := given.inOrder.spared (spares none) fun _ _ _ =>
      (Option.some_ne_none _).symm
    exact records_still given acts (engine.stepRun_keeps run .driver).2 (spares _) rfl
      given.knowing rfl inOrder (fun execution member => .inl (about ▸ member))
      fun _ execution member => about ▸ member
  | @drivesHome purpose run =>
    have spares := engine.spares_stepRun run .driver
    obtain ⟨inOrder, about⟩ := given.inOrder.spared (spares none) fun _ _ _ =>
      (Option.some_ne_none _).symm
    have driven := inOrder.decision
    have same : (errand.go [] (.conclude purpose run)).about (engine.stepRun run .driver).1 =
        errand.about engine := by
      rw [← about, about_of_rest acts, decision]
      rfl
    rw [acts, decision] at driven
    exact records_still given acts (engine.stepRun_keeps run .driver).2 (spares _) rfl
      given.knowing rfl (inOrder_of_plain (List.forall_mem_nil _) driven)
      (fun execution member => .inl (same ▸ member)) fun _ execution member => same ▸ member
  | runMissing missing =>
    obtain ⟨d, run, own, found, _⟩ := placed
    cases missing.symm.trans found
  | drivesOn => exact goes _ ⟨inOrder_of_plain (List.forall_mem_nil _) placed, rfl⟩
  | @breaksDown purpose run =>
    have mine : errand.run? = some run := by rw [Errand.run?, decision]
    have closes : engine.Spares (engine.tick.close run) errand.run? :=
      mine ▸ (Engine.Spares.of_runs rfl).trans (Engine.spares_close numbered.tick.numbered run)
    exact records_still given acts rfl closes rfl given.knowing rfl
      (inOrder_of_plain (List.forall_mem_nil _) trivial) (List.forall_mem_nil _)
      fun fine => by cases fine
  | concludes found concluded told =>
    exact concludes_records numbered given acts decision found told
  | tells =>
    obtain ⟨own, named, _⟩ := placed
    contradiction
  | refuses unclaimed =>
    refine goes _ ⟨inOrder_of_plain (List.forall_mem_nil _) trivial, ?_⟩
    rw [Decision.about?, unclaimed]
    rfl
  | @keeps purpose d result kept =>
    obtain ⟨own, named, suspended⟩ := placed
    obtain rfl := Option.some.inj (named.symm.trans kept)
    exact goes _ (keep_inOrder errand _ suspended engine)
  | @abandons purpose state failure claimed =>
    obtain ⟨inOrder, about⟩ := fail_inOrder engine.moment.now errand
      ("resume failed: " ++ failure.message) (purpose.refusal failure) (placed state claimed) engine
    refine goes _ ⟨inOrder, about.trans ?_⟩
    rw [Decision.about?, claimed]
    rfl
  | @claims d event state matched =>
    have deed : errand.deed = .release .event := by simp only [Errand.deed, acts, decision]
    obtain ⟨alarm, found⟩ := orderly.pending?_of_match? matched
    rw [deed]
    exact records_release given acts (by rw [decision]; rfl) found
      (inOrder_of_plain (by simp [Errand.go, Act.about?])
        ⟨rfl, rfl, given.pending _ state alarm found⟩) (.inl rfl)
  | startsFor =>
    exact records_idle given acts rfl rfl rfl given.knowing rfl (by simp [Errand.go, Act.about?])
      ⟨rfl, rfl⟩ rfl (by rw [decision]; rfl)
  | @cancels execution state alarm found =>
    have deed : errand.deed = .release .cancel := by simp only [Errand.deed, acts, decision]
    obtain rfl : state.execution = execution := orderly.keyed _ _ found
    rw [deed]
    refine records_release given acts (by rw [decision]; rfl) found ⟨⟨trivial,
      endOutcome_proper _ _ (.inr rfl) (given.pending _ state alarm found), trivial, trivial⟩,
      trivial, fun act among other writes => .inl ⟨.cancelled, ?_, rfl⟩, by simp [Errand.go]⟩
      (.inl rfl)
    simp only [Errand.go, List.mem_cons, List.not_mem_nil, or_false] at among
    rcases among with rfl | rfl | rfl <;> first | rfl | contradiction
  | stops =>
    have deed : errand.deed = .release .stop := by simp only [Errand.deed, acts, decision]
    rw [deed]
    exact records_detach orderly given acts (by rw [decision]; rfl) _
      (by simp [Errand.go, Act.about?]) trivial rfl
  | forgets | stopped =>
    exact records_idle given acts rfl rfl rfl given.knowing rfl
      (forall_forgetWorkflow errand (fun _ _ => rfl) rfl) trivial rfl (by rw [decision]; rfl)
  | installs =>
    exact records_idle given acts rfl rfl rfl (given.knowing.learn _) rfl
      (by simp [Errand.go, Act.about?]) trivial rfl (by rw [decision]; rfl)
  | attended | attends | expiryMissed | lapses | timesOut | transitions | restoresNothing
  | restoreFailed | restores | adopted | passesOver | adopts | recallsNothing | recallFailed
  | recalls | adoptsSuspended => exact allowed.elim
  | _ =>
    exact records_idle given acts rfl rfl rfl given.knowing rfl (by simp [Errand.go, Act.about?])
      trivial rfl (by rw [decision]; rfl)

/-- What a step of an errand that is in order does about the records. -/
theorem step_records (numbered : engine.Numbered) (orderly : office.Orderly)
    (managed : errand.IsManaged engine) (given : Recorded engine office errand) :
    Records engine office errand errand.deed (step engine office errand) := by
  rw [step]
  split
  · rename_i first rest acts
    exact act_records given acts
  · rename_i acts
    exact decide_records numbered orderly managed given acts

/-- Only an errand that has nothing left but its answer comes to its end. -/
theorem step_finished (ends : (step engine office errand).signal = .finished) :
    (∃ answer, errand.acts = [] ∧ errand.decision = .answer answer) ∧
      (step engine office errand).errand = errand := by
  rw [step] at ends ⊢
  split at ends
  · rename_i act rest acts
    have goes : (Stride.act engine office { errand with acts := rest } act).signal = .proceed := by
      cases act <;> rfl
    rw [goes] at ends
    contradiction
  · rename_i acts
    have decides := decide_decides engine office errand
    generalize decide engine office errand = stride at decides ends ⊢
    generalize decision : errand.decision = stage at decides
    cases decides with
    | ends => exact ⟨⟨_, acts, rfl⟩, rfl⟩
    | drives goesOn => exact absurd ends goesOn
    | _ => contradiction

end Decisions

end Stride

end DurableFlow
