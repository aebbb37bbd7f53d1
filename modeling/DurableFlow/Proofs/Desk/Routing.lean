import DurableFlow.Proofs.Desk.Confined
import DurableFlow.Proofs.Desk.Redelivery
import DurableFlow.Proofs.Desk.Turns
import DurableFlow.Proofs.Event.Answering

/-!
# Which run an event is for

An event lets one of the runs go on that wait for it, one that has waited longest, in whatever
order the pending runs are listed. If there is none, it starts a run, unless the trigger of the
workflow asks for events of another type. `events_find_their_runs` says what the errand that
handles the event does in each of these cases, and that it leaves all other pauses alone. What it
takes for granted of the site holds of every one that an office may come to (`handling_undergone`).
-/

namespace DurableFlow

namespace Desk

variable {desk : Desk} {workflow : String} {event : Event} {state : Suspended}

/-- Each pending run is kept under its own id, and no id has two entries, in whatever order they are
listed. -/
structure IsMap (desk : Desk) : Prop where
  once : (Fields.names desk.pending).Nodup
  own : ∀ entry ∈ desk.pending, entry.2.state.execution = entry.1

/-- A run of the workflow waits with this state. -/
def Waits (desk : Desk) (workflow : String) (state : Suspended) : Prop :=
  state.workflow = workflow ∧ ∃ alarm, desk.pending? state.execution = some ⟨state, alarm⟩

/-- The run waits for the event, and no run that does so has waited for longer. -/
structure IsMeant (desk : Desk) (workflow : String) (event : Event) (state : Suspended) : Prop where
  waits : desk.Waits workflow state
  answers : event.Answers state
  first : ∀ other, desk.Waits workflow other → event.Answers other →
    state.pausedAt.atMost other.pausedAt = true

theorem Coherent.isMap (coherent : desk.Coherent) : desk.IsMap where
  once := coherent.sorted.1.nodup
  own entry member := (coherent.pending entry.1 entry.2
    ((Fields.get?_eq_some_iff coherent.sorted.1.nodup).mpr member)).1

theorem IsMap.execution (map : desk.IsMap) {execution : String} {pending : Pending}
    (found : desk.pending? execution = some pending) : pending.state.execution = execution :=
  map.own (execution, pending) (Fields.mem_of_get? found)

theorem IsMap.mem_pendingOf (map : desk.IsMap) :
    state ∈ desk.pendingOf workflow ↔ desk.Waits workflow state := by
  rw [pendingOf, List.mem_filter, Waits, and_comm, beq_iff_eq]
  refine and_congr_right fun _ => ⟨fun member => ?_, fun ⟨alarm, found⟩ => ?_⟩
  · obtain ⟨⟨held, alarm⟩, value, rfl⟩ := List.mem_map.mp member
    obtain ⟨⟨execution, _⟩, entry, rfl⟩ := List.mem_map.mp value
    obtain rfl : held.execution = execution := map.own _ entry
    exact ⟨alarm, (Fields.get?_eq_some_iff map.once).mpr entry⟩
  · exact List.mem_map.mpr ⟨⟨state, alarm⟩, Fields.mem_values_of_get? found, rfl⟩

theorem IsMap.isMeant_of_match? (map : desk.IsMap)
    (found : desk.match? workflow event = some state) : desk.IsMeant workflow event state := by
  obtain ⟨listed, answers, least⟩ := Event.earliest_of_findMatch found
  exact ⟨map.mem_pendingOf.mp listed, answers,
    fun other waits => least other (map.mem_pendingOf.mpr waits)⟩

theorem IsMap.match?_eq_none_iff (map : desk.IsMap) :
    desk.match? workflow event = none ↔
      ∀ state, desk.Waits workflow state → ¬ event.Answers state := by
  rw [match?, Event.findMatch_eq_none_iff]
  exact forall_congr' fun state => imp_congr_left map.mem_pendingOf

end Desk

/-- The trigger of the workflow asks for events of another type. -/
def Definition.Refuses (d : Definition) (event : Event) : Prop :=
  ∃ trigger type, d.trigger = some trigger ∧ trigger.eventType = some type ∧ event.type ≠ some type

theorem Definition.refuses_iff {d : Definition} {event : Event} :
    d.trigger.all event.allowedBy = false ↔ d.Refuses event := by
  unfold Refuses
  cases d.trigger with
  | none => simp
  | some trigger => cases wanted : trigger.eventType <;> simp [Event.allowedBy, wanted]

/-- A definition may be run if nothing is wrong with it. -/
theorem Engine.validate_eq (engine : Engine) (d : Definition) :
    engine.validate d = if d.problems engine.catalog.knows = [] then .ok ()
      else .error (.invalid (d.problems engine.catalog.knows)) := by
  rw [validate]
  cases d.problems engine.catalog.knows <;> rfl

/-- A run that an event starts has the event among its variables under two names, and the variables
of its workflow under all others. -/
theorem Event.get?_bindInput (event : Event) (vars : Fields Data) (name : String) :
    Fields.get? (Context.bindInput vars event.input) name =
      if name = "event" ∨ name = "trigger" then some event.toVariables
      else Fields.get? vars name := by
  show Fields.get? (Fields.merge vars (Fields.ofList [("event", event.toVariables),
    ("trigger", event.toVariables)])) name = _
  rw [Fields.get?_merge (Fields.sorted_ofList _).nodup, Fields.get?_ofList (by simp [Fields.names]),
    Fields.get?_cons, Fields.get?_cons]
  by_cases first : name = "event"
  · simp [first]
  · by_cases second : name = "trigger" <;> simp [first, second]

namespace Site

variable {site : Site} {id : Nat} {d : Definition} {event : Event} {isCancelled : Bool}

/-- An errand is next to handle an event for a workflow. -/
structure Handling (site : Site) (id : Nat) (d : Definition) (event : Event) (isCancelled : Bool) :
    Prop where
  numbered : site.engine.Numbered
  map : site.office.desk.IsMap
  used : id < site.office.nextErrand
  asked : site.office.errand? id = some { decision := .claim d event, isCancelled }

/-- The errand claims the run that waits with this state: it takes it out of the pending runs and
out of the ledger, and asks for it to go on with the fields of the payload and, over them, the
event. -/
structure Claims (site : Site) (id : Nat) (d : Definition) (event : Event) (isCancelled : Bool)
    (state : Suspended) : Prop where
  takes : (site.turned id 1).office.desk = site.office.desk.take state.execution
  forgets : site.engine.Serves → (site.turned id 3).engine.stored state.execution = []
  resumes : (site.turned id 3).Requests id (.resumed d state)
    (fun purpose => .resume purpose d state none event.delta) isCancelled
  delta : ∀ name, Fields.get? event.delta name =
    if name = "event" then some event.toVariables else Fields.get? event.payloadFields name
  others : LeavesAlone site.office.desk (site.turned id 1) id (· = d) (· = state.execution)

/-- The errand drops the event, of which nothing remains but that it is counted. -/
structure Drops (site : Site) (id : Nat) : Prop where
  settles : site.Settles id 2 (.handled .dropped none) (site.engine.count (.event .dropped))
  others : LeavesAlone site.office.desk (site.turned id 1) id (fun _ => False) fun _ => False

/-- The errand asks for a run to begin with the event. Either its answer is what is wrong with the
workflow, and nothing remains but that the event is counted, or one run is under way that has not
been before. -/
structure Starts (site : Site) (id : Nat) (d : Definition) (event : Event) (isCancelled : Bool) :
    Prop where
  starts : (site.turned id 2).Requests id (.started d)
    (fun purpose => .start purpose d event.input none) isCancelled
  refused : ∀ problems, d.problems site.engine.catalog.knows = problems → problems ≠ [] →
    site.Settles id 4 (.failed (.invalid problems)) (site.engine.count (.event .started))
  begins : d.problems site.engine.catalog.knows = [] → ∃ run,
    (site.turned id 3).engine.runs = site.engine.runs ++ [(site.engine.nextRun, run)] ∧
      run.definition = d ∧ run.context.workflow = d.id ∧
      run.context.execution = Id.fresh site.engine.moments ∧
      ∀ name, Fields.get? run.context.vars name =
        if name = "event" ∨ name = "trigger" then some event.toVariables
        else Fields.get? d.vars name
  others : LeavesAlone site.office.desk (site.turned id 1) id (· = d)
    fun execution => ∃ n, site.engine.moments ≤ n ∧ execution = Id.fresh n

namespace Handling

variable (handling : site.Handling id d event isCancelled)
include handling

theorem turned_one {after : Engine} {later : Office} {next : Errand} {requests : List Request}
    (steps : Stride.claim site.engine site.office { decision := .claim d event, isCancelled } d
      event = ⟨after, later, next, .proceed, requests⟩) :
    site.turned id 1 = ⟨after, later.setErrand id next⟩ ∧ (later.errand? id).isSome :=
  move_found handling.asked steps

/-- A run that the event is meant for is claimed. -/
theorem claims {state : Suspended} (meant : site.office.desk.match? d.id event = some state) :
    site.Claims id d event isCancelled state := by
  obtain ⟨⟨_, alarm, found⟩, _, _⟩ := handling.map.isMeant_of_match? meant
  let released := site.office.release state.execution
  let claimed : Errand :=
    { decision := .resume (.resumed d state) d state none event.delta, isCancelled }
  let acts : List Act := [.count (.event .resumed), .deleteSuspended state.execution]
  have desk : released.desk = site.office.desk.take state.execution := Office.release_desk found
  have steps : Stride.claim site.engine site.office { decision := .claim d event, isCancelled } d
      event = ⟨Stride.showPending site.engine released, released, { claimed with acts }, .proceed,
        []⟩ := by
    simp only [Stride.claim, meant]
    rfl
  obtain ⟨one, there⟩ := handling.turned_one steps
  have three : site.turned id 3 = ⟨acts.foldl Act.carried (Stride.showPending site.engine released),
      released.setErrand id claimed⟩ := by
    have plain : ∀ act ∈ acts, act.isPlain = true := by simp [acts, Act.isPlain]
    have played := play_acts (Stride.showPending site.engine released) plain there claimed
    rw [← one] at played
    exact played
  have used : id < released.nextErrand := (Office.release_nextErrand ..).symm ▸ handling.used
  refine ⟨by rw [one]; exact desk, fun serves => ?_, ?_, event.get?_delta, ?_⟩
  · have serving : ((Stride.showPending site.engine released).count (.event .resumed)).Serves :=
      serves.of_ledger rfl
    rw [three]
    exact ((Engine.deleteSuspended_stored serving state.execution).2 _).trans (if_pos rfl)
  · rw [three]
    exact requests used rfl rfl (errand?_set there claimed)
  · have confines : (site.turned id 1).Confines id (· = d) (· = state.execution) := by
      rw [one]
      refine ⟨(Stride.showPending_extends handling.numbered released).numbered, used,
        fun errand asked => ?_⟩
      cases (errand?_set there _).symm.trans asked
      exact .resume rfl _ rfl fun _ is => (Option.some.inj is).symm
    refine confines.leavesAlone ?_
    rw [one]
    exact desk ▸ .take rfl

/-- An event of another type is dropped, if no run is meant. -/
theorem drops (unmeant : site.office.desk.match? d.id event = none)
    (refuses : d.trigger.all event.allowedBy = false) : site.Drops id := by
  let answer : Answer := .handled .dropped none
  have steps : Stride.claim site.engine site.office { decision := .claim d event, isCancelled } d
      event = ⟨site.engine, site.office,
        { acts := [.count (.event .dropped)], decision := .answer answer, isCancelled }, .proceed,
        []⟩ := by
    simp only [Stride.claim, unmeant, refuses]
    rfl
  obtain ⟨one, there⟩ := handling.turned_one steps
  have plain : ∀ act ∈ [Act.count (.event .dropped)], act.isPlain = true := by simp [Act.isPlain]
  have two := play_acts site.engine plain there { decision := .answer answer, isCancelled }
  rw [← one] at two
  refine ⟨settles two there, ?_⟩
  have confines : (site.turned id 1).Confines id (fun _ => False) fun _ => False := by
    rw [one]
    refine ⟨handling.numbered, handling.used, fun errand asked => ?_⟩
    cases (errand?_set there _).symm.trans asked
    exact .answer rfl _ answer
  refine confines.leavesAlone ?_
  rw [one]
  exact .refl _

/-- Otherwise a run is to begin. -/
theorem starts (unmeant : site.office.desk.match? d.id event = none)
    (allows : d.trigger.all event.allowedBy = true) : site.Starts id d event isCancelled := by
  let started : Errand := { decision := .start (.started d) d event.input none, isCancelled }
  let engine := site.engine.count (.event .started)
  have steps : Stride.claim site.engine site.office { decision := .claim d event, isCancelled } d
      event = ⟨site.engine, site.office, { started with acts := [.count (.event .started)] },
        .proceed, []⟩ := by
    simp only [Stride.claim, unmeant, allows, if_true]
    rfl
  obtain ⟨one, there⟩ := handling.turned_one steps
  have plain : ∀ act ∈ [Act.count (.event .started)], act.isPlain = true := by simp [Act.isPlain]
  have two := play_acts site.engine plain there started
  rw [← one] at two
  change site.turned id 2 = ⟨engine, site.office.setErrand id started⟩ at two
  refine ⟨?_, fun problems wrong nonempty => ?_, fun fine => ?_, ?_⟩
  · rw [two]
    exact requests handling.used rfl rfl (errand?_set there started)
  · let failure : Failure := .invalid problems
    have three : site.turned id 3 = ⟨engine, site.office.setErrand id
        { decision := .finish (.started d) (.error failure), isCancelled }⟩ := by
      have refused : Stride.step engine site.office started = ⟨engine, site.office,
          { decision := .finish (.started d) (.error failure), isCancelled }, .proceed, []⟩ := by
        have invalid : engine.validate d = .error failure := by
          rw [Engine.validate_eq, if_neg (wrong ▸ nonempty)]
          exact congrArg (Except.error ∘ Failure.invalid) wrong
        simp only [Stride.step, Stride.decide, Stride.start, started, invalid]
        rfl
      rw [turned_add site id 2 1, two]
      exact move_set there refused
    have four : site.turned id 4 = ⟨engine, site.office.setErrand id
        { decision := .answer (.failed failure), isCancelled }⟩ := by
      rw [turned_add site id 3 1, three]
      exact move_set there rfl
    exact settles four there
  · have valid : engine.validate d = .ok () := (engine.validate_eq d).trans (if_pos fine)
    have begun : ∃ after later next requests, Stride.step engine site.office started =
        ⟨after, later, next, .proceed, requests⟩ ∧ ∃ run, after.runs = engine.runs ++
          [(engine.nextRun, run)] ∧ run.definition = d ∧
            run.context = Context.start d.id engine.moment.freshId
              (Context.bindInput d.vars event.input) engine.moment.now := by
      simp only [Stride.step, Stride.decide, Stride.start, started, valid]
      exact ⟨_, _, _, _, rfl, _, rfl, rfl, rfl⟩
    obtain ⟨after, later, next, requests, steps, run, runs, definition, context⟩ := begun
    have three : (site.turned id 3).engine = after := by
      rw [turned_add site id 2 1, two]
      exact congrArg Site.engine (move_set there steps)
    refine ⟨run, three ▸ runs, definition, by rw [context]; rfl, by rw [context]; rfl, ?_⟩
    rw [context]
    exact event.get?_bindInput d.vars
  · have confines : (site.turned id 1).Confines id (· = d)
        fun execution => ∃ n, site.engine.moments ≤ n ∧ execution = Id.fresh n := by
      rw [one]
      refine ⟨handling.numbered, handling.used, fun errand asked => ?_⟩
      cases (errand?_set there _).symm.trans asked
      exact .start rfl _ d event.input (fun n later => ⟨n, later, rfl⟩) fun _ is =>
        (Option.some.inj is).symm
    refine confines.leavesAlone ?_
    rw [one]
    exact .refl _

end Handling

/-- No errand has an id that has not been given out yet. -/
def Counted (site : Site) : Prop :=
  ∀ id, site.office.nextErrand ≤ id → site.office.errand? id = none

namespace Counted

theorem opened (catalog : Catalog) (limit : Nat) (ledger : Option Ledger) (epoch : Instant)
    (policy : TimeoutPolicy) : (Site.opened catalog limit ledger epoch policy).Counted :=
  fun _ _ => rfl

variable (counted : site.Counted)
include counted

theorem used {errand : Errand} (found : site.office.errand? id = some errand) :
    id < site.office.nextErrand := by
  by_contra given
  rw [counted id (Nat.le_of_not_lt given)] at found
  contradiction

theorem silence (alarm : Option Nat) : Counted ⟨site.engine, site.office.silence alarm⟩ := by
  cases alarm <;> exact counted

theorem takeOn (errand : Errand) : (site.takeOn errand).Counted := by
  intro id later
  have absent : site.office.errands.lookup id = none := counted id (Nat.le_of_succ_le later)
  have new : id ≠ site.office.nextErrand := Nat.ne_of_gt later
  simp [Site.takeOn, Office.takeOn, Office.errand?, List.lookup_append, absent, new]

theorem turn (asked : Nat) : (site.turn asked).Counted := by
  intro id later
  rw [nextErrand_turn] at later
  by_cases same : asked = id
  · subst same
    have absent := counted asked later
    have still : site.turn asked = site := by simp only [Site.turn, absent]
    rw [still, absent]
  · rw [errand?_turn site same, counted id later]

theorem cancelRun (asked : Nat) : (site.cancelRun asked).Counted := by
  rw [Site.cancelRun]
  split
  · exact counted
  · rename_i errand found
    have set : ∀ next : Errand, Counted ⟨site.engine, site.office.setErrand asked next⟩ := by
      intro next id later
      have different : id ≠ asked := ((counted.used found).trans_le later).ne'
      exact (Table.lookup_update asked id (fun _ => next) site.office.errands).trans
        ((if_neg different).trans (counted id later))
    split <;> exact set _

theorem occur (occurrence : Occurrence) : (site.occur occurrence).Counted := by
  cases occurrence with
  | demand demand =>
    cases demand with
    | move m =>
      cases m with
      | order order => exact counted.takeOn _
      | turn asked => exact counted.turn asked
      | ring asked =>
        simp only [Site.occur, meet, Site.move, ring]
        split
        · exact counted
        · split
          · exact ((counted.silence (some asked)).takeOn _).turn _
          · exact counted.silence (some asked)
      | branch | learn | pass => exact counted
    | execute | resume => exact counted.takeOn _
    | cancelRun asked => exact counted.cancelRun asked
  | restore => exact counted.takeOn _
  | outage => exact counted

theorem undergo (history : List Occurrence) : (site.undergo history).Counted := by
  induction history generalizing site with
  | nil => exact counted
  | cons occurrence rest ih => exact ih (counted.occur occurrence)

end Counted

/-- Wherever an office has come to, an errand that is next to handle an event finds the pending runs
standing by their ids. -/
theorem handling_undergone (catalog : Catalog) (limit : Nat) (ledger : Option Ledger)
    (epoch : Instant) (policy : TimeoutPolicy) (history : List Occurrence)
    (asked : ((opened catalog limit ledger epoch policy).undergo history).office.errand? id =
      some { decision := .claim d event, isCancelled }) :
    ((opened catalog limit ledger epoch policy).undergo history).Handling id d event
      isCancelled := by
  have coherent := (Coherent.opened catalog limit ledger epoch policy).undergo history
  have counted := (Counted.opened catalog limit ledger epoch policy).undergo history
  exact ⟨coherent.numbered, coherent.desk.isMap, counted.used asked, asked⟩

/-- An office that is asked to handle an event. -/
theorem handling_order (numbered : site.engine.Numbered) (map : site.office.desk.IsMap)
    (unused : site.office.errand? site.office.nextErrand = none) :
    (site.move (.order (.handle d event))).Handling site.office.nextErrand d event false where
  numbered := numbered
  map := map
  used := Nat.lt_succ_self _
  asked := by
    have absent : site.office.errands.lookup site.office.nextErrand = none := unused
    simp [move, Order.decision, Office.errand?, Office.takeOn, List.lookup_append, absent]

/-- An errand is next to handle an event for a workflow, and the pending runs of the office stand by
their ids, in whatever order. If runs of the workflow wait for the event, one of them that has
waited longest is taken out, and it goes on with the event as it does when the engine is asked for
it. If none does, the event is dropped when the trigger asks for events of another type, and it
starts one run otherwise, unless the workflow is not valid. However the errand goes on, and whatever
happens in between, it leaves all other pauses alone. -/
theorem events_find_their_runs (handling : site.Handling id d event isCancelled) :
    let waits := site.office.desk.Waits d.id
    ((∃ state, waits state ∧ event.Answers state) → ∃ state,
        site.office.desk.IsMeant d.id event state ∧ site.Claims id d event isCancelled state) ∧
      ((∀ state, waits state → ¬ event.Answers state) →
        (d.Refuses event → site.Drops id) ∧
          (¬ d.Refuses event → site.Starts id d event isCancelled)) := by
  have none_iff : site.office.desk.match? d.id event = none ↔
      ∀ state, site.office.desk.Waits d.id state → ¬ event.Answers state :=
    handling.map.match?_eq_none_iff
  refine ⟨fun ⟨state, waits, answers⟩ => ?_, fun nobody => ?_⟩
  · cases meant : site.office.desk.match? d.id event with
    | none => exact absurd answers (none_iff.mp meant state waits)
    | some chosen =>
      exact ⟨chosen, handling.map.isMeant_of_match? meant, handling.claims meant⟩
  · have unmeant := none_iff.mpr nobody
    refine ⟨fun refuses => handling.drops unmeant (Definition.refuses_iff.mpr refuses),
      fun allows => handling.starts unmeant ?_⟩
    rw [← Bool.not_eq_false]
    exact fun refuses => allows (Definition.refuses_iff.mp refuses)

/-- A run of a workflow that has waited for the event since a second. -/
def waitingSince (workflow execution : String) (second : Int) : Suspended :=
  { firstWait with workflow, execution, pausedAt := ⟨second, 0⟩ }

/-- Two runs of one workflow and one of another wait for the same event, in no order. -/
def crowded : Site where
  engine := { catalog := [], ledger := some {}, epoch := ⟨0, 0⟩ }
  office := { desk := { pending := [("late", ⟨waitingSince "twice" "late" 2, none⟩),
    ("foreign", ⟨waitingSince "other" "foreign" 0, none⟩),
    ("early", ⟨waitingSince "twice" "early" 1, some 0⟩)] } }

/-- The earlier run of the workflow is claimed; and where nothing waits, the event is dropped or
starts a run. -/
theorem events_find_their_runs_crowded :
    (crowded.move (.order (.handle twice going))).Claims 0 twice going false
        (waitingSince "twice" "early" 1) ∧
      ((opened [] 10 (some {}) ⟨0, 0⟩ .drop).move (.order (.handle expectant going))).Drops 0 ∧
      ((opened [] 10 (some {}) ⟨0, 0⟩ .drop).move
        (.order (.handle twice going))).Starts 0 twice going false := by
  have asked : ∀ d, ((opened [] 10 (some {}) ⟨0, 0⟩ .drop).move (.order (.handle d going))).Handling
      0 d going false := fun d =>
    handling_undergone _ _ _ _ _ [.demand (.move (.order (.handle d going)))] rfl
  have nobody : ∀ d : Definition, ∀ state, ((opened [] 10 (some {}) ⟨0, 0⟩ .drop).move
      (.order (.handle d going))).office.desk.Waits d.id state → ¬ going.Answers state :=
    fun d state waits => absurd waits.2.choose_spec (Option.some_ne_none _).symm
  refine ⟨?_, ?_, ?_⟩
  · have map : crowded.office.desk.IsMap := ⟨by decide +kernel, by decide +kernel⟩
    have numbered : crowded.engine.Numbered := ⟨List.nodup_nil, List.forall_mem_nil _⟩
    have handling : (crowded.move (.order (.handle twice going))).Handling 0 twice going false :=
      handling_order numbered map rfl
    have listed : crowded.office.desk.pendingOf twice.id =
        [waitingSince "twice" "late" 2, waitingSince "twice" "early" 1] := by decide +kernel
    have waits : crowded.office.desk.Waits "twice" (waitingSince "twice" "early" 1) :=
      ⟨rfl, some 0, by decide +kernel⟩
    have answers : going.Answers (waitingSince "twice" "early" 1) :=
      Event.answers_iff.mp (by decide +kernel)
    obtain ⟨state, meant, claims⟩ := (events_find_their_runs handling).1 ⟨_, waits, answers⟩
    have among : state ∈ crowded.office.desk.pendingOf twice.id := map.mem_pendingOf.mpr meant.waits
    rw [listed, List.mem_cons, List.mem_singleton] at among
    rcases among with rfl | rfl
    · exact absurd (meant.first _ waits answers) (by decide)
    · exact claims
  · exact ((events_find_their_runs (asked expectant)).2 (nobody expectant)).1
      ⟨⟨"any", "watch", some "come", []⟩, "come", rfl, rfl, by decide +kernel⟩
  · refine ((events_find_their_runs (asked twice)).2 (nobody twice)).2 ?_
    rintro ⟨trigger, type, triggers, _⟩
    contradiction

end Site

end DurableFlow
