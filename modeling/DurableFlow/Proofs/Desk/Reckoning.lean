import DurableFlow.Proofs.Desk.Tallies

/-!
# Counters account for what has happened

The counters of an engine and the records of its ledger are changed by separate acts of an errand,
which are carried out one after another, so in the midst of a history either may be ahead. For each
status, though, the counter together with the acts that are still queued to count it grows by as
much as the records that have been given this status together with the acts that are still queued
to give it, cancellations of pending runs excepted: a decision queues as many of the one kind as of
the other (`Stride.Balances`), and carrying out an act takes it off the queue. `Reckons` states
this balance between two sites, and `Reckons.trans` puts the occurrences of a history together.

Which record is given a status at an occurrence is read off the act that is carried out. The ledger
shows the same: this record has the status then, and all others stay as they are
(`Countable.status_of_moved`, `Countable.book_of_unmoved`).
-/

namespace DurableFlow

/-- The ledger does not fail to carry out an act that writes a record. -/
def Engine.accepts (engine : Engine) : Act → Bool
  | .saveRun record => engine.ledger.any fun ledger => (ledger.saveRun record).isOk
  | .settleRun execution outcome =>
    engine.ledger.any fun ledger => (ledger.settleRun execution outcome).isOk
  | _ => false

section Acts

variable {engine : Engine} {act : Act} {execution : String} {status : Status}

/-- An act that writes a record writes it where the ledger accepts it, and all other acts leave the
records alone. -/
theorem Stride.recorded_act (engine : Engine) (office : Office) (errand : Errand) (act : Act) :
    (Stride.act engine office errand act).engine.book =
      if engine.accepts act then act.entered engine.book else engine.book := by
  have written : ∀ (change : Ledger → Except Failure Ledger) (enter : Book → Book),
      (∀ ledger next, change ledger = .ok next → next.book = enter ledger.book) →
      (engine.write change).book =
        if engine.ledger.any fun ledger => (change ledger).isOk then enter engine.book
        else engine.book := by
    intro change enter enters
    cases known : engine.ledger with
    | none =>
      rw [Engine.write, known]
      rfl
    | some ledger =>
      cases changed : change ledger with
      | ok next =>
        simp only [Engine.write, known, changed, Option.any_some]
        rw [Engine.book_of_known known]
        exact enters ledger next changed
      | error failure =>
        simp only [Engine.write, known, changed, Option.any_some]
        rfl
  cases act with
  | saveRun record =>
    exact written (·.saveRun record) (·.enter record) fun _ _ => Ledger.book_of_saveRun
  | settleRun execution outcome =>
    exact written (·.settleRun execution outcome) (·.settle execution outcome)
      fun _ _ settled => (Ledger.book_of_settleRun settled).2
  | arm d state =>
    exact Engine.book_of_ledger (Stride.arm_changes engine office errand d state).ledger
  | saveSuspended | deleteSuspended | saveSubscription | deleteSubscription =>
    refine Engine.book_write_of_runs fun ledger next done => ?_
    simp only [Ledger.saveSuspended, Ledger.deleteSuspended, Ledger.saveSubscription,
      Ledger.deleteSubscription] at done
    split at done
    · cases done
      rfl
    · contradiction
  | publish | count | register | unregister => rfl

/-- A record that an act writes gets the status that the act is to give it. -/
theorem Act.status_entered (accepted : engine.accepts act = true)
    (moves : act.moves? = some (execution, status)) :
    ∃ record, act.entered engine.book execution = some record ∧ record.status = status := by
  cases act with
  | saveRun record =>
    cases moves
    refine ⟨_, Function.update_self .., ?_⟩
    cases engine.book record.execution <;> rfl
  | settleRun settled outcome =>
    cases moves
    obtain ⟨ledger, known, taken⟩ := (Option.any_eq_true _ _).mp accepted
    cases done : ledger.settleRun execution outcome with
    | ok next =>
      obtain ⟨⟨record, there⟩, _⟩ := Ledger.book_of_settleRun done
      refine ⟨record.settle outcome, (Function.update_self ..).trans ?_, rfl⟩
      rw [Engine.book_of_known known, there, Option.map_some]
    | error failure =>
      rw [done] at taken
      contradiction
  | _ => contradiction

/-- An act that writes a record gives it some status. -/
theorem Act.moves_of_writes (writes : act.writes? = some execution) :
    ∃ status, act.moves? = some (execution, status) := by
  cases act with
  | saveRun | settleRun => exact ⟨_, by cases writes; rfl⟩
  | _ => contradiction

end Acts

namespace Site

variable {site after : Site} {id : Nat} {errand : Errand}

/-- The acts of all errands that are still to be carried out. -/
def due (site : Site) : List Act := site.office.errands.flatMap fun entry => entry.2.acts

/-- The reading of a counter, together with the acts that are still to add to it. -/
def counted (site : Site) (tally : Tally) : Nat :=
  site.engine.metrics.reading tally + (site.due.filterMap Act.tally?).count tally

/-- The number of acts that are still to give a record this status. -/
def unsettled (site : Site) (status : Status) : Nat :=
  (site.due.filterMap Act.moves?).countP (·.2 = status)

/-- The errand that takes a turn at an occurrence. -/
def turning? (site : Site) : Occurrence → Option Errand
  | .demand (.move (.turn id)) => site.office.errand? id
  | _ => none

/-- The act that an errand carries out at an occurrence, if it has one left. -/
def carried? (site : Site) (occurrence : Occurrence) : Option Act :=
  (site.turning? occurrence).bind fun errand => errand.acts.head?

/-- The decision that an errand makes at an occurrence, if it has no acts left. -/
def decided? (site : Site) (occurrence : Occurrence) : Option Decision :=
  ((site.turning? occurrence).filter fun errand => errand.acts.isEmpty).map Errand.decision

/-- What happens in some part of a history that counters are about. -/
structure Doings where
  /-- The executions whose records are given a status, and the status. -/
  moved : List (String × Status) := []
  /-- Those whose records were to be given a status when the ledger failed. -/
  refused : List (String × Status) := []
  /-- The pending runs that are cancelled. -/
  withdrawn : List String := []
  /-- The outcomes of the events that are handled. -/
  handled : List EventOutcome := []
  /-- The nodes that are added to the histories of runs. -/
  entered : List String := []

/-- What happens in two parts of a history, the second right after the first. -/
def Doings.append (first second : Doings) : Doings where
  moved := first.moved ++ second.moved
  refused := first.refused ++ second.refused
  withdrawn := first.withdrawn ++ second.withdrawn
  handled := first.handled ++ second.handled
  entered := first.entered ++ second.entered

/-- What happens at one occurrence. -/
def doings (site : Site) (occurrence : Occurrence) : Doings :=
  let act := site.carried? occurrence
  { moved := ((act.filter site.engine.accepts).bind Act.moves?).toList
    refused := ((act.filter (!site.engine.accepts ·)).bind Act.moves?).toList
    withdrawn := ((site.decided? occurrence).bind site.office.withdrawn?).toList
    handled := ((site.decided? occurrence).bind site.office.outcome?).toList
    entered := site.engine.entered (site.occur occurrence).engine }

/-- What happens over a whole history. -/
def recount (site : Site) : List Occurrence → Doings
  | [] => {}
  | occurrence :: rest => (site.doings occurrence).append ((site.occur occurrence).recount rest)

/-- What has to hold of a site for its counters to be related to its records: the engine numbers its
runs, errands have distinct ids below the next one, and no act counts nodes, which is left to the
tasks of runs. -/
structure Countable (site : Site) : Prop where
  engine : site.engine.Countable
  unique : (Table.ids site.office.errands).Nodup
  below : ∀ entry ∈ site.office.errands, entry.1 < site.office.nextErrand
  plain : ∀ act ∈ site.due, ∀ kind, act.tally? ≠ some (.node kind)

/-- Between two sites the counters have kept up with the records. For each status but that of a
running run, the counter and the acts that are queued for it have grown by the number of the records
that have been given this status, were refused it by the ledger, or are newly to be given it, less
the pending runs that have been cancelled. The counter of each outcome has grown by the events that
have been handled with it, and that of the nodes, together with the nodes to be announced, by the
nodes that runs have entered. -/
structure Reckons (site after : Site) (doings : Doings) : Prop where
  countable : after.Countable
  runs : ∀ status, status ≠ .running →
    after.counted (.run status) + (if status = .cancelled then doings.withdrawn.length else 0) +
        site.unsettled status =
      site.counted (.run status) + (doings.moved.countP (·.2 = status) +
        doings.refused.countP (·.2 = status)) + after.unsettled status
  events : ∀ outcome,
    after.counted (.event outcome) = site.counted (.event outcome) + doings.handled.count outcome
  nodes : after.engine.metrics.nodesExecuted + after.engine.announcing =
    site.engine.metrics.nodesExecuted + site.engine.announcing + doings.entered.length

section Turns

theorem countP_due {α : Type} (f : Act → Option α) (p : α → Bool) (site : Site) :
    (site.due.filterMap f).countP p =
      (site.office.errands.map fun entry => (entry.2.acts.filterMap f).countP p).sum := by
  rw [due, List.filterMap_flatMap, List.countP_flatMap]
  rfl

/-- A turn replaces the acts of its errand, among those still to be carried out, by the acts that
the step has left or queued. -/
theorem countP_due_turn {α : Type} (f : Act → Option α) (p : α → Bool)
    (unique : (Table.ids site.office.errands).Nodup)
    (found : site.office.errand? id = some errand) :
    ((site.turn id).due.filterMap f).countP p + (errand.acts.filterMap f).countP p =
      (site.due.filterMap f).countP p +
        ((Stride.step site.engine site.office errand).errand.acts.filterMap f).countP p := by
  have errands := (Stride.step_errands site.engine site.office errand).1
  have ends := @Stride.step_finished site.engine site.office errand
  have turned : site.turn id = land (Stride.step site.engine site.office errand) id := by
    simp only [turn, found]
  rw [turned, countP_due, countP_due]
  generalize Stride.step site.engine site.office errand = stride at *
  let weight (errand : Errand) : Nat := (errand.acts.filterMap f).countP p
  simp only [land]
  split
  · rename_i finished
    obtain ⟨⟨_, idle, _⟩, same⟩ := ends finished
    have dropped := Table.sum_filter_ne unique found weight
    rw [dropErrand_setErrand_self, Office.dropErrand, errands, same]
    simp only [weight, idle] at dropped ⊢
    exact congrArg (· + _) dropped
  · have set := Table.sum_update unique found (fun _ => stride.errand) weight
    rw [Office.setErrand, errands]
    exact set

/-- An act that is still to be carried out after the turn of an errand was so before, or is one of
this errand. -/
theorem mem_due_turn (found : site.office.errand? id = some errand) {act : Act}
    (member : act ∈ (site.turn id).due) :
    act ∈ site.due ∨ act ∈ (Stride.step site.engine site.office errand).errand.acts := by
  obtain ⟨entry, there, own⟩ := List.mem_flatMap.mp member
  rcases (takesTurn found).others entry there with ⟨rfl, _⟩ | ⟨old, _⟩
  · exact .inr own
  · exact .inl (List.mem_flatMap.mpr ⟨entry, old, own⟩)

theorem mem_due (found : site.office.errand? id = some errand) {act : Act}
    (own : act ∈ errand.acts) : act ∈ site.due :=
  List.mem_flatMap.mpr ⟨(id, errand), Table.mem_of_lookup found, own⟩

variable (countable : site.Countable) (found : site.office.errand? id = some errand)
include countable found

/-- A turn leaves a site countable if none of the acts that the errand has then counts a node. -/
theorem Countable.turn {tally : Option Tally}
    (tallied : site.engine.Tallied tally (site.turn id).engine)
    (plain : ∀ act ∈ (Stride.step site.engine site.office errand).errand.acts,
      ∀ kind, act.tally? ≠ some (.node kind)) : (site.turn id).Countable := by
  obtain ⟨errands, nextErrand⟩ := Stride.step_errands site.engine site.office errand
  have lands : site.Lands (land (Stride.step site.engine site.office errand) id) id
      (Stride.step site.engine site.office errand) :=
    lands_of_errands (fun entry member _ => errands ▸ member) (errands ▸ countable.unique)
      (fun entry member => nextErrand ▸ countable.below entry (errands ▸ member))
      (nextErrand ▸ countable.below _ (Table.mem_of_lookup found))
  have turned : site.turn id = land (Stride.step site.engine site.office errand) id := by
    simp only [Site.turn, found]
  rw [← turned] at lands
  refine ⟨tallied.countable, lands.alters.unique, lands.alters.below, fun act member => ?_⟩
  exact (mem_due_turn found member).elim (countable.plain act) (plain act)

/-- A turn replaces the share of its errand in what is still to be added to a counter, and adds one
to the reading if the step itself counts this. -/
theorem Countable.counted_turn {tally : Option Tally}
    (tallied : site.engine.Tallied tally (site.turn id).engine) (asked : Tally)
    (other : asked.isNode = false) :
    (site.turn id).counted asked + (errand.acts.filterMap Act.tally?).count asked =
      site.counted asked + (if tally = some asked then 1 else 0) +
        ((Stride.step site.engine site.office errand).errand.acts.filterMap Act.tally?).count
          asked := by
  have due := countP_due_turn Act.tally? (· == asked) countable.unique found
  have reading := tallied.others asked other
  simp only [Site.counted, List.count]
  omega

/-- An act that is carried out is queued no more, and is counted or recorded instead. -/
theorem Countable.reckons_act {act : Act} {rest : List Act} (acts : errand.acts = act :: rest) :
    site.Reckons (site.turn id)
      { moved := (((some act).filter site.engine.accepts).bind Act.moves?).toList
        refused := (((some act).filter (!site.engine.accepts ·)).bind Act.moves?).toList
        entered := site.engine.entered (site.turn id).engine } := by
  have stays : ∀ own ∈ errand.acts, ∀ kind, own.tally? ≠ some (.node kind) :=
    fun own member => countable.plain own (mem_due found member)
  have left : (Stride.step site.engine site.office errand).errand.acts = rest := by
    simp only [Stride.step, acts, Stride.act_errand]
  have tallied : site.engine.Tallied act.tally? (site.turn id).engine := by
    rw [(takesTurn found).engine]
    simp only [Stride.step, acts]
    exact Stride.act_tallied countable.engine site.office _
      (stays act (acts ▸ List.mem_cons_self))
  have first : ∀ {α : Type} (f : Act → Option α) (p : α → Bool),
      (errand.acts.filterMap f).countP p = (f act).toList.countP p +
        ((Stride.step site.engine site.office errand).errand.acts.filterMap f).countP p := by
    intro α f p
    rw [acts, left, List.filterMap_cons]
    cases f act <;> simp [List.countP_cons, Nat.add_comm]
  have counted : ∀ asked : Tally, asked.isNode = false →
      (site.turn id).counted asked = site.counted asked := by
    intro asked other
    have counts := countable.counted_turn found tallied asked other
    have tallies := first Act.tally? (· == asked)
    have once : act.tally?.toList.countP (· == asked) =
        if act.tally? = some asked then 1 else 0 := by
      cases act.tally? <;> simp [List.countP_cons]
    simp only [List.count] at counts
    omega
  refine ⟨countable.turn found tallied fun own member =>
    stays own (acts ▸ List.mem_cons_of_mem _ (left ▸ member)), fun status _ => ?_,
    fun outcome => ?_, tallied.nodes⟩
  · have due := countP_due_turn Act.moves? (·.2 = status) countable.unique found
    have moves := first Act.moves? (·.2 = status)
    have still := counted (.run status) rfl
    simp only [unsettled, List.length_nil, ite_self]
    -- either the ledger takes the act, or it does not
    cases taken : site.engine.accepts act with
    | true =>
      simp only [Option.filter_some, taken, if_true, Option.bind_some, Bool.not_true,
        Bool.false_eq_true, if_false, Option.bind_none, Option.toList_none, List.countP_nil]
      omega
    | false =>
      simp only [Option.filter_some, taken, if_true, Option.bind_some, Bool.not_false,
        Bool.false_eq_true, if_false, Option.bind_none, Option.toList_none, List.countP_nil]
      omega
  · exact counted (.event outcome) rfl

/-- A decision queues as many acts that count runs as acts that write records. -/
theorem Countable.reckons_decide (idle : errand.acts = []) :
    site.Reckons (site.turn id)
      { withdrawn := (site.office.withdrawn? errand.decision).toList
        handled := (site.office.outcome? errand.decision).toList
        entered := site.engine.entered (site.turn id).engine } := by
  have step : Stride.step site.engine site.office errand =
      Stride.decide site.engine site.office errand := by
    simp only [Stride.step, idle]
  have balances := Stride.decide_balances site.engine site.office idle
  rw [← step] at balances
  have tallied : site.engine.Tallied none (site.turn id).engine := by
    rw [(takesTurn found).engine, step]
    exact (Stride.decide_changes site.engine site.office errand).tallied countable.engine
  refine ⟨countable.turn found tallied fun act member kind same =>
    balances.nodes kind (List.mem_filterMap.mpr ⟨act, member, same⟩), fun status live => ?_,
    fun outcome => ?_, tallied.nodes⟩
  · have counts := countable.counted_turn found tallied (.run status) rfl
    have due := countP_due_turn Act.moves? (·.2 = status) countable.unique found
    have balance := balances.runs status live
    rw [idle] at counts due
    simp only [unsettled, List.countP_nil, List.filterMap_nil, List.count_nil, reduceCtorEq,
      if_false] at counts due ⊢
    omega
  · have counts := countable.counted_turn found tallied (.event outcome) rfl
    rw [idle, balances.events outcome] at counts
    simpa using counts

end Turns

section Occurrences

/-- The balance depends on the engine and the queued acts of the first site only. -/
theorem Reckons.before {middle : Site} {doings : Doings} (reckons : middle.Reckons after doings)
    (engine : middle.engine = site.engine) (due : middle.due = site.due) :
    site.Reckons after doings := by
  have counted : ∀ tally, middle.counted tally = site.counted tally := by
    intro tally
    rw [Site.counted, Site.counted, engine, due]
  refine ⟨reckons.countable, fun status live => ?_, fun outcome => ?_, engine ▸ reckons.nodes⟩
  · have runs := reckons.runs status live
    rwa [counted, unsettled, due] at runs
  · rw [← counted]
    exact reckons.events outcome

/-- No errand takes a turn, and no counter but those of nodes changes. -/
theorem Countable.aside (countable : site.Countable)
    (tallied : site.engine.Tallied none after.engine) (due : after.due = site.due)
    (unique : (Table.ids after.office.errands).Nodup)
    (below : ∀ entry ∈ after.office.errands, entry.1 < after.office.nextErrand) :
    site.Reckons after { entered := site.engine.entered after.engine } := by
  have counted : ∀ tally : Tally, tally.isNode = false →
      after.counted tally = site.counted tally := by
    intro tally other
    rw [Site.counted, Site.counted, due, tallied.others tally other]
    rfl
  refine ⟨⟨tallied.countable, unique, below, due ▸ countable.plain⟩, fun status _ => ?_,
    fun outcome => counted (.event outcome) rfl, tallied.nodes⟩
  rw [counted (.run status) rfl, unsettled, unsettled, due]
  simp

/-- Neither the runs nor the counters have changed, except for the gauge of pending runs. -/
theorem Countable.unmoved (countable : site.Countable) {engine : Engine}
    (runs : engine.runs = site.engine.runs) (nextRun : engine.nextRun = site.engine.nextRun)
    (metrics : engine.metrics = { site.engine.metrics with pending := engine.metrics.pending })
    (ledger : engine.ledger = site.engine.ledger) : site.engine.Tallied none engine :=
  (Engine.Changes.aside runs nextRun metrics ledger).tallied countable.engine

theorem due_takeOn (site : Site) {errand : Errand} (idle : errand.acts = []) :
    (site.takeOn errand).due = site.due := by
  simp [due, takeOn, Office.takeOn, idle]

theorem Countable.takeOn (countable : site.Countable) (errand : Errand)
    (idle : errand.acts = []) : site.Reckons (site.takeOn errand)
      { entered := site.engine.entered (site.takeOn errand).engine } := by
  refine countable.aside (countable.unmoved rfl rfl rfl rfl) (due_takeOn site idle) ?_
    fun entry member => ?_
  · have apart : ∀ id old, (id, old) ∈ site.office.errands → id ≠ site.office.nextErrand :=
      fun id old member => (countable.below _ member).ne
    simpa [Site.takeOn, Office.takeOn, List.nodup_append] using ⟨countable.unique, apart⟩
  · rcases List.mem_append.mp member with old | new
    · exact Nat.lt_succ_of_lt (countable.below entry old)
    · rw [List.mem_singleton.mp new]
      exact Nat.lt_succ_self _

theorem Countable.cancelRun (countable : site.Countable) (id : Nat) :
    site.Reckons (site.cancelRun id)
      { entered := site.engine.entered (site.cancelRun id).engine } := by
  rw [Site.cancelRun]
  split
  · exact countable.aside (countable.unmoved rfl rfl rfl rfl) rfl countable.unique countable.below
  · rename_i errand found
    have due (engine : Engine) : Site.due
        ⟨engine, site.office.setErrand id { errand with isCancelled := true }⟩ = site.due := by
      rw [Site.due, Site.due, Office.setErrand, List.flatMap_map]
      refine List.flatMap_congr fun entry member => ?_
      split
      · rename_i same
        have there : site.office.errands.lookup id = some entry.2 :=
          (Table.lookup_eq_some_iff countable.unique).mpr (same ▸ member)
        cases found.symm.trans there
        rfl
      · rfl
    have unique : (Table.ids
        (site.office.setErrand id { errand with isCancelled := true }).errands).Nodup := by
      have same := Table.ids_update id (fun _ => { errand with isCancelled := true })
        site.office.errands
      exact same ▸ countable.unique
    have below : ∀ entry ∈
        (site.office.setErrand id { errand with isCancelled := true }).errands,
          entry.1 < site.office.nextErrand := by
      intro entry member
      rcases mem_setErrand member with rfl | ⟨old, _⟩
      · exact countable.below (id, errand) (Table.mem_of_lookup found)
      · exact countable.below entry old
    dsimp only
    split
    · exact countable.aside (countable.unmoved rfl rfl rfl rfl) (due _) unique below
    · rename_i asked
      obtain ⟨r, _, there⟩ := Option.bind_eq_some_iff.mp asked
      obtain ⟨run, known, same⟩ := Option.map_eq_some_iff.mp there
      cases same
      exact countable.aside (Engine.tallied_cancel countable.engine known) (due _) unique below

theorem Countable.silence (countable : site.Countable) (id : Nat) :
    site.Reckons ⟨site.engine, site.office.silence (some id)⟩
      { entered := site.engine.entered site.engine } := by
  refine countable.aside (countable.unmoved rfl rfl rfl rfl) ?_ ?_ fun entry member => ?_
  · rw [due, due, Office.silence_errands]
  · rw [Office.silence_errands]
    exact countable.unique
  · rw [Office.silence_errands] at member
    exact countable.below entry member

/-- An errand that is taken on is there under the next id. -/
theorem Countable.errand?_takeOn (countable : site.Countable) (errand : Errand) :
    (site.takeOn errand).office.errand? site.office.nextErrand = some errand := by
  have unused : site.office.errands.lookup site.office.nextErrand = none := by
    refine Table.lookup_eq_none_of_not_mem fun used => ?_
    obtain ⟨entry, member, same⟩ := List.mem_map.mp used
    exact (countable.below entry member).ne same
  simp [Site.takeOn, Office.takeOn, Office.errand?, List.lookup_append, unused]

theorem Countable.ring (countable : site.Countable) (id : Nat) :
    site.Reckons (site.ring id) { entered := site.engine.entered (site.ring id).engine } ∧
      (site.ring id).engine.ledger = site.engine.ledger := by
  have silent := countable.silence id
  rw [Site.ring]
  split
  · exact ⟨countable.aside (countable.unmoved rfl rfl rfl rfl) rfl countable.unique
      countable.below, rfl⟩
  · rename_i alarm found
    dsimp only
    split
    · let expiry : Errand := { decision := .expire alarm.execution }
      have taken := silent.countable.takeOn expiry rfl
      have there := silent.countable.errand?_takeOn expiry
      have turned := taken.countable.reckons_decide there rfl
      refine ⟨turned.before rfl ?_, ?_⟩
      · rw [due_takeOn _ rfl, due, due, Office.silence_errands]
      · exact (congrArg Engine.ledger (takesTurn there).engine).trans
          (Stride.decide_changes ..).ledger
    · exact ⟨silent, rfl⟩

/-- Over each occurrence the counters keep up with the records. -/
theorem Countable.occur (countable : site.Countable) (occurrence : Occurrence) :
    site.Reckons (site.occur occurrence) (site.doings occurrence) := by
  have same {after : Site} (tallied : site.engine.Tallied none after.engine)
      (errands : after.office.errands = site.office.errands)
      (nextErrand : after.office.nextErrand = site.office.nextErrand) :
      site.Reckons after { entered := site.engine.entered after.engine } := by
    refine countable.aside tallied (by rw [due, due, errands]) (errands ▸ countable.unique) ?_
    rw [errands, nextErrand]
    exact countable.below
  cases occurrence with
  | demand demand =>
    cases demand with
    | move m =>
      cases m with
      | order order => exact countable.takeOn _ rfl
      | turn id =>
        have turned : site.occur (.demand (.move (.turn id))) = site.turn id := rfl
        cases found : site.office.errand? id with
        | none =>
          have unturned : site.turn id = site := by simp only [Site.turn, found]
          have aside : site.Reckons (site.turn id)
              { entered := site.engine.entered (site.turn id).engine } := by
            rw [unturned]
            exact same (countable.unmoved rfl rfl rfl rfl) rfl rfl
          simpa [doings, carried?, decided?, turning?, turned, found] using aside
        | some errand =>
          cases acts : errand.acts with
          | nil =>
            have decides := countable.reckons_decide found acts
            simpa [doings, carried?, decided?, turning?, turned, found, acts, Option.filter_some]
              using decides
          | cons act rest =>
            have carries := countable.reckons_act found acts
            simpa [doings, carried?, decided?, turning?, turned, found, acts, Option.filter_some]
              using carries
      | branch run id =>
        exact same (Engine.tallied_stepRun countable.engine run (.branch id)) rfl rfl
      | ring id => exact (countable.ring id).1
      | learn | pass => exact same (countable.unmoved rfl rfl rfl rfl) rfl rfl
    | execute | resume => exact countable.takeOn _ rfl
    | cancelRun id => exact countable.cancelRun id
  | restore => exact countable.takeOn _ rfl
  | outage =>
    exact same (Engine.tallied_of_runs countable.engine rfl rfl rfl fun _ _ => rfl) rfl rfl

theorem Reckons.trans {middle : Site} {first second : Doings}
    (before : site.Reckons middle first) (later : middle.Reckons after second) :
    site.Reckons after (first.append second) where
  countable := later.countable
  runs status live := by
    have runs := before.runs status live
    have runs' := later.runs status live
    simp only [Doings.append, List.countP_append, List.length_append]
    split at runs
    · rename_i cancelled
      rw [if_pos cancelled] at runs' ⊢
      omega
    · rename_i other
      rw [if_neg other] at runs' ⊢
      omega
  events outcome := by
    rw [later.events, before.events, Doings.append, List.count_append, Nat.add_assoc]
  nodes := by
    rw [later.nodes, before.nodes, Doings.append, List.length_append, Nat.add_assoc]

/-- Over each history the counters keep up with the records. -/
theorem Countable.undergo (countable : site.Countable) (history : List Occurrence) :
    site.Reckons (site.undergo history) (site.recount history) := by
  induction history generalizing site with
  | nil => exact ⟨countable, fun _ _ => by simp [recount, Site.undergo], fun _ => rfl, rfl⟩
  | cons occurrence rest ih =>
    have first := countable.occur occurrence
    exact first.trans (ih first.countable)

theorem Countable.opened (catalog : Catalog) (limit : Nat) (ledger : Option Ledger)
    (epoch : Instant) (policy : TimeoutPolicy) :
    (Site.opened catalog limit ledger epoch policy).Countable where
  engine := ⟨⟨List.nodup_nil, fun _ member => absurd member List.not_mem_nil⟩,
    fun _ member => absurd member List.not_mem_nil, List.Pairwise.nil⟩
  unique := List.nodup_nil
  below _ member := absurd member List.not_mem_nil
  plain _ member := absurd member List.not_mem_nil

/-- At an occurrence nothing is recorded but what an act writes and the ledger accepts. -/
theorem Countable.book_occur (countable : site.Countable) (occurrence : Occurrence) :
    (site.occur occurrence).engine.book =
      (((site.carried? occurrence).filter site.engine.accepts).map
        (Act.entered site.engine.book)).getD site.engine.book := by
  have same {after : Site} (ledger : after.engine.ledger = site.engine.ledger) :
      after.engine.book = site.engine.book := Engine.book_of_ledger ledger
  cases occurrence with
  | demand demand =>
    cases demand with
    | move m =>
      cases m with
      | order order => rfl
      | turn id =>
        have turned : site.occur (.demand (.move (.turn id))) = site.turn id := rfl
        rw [turned]
        cases found : site.office.errand? id with
        | none =>
          simp only [Site.turn, carried?, turning?, found]
          rfl
        | some errand =>
          rw [(takesTurn found).engine]
          cases acts : errand.acts with
          | nil =>
            have still := (Stride.decide_changes site.engine site.office errand).ledger
            simpa [Stride.step, acts, carried?, turning?, found] using Engine.book_of_ledger still
          | cons act rest =>
            simp only [Stride.step, acts, carried?, turning?, found, Stride.recorded_act,
              Option.bind_some, List.head?_cons, Option.filter_some]
            split <;> rfl
      | branch run id => exact same (site.engine.stepRun_keeps run (.branch id)).2
      | ring id => exact same (countable.ring id).2
      | learn | pass => rfl
    | execute | resume => rfl
    | cancelRun id =>
      refine same ?_
      show (site.cancelRun id).engine.ledger = site.engine.ledger
      rw [Site.cancelRun]
      repeat' split
      all_goals rfl
  | restore => rfl
  | outage failing =>
    show (site.suffer failing).engine.book = site.engine.book
    funext execution
    cases known : site.engine.ledger with
    | none => simp [Site.suffer, Engine.book, known]
    | some ledger => simp [Site.suffer, Engine.book, known, Ledger.book]

variable {occurrence : Occurrence} {execution : String} {status : Status}

/-- A record that has been given a status has this status. -/
theorem Countable.status_of_moved (countable : site.Countable)
    (moved : (execution, status) ∈ (site.doings occurrence).moved) :
    ∃ record, (site.occur occurrence).engine.book execution = some record ∧
      record.status = status := by
  obtain ⟨act, carried, moves⟩ := Option.bind_eq_some_iff.mp (Option.mem_toList.mp moved)
  rw [countable.book_occur, carried]
  exact Act.status_entered (Option.filter_eq_some_iff.mp carried).2 moves

/-- A record that has not been given a status stays as it is. -/
theorem Countable.book_of_unmoved (countable : site.Countable)
    (unmoved : ∀ status, (execution, status) ∉ (site.doings occurrence).moved) :
    (site.occur occurrence).engine.book execution = site.engine.book execution := by
  rw [countable.book_occur]
  cases carried : (site.carried? occurrence).filter site.engine.accepts with
  | none => rfl
  | some act =>
    refine Act.entered_of_ne fun writes => ?_
    obtain ⟨status, moves⟩ := Act.moves_of_writes writes
    exact unmoved status (Option.mem_toList.mpr (Option.bind_eq_some_iff.mpr
      ⟨act, carried, moves⟩))

end Occurrences

/-- Over any history of calls to an engine and its office, alarms included, in whatever order the
steps of all errands and branches follow one another, as long as the ledger takes over whatever is
written about a run: for every status but that of a run under way, what has been counted and what is
still to be counted make up the records that have been moved to the status and those that are still
to be moved; only the cancellations of pending runs, which move records to cancelled, are counted
nowhere. Every event that has been handled has been counted once, or is next, under what has become
of it. And the nodes that have been counted, with those that are announced next, are the nodes that
the histories of the runs have gained. So once nothing is left to do, the counters show exactly how
often records have been moved, but for the cancellations of pending runs, and how often events have
been handled. -/
theorem counters_account_for_history (catalog : Catalog) (limit : Nat) (ledger : Ledger)
    (epoch : Instant) (policy : TimeoutPolicy) (history : List Occurrence)
    (taken : ((opened catalog limit (some ledger) epoch policy).recount history).refused = []) :
    let site := (opened catalog limit (some ledger) epoch policy).undergo history
    let told := (opened catalog limit (some ledger) epoch policy).recount history
    let metrics := site.engine.metrics
    (∀ status, status ≠ .running →
      site.counted (.run status) + (if status = .cancelled then told.withdrawn.length else 0) =
        told.moved.countP (·.2 = status) + site.unsettled status) ∧
    (∀ outcome, site.counted (.event outcome) = told.handled.count outcome) ∧
    metrics.nodesExecuted + site.engine.announcing = told.entered.length ∧
    (site.due = [] →
      (∀ status, status = .completed ∨ status = .failed ∨ status = .paused →
        metrics.reading (.run status) = told.moved.countP (·.2 = status)) ∧
      metrics.reading (.run .cancelled) + told.withdrawn.length =
        told.moved.countP (·.2 = .cancelled) ∧
      ∀ outcome, metrics.reading (.event outcome) = told.handled.count outcome) := by
  intro site told metrics
  have reckons : Reckons _ site told :=
    (Countable.opened catalog limit (some ledger) epoch policy).undergo history
  have none : ∀ tally, (opened catalog limit (some ledger) epoch policy).counted tally = 0 := by
    intro tally
    cases tally <;> rfl
  have runs : ∀ status, status ≠ .running →
      site.counted (.run status) + (if status = .cancelled then told.withdrawn.length else 0) =
        told.moved.countP (·.2 = status) + site.unsettled status := by
    intro status live
    have balance := reckons.runs status live
    rw [none, show told.refused = [] from taken] at balance
    simpa [unsettled, due, opened] using balance
  have events : ∀ outcome, site.counted (.event outcome) = told.handled.count outcome := by
    intro outcome
    rw [reckons.events, none, Nat.zero_add]
  refine ⟨runs, events, ?_, fun rests => ?_⟩
  · exact reckons.nodes.trans (Nat.zero_add _)
  · have counted : ∀ tally, site.counted tally = metrics.reading tally := by
      intro tally
      rw [Site.counted, rests]
      rfl
    have settled : ∀ status, site.unsettled status = 0 := by
      intro status
      rw [unsettled, rests]
      rfl
    refine ⟨fun status ends => ?_, ?_, fun outcome => (counted _).symm.trans (events outcome)⟩
    · have balance := runs status (by rcases ends with rfl | rfl | rfl <;> decide)
      rw [counted, settled, if_neg (by rcases ends with rfl | rfl | rfl <;> decide)] at balance
      exact balance
    · have balance := runs .cancelled (by decide)
      rw [counted, settled, if_pos rfl] at balance
      exact balance

/-- A run is paused, goes on when an event comes, is paused again, and is cancelled. -/
def cancelling : List Occurrence :=
  let turns (errand number : Nat) : List Occurrence :=
    List.replicate number (.demand (.move (.turn errand)))
  .demand (.move (.order (.run twice .null))) :: turns 0 20 ++
    .demand (.move (.order (.handle twice going))) :: turns 1 25 ++
    .demand (.move (.order (.cancel (Id.fresh 0)))) :: turns 2 6

theorem counters_account_for_history_cancelling :
    let site := (opened [] 10 (some {}) ⟨0, 0⟩ .drop).undergo cancelling
    let told := (opened [] 10 (some {}) ⟨0, 0⟩ .drop).recount cancelling
    let metrics := site.engine.metrics
    told.refused = [] ∧ site.due = [] ∧
      told.moved.map (·.2) = [.running, .paused, .running, .paused, .cancelled] ∧
      metrics.reading (.run .paused) = 2 ∧
      metrics.reading (.run .cancelled) + told.withdrawn.length = 1 ∧
      metrics.reading (.event .resumed) = 1 ∧
      metrics.nodesExecuted + site.engine.announcing = 2 := by
  intro site told metrics
  have taken : told.refused = [] := by decide +kernel
  have rests : site.due = [] := by decide +kernel
  have moved : told.moved.map (·.2) = [.running, .paused, .running, .paused, .cancelled] := by
    decide +kernel
  obtain ⟨_, _, nodes, rested⟩ :=
    counters_account_for_history [] 10 {} ⟨0, 0⟩ .drop cancelling taken
  obtain ⟨runs, cancelled, events⟩ := rested rests
  have paused := runs .paused (.inr (.inr rfl))
  have resumed := events .resumed
  refine ⟨taken, rests, moved, ?_, ?_, ?_, ?_⟩
  · rw [paused]
    decide +kernel
  · rw [cancelled]
    decide +kernel
  · rw [resumed]
    decide +kernel
  · rw [nodes]
    decide +kernel

/-- The cancelled run is recorded as cancelled, once all is done, and no counter shows it. -/
theorem cancelled_run_is_not_counted :
    let site := (opened [] 10 (some {}) ⟨0, 0⟩ .drop).undergo cancelling
    let told := (opened [] 10 (some {}) ⟨0, 0⟩ .drop).recount cancelling
    told.refused = [] ∧ site.office.errands.length = 0 ∧
      (site.engine.book (Id.fresh 0)).map RunRecord.status = some .cancelled ∧
      told.moved.countP (·.2 = .cancelled) = 1 ∧
      site.engine.metrics.reading (.run .cancelled) = 0 := by
  decide +kernel

end Site

end DurableFlow
