import DurableFlow.Proofs.Data.Bindings
import DurableFlow.Proofs.Desk.Abreast

/-!
# Events for different runs may be handled in either order

An event is handled for the run that has waited longest among those that wait for it. Handling
another event first may take a run out of the pending ones and put it back with a later pause, and
touches no other run (`KeepsTo`). So the run that the event is for remains the same
(`Desk.match?_of_later`), and what handling it comes to is the same up to timestamps (`Abreast`).
Therefore two events that are for different runs commute, unless one of the errands breaks down
because a date leaves the calendar.
-/

namespace DurableFlow

namespace Instant

variable {a b c : Instant}

theorem before_of_before_of_atMost (first : a.before b = true) (second : b.atMost c = true) :
    a.before c = true := by
  rw [atMost_iff] at second
  simp only [before, Bool.or_eq_true, decide_eq_true_eq, Bool.and_eq_true, beq_iff_eq] at first ⊢
  omega

theorem before_of_atMost_of_before (first : a.atMost b = true) (second : b.before c = true) :
    a.before c = true := by
  rw [atMost_iff] at first
  simp only [before, Bool.or_eq_true, decide_eq_true_eq, Bool.and_eq_true, beq_iff_eq] at second ⊢
  omega

end Instant

namespace Event

variable {states : List Suspended} {state first : Suspended}

theorem foldl_earlier_of_first {after : List Suspended}
    (later : ∀ other ∈ after, state.pausedAt.atMost other.pausedAt = true) :
    after.foldl earlier state = state := by
  induction after with
  | nil => rfl
  | cons next rest ih =>
    have kept : earlier state next = state :=
      if_neg (by simpa [Instant.atMost] using later next List.mem_cons_self)
    rw [List.foldl_cons, kept]
    exact ih fun other member => later other (List.mem_cons_of_mem next member)

/-- A run is found behind others that have all been suspended later. -/
theorem foldl_earlier_of_later {before after : List Suspended}
    (follows : state.pausedAt.before first.pausedAt = true)
    (sooner : ∀ other ∈ before, state.pausedAt.before other.pausedAt = true)
    (later : ∀ other ∈ after, state.pausedAt.atMost other.pausedAt = true) :
    (before ++ state :: after).foldl earlier first = state := by
  induction before generalizing first with
  | nil =>
    have kept : earlier first state = state := if_pos follows
    rw [List.nil_append, List.foldl_cons, kept]
    exact foldl_earlier_of_first later
  | cons next rest ih =>
    rw [List.cons_append, List.foldl_cons]
    refine ih ?_ fun other member => sooner other (List.mem_cons_of_mem next member)
    rcases earlier_eq first next with kept | kept <;> rw [kept]
    · exact follows
    · exact sooner next List.mem_cons_self

/-- The earliest of several runs is the one that those before it have been suspended after, and
those behind it no earlier than. -/
theorem earliest?_eq_some_iff : earliest? states = some state ↔
    ∃ before after, states = before ++ state :: after ∧
      (∀ other ∈ before, state.pausedAt.before other.pausedAt = true) ∧
      ∀ other ∈ after, state.pausedAt.atMost other.pausedAt = true := by
  constructor
  · intro found
    cases states with
    | nil => contradiction
    | cons first rest =>
      obtain rfl : rest.foldl earlier first = state := Option.some.inj found
      clear found
      induction rest generalizing first with
      | nil => exact ⟨[], [], rfl, by simp, by simp⟩
      | cons next rest ih =>
        rw [List.foldl_cons]
        obtain ⟨before, after, split, sooner, later⟩ := ih (earlier first next)
        have atMost := foldl_earlier_atMost (earlier first next) rest _ List.mem_cons_self
        generalize rest.foldl earlier (earlier first next) = least at *
        by_cases comes : next.pausedAt.before first.pausedAt = true
        · rw [earlier, if_pos comes] at split atMost
          refine ⟨first :: before, after, by rw [split]; rfl, fun other member => ?_, later⟩
          rcases List.mem_cons.mp member with rfl | among
          · exact Instant.before_of_atMost_of_before atMost comes
          · exact sooner other among
        · have kept : first.pausedAt.atMost next.pausedAt = true := by
            simpa [Instant.atMost] using comes
          rw [earlier, if_neg comes] at split
          cases before with
          | nil =>
            obtain ⟨rfl, rfl⟩ := List.cons.inj split
            exact ⟨[], next :: rest, rfl, by simp, List.forall_mem_cons.mpr ⟨kept, later⟩⟩
          | cons other before =>
            obtain ⟨rfl, rfl⟩ := List.cons.inj split
            have strictly := sooner first List.mem_cons_self
            refine ⟨first :: next :: before, after, rfl, fun other member => ?_, later⟩
            rcases List.mem_cons.mp member with rfl | among
            · exact strictly
            rcases List.mem_cons.mp among with rfl | among
            · exact Instant.before_of_before_of_atMost strictly kept
            · exact sooner other (List.mem_cons_of_mem first among)
  · rintro ⟨before, after, rfl, sooner, later⟩
    cases before with
    | nil => exact congrArg some (foldl_earlier_of_first later)
    | cons first rest =>
      exact congrArg some (foldl_earlier_of_later (sooner first List.mem_cons_self)
        (fun other member => sooner other (List.mem_cons_of_mem first member)) later)

/-- The earliest of several runs remains the earliest when others are left out. -/
theorem earliest?_filter (found : earliest? states = some state) (keep : Suspended → Bool)
    (kept : keep state = true) : earliest? (states.filter keep) = some state := by
  obtain ⟨before, after, rfl, sooner, later⟩ := earliest?_eq_some_iff.mp found
  refine earliest?_eq_some_iff.mpr ⟨before.filter keep, after.filter keep, ?_,
    fun other member => sooner other (List.mem_of_mem_filter member),
    fun other member => later other (List.mem_of_mem_filter member)⟩
  rw [List.filter_append, List.filter_cons_of_pos kept]

/-- The earliest of several runs remains the earliest when others are added, wherever they stand,
that have been suspended later. -/
theorem earliest?_of_filter {keep : Suspended → Bool}
    (found : earliest? (states.filter keep) = some state)
    (added : ∀ other ∈ states, keep other = false → state.pausedAt.before other.pausedAt = true) :
    earliest? states = some state := by
  obtain ⟨before, after, split, sooner, later⟩ := earliest?_eq_some_iff.mp found
  obtain ⟨front, back, rfl, rfl, rest⟩ := List.filter_eq_append_iff.mp split
  obtain ⟨middle, latter, rfl, dropped, kept, rfl⟩ := List.filter_eq_cons_iff.mp rest
  refine earliest?_eq_some_iff.mpr ⟨front ++ middle, latter, by simp, fun other member => ?_,
    fun other member => ?_⟩
  · cases keeps : keep other with
    | false => exact added other (by simp only [List.mem_append] at member ⊢; tauto) keeps
    | true =>
      rcases List.mem_append.mp member with among | among
      · exact sooner other (List.mem_filter.mpr ⟨among, keeps⟩)
      · exact absurd keeps (dropped other among)
  · cases keeps : keep other with
    | false =>
      exact Instant.atMost_of_before (added other (by simp [member]) keeps)
    | true => exact later other (List.mem_filter.mpr ⟨member, keeps⟩)

end Event

namespace Desk

variable {desk after : Desk} {workflow execution : String} {event : Event} {state : Suspended}

/-- The pending runs of a workflow once another run has been taken out. -/
theorem IsMap.pendingOf_take (map : desk.IsMap) (workflow execution : String) :
    (desk.take execution).pendingOf workflow =
      (desk.pendingOf workflow).filter (·.execution != execution) := by
  have keyed : desk.pending.filter (fun entry => entry.2.state.execution != execution) =
      desk.pending.filter (·.1 != execution) :=
    List.filter_congr fun entry member => by rw [map.own entry member]
  rw [pendingOf, show (desk.take execution).pending = _ from keyed.symm]
  simp only [pendingOf, Fields.values, List.filter_map, List.filter_filter, Function.comp_def,
    Bool.and_comm]

/-- A run that an event is meant for remains the one when nothing happens to the pending runs but
that another one is taken out and put back with a later pause. -/
theorem match?_of_later (coherent : desk.Coherent) (coherent' : after.Coherent)
    (matched : desk.match? workflow event = some state) (different : state.execution ≠ execution)
    (pauses : ∀ other, other ≠ execution → after.pending? other = desk.pending? other)
    (late : ∀ pending, after.pending? execution = some pending →
      desk.pending? execution = some pending ∨
        state.pausedAt.before pending.state.pausedAt = true) :
    after.match? workflow event = some state := by
  have kept : (state.execution != execution) = true := by simpa using different
  by_cases same : after.pending? execution = desk.pending? execution
  · have still : after.pending = desk.pending := by
      refine coherent'.sorted.1.ext coherent.sorted.1 fun other => ?_
      by_cases own : other = execution
      · exact own ▸ same
      · exact pauses other own
    rw [match?, pendingOf, still]
    exact matched
  · have taken : (after.take execution).pending = (desk.take execution).pending := by
      refine (coherent'.take execution).sorted.1.ext (coherent.take execution).sorted.1
        fun other => ?_
      have others := pauses other
      change (after.take execution).pending? other = (desk.take execution).pending? other
      rw [pending?_take, pending?_take]
      split
      · rfl
      · rename_i foreign
        exact others foreign
    have left : (after.pendingOf workflow).filter (·.execution != execution) =
        (desk.pendingOf workflow).filter (·.execution != execution) := by
      rw [← coherent'.isMap.pendingOf_take, ← coherent.isMap.pendingOf_take, pendingOf, taken,
        pendingOf]
    have found := Event.earliest?_filter matched (·.execution != execution) kept
    rw [List.filter_comm, ← left, List.filter_comm] at found
    refine Event.earliest?_of_filter found fun other member again => ?_
    have own : other.execution = execution := by simpa using again
    obtain ⟨_, alarm, there⟩ := coherent'.isMap.mem_pendingOf.mp (List.mem_of_mem_filter member)
    rw [own] at there
    refine (late _ there).resolve_left fun before => same ?_
    rw [there, before]

end Desk

namespace Site

/-- The office is asked to handle an event for a workflow. -/
def asked (site : Site) (d : Definition) (event : Event) : Site :=
  site.move (.order (.handle d event))

/-- The office is asked to handle an event, and nothing else happens but what is in the course. -/
def handle (site : Site) (d : Definition) (event : Event) (course : List Beat) : Site :=
  (site.asked d event).beats site.office.nextErrand course

/-- What the office answers when it handles an event. -/
def replies (site : Site) (d : Definition) (event : Event) (course : List Beat) : List Answer :=
  (site.asked d event).answersIn site.office.nextErrand course

/-- What is done in a course to handle an event. -/
def efforts (site : Site) (d : Definition) (event : Event) (course : List Beat) : List Beat :=
  (site.asked d event).progress site.office.nextErrand course

/-- The errand that handles an event does not break down. -/
def HandlesSoundly (site : Site) (d : Definition) (event : Event) (course : List Beat) : Prop :=
  (site.asked d event).StaysSound site.office.nextErrand course = true

/-- The event is handled to its end, and no branch takes part in that. -/
structure HandlesAlone (site : Site) (d : Definition) (event : Event) (course : List Beat) :
    Prop where
  alone : ∀ beat ∈ site.efforts d event course, beat = .turn
  done : (site.handle d event course).office.errand? site.office.nextErrand = none

/-- An event is handled by the same turns and the same steps of branches in the same order, however
long they are held up. Where no branch takes part, it is enough that it is handled to its end. -/
def HandlesAlike (site other : Site) (d : Definition) (event : Event) (course course' : List Beat) :
    Prop :=
  other.efforts d event course' = site.efforts d event course ∨
    site.HandlesAlone d event course ∧ other.HandlesAlone d event course'

/-- The run that waits with this state goes on with the event, and is taken out of the pending ones
for that. -/
def Resumes (site : Site) (d : Definition) (event : Event) (state : Suspended) : Prop :=
  (site.asked d event).Claims site.office.nextErrand d event false state

/-- What is recorded and what is pending of each execution is the same up to timestamps. -/
structure Resembles (site other : Site) : Prop where
  records : ∀ execution, (other.engine.book execution).map RunRecord.undated =
    (site.engine.book execution).map RunRecord.undated
  pending : ∀ execution, (other.office.desk.paused execution).map Suspended.undated =
    (site.office.desk.paused execution).map Suspended.undated

/-- What holds of an office after any history: the invariants on which the handling of an event
relies. -/
structure InOrder (site : Site) : Prop where
  coherent : site.Coherent
  counted : site.Counted

theorem KeepsTo.paused {site after : Site} {execution other : String} {since : Instant}
    (keeps : site.KeepsTo after execution since) (different : other ≠ execution) :
    after.office.desk.paused other = site.office.desk.paused other := by
  rw [Desk.paused, Desk.paused, keeps.pauses other different]

namespace InOrder

variable {site : Site} {d : Definition} {event : Event} {state : Suspended}
  {execution : String} {since : Instant}

theorem undergone (catalog : Catalog) (limit : Nat) (ledger : Option Ledger) (epoch : Instant)
    (policy : TimeoutPolicy) (history : List Occurrence) :
    ((opened catalog limit ledger epoch policy).undergo history).InOrder where
  coherent := (Coherent.opened catalog limit ledger epoch policy).undergo history
  counted := (Counted.opened catalog limit ledger epoch policy).undergo history

variable (inOrder : site.InOrder)
include inOrder

theorem move (m : Move) : (site.move m).InOrder where
  coherent := inOrder.coherent.move m
  counted := inOrder.counted.occur (.demand (.move m))

theorem play (schedule : List Move) : (site.play schedule).InOrder := by
  induction schedule generalizing site with
  | nil => exact inOrder
  | cons m rest ih => exact ih (inOrder.move m)

theorem handle (d : Definition) (event : Event) (course : List Beat) :
    (site.handle d event course).InOrder := by
  have asked : (site.asked d event).InOrder := inOrder.move _
  rw [Site.handle]
  generalize site.office.nextErrand = id
  generalize site.asked d event = begun at asked
  clear inOrder
  induction course generalizing begun with
  | nil => exact asked
  | cons next rest ih =>
    change ((begun.beat id next).beats id rest).InOrder
    refine ih _ ?_
    rw [Site.beat]
    cases begun.move? id next with
    | none => exact asked
    | some m => exact asked.move m

theorem handling (d : Definition) (event : Event) :
    (site.asked d event).Handling site.office.nextErrand d event false :=
  handling_order inOrder.coherent.numbered inOrder.coherent.desk.isMap
    (inOrder.counted _ (Nat.le_refl _))

variable (meant : site.office.desk.match? d.id event = some state)
include meant

theorem resumes : site.Resumes d event state := (inOrder.handling d event).claims meant

theorem pursues : (site.asked d event).Pursues site.office.nextErrand d event state
    site.engine.moment.now where
  numbered := inOrder.coherent.numbered
  recent := Instant.atMost_refl _
  errand _ found :=
    .inl ⟨Option.some.inj (found.symm.trans (inOrder.handling d event).asked), meant⟩
  tended errand found := by
    cases found.symm.trans (inOrder.handling d event).asked
    exact Errand.isTended_of_idle rfl

/-- Handling an event touches nothing of other executions. -/
theorem keepsTo (course : List Beat) : site.KeepsTo (site.handle d event course) state.execution
    site.engine.moment.now := by
  obtain ⟨means, records, pauses, late⟩ := ((inOrder.pursues meant).beats course).2
  exact ⟨means, records, pauses, late⟩

/-- A run that another event is meant for remains the one that it is meant for. -/
theorem meant_after {other : Suspended} {event' : Event}
    (meant' : site.office.desk.match? d.id event' = some other)
    (different : other.execution ≠ state.execution)
    (past : other.pausedAt.before site.engine.moment.now = true) (course : List Beat) :
    (site.handle d event course).office.desk.match? d.id event' = some other := by
  obtain ⟨_, _, pauses, late⟩ := inOrder.keepsTo meant course
  exact Desk.match?_of_later inOrder.coherent.desk (inOrder.handle d event course).coherent.desk
    meant' different pauses fun pending found =>
      (late pending found).imp_right (Instant.before_of_before_of_atMost past)

/-- An event that is meant for one run comes to the same at two sites that agree about this run. -/
theorem handled_alike {after : Site} (inOrder' : after.InOrder)
    (timeless : site.engine.catalog.IsTimeless) (keeps : site.KeepsTo after execution since)
    (different : state.execution ≠ execution)
    (meant' : after.office.desk.match? d.id event = some state) {course course' : List Beat}
    (alike : site.HandlesAlike after d event course course')
    (sound : site.HandlesSoundly d event course)
    (sound' : after.HandlesSoundly d event course') :
    (site.handle d event course).Abreast (after.handle d event course') site.office.nextErrand
        after.office.nextErrand state.execution ∧
      (after.replies d event course').map Answer.undated =
        (site.replies d event course).map Answer.undated := by
  have asked : (site.asked d event).Abreast (after.asked d event) site.office.nextErrand
      after.office.nextErrand state.execution := by
    refine ⟨keeps.means, ?_, ?_, ?_⟩
    · rw [(inOrder.handling d event).asked, (inOrder'.handling d event).asked]
      exact .some ⟨keeps.means, ⟨rfl, .claim d event, rfl, rfl⟩, rfl⟩
    · exact congrArg _ (keeps.records state.execution different)
    · exact congrArg _ (keeps.paused different)
  have still : (site.asked d event).engine.catalog.IsTimeless := timeless
  have pursues := inOrder.pursues meant
  have pursues' := inOrder'.pursues meant'
  have same : after.efforts d event course' = site.efforts d event course := by
    rcases alike with same | ⟨⟨alone, done⟩, alone', done'⟩
    · exact same
    · exact asked.progress_eq still pursues pursues' alone alone' done done' sound sound'
  exact asked.beats still pursues pursues' same sound sound'

end InOrder

variable {site : Site} {d : Definition} {first second : Event} {one other : Suspended}

/-- Two events are meant for different runs that have been suspended before now, and the procedures
answer by what they are asked. In either order each event resumes the run that it is meant for. If
each of them is handled alike in both orders, and none of the errands breaks down, both orders come
to the same answers, the same records and the same pending runs up to timestamps. -/
theorem events_commute (inOrder : site.InOrder) (timeless : site.engine.catalog.IsTimeless)
    (meant : site.office.desk.match? d.id first = some one)
    (meant' : site.office.desk.match? d.id second = some other) (different : one ≠ other)
    (past : one.pausedAt.before site.engine.moment.now = true)
    (past' : other.pausedAt.before site.engine.moment.now = true)
    (course course' path path' : List Beat) :
    let sooner := site.handle d first course
    let later := site.handle d second path
    (site.Resumes d first one ∧ sooner.Resumes d second other) ∧
      (site.Resumes d second other ∧ later.Resumes d first one) ∧
      (site.HandlesAlike later d first course course' →
        site.HandlesAlike sooner d second path path' →
        site.HandlesSoundly d first course → sooner.HandlesSoundly d second path' →
        site.HandlesSoundly d second path → later.HandlesSoundly d first course' →
        (later.replies d first course').map Answer.undated =
            (site.replies d first course).map Answer.undated ∧
          (sooner.replies d second path').map Answer.undated =
            (site.replies d second path).map Answer.undated ∧
          (sooner.handle d second path').Resembles (later.handle d first course')) := by
  intro sooner later
  have apart : one.execution ≠ other.execution := by
    intro is
    obtain ⟨_, alarm, found⟩ := (inOrder.coherent.desk.isMap.isMeant_of_match? meant).waits
    obtain ⟨_, alarm', found'⟩ := (inOrder.coherent.desk.isMap.isMeant_of_match? meant').waits
    rw [is, found'] at found
    cases found
    exact different rfl
  have soonerInOrder : sooner.InOrder := inOrder.handle d first course
  have laterInOrder : later.InOrder := inOrder.handle d second path
  have still : sooner.office.desk.match? d.id second = some other :=
    inOrder.meant_after meant meant' apart.symm past' course
  have still' : later.office.desk.match? d.id first = some one :=
    inOrder.meant_after meant' meant apart past path
  refine ⟨⟨inOrder.resumes meant, soonerInOrder.resumes still⟩,
    ⟨inOrder.resumes meant', laterInOrder.resumes still'⟩,
    fun alike alike' sound next sound' next' => ?_⟩
  have keeps := inOrder.keepsTo meant course
  have keeps' := inOrder.keepsTo meant' path
  have afterwards := soonerInOrder.keepsTo still path'
  have afterwards' := laterInOrder.keepsTo still' course'
  obtain ⟨even, answers⟩ := inOrder.handled_alike meant laterInOrder timeless keeps' apart still'
    alike sound next'
  obtain ⟨even', answers'⟩ := inOrder.handled_alike meant' soonerInOrder timeless keeps apart.symm
    still alike' sound' next
  refine ⟨answers, answers', fun execution => ?_, fun execution => ?_⟩
  · by_cases own : execution = one.execution
    · rw [own, afterwards.records _ apart]
      exact even.record
    by_cases own' : execution = other.execution
    · rw [own', afterwards'.records _ apart.symm]
      exact even'.record.symm
    · rw [afterwards.records _ own', afterwards'.records _ own, keeps.records _ own,
        keeps'.records _ own']
  · by_cases own : execution = one.execution
    · rw [own, afterwards.paused apart]
      exact even.paused
    by_cases own' : execution = other.execution
    · rw [own', afterwards'.paused apart.symm]
      exact even'.paused.symm
    · rw [afterwards.paused own', afterwards'.paused own, keeps.paused own, keeps'.paused own']

/-- A workflow with three waits, the last of which ends by itself. -/
def relay (durationMs : Nat) : Definition where
  id := "relay"
  name := "relay"
  start := "first"
  nodes := [
    { id := "first", kind := .await ["go"] none none, next := some (.one "second") },
    { id := "second", kind := .await ["stop"] none none, next := some (.one "third") },
    { id := "third", kind := .await ["go"] none (some ⟨durationMs, none⟩) }]

/-- The event that the second wait is for. -/
def halting : Event := { going with id := "halting", type := some "stop" }

/-- What the run is waiting for that is at its second wait. -/
def halfway : Suspended where
  workflow := "relay"
  execution := "halfway"
  node := "second"
  vars := [("event", going.toVariables)]
  outputs := []
  history := ["first", "second"]
  wait := { names := ["stop"], filter := none }
  reason := "awaiting stop"
  deadline := none
  pausedAt := ⟨0, 22⟩
  startedAt := ⟨0, 0⟩

/-- What the other run is waiting for, which has begun after it. -/
def starting : Suspended :=
  { halfway with
    execution := "starting"
    node := "first"
    vars := []
    history := ["first"]
    wait := { names := ["go"], filter := none }
    reason := "awaiting go"
    pausedAt := ⟨0, 15⟩
    startedAt := ⟨0, 8⟩ }

/-- The two runs are pending, stored and recorded. -/
def meeting (moments durationMs : Nat) : Site where
  engine :=
    { catalog := []
      ledger := some
        { runs := [halfway, starting].map fun state =>
            { RunRecord.started state.execution "relay" state.startedAt with status := .paused }
          suspended := [halfway, starting] }
      epoch := ⟨0, 0⟩
      moments
      metrics := { pending := 2 } }
  office :=
    { desk :=
        { definitions := [("relay", relay durationMs)]
          pending := [halfway, starting].map fun state => (state.execution, ⟨state, none⟩) } }

theorem inOrder_meeting (moments durationMs : Nat) : (meeting moments durationMs).InOrder where
  counted _ _ := rfl
  coherent :=
    { numbered := ⟨List.nodup_nil, List.forall_mem_nil _⟩
      shown := rfl
      errands := List.forall_mem_nil _
      desk :=
        { sorted := ⟨List.pairwise_pair.mpr (by decide : "halfway" < "starting"), .nil⟩
          deployments := fun workflow deployment found => by cases found
          definitions := fun workflow d found => by
            obtain ⟨rfl, rfl⟩ : workflow = "relay" ∧ relay durationMs = d := by
              simpa [Desk.definition?, meeting, Fields.get?_cons] using found
            rfl
          pending := fun execution pending found => by
            rcases List.mem_pair.mp (Fields.mem_of_get? found) with entry | entry <;>
              cases entry <;> exact ⟨rfl, rfl⟩ } }

/-- Each event lets its run go on to the next wait, and when the first run has come to its third
wait it does not take the event that is for the other one. -/
theorem events_commute_meeting :
    let site := meeting 30 1000
    let d := relay 1000
    let turns := List.replicate 21 Beat.turn
    let sooner := site.handle d going turns
    let later := site.handle d halting turns
    (site.Resumes d going starting ∧ sooner.Resumes d halting halfway) ∧
      (site.Resumes d halting halfway ∧ later.Resumes d going starting) ∧
      (later.replies d going turns).length = 1 ∧
      (later.replies d going turns).map Answer.undated =
        (site.replies d going turns).map Answer.undated ∧
      (sooner.replies d halting turns).map Answer.undated =
        (site.replies d halting turns).map Answer.undated ∧
      (sooner.handle d halting turns).Resembles (later.handle d going turns) := by
  intro site d turns sooner later
  have meant : site.office.desk.match? d.id going = some starting := by decide +kernel
  have meant' : site.office.desk.match? d.id halting = some halfway := by decide +kernel
  obtain ⟨first, second, alike⟩ := events_commute (inOrder_meeting 30 1000)
    (fun name procedure known => by cases known) meant meant' (by decide) (by decide) (by decide)
    turns turns turns turns
  have alone {site : Site} {event : Event}
      (done : (site.handle d event turns).office.errand? site.office.nextErrand = none)
      (only : (site.efforts d event turns).all (· == .turn) = true) :
      site.HandlesAlone d event turns := ⟨by simpa using only, done⟩
  refine ⟨first, second, by decide +kernel, alike ?_ ?_ ?_ ?_ ?_ ?_⟩
  · exact .inr ⟨alone (by decide +kernel) (by decide +kernel),
      alone (by decide +kernel) (by decide +kernel)⟩
  · exact .inr ⟨alone (by decide +kernel) (by decide +kernel),
      alone (by decide +kernel) (by decide +kernel)⟩
  all_goals (unfold HandlesSoundly; decide +kernel)

/-- The workflow is valid however long its last wait is. If that is longer than any time, the errand
that brings the first run there breaks down in both orders, and leaves the run neither pending nor
stored, and on record as running. If the wait can end within the calendar when it begins at once,
but not when the other event is handled before, the two orders do not come to the same. -/
theorem broken_down_in_both_orders :
    let turns := List.replicate 21 Beat.turn
    let outcome := fun site : Site => ((site.engine.book halfway.execution).map RunRecord.status,
      site.engine.stored halfway.execution, site.office.desk.pending? halfway.execution)
    (let site := meeting 30 (2 ^ (63 : Nat))
      let d := relay (2 ^ (63 : Nat))
      let sooner := site.handle d going turns
      let later := site.handle d halting turns
      d.problems (fun _ => false) = [] ∧
        site.office.desk.match? d.id going = some starting ∧
        site.office.desk.match? d.id halting = some halfway ∧
        sooner.replies d halting turns = [.failed .dateRange] ∧
        site.replies d halting turns = [.failed .dateRange] ∧
        outcome (sooner.handle d halting turns) = (some .running, [], none) ∧
        outcome (later.handle d going turns) = (some .running, [], none)) ∧
      let untilTheEnd := Instant.maxSecond.toNat * 1000 + 999
      let site := meeting 999990 untilTheEnd
      let d := relay untilTheEnd
      let sooner := site.handle d going turns
      let later := site.handle d halting turns
      d.problems (fun _ => false) = [] ∧
        site.office.desk.match? d.id going = some starting ∧
        site.office.desk.match? d.id halting = some halfway ∧
        outcome (sooner.handle d halting turns) = (some .running, [], none) ∧
        (outcome (later.handle d going turns)).1 = some .paused ∧
        ¬ (sooner.handle d halting turns).Resembles (later.handle d going turns) := by
  refine ⟨⟨?_, ?_, ?_, rfl, rfl, ?_, ?_⟩, ?_, ?_, ?_, ?_, ?_, fun resembles => ?_⟩
  case refine_11 =>
    exact absurd (congrArg (Option.map RunRecord.status) (resembles.records halfway.execution))
      (by decide +kernel)
  all_goals decide +kernel

end Site

end DurableFlow
