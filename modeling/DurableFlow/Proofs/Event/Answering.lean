import DurableFlow.Event.Matching
import DurableFlow.Proofs.Data.Merging
import Mathlib.Data.List.Infix

/-!
# What an event answers

The search for the run that an event is meant for, said without the way it goes: an event
answers a run whose wait names it and whose filter it passes, and of the runs that it answers one
is found that paused no later than any other, in whatever order they are listed.
-/

namespace DurableFlow

namespace Text

theorem occursInList_iff (part whole : List Char) :
    occursInList part whole = true ↔ part <:+: whole := by
  induction whole with
  | nil => simp [occursInList]
  | cons c rest ih =>
    rw [occursInList, Bool.or_eq_true, List.isPrefixOf_iff_prefix, ih, List.infix_cons_iff]

/-- A text occurs within another if its characters stand there one after another. -/
theorem occursIn_iff (part whole : String) :
    occursIn part whole = true ↔ part.toList <:+: whole.toList :=
  occursInList_iff _ _

end Text

namespace Instant

/-- The order of instants as that of pairs. -/
theorem atMost_iff {a b : Instant} :
    a.atMost b = true ↔ a.second < b.second ∨ (a.second = b.second ∧ a.nano ≤ b.nano) := by
  simp only [atMost, before, Bool.not_eq_true', Bool.or_eq_false_iff, decide_eq_false_iff_not,
    Bool.and_eq_false_iff, beq_eq_false_iff_ne]
  omega

theorem atMost_refl (a : Instant) : a.atMost a = true := by
  rw [atMost_iff]
  omega

theorem atMost_trans {a b c : Instant} (first : a.atMost b = true) (second : b.atMost c = true) :
    a.atMost c = true := by
  rw [atMost_iff] at *
  omega

theorem atMost_of_before {a b : Instant} (earlier : a.before b = true) : a.atMost b = true := by
  simp only [before, Bool.or_eq_true, decide_eq_true_eq, Bool.and_eq_true, beq_iff_eq] at earlier
  rw [atMost_iff]
  omega

end Instant

namespace Event

section Scope

variable (event : Event) (state : Suspended)

/-- What a filter reads: the payload, the event, the variables and the outputs. -/
theorem field?_filterScope (name : String) :
    (event.filterScope state).field? name =
      Fields.get? [("payload", event.payload), ("event", event.toVariables),
        ("variables", .obj state.vars), ("outputs", .obj state.outputs)] name :=
  Fields.get?_ofList (by simp [Fields.names]) name

/-- The fields of the payload as variables of a run. -/
def payloadFields : Fields Data :=
  match event.payload with
  | .obj fields => fields
  | .null => []
  | other => [("payload", other)]

/-- A resumed run finds the event under its name, and the fields of the payload beside it. -/
theorem get?_delta (name : String) :
    Fields.get? event.delta name =
      if name = "event" then some event.toVariables else Fields.get? event.payloadFields name := by
  rw [delta, Fields.get?_insert]
  rfl

end Scope

section Answers

variable {event : Event} {state : Suspended}

/-- The event goes by a name that a run waits for: a name that is no empty text and that occurs
in the trigger of the event or, where it has no trigger, is its type. -/
def GoesBy (event : Event) (waited : String) : Prop :=
  waited ≠ "" ∧
    match event.trigger with
    | some trigger => trigger ≠ "" ∧ waited.toList <:+: trigger.toList
    | none => event.type = some waited

theorem identifies_iff {waited : String} :
    event.identifies waited = true ↔ event.GoesBy waited := by
  unfold identifies GoesBy
  cases event.trigger with
  | some trigger => simp [namesMatch, Text.occursIn_iff, and_assoc]
  | none =>
    cases event.type with
    | none => simp
    | some type => simp

/-- A filter holds of the event and a suspended run: it can be read and evaluated, and what
comes out does not count as false. -/
def Satisfies (event : Event) (state : Suspended) (filter : String) : Prop :=
  ∃ value, Expr.evaluate filter (event.filterScope state) = .ok value ∧ value.truthy = true

theorem passes_iff {filter : String} :
    event.passes state filter = true ↔ event.Satisfies state filter := by
  unfold passes Satisfies Expr.evaluateBool
  cases Expr.evaluate filter (event.filterScope state) with
  | error fault => simp [bind, Except.bind]
  | ok value => simp [bind, Except.bind]

/-- The event answers the wait of a suspended run. -/
structure Answers (event : Event) (state : Suspended) : Prop where
  named : ∃ waited ∈ state.wait.names, event.GoesBy waited
  filtered : ∀ filter, state.wait.filter = some filter → event.Satisfies state filter

theorem answers_iff : event.answers state = true ↔ event.Answers state := by
  rw [answers, Bool.and_eq_true, List.any_eq_true]
  simp only [identifies_iff]
  constructor
  · rintro ⟨named, filtered⟩
    refine ⟨named, fun filter is => ?_⟩
    rw [is] at filtered
    exact passes_iff.mp filtered
  · intro answers
    refine ⟨answers.named, ?_⟩
    cases is : state.wait.filter with
    | none => rfl
    | some filter => exact passes_iff.mpr (answers.filtered filter is)

end Answers

section Search

variable {event : Event} {state : Suspended} {states : List Suspended}

theorem earlier_eq (a b : Suspended) : earlier a b = a ∨ earlier a b = b := by
  rw [earlier]
  split <;> simp

theorem foldl_earlier_mem (rest : List Suspended) (first : Suspended) :
    rest.foldl earlier first ∈ first :: rest := by
  induction rest generalizing first with
  | nil => simp
  | cons next rest ih =>
    rw [List.foldl_cons]
    rcases List.mem_cons.mp (ih (earlier first next)) with same | further
    · rw [same]
      rcases earlier_eq first next with kept | kept <;> simp [kept]
    · exact List.mem_cons_of_mem _ (List.mem_cons_of_mem _ further)

theorem mem_of_earliest? (h : earliest? states = some state) :
    state ∈ states := by
  cases states with
  | nil => contradiction
  | cons first rest =>
    cases h
    exact foldl_earlier_mem rest first

theorem mem_of_findMatch (h : event.findMatch states = some state) :
    state ∈ states :=
  (List.mem_filter.mp (mem_of_earliest? h)).1

/-- What is kept of two is no later than either of them. -/
theorem foldl_earlier_atMost (first : Suspended) (states : List Suspended) :
    ∀ state ∈ first :: states,
      (states.foldl earlier first).pausedAt.atMost state.pausedAt = true := by
  induction states generalizing first with
  | nil =>
    intro state among
    rw [List.mem_singleton.mp among]
    exact Instant.atMost_refl _
  | cons next rest ih =>
    have kept := ih (earlier first next)
    have least := kept _ List.mem_cons_self
    have either : (earlier first next).pausedAt.atMost first.pausedAt = true ∧
        (earlier first next).pausedAt.atMost next.pausedAt = true := by
      rw [earlier]
      split
      · rename_i before
        exact ⟨Instant.atMost_of_before before, Instant.atMost_refl _⟩
      · rename_i kept
        refine ⟨Instant.atMost_refl _, ?_⟩
        rw [Instant.atMost, Bool.not_eq_true', Bool.eq_false_iff]
        exact kept
    intro state among
    rw [List.foldl_cons]
    rcases List.mem_cons.mp among with rfl | among
    · exact Instant.atMost_trans least either.1
    rcases List.mem_cons.mp among with rfl | among
    · exact Instant.atMost_trans least either.2
    · exact kept state (List.mem_cons_of_mem _ among)

/-- The state is one that the event answers, and no other such state is of an earlier pause. -/
structure Earliest (event : Event) (states : List Suspended) (state : Suspended) : Prop where
  listed : state ∈ states
  answers : event.Answers state
  least : ∀ other ∈ states, event.Answers other → state.pausedAt.atMost other.pausedAt = true

/-- What is found is answered, and it paused no later than anything else that is answered. -/
theorem earliest_of_findMatch (found : event.findMatch states = some state) :
    event.Earliest states state := by
  obtain ⟨listed, answered⟩ := List.mem_filter.mp (mem_of_earliest? found)
  refine ⟨listed, answers_iff.mp answered, fun other present answers => ?_⟩
  have also := List.mem_filter.mpr ⟨present, answers_iff.mpr answers⟩
  rw [findMatch] at found
  cases matching : states.filter event.answers with
  | nil =>
    rw [matching] at also
    contradiction
  | cons head rest =>
    rw [matching] at found also
    obtain rfl : rest.foldl earlier head = state := Option.some.inj found
    exact foldl_earlier_atMost head rest other also

/-- Nothing is found only where nothing is answered. -/
theorem findMatch_eq_none_iff :
    event.findMatch states = none ↔ ∀ state ∈ states, ¬ event.Answers state := by
  have none_iff : event.findMatch states = none ↔ states.filter event.answers = [] := by
    rw [findMatch]
    cases states.filter event.answers with
    | nil => simp [earliest?]
    | cons head rest => simp [earliest?]
  rw [none_iff, List.filter_eq_nil_iff]
  exact forall₂_congr fun state _ => not_congr answers_iff

end Search

end Event

end DurableFlow
