import DurableFlow.Proofs.Desk.Attempts
import DurableFlow.Proofs.Desk.Deciding

/-!
# Dispatched events go to the handlers that are registered when they arrive

The errand of a dispatch makes a copy of the list of handlers at its first turn. From then on it
takes the handlers off the front of this copy, one at a time, and there may be any number of turns
of other errands in between, which may register handlers or remove them. `Errand.Delivers` is what
holds of the errand at each of its turns. What it comes to is what `Switchboard.deliver` makes of
the switchboard as it was at the first turn, in one go.
-/

namespace DurableFlow

namespace Errand

/-- The handler that the next step of the errand takes off its list, with the event. -/
def gives? (errand : Errand) : Option (Handler × Event) :=
  match errand.acts, errand.decision, errand.delivery with
  | [], .deliver, some ⟨event, handler :: _, _⟩ => some (handler, event)
  | _, _, _ => none

/-- The errand was to give an event to the handlers of `calls`, and has taken those of the second
list off. It breaks down when the date of a pause that it has brought about leaves the calendar. -/
inductive Delivers (calls : List (Handler × Event)) : List (Handler × Event) → Errand → Prop
  | handing {errand : Errand} {event : Event} {given : List (Handler × Event)}
      {rest : List Handler} (delivery : errand.delivery = some ⟨event, rest, calls.length⟩)
      (split : given ++ rest.map (·, event) = calls)
      (inside : ∀ event, errand.decision ≠ .dispatch event) : Delivers calls given errand
  | complete {errand : Errand} (acts : errand.acts = []) (delivery : errand.delivery = none)
      (decision : errand.decision = .answer (.count calls.length)) : Delivers calls calls errand
  | brokenDown {errand : Errand} {given : List (Handler × Event)} (begun : given <+: calls)
      (acts : errand.acts = []) (delivery : errand.delivery = none)
      (decision : errand.decision = .answer (.failed .dateRange)) : Delivers calls given errand

variable {errand : Errand} {calls given : List (Handler × Event)}

theorem gives?_of_decision (other : errand.decision ≠ .deliver) : errand.gives? = none := by
  rw [gives?]
  split
  · contradiction
  · rfl

theorem gives?_of_acts (busy : errand.acts ≠ []) : errand.gives? = none := by
  rw [gives?]
  split
  · contradiction
  · rfl

theorem gives?_of_handlers {event : Event} {count : Nat}
    (delivery : errand.delivery = some ⟨event, [], count⟩) : errand.gives? = none := by
  rw [gives?]
  split
  · rename_i more
    cases delivery.symm.trans more
  · rfl

namespace Delivers

/-- Asking for the run of the errand to be cancelled takes nothing off the list. -/
theorem withCancelled (delivers : errand.Delivers calls given) (isCancelled : Bool) :
    Errand.Delivers calls given { errand with isCancelled } := by
  cases delivers with
  | handing delivery split inside => exact .handing delivery split inside
  | complete acts delivery decision => exact .complete acts delivery decision
  | brokenDown begun acts delivery decision => exact .brokenDown begun acts delivery decision

theorem isPrefix (delivers : errand.Delivers calls given) : given <+: calls := by
  cases delivers with
  | handing _ split _ => exact ⟨_, split⟩
  | complete => exact List.prefix_refl calls
  | brokenDown begun _ _ _ => exact begun

/-- A delivery that answers with a number has been made to all handlers. -/
theorem of_answer (delivers : errand.Delivers calls given) {n : Nat}
    (answers : errand.answer? = some (.count n)) : given = calls ∧ n = calls.length := by
  cases delivers with
  | handing delivery _ _ => simp [answer?, delivery] at answers
  | complete acts delivery decision =>
    simp only [answer?, acts, delivery, decision, Option.some.injEq, Answer.count.injEq] at answers
    exact ⟨rfl, answers.symm⟩
  | brokenDown _ acts delivery decision => simp [answer?, acts, delivery, decision] at answers

end Delivers

end Errand

namespace Stride

variable {calls given : List (Handler × Event)} {errand : Errand}

/-- The first turn copies the list of handlers. -/
theorem step_of_dispatch (engine : Engine) (office : Office) {event : Event}
    (acts : errand.acts = []) (decision : errand.decision = .dispatch event) :
    let stride := step engine office errand
    stride.signal ≠ .finished ∧ stride.errand.Delivers
      ((office.board.handlersOf event.provider).map (·, event)) [] := by
  simp only [step, acts, decide, decision]
  refine ⟨Signal.noConfusion, .handing ?_ rfl (by simp [dispatch, Errand.go])⟩
  rw [List.length_map]
  rfl

/-- Whatever is decided while there is a list, at most its first handler is taken off. -/
theorem handing_decides {engine : Engine} {office : Office} {stride : Stride} {event : Event}
    {rest : List Handler} (acts : errand.acts = [])
    (delivery : errand.delivery = some ⟨event, rest, calls.length⟩)
    (split : given ++ rest.map (·, event) = calls)
    (inside : ∀ event, errand.decision ≠ .dispatch event)
    (decides : Decides engine office errand errand.decision stride) :
    stride.errand.Delivers calls (given ++ errand.gives?.toList) := by
  have keeps : ∀ next : Errand, errand.decision ≠ .deliver → next.delivery = errand.delivery →
      (∀ event, next.decision ≠ .dispatch event) →
      next.Delivers calls (given ++ errand.gives?.toList) := by
    intro next other same later
    rw [Errand.gives?_of_decision other, Option.toList_none, List.append_nil]
    exact .handing (same.trans delivery) split later
  have breaks : errand.decision ≠ .deliver →
      errand.broken.Delivers calls (given ++ errand.gives?.toList) := by
    intro other
    rw [Errand.gives?_of_decision other, Option.toList_none, List.append_nil]
    exact .brokenDown ⟨_, split⟩ rfl rfl rfl
  have stays : errand.decision ≠ .deliver →
      errand.Delivers calls (given ++ errand.gives?.toList) :=
    fun other => keeps errand other rfl inside
  generalize decision : errand.decision = stage at decides keeps breaks stays inside
  cases decides with
  | ends | drives | attends | awaitsStop | awaitsReply => exact stays Decision.noConfusion
  | runMissing | breaksDown => exact breaks Decision.noConfusion
  | dispatches => exact absurd rfl (inside _)
  | delivered empty =>
    obtain ⟨none_left, count⟩ := empty _ delivery
    subst none_left count
    rw [Errand.gives?_of_handlers delivery, Option.toList_none, List.append_nil]
    rw [List.map_nil, List.append_nil] at split
    subst split
    exact .complete rfl rfl rfl
  | @skips event handler rest count more | @hands event handler rest count d more known =>
    cases delivery.symm.trans more
    have gives : errand.gives? = some (handler, event) := by
      rw [Errand.gives?, acts, decision, more]
    rw [gives]
    exact .handing rfl (by simpa using split) (fun _ => Decision.noConfusion)
  | _ => exact keeps _ Decision.noConfusion rfl (fun _ => Decision.noConfusion)

/-- Each step takes at most one handler off the list, and no step makes a new copy of it. -/
theorem step_delivers (engine : Engine) (office : Office) (delivers : errand.Delivers calls given) :
    (step engine office errand).errand.Delivers calls (given ++ errand.gives?.toList) := by
  cases acts : errand.acts with
  | cons act rest =>
    rw [Errand.gives?_of_acts (by simp [acts]), Option.toList_none, List.append_nil]
    simp only [step, acts, act_errand]
    cases delivers with
    | handing delivery split inside => exact .handing delivery split inside
    | complete busy | brokenDown _ busy =>
      rw [acts] at busy
      contradiction
  | nil =>
    have decides := decide_decides engine office errand
    simp only [step, acts]
    generalize decide engine office errand = stride at decides ⊢
    cases delivers with
    | handing delivery split inside =>
      exact handing_decides acts delivery split inside decides
    | complete _ delivery decision =>
      rw [Errand.gives?_of_decision (by simp [decision]), Option.toList_none, List.append_nil]
      rw [decision] at decides
      cases decides with
      | ends => exact .complete acts delivery decision
      | handsOn more => simp [delivery] at more
    | brokenDown begun _ delivery decision =>
      rw [Errand.gives?_of_decision (by simp [decision]), Option.toList_none, List.append_nil]
      rw [decision] at decides
      cases decides with
      | ends => exact .brokenDown begun acts delivery decision
      | handsOn more => simp [delivery] at more

end Stride

namespace Site

variable {site : Site} {id : Nat} {errand : Errand} {calls given : List (Handler × Event)}

/-- The handler that an errand gives an event at an occurrence. -/
def handedAt (site : Site) (id : Nat) : Occurrence → List (Handler × Event)
  | .demand (.move (.turn turned)) =>
    if turned = id then ((site.office.errand? id).bind Errand.gives?).toList else []
  | _ => []

/-- The handlers that an errand gives an event in a history, in the order of their turns. -/
def handed (site : Site) (id : Nat) : List Occurrence → List (Handler × Event)
  | [] => []
  | occurrence :: rest => site.handedAt id occurrence ++ (site.occur occurrence).handed id rest

theorem handedAt_turn (found : site.office.errand? id = some errand) :
    site.handedAt id (.demand (.move (.turn id))) = errand.gives?.toList := by
  rw [handedAt, if_pos rfl, found, Option.bind_some]

theorem handedAt_of_ne {occurrence : Occurrence}
    (other : occurrence ≠ .demand (.move (.turn id))) : site.handedAt id occurrence = [] := by
  unfold handedAt
  split
  · exact if_neg fun same => other (by rw [same])
  · rfl

theorem handed_of_gone (used : id < site.office.nextErrand) (gone : site.office.errand? id = none)
    (history : List Occurrence) : site.handed id history = [] := by
  induction history generalizing site with
  | nil => rfl
  | cons occurrence rest ih =>
    have silent : site.handedAt id occurrence = [] := by
      unfold handedAt
      split
      · simp [gone]
      · rfl
    rw [handed, silent, ih (used.trans_le (nextErrand_le_occur site occurrence))
      (gone_undergo used gone [occurrence])]
    rfl

/-- Whatever happens while an event is handed on, the handlers on the list get it in their order,
and all of them have got it when the call answers with a number, which is how many they are. -/
theorem handed_of_delivers (used : id < site.office.nextErrand)
    (found : site.office.errand? id = some errand) (delivers : errand.Delivers calls given)
    (history : List Occurrence) :
    given ++ site.handed id history <+: calls ∧
      ∀ n, (id, .count n) ∈ site.returned history →
        given ++ site.handed id history = calls ∧ n = calls.length := by
  induction history generalizing site errand given with
  | nil =>
    rw [handed, List.append_nil]
    exact ⟨delivers.isPrefix, fun n told => absurd told List.not_mem_nil⟩
  | cons occurrence rest ih =>
    have later := used.trans_le (nextErrand_le_occur site occurrence)
    rw [handed, ← List.append_assoc]
    by_cases turns : occurrence = .demand (.move (.turn id))
    · subst turns
      have turn := takesTurn found
      have still := Stride.step_delivers site.engine site.office delivers
      rw [handedAt_turn found]
      by_cases finished : (Stride.step site.engine site.office errand).signal = .finished
      · -- the errand is gone, and gives nothing more
        have gone := turn.ends finished
        rw [handed_of_gone later gone rest, List.append_nil]
        refine ⟨still.isPrefix, fun n told => ?_⟩
        rcases List.mem_append.mp told with ended | further
        · exact still.of_answer (answer_of_ended found ended).2
        · exact absurd further (not_returned_of_gone later gone rest _)
      · obtain ⟨inside, answers⟩ := ih later (turn.goes finished) still
        refine ⟨inside, fun n told => answers n ?_⟩
        refine (List.mem_append.mp told).resolve_left fun ended => ?_
        exact finished (answer_of_ended found ended).1
    · obtain ⟨change, same⟩ := errand?_occur used turns
      rw [found] at same
      rw [handedAt_of_ne turns, List.append_nil]
      obtain ⟨inside, answers⟩ := ih later same (delivers.withCancelled _)
      refine ⟨inside, fun n told => answers n ?_⟩
      exact (List.mem_append.mp told).resolve_left fun ended => turns (eq_turn_of_ended ended)

/-- An event that is dispatched is handed on as `Switchboard.deliver` says of the switchboard that
the errand finds at its first turn, no matter which other errands take their turns until it is with
the last handler, and what they register and remove. -/
theorem dispatch_delivers {event : Event} (used : id < site.office.nextErrand)
    (found : site.office.errand? id = some errand) (acts : errand.acts = [])
    (decision : errand.decision = .dispatch event) (rest : List Occurrence) {n : Nat}
    (answers : (id, .count n) ∈ site.returned (.demand (.move (.turn id)) :: rest)) {State : Type}
    (handle : State → Handler × Event → State) (state : State) :
    site.office.board.deliver event.provider
        (fun state handler => handle state (handler, event)) state =
      ((site.handed id (.demand (.move (.turn id)) :: rest)).foldl handle state, n) := by
  have turn := takesTurn found
  obtain ⟨goes, begins⟩ := Stride.step_of_dispatch site.engine site.office acts decision
  have later := used.trans_le (nextErrand_le_occur site (.demand (.move (.turn id))))
  have told := (List.mem_append.mp answers).resolve_left fun ended =>
    goes (answer_of_ended found ended).1
  obtain ⟨all, count⟩ := (handed_of_delivers later (turn.goes goes) begins rest).2 n told
  have first : site.handedAt id (.demand (.move (.turn id))) = [] := by
    rw [handedAt_turn found, Errand.gives?_of_decision (by simp [decision])]
    rfl
  rw [handed, first, all, List.foldl_map, count, List.length_map]
  rfl

end Site

end DurableFlow
