import DurableFlow.Event.Basic
import DurableFlow.Proofs.Data.Fields
import DurableFlow.Trigger.Switchboard

/-!
# An event goes to the registrations that are left

Everything that is asked of a switchboard is entered into a log, with its answer. Handlers may ask
for changes themselves while they have an event in hand, and what they ask for may depend on all
that has happened before. `surviving` reads off a log which registrations of a provider have not
been taken back, without looking at the switchboard; `Exchange.Faithful` says that the switchboard
lists just these, and that every answer in the log follows from what stands before it.
-/

namespace DurableFlow

namespace Switchboard

section Handlers

variable {Handler : Type} (board : Switchboard Handler) (provider other : String)
  (handler : Handler)

theorem handlersOf_register : (board.register provider handler).handlersOf other =
    if other = provider then board.handlersOf provider ++ [handler]
    else board.handlersOf other := by
  simp only [handlersOf, register, Fields.get?_insert]
  split <;> rfl

theorem handlersOf_unregister [DecidableEq Handler] :
    (board.unregister provider handler).2.handlersOf other =
      if other = provider then (board.handlersOf provider).filter (· ≠ handler)
      else board.handlersOf other := by
  rw [unregister]
  split
  · rename_i none_left
    rw [List.isEmpty_iff] at none_left
    simp only [handlersOf, Fields.get?_erase] at none_left ⊢
    split
    · exact none_left.symm
    · rfl
  · simp only [handlersOf, Fields.get?_insert]
    split <;> rfl

/-- The answer to taking back registrations tells whether there were any. -/
theorem unregister_found [DecidableEq Handler] :
    (board.unregister provider handler).1 = true ↔ handler ∈ board.handlersOf provider := by
  have answer : (board.unregister provider handler).1 =
      decide (((board.handlersOf provider).filter (· ≠ handler)).length ≠
        (board.handlersOf provider).length) := by
    rw [unregister]
    split <;> rfl
  rw [answer, decide_eq_true_iff, Ne, List.length_filter_eq_length_iff]
  simp

end Handlers

/-- What anybody may ask of a switchboard, handlers in the midst of an event included. -/
inductive Change (Handler : Type) where
  | register (provider : String) (handler : Handler)
  | unregister (provider : String) (handler : Handler)
  | count (provider : String)

inductive Request (Handler : Type) where
  | change (change : Change Handler)
  | dispatch (event : Event)

/-- Something that has happened at a switchboard. -/
inductive Entry (Handler : Type) where
  | registered (provider : String) (handler : Handler)
  | unregistered (provider : String) (handler : Handler) (found : Bool)
  | counted (provider : String) (n : Nat)
  /-- An event is on its way to the handlers. -/
  | arrived (event : Event)
  | called (handler : Handler) (event : Event) (fails : Bool)
  | delivered (event : Event) (n : Nat)
deriving DecidableEq

namespace Entry

variable {Handler : Type}

/-- The handler that was called, with the event. -/
def call? : Entry Handler → Option (Handler × Event)
  | called handler event _ => some (handler, event)
  | _ => none

/-- The entry changes who is registered. -/
def isChange : Entry Handler → Bool
  | registered .. | unregistered .. => true
  | _ => false

/-- The entry takes back the registrations of a handler for a provider. -/
def TakesBack (provider : String) (handler : Handler) : Entry Handler → Prop
  | unregistered p h _ => p = provider ∧ h = handler
  | _ => False

instance [DecidableEq Handler] (provider : String) (handler : Handler) (entry : Entry Handler) :
    Decidable (entry.TakesBack provider handler) :=
  match entry with
  | unregistered p h _ => inferInstanceAs (Decidable (p = provider ∧ h = handler))
  | registered .. | counted .. | arrived _ | called .. | delivered .. =>
    inferInstanceAs (Decidable False)

end Entry

section Surviving

variable {Handler : Type} [DecidableEq Handler]

/-- The registrations of a provider that nothing later takes back, in their order. -/
def surviving (provider : String) : List (Entry Handler) → List Handler
  | [] => []
  | .registered p handler :: later =>
    if p = provider ∧ ∀ entry ∈ later, ¬ entry.TakesBack provider handler then
      handler :: surviving provider later
    else surviving provider later
  | _ :: later => surviving provider later

/-- What an entry tells that is an answer follows from what has happened before. -/
def Entry.Holds (before : List (Entry Handler)) : Entry Handler → Prop
  | unregistered provider handler found => found = true ↔ handler ∈ surviving provider before
  | counted provider n => n = (surviving provider before).length
  | _ => True

/-- All answers in a log are right. -/
def Truthful (log : List (Entry Handler)) : Prop :=
  ∀ before entry after, log = before ++ entry :: after → entry.Holds before

variable (provider : String) (log : List (Entry Handler))

theorem Truthful.concat {log : List (Entry Handler)} {entry : Entry Handler}
    (truthful : Truthful log) (right : entry.Holds log) : Truthful (log ++ [entry]) := by
  intro before other after split
  rcases List.eq_nil_or_concat after with rfl | ⟨early, last, rfl⟩
  · obtain ⟨rfl, same⟩ := List.append_inj' split rfl
    cases same
    exact right
  · have shorter : log ++ [entry] = (before ++ other :: early) ++ [last] := by
      rw [split, List.append_assoc, List.cons_append, List.concat_eq_append]
    exact truthful before other early (List.append_inj_left' shorter rfl)

theorem surviving_registered (p : String) (handler : Handler) :
    surviving provider (log ++ [.registered p handler]) =
      if p = provider then surviving provider log ++ [handler] else surviving provider log := by
  induction log with
  | nil => simp [surviving]
  | cons entry rest ih =>
    cases entry with
    | registered q other =>
      have same : (∀ entry ∈ rest ++ [.registered p handler], ¬ entry.TakesBack provider other) ↔
          ∀ entry ∈ rest, ¬ entry.TakesBack provider other := by
        simp [Entry.TakesBack, or_imp, forall_and]
      simp only [List.cons_append, surviving, same, ih]
      split <;> split <;> rfl
    | _ => exact ih

theorem surviving_unregistered (p : String) (handler : Handler) (found : Bool) :
    surviving provider (log ++ [.unregistered p handler found]) =
      if p = provider then (surviving provider log).filter (· ≠ handler)
      else surviving provider log := by
  induction log with
  | nil => simp [surviving]
  | cons entry rest ih =>
    cases entry with
    | registered q other =>
      have same : (∀ entry ∈ rest ++ [.unregistered p handler found],
            ¬ entry.TakesBack provider other) ↔
          (∀ entry ∈ rest, ¬ entry.TakesBack provider other) ∧
            ¬ (p = provider ∧ handler = other) := by
        simp [Entry.TakesBack, or_imp, forall_and]
      simp only [List.cons_append, surviving, same, ih]
      grind
    | _ => exact ih

theorem surviving_of_not_isChange {entry : Entry Handler} (still : entry.isChange = false) :
    surviving provider (log ++ [entry]) = surviving provider log := by
  have keeps : ∀ handler, ¬ entry.TakesBack provider handler := by
    intro handler
    cases entry with
    | unregistered p h found => cases still
    | _ => exact not_false
  induction log with
  | nil =>
    cases entry with
    | registered p handler => cases still
    | _ => rfl
  | cons first rest ih =>
    cases first with
    | registered q other =>
      have same : (∀ e ∈ rest ++ [entry], ¬ e.TakesBack provider other) ↔
          ∀ e ∈ rest, ¬ e.TakesBack provider other := by
        simp [or_imp, forall_and, keeps]
      simp only [List.cons_append, surviving, same, ih]
    | _ => exact ih

end Surviving

/-- What a handler does about an event, given all that has happened: the changes that it asks for,
and whether it fails in the end. -/
abbrev Conduct (Handler : Type) : Type :=
  List (Entry Handler) → Handler → Event → List (Change Handler) × Bool

/-- A switchboard, and what has happened at it, the latest last. -/
structure Exchange (Handler : Type) where
  board : Switchboard Handler := {}
  log : List (Entry Handler) := []

namespace Exchange

variable {Handler : Type} [DecidableEq Handler]

def note (exchange : Exchange Handler) (entry : Entry Handler) : Exchange Handler :=
  { exchange with log := exchange.log ++ [entry] }

def apply (exchange : Exchange Handler) : Change Handler → Exchange Handler
  | .register provider handler =>
    note { exchange with board := exchange.board.register provider handler }
      (.registered provider handler)
  | .unregister provider handler =>
    let (found, board) := exchange.board.unregister provider handler
    note { exchange with board } (.unregistered provider handler found)
  | .count provider => exchange.note (.counted provider (exchange.board.count provider))

/-- A handler is given an event. -/
def call (conduct : Conduct Handler) (event : Event) (exchange : Exchange Handler)
    (handler : Handler) : Exchange Handler :=
  let (changes, fails) := conduct exchange.log handler event
  changes.foldl apply (exchange.note (.called handler event fails))

def dispatch (conduct : Conduct Handler) (exchange : Exchange Handler) (event : Event) :
    Exchange Handler :=
  let (after, n) :=
    exchange.board.deliver event.provider (call conduct event) (exchange.note (.arrived event))
  after.note (.delivered event n)

def ask (conduct : Conduct Handler) (exchange : Exchange Handler) :
    Request Handler → Exchange Handler
  | .change change => exchange.apply change
  | .dispatch event => exchange.dispatch conduct event

/-- A switchboard of which all requests of a list have been made. -/
def run (conduct : Conduct Handler) (requests : List (Request Handler)) : Exchange Handler :=
  requests.foldl (ask conduct) {}

/-- The switchboard lists the registrations that are left, and all answers have been right. -/
structure Faithful (exchange : Exchange Handler) : Prop where
  lists : ∀ provider, exchange.board.handlersOf provider = surviving provider exchange.log
  truthful : Truthful exchange.log

variable {exchange : Exchange Handler} {conduct : Conduct Handler}

theorem Faithful.note {entry : Entry Handler} (faithful : exchange.Faithful)
    (still : entry.isChange = false) (right : entry.Holds exchange.log) :
    (exchange.note entry).Faithful where
  lists provider := (faithful.lists provider).trans
    (surviving_of_not_isChange provider exchange.log still).symm
  truthful := faithful.truthful.concat right

theorem Faithful.apply (faithful : exchange.Faithful) (change : Change Handler) :
    (exchange.apply change).Faithful := by
  cases change with
  | register p handler =>
    refine ⟨fun provider => ?_, faithful.truthful.concat trivial⟩
    show (exchange.board.register p handler).handlersOf provider =
      surviving provider (exchange.log ++ [.registered p handler])
    rw [handlersOf_register, surviving_registered, ← faithful.lists]
    grind
  | unregister p handler =>
    refine ⟨fun provider => ?_, faithful.truthful.concat ?_⟩
    · show (exchange.board.unregister p handler).2.handlersOf provider =
        surviving provider (exchange.log ++ [.unregistered p handler _])
      rw [handlersOf_unregister, surviving_unregistered, ← faithful.lists]
      grind
    · show (exchange.board.unregister p handler).1 = true ↔ _
      rw [unregister_found, faithful.lists]
  | count p =>
    refine faithful.note rfl ?_
    show (exchange.board.handlersOf p).length = _
    rw [faithful.lists]

theorem Faithful.foldl_apply (faithful : exchange.Faithful) (changes : List (Change Handler)) :
    (changes.foldl Exchange.apply exchange).Faithful := by
  induction changes generalizing exchange with
  | nil => exact faithful
  | cons change rest ih => exact ih (faithful.apply change)

theorem Faithful.call (faithful : exchange.Faithful) (conduct : Conduct Handler) (event : Event)
    (handler : Handler) : (exchange.call conduct event handler).Faithful :=
  have called := faithful.note (rfl : Entry.isChange (.called handler event _) = false) trivial
  called.foldl_apply _

theorem Faithful.foldl_call (faithful : exchange.Faithful) (conduct : Conduct Handler)
    (event : Event) (handlers : List Handler) :
    (handlers.foldl (Exchange.call conduct event) exchange).Faithful := by
  induction handlers generalizing exchange with
  | nil => exact faithful
  | cons handler rest ih => exact ih (faithful.call conduct event handler)

theorem Faithful.ask (faithful : exchange.Faithful) (conduct : Conduct Handler)
    (request : Request Handler) : (exchange.ask conduct request).Faithful := by
  cases request with
  | change change => exact faithful.apply change
  | dispatch event =>
    have arrived := faithful.note (rfl : Entry.isChange (.arrived event) = false) trivial
    exact (arrived.foldl_call conduct event _).note rfl trivial

theorem Faithful.run (conduct : Conduct Handler) (requests : List (Request Handler)) :
    (run conduct requests).Faithful := by
  have preserved : ∀ exchange : Exchange Handler, exchange.Faithful →
      (requests.foldl (Exchange.ask conduct) exchange).Faithful := by
    induction requests with
    | nil => exact fun _ faithful => faithful
    | cons request rest ih => exact fun _ faithful => ih _ (faithful.ask conduct request)
  exact preserved {} ⟨fun _ => rfl, fun before entry after split => by simp at split⟩

/-- Changes call nobody. -/
theorem log_apply (exchange : Exchange Handler) (change : Change Handler) :
    ∃ entry, (exchange.apply change).log = exchange.log ++ [entry] ∧ entry.call? = none := by
  cases change with
  | register p handler => exact ⟨_, rfl, rfl⟩
  | unregister p handler => exact ⟨_, rfl, rfl⟩
  | count p => exact ⟨_, rfl, rfl⟩

theorem log_foldl_apply (exchange : Exchange Handler) (changes : List (Change Handler)) :
    ∃ told, (changes.foldl apply exchange).log = exchange.log ++ told ∧
      told.filterMap Entry.call? = [] := by
  induction changes generalizing exchange with
  | nil => exact ⟨[], (List.append_nil _).symm, rfl⟩
  | cons change rest ih =>
    obtain ⟨entry, one, silent⟩ := exchange.log_apply change
    obtain ⟨told, more, quiet⟩ := ih (exchange.apply change)
    refine ⟨entry :: told, ?_, ?_⟩
    · rw [List.foldl_cons, more, one, List.append_assoc, List.singleton_append]
    · rw [List.filterMap_cons_none silent, quiet]

/-- The handlers on a list are called one after another, each once, whatever they do. -/
theorem log_foldl_call (exchange : Exchange Handler) (conduct : Conduct Handler) (event : Event)
    (handlers : List Handler) :
    ∃ told, (handlers.foldl (call conduct event) exchange).log = exchange.log ++ told ∧
      told.filterMap Entry.call? = handlers.map fun handler => (handler, event) := by
  induction handlers generalizing exchange with
  | nil => exact ⟨[], (List.append_nil _).symm, rfl⟩
  | cons handler rest ih =>
    obtain ⟨own, asked, silent⟩ := log_foldl_apply
      (exchange.note (.called handler event (conduct exchange.log handler event).2))
      (conduct exchange.log handler event).1
    obtain ⟨told, more, calls⟩ := ih (exchange.call conduct event handler)
    refine ⟨.called handler event (conduct exchange.log handler event).2 :: (own ++ told), ?_, ?_⟩
    · rw [List.foldl_cons, more]
      show (List.foldl apply _ _).log ++ told = _
      rw [asked, note]
      simp
    · simp only [List.filterMap_cons, Entry.call?, List.filterMap_append, silent, calls,
        List.nil_append, List.map_cons]

/-- Over every sequence of requests, and whatever the handlers themselves do about the events that
they are given: a dispatch calls, once each and in the order of registration, the registrations for
the provider of the event that no later request has taken back when the event arrives, and answers
how many they are. Taking back the registrations of a handler succeeds if and only if one has
survived until then, also in the midst of a dispatch; and a count is always the number of
registrations that the next dispatch delivers to. -/
theorem dispatch_follows_registrations (conduct : Conduct Handler)
    (requests : List (Request Handler)) :
    let exchange := run conduct requests
    (∀ event, ∃ told,
      (exchange.ask conduct (.dispatch event)).log = exchange.log ++ .arrived event :: (told ++
        [.delivered event (surviving event.provider exchange.log).length]) ∧
      told.filterMap Entry.call? =
        (surviving event.provider exchange.log).map fun handler => (handler, event)) ∧
      (∀ before provider handler found after,
        exchange.log = before ++ .unregistered provider handler found :: after →
          (found = true ↔ handler ∈ surviving provider before)) ∧
      (∀ before provider n after, exchange.log = before ++ .counted provider n :: after →
        n = (surviving provider before).length) ∧
      ∀ provider, exchange.board.count provider =
        (surviving provider exchange.log).length := by
  intro exchange
  have faithful : exchange.Faithful := .run conduct requests
  refine ⟨fun event => ?_,
    fun before provider handler found after => faithful.truthful before _ after,
    fun before provider n after => faithful.truthful before _ after, fun provider => ?_⟩
  · obtain ⟨told, log, calls⟩ := log_foldl_call (exchange.note (.arrived event)) conduct event
      (exchange.board.handlersOf event.provider)
    refine ⟨told, ?_, faithful.lists event.provider ▸ calls⟩
    show (List.foldl (call conduct event) _ _).log ++
      [.delivered event (exchange.board.handlersOf event.provider).length] = _
    rw [log, faithful.lists, note]
    simp
  · exact congrArg List.length (faithful.lists provider)

/-- The first handler takes the second one off the list, and itself, and puts a third one on. -/
def upheaval : Conduct Nat := fun _ handler _ =>
  if handler = 0 then ([.unregister "p" 1, .unregister "p" 0, .register "p" 2, .count "p"], true)
  else ([], false)

def knock : Event where
  id := "evt-1"
  provider := "p"
  timestamp := ⟨0, 0⟩

/-- The handlers that are taken off the list in the midst of a dispatch still get the event, one of
them twice since it is registered twice; the next event finds who has come instead. -/
theorem dispatch_follows_registrations_upheaval :
    let requests : List (Request Nat) :=
      [.change (.register "p" 0), .change (.register "p" 1), .change (.register "p" 0)]
    let exchange := run upheaval requests
    let after := exchange.ask upheaval (.dispatch knock)
    (∃ told, after.log = exchange.log ++ .arrived knock :: (told ++ [.delivered knock 3]) ∧
      told.filterMap Entry.call? = [(0, knock), (1, knock), (0, knock)]) ∧
      after.board.count "p" = 2 ∧ surviving "p" after.log = [2, 2] := by
  intro requests exchange after
  obtain ⟨dispatches, _⟩ := dispatch_follows_registrations upheaval requests
  obtain ⟨_, _, _, counts⟩ :=
    dispatch_follows_registrations upheaval (requests ++ [.dispatch knock])
  exact ⟨dispatches knock, counts "p", by decide⟩

end Exchange

end Switchboard

end DurableFlow
