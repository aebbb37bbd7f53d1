import DurableFlow.Data.Fields

/-!
# The switchboard

The handlers that are registered for each provider, in the order of their registration.
An event goes to the handlers that are registered when it arrives.
-/

namespace DurableFlow

/-- Handlers by provider. A provider without handlers is not listed. -/
structure Switchboard (Handler : Type) where
  handlers : Fields (List Handler) := []
deriving Repr

namespace Switchboard

variable {Handler : Type}

/-- The handlers that the next event of a provider goes to. -/
def handlersOf (board : Switchboard Handler) (provider : String) : List Handler :=
  (Fields.get? board.handlers provider).getD []

/-- Register a handler behind all others of the provider. -/
def register (board : Switchboard Handler) (provider : String) (handler : Handler) :
    Switchboard Handler :=
  ⟨Fields.insert board.handlers provider (board.handlersOf provider ++ [handler])⟩

/-- Remove all registrations of a handler for a provider, and tell whether there were any. -/
def unregister [DecidableEq Handler] (board : Switchboard Handler) (provider : String)
    (handler : Handler) : Bool × Switchboard Handler :=
  let kept := (board.handlersOf provider).filter (· ≠ handler)
  let removed := kept.length ≠ (board.handlersOf provider).length
  if kept.isEmpty then (removed, ⟨Fields.erase board.handlers provider⟩)
  else (removed, ⟨Fields.insert board.handlers provider kept⟩)

def count (board : Switchboard Handler) (provider : String) : Nat :=
  (board.handlersOf provider).length

/-- What the handlers of a provider make of a state, one after another. A handler that
fails has still had its effect. -/
def deliver {State : Type} (board : Switchboard Handler) (provider : String)
    (handle : State → Handler → State) (state : State) : State × Nat :=
  ((board.handlersOf provider).foldl handle state, board.count provider)

end Switchboard

end DurableFlow
