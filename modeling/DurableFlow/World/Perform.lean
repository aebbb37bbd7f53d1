import DurableFlow.Definition.Build
import DurableFlow.World.Basic

/-!
# Having things done

An errand takes its first turn at once. It is awaited by letting the clock move on until
it has come to its end.
-/

namespace DurableFlow

namespace World

/-- More turns than anything takes that comes to an end. -/
def patience : Nat := 10 ^ (12 : Nat)

/-- Give an errand to the office that is open and let it take its first turn. -/
def begin_ (world : World) (errand : Errand) : World × Job :=
  let (world, job) := world.ask errand
  let world := { world with ready := world.ready.filter (· ≠ job) }
  (world.run patience job, job)

/-- Ask for the run of an errand to be cancelled after some milliseconds. -/
def cancelAfter (world : World) (job : Job) (millis : Nat) : World :=
  match job with
  | .errand office id => world.sleep (world.engine.clock + millis) (.cancel office id)
  | _ => world

/-- Let time pass until errands have all come to their ends. -/
def await (world : World) (jobs : List Job) : World :=
  world.advanceUntil patience fun world => jobs.all fun job => (world.answer? job).isSome

/-- Let everything go on that can without time passing. -/
def rest (world : World) : World := world.settle patience

/-- Let some milliseconds pass. -/
def pass (world : World) (millis : Nat) : World :=
  world.advance patience (world.engine.clock + millis)

/-- Take up a run that lends its context to single nodes. -/
def lend (world : World) (context : Context) : World × Nat :=
  let (id, engine) := world.engine.adopt (.idle (.ofNodes context.workflow "" []) context)
  ({ world with engine }, id)

/-- Have something done in the context of a run that has been taken up. -/
def borrow (world : World) (id : Nat) (d : Definition) (phase : Phase) : World × Option Job :=
  match world.engine.run? id with
  | none => (world, none)
  | some run =>
    let borrowed := { run with definition := d }.fork [phase]
    let world := { world with engine := world.engine.setRun id borrowed }
    let world := world.run patience (.branch id run.nextBranch)
    let (world, job) := world.begin_ { decision := .attend id run.nextGroup }
    (world, some job)

/-- The office that is open. -/
def office (world : World) : Office := (world.office? world.current).getD {}

end World

end DurableFlow
