import DurableFlow.Desk.Step

/-!
# The world of a process

One engine, the offices that have been opened one after another, and the jobs that are
under way. Jobs take turns, first in, first out, and each goes on until it has to wait:
for the clock, or for a branch. The clock stands still as long as there is a job that can
go on, and then moves straight to the time that is waited for next.
-/

namespace DurableFlow

/-- Something that takes turns. -/
inductive Job where
  | errand (office id : Nat)
  | branch (run id : Nat)
  | alarm (office id : Nat)
  /-- The run of an errand is to be cancelled. -/
  | cancel (office id : Nat)
deriving DecidableEq, Repr

/-- A job that waits for the clock. -/
structure Timer where
  due : Nat
  job : Job
deriving DecidableEq, Repr

/-- The world of a process. -/
structure World where
  engine : Engine
  offices : List Office := [{}]
  /-- The jobs that can go on, in the order in which they will. -/
  ready : List Job := []
  /-- The jobs that wait for the clock, those first that are due first. -/
  timers : List Timer := []
  /-- What the errands of each office have come to. -/
  answers : List (Job × Answer) := []

namespace World

/-- The office that is open now. -/
def current (world : World) : Nat := world.offices.length - 1

def office? (world : World) (id : Nat) : Option Office := world.offices[id]?

def setOffice (world : World) (id : Nat) (office : Office) : World :=
  { world with offices := world.offices.set id office }

/-- Let a job take its turn behind all others, unless it is going to take one anyway. -/
def wake (world : World) (job : Job) : World :=
  if world.ready.contains job then world else { world with ready := world.ready ++ [job] }

/-- Let a job take its turn when the clock shows a time. -/
def sleep (world : World) (due : Nat) (job : Job) : World :=
  { world with timers := Ordered.insert (fun a b => b.due < a.due) ⟨due, job⟩ world.timers }

/-- Whether an errand drives a run, or waits for a group of it. -/
def attends (run group : Nat) (driver : Bool) (errand : Errand) : Bool :=
  match errand.decision with
  | .drive _ r => driver && r == run
  | .attend r g => r == run && g == group
  | _ => false

/-- The errands of all offices, as jobs. -/
def errandJobs (world : World) (p : Errand → Bool) : List Job :=
  world.offices.zipIdx.flatMap fun (office, i) =>
    (office.errands.filter fun entry => p entry.2).map fun entry => .errand i entry.1

/-- Wake whoever waits for a group of a run. -/
def wakeWaiters (world : World) (run group : Nat) : World :=
  match (world.engine.run? run).bind (·.waiter? group) with
  | some (.branch id) => world.wake (.branch run id)
  | some .driver =>
    (world.errandJobs (attends run group true)).foldl wake world
  | none => (world.errandJobs (attends run group false)).foldl wake world

/-- Do what a step of an errand asks for. -/
def grant (world : World) (office : Nat) : Request → World
  | .branches run ids => ids.foldl (fun world id => world.wake (.branch run id)) world
  | .alarm id after =>
    if after = 0 then world.wake (.alarm office id)
    else world.sleep (world.engine.clock + after) (.alarm office id)

/-- What is left of the turn of a job. -/
inductive Turn where
  | goesOn
  | ends
deriving DecidableEq, Repr

/-- An errand has come to its end. -/
def resolve (world : World) (office : Nat) (id : Nat) : World :=
  match world.office? office with
  | none => world
  | some o =>
    let world := world.setOffice office (o.dropErrand id)
    match (o.errand? id).bind Errand.answer? with
    | none => world
    | some answer => { world with answers := (.errand office id, answer) :: world.answers }

/-- A step of an errand. -/
def stepErrand (world : World) (office id : Nat) : World × Turn :=
  match world.office? office with
  | none => (world, .ends)
  | some o =>
    match o.errand? id with
    | none => (world, .ends)
    | some errand =>
      let stride := Stride.step world.engine o errand
      let world :=
        { world with engine := stride.engine }.setOffice office
          (stride.office.setErrand id stride.errand)
      let world := stride.requests.foldl (fun world request => world.grant office request) world
      match stride.signal with
      | .proceed => (world, .goesOn)
      | .giveWay => (world.wake (.errand office id), .ends)
      | .sleep due => (world.sleep due (.errand office id), .ends)
      | .wait => (world, .ends)
      | .arrived _ => (world, .ends)
      | .finished => (world.resolve office id, .ends)

/-- A step of a branch. -/
def stepBranch (world : World) (run id : Nat) : World × Turn :=
  let (engine, forked, signal) := world.engine.stepRun run (.branch id)
  let world := { world with engine }
  let world := forked.foldl (fun world id => world.wake (.branch run id)) world
  match signal with
  | .proceed => (world, .goesOn)
  | .giveWay => (world.wake (.branch run id), .ends)
  | .sleep due => (world.sleep due (.branch run id), .ends)
  | .wait => (world, .ends)
  | .arrived group => (world.wakeWaiters run group, .ends)
  | .finished => (world, .ends)

/-- An alarm rings: unless it has been stopped or its office is closed, the wait of its run
is over. -/
def ring (world : World) (office id : Nat) : Option (World × Job) :=
  match world.office? office with
  | none => none
  | some o =>
    match o.alarms.find? (·.id == id) with
    | none => none
    | some alarm =>
      let o := o.silence (some id)
      if o.isOpen then
        let (errand, o) := o.takeOn { decision := .expire alarm.execution }
        some (world.setOffice office o, .errand office errand)
      else some (world.setOffice office o, .alarm office id)

/-- Ask for the run of an errand to be cancelled. -/
def cancelRun (world : World) (office id : Nat) : World :=
  match world.office? office with
  | none => world
  | some o =>
    match o.errand? id with
    | none => world
    | some errand =>
      let world := world.setOffice office (o.setErrand id { errand with isCancelled := true })
      match errand.run?.bind fun r => (world.engine.run? r).map (r, ·) with
      | none => world
      | some (r, run) =>
        { world with engine := world.engine.setRun r { run with isCancelled := true } }

/-- Let a job go on until it has to wait. -/
def run (fuel : Nat) (world : World) (job : Job) : World :=
  match fuel with
  | 0 => world
  | fuel + 1 =>
    match job with
    | .errand office id =>
      match world.stepErrand office id with
      | (world, .goesOn) => run fuel world job
      | (world, .ends) => world
    | .branch r id =>
      match world.stepBranch r id with
      | (world, .goesOn) => run fuel world job
      | (world, .ends) => world
    | .alarm office id =>
      match world.ring office id with
      | none => world
      | some (world, job) => run fuel world job
    | .cancel office id => world.cancelRun office id

/-- Let all jobs that can go on take their turns, until there is none. -/
def settle (fuel : Nat) (world : World) : World :=
  match fuel with
  | 0 => world
  | fuel + 1 =>
    match world.ready with
    | [] => world
    | job :: rest => settle fuel (run fuel { world with ready := rest } job)

/-- Move the clock to a time and wake the jobs that are due then. -/
def moveTo (world : World) (time : Nat) : World :=
  let due := world.timers.filter (·.due ≤ time)
  let world :=
    { world with
      engine := { world.engine with clock := time }
      timers := world.timers.filter (!·.due ≤ time) }
  due.foldl (fun world timer => world.wake timer.job) world

/-- Let time pass up to a time. -/
def advance (fuel : Nat) (world : World) (time : Nat) : World :=
  match fuel with
  | 0 => world
  | fuel + 1 =>
    let world := world.settle fuel
    match world.timers with
    | [] => { world with engine := { world.engine with clock := time } }
    | timer :: _ =>
      if timer.due ≤ time then advance fuel (world.moveTo timer.due) time
      else { world with engine := { world.engine with clock := time } }

/-- Let time pass until a condition holds, or until nothing is waited for. -/
def advanceUntil (fuel : Nat) (world : World) (holds : World → Bool) : World :=
  match fuel with
  | 0 => world
  | fuel + 1 =>
    let world := world.settle fuel
    if holds world then world
    else
      match world.timers with
      | [] => world
      | timer :: _ => advanceUntil fuel (world.moveTo timer.due) holds

/-- What an errand has come to. -/
def answer? (world : World) (job : Job) : Option Answer := world.answers.lookup job

/-- Give an errand to the office that is open now. -/
def ask (world : World) (errand : Errand) : World × Job :=
  match world.office? world.current with
  | none => (world, .errand world.current 0)
  | some office =>
    let (id, office) := office.takeOn errand
    let job := Job.errand world.current id
    ((world.setOffice world.current office).wake job, job)

/-- Change the office that is open now. -/
def modifyOffice (world : World) (change : Office → Office) : World :=
  match world.office? world.current with
  | none => world
  | some office => world.setOffice world.current (change office)

/-- Close the office, so that events and alarms come to nothing. -/
def closeOffice (world : World) : World := world.modifyOffice fun o => { o with isOpen := false }

/-- Close the office and open another one with the same engine. -/
def reopen (world : World) (policy : TimeoutPolicy) : World :=
  let world := world.closeOffice
  { world with offices := world.offices ++ [{ desk := { policy } }] }

end World

end DurableFlow
