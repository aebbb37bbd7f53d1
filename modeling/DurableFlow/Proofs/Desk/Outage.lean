import DurableFlow.Proofs.Desk.Apart
import DurableFlow.Proofs.Desk.AtMostOnce
import DurableFlow.Proofs.World.Site

/-!
# Outages of the ledger

An engine writes to its ledger and does not look at what comes of it, and nobody reads the
ledger but an errand that restores. So a step of any other errand does the same with a ledger
that fails, with one that serves, and with none: leaving out the ledger commutes with the step.
What is seen of an office over a history is therefore what is seen of it without a ledger.
-/

namespace DurableFlow

/-- The engine without its ledger. -/
def Engine.bare (engine : Engine) : Engine := { engine with ledger := none }

/-- The stride without a ledger. -/
def Stride.bare (stride : Stride) : Stride := { stride with engine := stride.engine.bare }

namespace Engine

variable {engine : Engine}

theorem bare_eq (engine : Engine) : engine.bare = engine.withLedger none := rfl

/-- Whatever comes of a write, only the ledger shows it. -/
theorem bare_write (engine : Engine) (change : Ledger → Except Failure Ledger) :
    (engine.write change).bare = engine.bare := by
  rw [write]
  split
  · rfl
  · split <;> rfl

end Engine

namespace Stride

variable (engine : Engine) (office : Office) (errand : Errand)

/-- An act comes to the same without a ledger. -/
theorem act_bare (act : Act) :
    Stride.act engine.bare office errand act = (Stride.act engine office errand act).bare := by
  cases act with
  | arm d state =>
    simp only [Stride.act, Engine.bare_eq, armed_withLedger]
    rfl
  | publish | count | register | unregister => rfl
  | saveRun | settleRun | saveSuspended | deleteSuspended | saveSubscription
  | deleteSubscription =>
    simp only [Stride.act, Stride.bare, Engine.bare_write]
    rfl

/-- A step of an errand that does not consult the ledger comes to the same without one. -/
theorem step_bare (heedless : errand.decision.consults = false) :
    step engine.bare office errand = (step engine office errand).bare := by
  cases acts : errand.acts with
  | nil =>
    simp only [step, acts]
    exact decide_withLedger engine office errand none heedless
  | cons act rest =>
    simp only [step, acts]
    exact act_bare engine office _ act

theorem act_errand (act : Act) : (Stride.act engine office errand act).errand = errand := by
  cases act <;> rfl

/-- A decision that does not read the ledger does not lead to one that does. -/
theorem decide_heedless (heedless : errand.decision.consults = false) :
    (decide engine office errand).errand.decision.consults = false := by
  have decides := decide_decides engine office errand
  generalize decide engine office errand = stride at decides ⊢
  generalize decision : errand.decision = stage at decides heedless
  cases decides with
  | ends | drives | attends | awaitsStop | awaitsReply => exact decision ▸ rfl
  | restores | adopted | passesOver | adopts | recalls => contradiction
  | _ => rfl

theorem step_heedless (heedless : errand.decision.consults = false) :
    (step engine office errand).errand.decision.consults = false := by
  cases acts : errand.acts with
  | nil =>
    simp only [step, acts]
    exact decide_heedless engine office errand heedless
  | cons act rest =>
    simp only [step, acts, act_errand]
    exact heedless

end Stride

namespace Site

/-- What is asked of an engine and its office, or happens there, while nothing is restored. -/
inductive Demand where
  | move (m : Move)
  /-- The engine is to execute a workflow, under an id that is given or a new one. -/
  | execute (d : Definition) (input : Data) (execution : Option String)
  /-- The engine is to let a suspended run go on, behind its node or at another one. -/
  | resume (d : Definition) (state : Suspended) (node : Option String) (delta : Fields Data)
  /-- The run of an errand is to be cancelled. -/
  | cancelRun (errand : Nat)

/-- Ask for the run of an errand to be cancelled. -/
def cancelRun (site : Site) (id : Nat) : Site :=
  match site.office.errand? id with
  | none => site
  | some errand =>
    let office := site.office.setErrand id { errand with isCancelled := true }
    match errand.run?.bind fun r => (site.engine.run? r).map (r, ·) with
    | none => { site with office }
    | some (r, run) => ⟨site.engine.setRun r { run with isCancelled := true }, office⟩

/-- The site once an errand is taken on. -/
def takeOn (site : Site) (errand : Errand) : Site :=
  { site with office := (site.office.takeOn errand).2 }

/-- The site after a demand. -/
def meet (site : Site) : Demand → Site
  | .move m => site.move m
  | .execute d input execution => site.takeOn { decision := .start .direct d input execution }
  | .resume d state node delta => site.takeOn { decision := .resume .direct d state node delta }
  | .cancelRun id => site.cancelRun id

/-- The errand that comes to its end, and what it has come to. -/
def answered (site : Site) : Demand → List (Nat × Answer)
  | .move (.turn id) =>
    match site.office.errand? id with
    | none => []
    | some errand =>
      let stride := Stride.step site.engine site.office errand
      if stride.signal = .finished then (stride.errand.answer?.map (id, ·)).toList else []
  | _ => []

/-- From now on these operations of the ledger fail, and no others. -/
def suffer (site : Site) (failing : List LedgerCall) : Site :=
  { site with
    engine := { site.engine with ledger := site.engine.ledger.map fun l => { l with failing } } }

/-- The site after a history. Each demand stands with the operations of the ledger that fail
while it is met; an errand makes use of the ledger once in a step at most. -/
def live (site : Site) : List (List LedgerCall × Demand) → Site
  | [] => site
  | (failing, demand) :: rest => ((site.suffer failing).meet demand).live rest

/-- What the errands come to in a history, in the order of their ends. -/
def answers (site : Site) : List (List LedgerCall × Demand) → List (Nat × Answer)
  | [] => []
  | (failing, demand) :: rest =>
    (site.suffer failing).answered demand ++ ((site.suffer failing).meet demand).answers rest

/-- What is seen of a site, apart from its ledger. -/
structure Outcome where
  /-- The results and errors that have been returned. -/
  answers : List (Nat × Answer)
  /-- What has been published, the latest first. -/
  notices : List Notice
  calls : List Call
  metrics : Metrics
  pending : Fields Pending
  deployments : Fields Deployment
  board : Switchboard Handler

/-- What is seen after a history. -/
def outcome (site : Site) (history : List (List LedgerCall × Demand)) : Outcome :=
  let after := site.live history
  { answers := site.answers history
    notices := after.engine.notices
    calls := after.engine.calls
    metrics := after.engine.metrics
    pending := after.office.desk.pending
    deployments := after.office.desk.deployments
    board := after.office.board }

/-- The site without its ledger. -/
def bare (site : Site) : Site := { site with engine := site.engine.bare }

/-- No errand consults the ledger. -/
def Heedless (site : Site) : Prop :=
  ∀ entry ∈ site.office.errands, entry.2.decision.consults = false

variable {site : Site} {id : Nat} {errand : Errand}

theorem Heedless.decision (heedless : site.Heedless)
    (found : site.office.errand? id = some errand) : errand.decision.consults = false :=
  heedless (id, errand) (Table.mem_of_lookup found)

theorem Heedless.takeOn (heedless : site.Heedless) (free : errand.decision.consults = false) :
    (site.takeOn errand).Heedless := by
  intro entry member
  rcases List.mem_append.mp member with old | new
  · exact heedless entry old
  · rw [List.mem_singleton.mp new]
    exact free

theorem Heedless.setErrand {office : Office} {engine : Engine}
    (heedless : Heedless ⟨engine, office⟩) (free : errand.decision.consults = false) (id : Nat)
    (after : Engine) : Heedless ⟨after, office.setErrand id errand⟩ := by
  intro entry member
  rcases mem_setErrand member with rfl | ⟨old, _⟩
  · exact free
  · exact heedless entry old

theorem Heedless.land {stride : Stride} {engine : Engine}
    (heedless : Heedless ⟨engine, stride.office⟩)
    (free : stride.errand.decision.consults = false) (id : Nat) : (land stride id).Heedless := by
  have set := heedless.setErrand free id stride.engine
  simp only [Site.land]
  split
  · exact fun entry member => set entry (List.mem_filter.mp member).1
  · exact set

theorem Heedless.turn (heedless : site.Heedless) (id : Nat) : (site.turn id).Heedless := by
  rw [Site.turn]
  split
  · exact heedless
  · rename_i errand found
    have free := heedless.decision found
    have still : Heedless ⟨site.engine, (Stride.step site.engine site.office errand).office⟩ := by
      rw [Heedless, (Stride.step_errands ..).1]
      exact heedless
    exact still.land (Stride.step_heedless site.engine site.office errand free) id

theorem Heedless.ring (heedless : site.Heedless) (id : Nat) : (site.ring id).Heedless := by
  have still : ∀ alarm, Heedless ⟨site.engine, site.office.silence alarm⟩ := by
    intro alarm
    rw [Heedless, Office.silence_errands]
    exact heedless
  rw [Site.ring]
  split
  · exact heedless
  · dsimp only
    split
    · exact ((still (some id)).takeOn rfl).turn _
    · exact still (some id)

theorem Heedless.cancelRun (heedless : site.Heedless) (id : Nat) :
    (site.cancelRun id).Heedless := by
  rw [Site.cancelRun]
  split
  · exact heedless
  · rename_i errand found
    have still : Heedless ⟨site.engine, site.office⟩ := heedless
    have free : ({ errand with isCancelled := true } : Errand).decision.consults = false := by
      show errand.decision.consults = false
      exact heedless.decision found
    dsimp only
    split
    · exact still.setErrand free id site.engine
    · exact still.setErrand free id _

/-- Nothing that is asked for makes an errand consult the ledger. -/
theorem Heedless.meet (heedless : site.Heedless) (demand : Demand) :
    (site.meet demand).Heedless := by
  cases demand with
  | move m =>
    cases m with
    | order order => exact heedless.takeOn (by cases order <;> rfl)
    | turn id => exact heedless.turn id
    | ring id => exact heedless.ring id
    | branch | learn | pass => exact heedless
  | execute d input execution => exact heedless.takeOn rfl
  | resume d state node delta => exact heedless.takeOn rfl
  | cancelRun id => exact heedless.cancelRun id

theorem turn_bare (heedless : site.Heedless) (id : Nat) :
    site.bare.turn id = (site.turn id).bare := by
  have same : site.bare.office.errand? id = site.office.errand? id := rfl
  rw [turn, turn, same]
  split
  · rfl
  · rename_i errand found
    have stepped := Stride.step_bare site.engine site.office errand (heedless.decision found)
    exact congrArg (land · id) stepped

theorem ring_bare (heedless : site.Heedless) (id : Nat) :
    site.bare.ring id = (site.ring id).bare := by
  have same : site.bare.office = site.office := rfl
  rw [ring, ring, same]
  split
  · rfl
  · rename_i alarm _
    dsimp only
    split
    · have still : Heedless ⟨site.engine, site.office.silence (some id)⟩ := by
        rw [Heedless, Office.silence_errands]
        exact heedless
      let errand : Errand := { decision := .expire alarm.execution }
      have taken : (Site.takeOn ⟨site.engine, site.office.silence (some id)⟩ errand).Heedless :=
        still.takeOn rfl
      exact turn_bare taken _
    · rfl

theorem cancelRun_bare (site : Site) (id : Nat) :
    site.bare.cancelRun id = (site.cancelRun id).bare := by
  have errand : site.bare.office.errand? id = site.office.errand? id := rfl
  have run : site.bare.engine.run? = site.engine.run? := rfl
  rw [cancelRun, cancelRun, errand, run]
  split
  · rfl
  · dsimp only
    split <;> rfl

/-- What is asked for comes to the same without a ledger. -/
theorem meet_bare (heedless : site.Heedless) (demand : Demand) :
    site.bare.meet demand = (site.meet demand).bare := by
  cases demand with
  | move m =>
    cases m with
    | turn id => exact turn_bare heedless id
    | ring id => exact ring_bare heedless id
    | branch run id =>
      simp only [meet, move, bare, Engine.bare_eq, Engine.stepRun_withLedger]
    | order | learn | pass => rfl
  | cancelRun id => exact cancelRun_bare site id
  | execute | resume => rfl

/-- The same errand ends, and comes to the same, without a ledger. -/
theorem answered_bare (heedless : site.Heedless) (demand : Demand) :
    site.bare.answered demand = site.answered demand := by
  cases demand with
  | move m =>
    cases m with
    | turn id =>
      have same : site.bare.office.errand? id = site.office.errand? id := rfl
      rw [answered, answered, same]
      split
      · rfl
      · rename_i errand found
        have stepped := Stride.step_bare site.engine site.office errand (heedless.decision found)
        rw [show Stride.step site.bare.engine site.bare.office errand = _ from stepped]
        rfl
    | _ => rfl
  | _ => rfl

/-- These demands, while the ledger serves. -/
def serving (demands : List Demand) : List (List LedgerCall × Demand) := demands.map ([], ·)

/-- Whatever fails, a history leads to where it leads without a ledger, and the errands come to
the same. -/
theorem live_bare (heedless : site.Heedless) (history : List (List LedgerCall × Demand)) :
    (site.live history).bare = site.bare.live (serving (history.map Prod.snd)) ∧
      site.answers history = site.bare.answers (serving (history.map Prod.snd)) := by
  induction history generalizing site with
  | nil => exact ⟨rfl, rfl⟩
  | cons entry rest ih =>
    obtain ⟨failing, demand⟩ := entry
    have suffers : (site.suffer failing).Heedless := heedless
    have met : ((site.suffer failing).meet demand).bare = site.bare.meet demand :=
      (meet_bare suffers demand).symm
    have told : (site.suffer failing).answered demand = site.bare.answered demand :=
      (answered_bare suffers demand).symm
    obtain ⟨later, more⟩ := ih (suffers.meet demand)
    rw [met] at later more
    exact ⟨later, congrArg₂ (· ++ ·) told more⟩

theorem outcome_bare (heedless : site.Heedless) (history : List (List LedgerCall × Demand)) :
    site.outcome history = site.bare.outcome (serving (history.map Prod.snd)) := by
  obtain ⟨led, told⟩ := live_bare heedless history
  rw [outcome, outcome, ← led, ← told]
  rfl

/-- Over any history of orders, alarms, executions, resumptions and cancellations, and whichever
operations of the ledger fail at each of its steps, the results and errors that are returned,
what is published, the calls of procedures, the metrics, the pending runs, the deployments and
the registered handlers are those of the same history with a ledger that never fails, and those
without a ledger. -/
theorem outages_change_nothing (catalog : Catalog) (limit : Nat) (ledger : Ledger)
    (epoch : Instant) (policy : TimeoutPolicy) (history : List (List LedgerCall × Demand)) :
    let stored := opened catalog limit (some ledger) epoch policy
    let unstored := opened catalog limit none epoch policy
    let demands := history.map Prod.snd
    stored.outcome history = stored.outcome (serving demands) ∧
      stored.outcome history = unstored.outcome (serving demands) := by
  have heedless : (opened catalog limit (some ledger) epoch policy).Heedless :=
    fun _ member => absurd member List.not_mem_nil
  have served := outcome_bare heedless (serving (history.map Prod.snd))
  have failed := outcome_bare heedless history
  have same : (serving (history.map Prod.snd)).map Prod.snd = history.map Prod.snd := by
    rw [serving, List.map_map]
    exact List.map_id _
  rw [same] at served
  exact ⟨failed.trans served.symm, failed⟩

end Site

/-- Asking for the run of an errand to be cancelled is the same in a world. -/
theorem World.site?_cancelRun {world : World} {site : Site} {office : Nat}
    (h : world.site? office = some site) (id : Nat) :
    (world.cancelRun office id).site? office = some (site.cancelRun id) := by
  obtain ⟨engine, found⟩ := World.site?_eq_some h
  rw [World.cancelRun, Site.cancelRun]
  simp only [found]
  cases site.office.errand? id with
  | none => exact h
  | some errand =>
    have same : ∀ o, (world.setOffice office o).engine = site.engine := fun _ => engine.symm
    have set := World.site?_setOffice found
      (site.office.setErrand id { errand with isCancelled := true })
    dsimp only
    rw [same]
    cases errand.run?.bind fun r => (site.engine.run? r).map (r, ·) with
    | none => rw [set, engine]
    | some entry =>
      have there := (World.site?_eq_some set).2
      exact congrArg (Option.map (Site.mk _)) there

end DurableFlow
