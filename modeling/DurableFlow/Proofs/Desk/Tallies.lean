import DurableFlow.Proofs.Desk.Attempts
import DurableFlow.Proofs.Desk.Career
import DurableFlow.Proofs.Engine.Counters

/-!
# What errands count

A decision that queues an act which gives the record of a run a final status, or the status
`paused`, queues an act that counts a run of this status as well (`decide_balances`). Only the
cancellation of a pending run is not counted. The decision itself changes no counter but those of
nodes (`decide_changes`).
-/

namespace DurableFlow

namespace Act

/-- What the act counts. -/
def tally? : Act → Option Tally
  | .count tally => some tally
  | _ => none

/-- The execution whose record the act writes, and the status that the record gets. -/
def moves? : Act → Option (String × Status)
  | .saveRun record => some (record.execution, record.status)
  | .settleRun execution outcome => some (execution, outcome.status)
  | _ => none

end Act

namespace Office

/-- The outcome of the event that a decision is about to handle. -/
def outcome? (office : Office) : Decision → Option EventOutcome
  | .claim d event =>
    match office.desk.match? d.id event with
    | some _ => some .resumed
    | none => if d.trigger.all event.allowedBy then some .started else some .dropped
  | _ => none

/-- The pending run that a decision cancels. -/
def withdrawn? (office : Office) : Decision → Option String
  | .cancel execution => (office.desk.pending? execution).map fun _ => execution
  | _ => none

end Office

namespace Stride

variable {engine : Engine} {office : Office} {errand : Errand} {decision : Decision}
  {acts : List Act}

/-- The acts that a decision queues are balanced. For each status but that of a running run, there
are as many acts that count a run of this status as there are acts that give a record this status,
except that the record of a pending run that is cancelled is not counted. An event is counted once,
at the decision that handles it, and no act counts a node. -/
structure Balances (office : Office) (decision : Decision) (acts : List Act) : Prop where
  runs : ∀ status, status ≠ .running →
    (acts.filterMap Act.tally?).count (.run status) +
        (if status = .cancelled then (office.withdrawn? decision).toList.length else 0) =
      (acts.filterMap Act.moves?).countP (·.2 = status)
  events : ∀ outcome, (acts.filterMap Act.tally?).count (.event outcome) =
    (office.outcome? decision).toList.count outcome
  nodes : ∀ kind, .node kind ∉ acts.filterMap Act.tally?

section Decisions

/-- No act counts anything or writes a record. -/
theorem Balances.quiet (tallies : acts.filterMap Act.tally? = [])
    (moves : acts.filterMap Act.moves? = []) (withdrawn : office.withdrawn? decision = none)
    (outcome : office.outcome? decision = none) : Balances office decision acts where
  runs status _ := by simp [tallies, moves, withdrawn]
  events outcome' := by simp [tallies, outcome]
  nodes kind := by simp [tallies]

/-- One act gives a record a status, and another one counts a run of this status. -/
theorem Balances.ends {status : Status} {execution : String}
    (tallies : acts.filterMap Act.tally? = [.run status])
    (moves : acts.filterMap Act.moves? = [(execution, status)])
    (withdrawn : office.withdrawn? decision = none)
    (unasked : office.outcome? decision = none) : Balances office decision acts where
  runs other _ := by simp [tallies, moves, withdrawn, List.count_cons, List.countP_cons]
  events other := by simp [tallies, unasked]
  nodes kind := by simp [tallies]

/-- An act gives the record of a pending run the status `cancelled`, and none counts it. -/
theorem Balances.withdraws {execution : String} (tallies : acts.filterMap Act.tally? = [])
    (moves : acts.filterMap Act.moves? = [(execution, .cancelled)])
    (withdrawn : office.withdrawn? decision = some execution)
    (unasked : office.outcome? decision = none) : Balances office decision acts where
  runs other _ := by simp [tallies, moves, withdrawn, List.countP_cons, eq_comm]
  events other := by simp [tallies, unasked]
  nodes kind := by simp [tallies]

/-- An act gives a record the status `running`, which is not counted. -/
theorem Balances.running {execution : String} (tallies : acts.filterMap Act.tally? = [])
    (moves : acts.filterMap Act.moves? = [(execution, .running)])
    (withdrawn : office.withdrawn? decision = none)
    (unasked : office.outcome? decision = none) : Balances office decision acts where
  runs other live := by simp [tallies, moves, withdrawn, live.symm]
  events other := by simp [tallies, unasked]
  nodes kind := by simp [tallies]

/-- An act counts the outcome of the event that is handled. -/
theorem Balances.handles {outcome : EventOutcome}
    (tallies : acts.filterMap Act.tally? = [.event outcome])
    (moves : acts.filterMap Act.moves? = []) (withdrawn : office.withdrawn? decision = none)
    (asked : office.outcome? decision = some outcome) : Balances office decision acts where
  runs other _ := by simp [tallies, moves, withdrawn]
  events other := by simp [tallies, asked, List.count_cons]
  nodes kind := by simp [tallies]

/-- Acts that forget a stored state and count a timeout leave others balanced. -/
theorem Balances.timeout (balances : Balances office decision acts) (execution : String)
    (policy : TimeoutPolicy) :
    Balances office decision (.deleteSuspended execution :: .count (.timeout policy) :: acts) where
  runs status live := by
    simpa [Act.tally?, Act.moves?, List.filterMap_cons, List.count_cons] using
      balances.runs status live
  events outcome := by
    simpa [Act.tally?, List.filterMap_cons, List.count_cons] using balances.events outcome
  nodes kind := by simpa [Act.tally?, List.filterMap_cons] using balances.nodes kind

theorem keep_quiet (d : Definition) (result : RunResult) :
    (keep d result).filterMap Act.tally? = [] ∧ (keep d result).filterMap Act.moves? = [] := by
  rw [keep]
  split <;> exact ⟨rfl, rfl⟩

/-- Whatever an errand decides, the acts that it queues are balanced. -/
theorem decide_balances (engine : Engine) (office : Office) (idle : errand.acts = []) :
    Balances office errand.decision (decide engine office errand).errand.acts := by
  have decides := decide_decides engine office errand
  generalize decide engine office errand = stride at decides ⊢
  generalize errand.decision = decision at decides ⊢
  cases decides with
  | ends | drives | attends | awaitsStop | awaitsReply =>
    rw [idle]
    exact .quiet rfl rfl rfl rfl
  | starts | resumes => exact .running rfl rfl rfl rfl
  | concludes | abandons => exact .ends rfl rfl rfl rfl
  | keeps => exact .quiet (keep_quiet _ _).1 (keep_quiet _ _).2 rfl rfl
  | claims matched => exact .handles rfl rfl rfl (by simp [Office.outcome?, matched])
  | startsFor unmatched allowed =>
    exact .handles rfl rfl rfl (by simp [Office.outcome?, unmatched, allowed])
  | drops unmatched refused =>
    exact .handles rfl rfl rfl (by simp [Office.outcome?, unmatched, refused])
  | lapses | transitions => exact .timeout (.quiet rfl rfl rfl rfl) _ _
  | timesOut =>
    refine Balances.timeout ?_ _ _
    exact .ends rfl rfl rfl rfl
  | cancelMissed gone => exact .quiet rfl rfl (by simp [Office.withdrawn?, gone]) rfl
  | cancels found => exact .withdraws rfl rfl (by simp [Office.withdrawn?, found]) rfl
  | forgets | stopped =>
    exact .quiet (List.filterMap_eq_nil_iff.mpr (forall_forgetWorkflow errand (fun _ _ => rfl) rfl))
      (List.filterMap_eq_nil_iff.mpr (forall_forgetWorkflow errand (fun _ _ => rfl) rfl)) rfl rfl
  | _ => exact .quiet rfl rfl rfl rfl

/-- Setting the alarm of a run writes nothing to the counters and the ledger. -/
theorem armed_changes (engine : Engine) (office : Office) (state : Suspended) :
    let after := (armed engine office state).1
    after.runs = engine.runs ∧ after.nextRun = engine.nextRun ∧
      after.metrics = engine.metrics ∧ after.ledger = engine.ledger := by
  simp only [armed]
  split <;> exact ⟨rfl, rfl, rfl, rfl⟩

theorem armedAll_changes (engine : Engine) (office : Office) (states : List Suspended) :
    let after := (armedAll engine office states).1
    after.runs = engine.runs ∧ after.nextRun = engine.nextRun ∧
      after.metrics = engine.metrics ∧ after.ledger = engine.ledger := by
  induction states generalizing engine office with
  | nil => exact ⟨rfl, rfl, rfl, rfl⟩
  | cons state rest ih =>
    obtain ⟨runs, nextRun, metrics, ledger⟩ := armed_changes engine office state
    obtain ⟨runs', nextRun', metrics', ledger'⟩ :=
      ih (armed engine office state).1 (armed engine office state).2.1
    exact ⟨runs'.trans runs, nextRun'.trans nextRun, metrics'.trans metrics,
      ledger'.trans ledger⟩

/-- Making a run pending changes no counter but the gauge of pending runs, and no record. -/
theorem arm_changes (engine : Engine) (office : Office) (errand : Errand) (d : Definition)
    (state : Suspended) :
    engine.Changes (Stride.act engine office errand (.arm d state)).engine := by
  obtain ⟨runs, nextRun, metrics, ledger⟩ :=
    armed_changes engine { office with desk := office.desk.learnNew d } state
  refine .aside runs nextRun ?_ ledger
  rw [← metrics]
  rfl

/-- An act adds one to the counter that it names, and to no other. -/
theorem act_tallied (countable : engine.Countable) (office : Office) (errand : Errand)
    {act : Act} (plain : ∀ kind, act.tally? ≠ some (.node kind)) :
    engine.Tallied act.tally? (Stride.act engine office errand act).engine := by
  have written : ∀ change, engine.Tallied none (engine.write change) := by
    intro change
    rw [Engine.write]
    repeat' split
    all_goals exact Engine.tallied_of_runs countable rfl rfl rfl fun _ _ => rfl
  cases act with
  | arm d state => exact (arm_changes engine office errand d state).tallied countable
  | count tally =>
    refine Engine.tallied_count countable ?_
    cases tally with
    | node kind => exact absurd rfl (plain kind)
    | _ => rfl
  | publish | register | unregister =>
    exact Engine.tallied_of_runs countable rfl rfl rfl fun _ _ => rfl
  | saveRun | settleRun | saveSuspended | deleteSuspended | saveSubscription
  | deleteSubscription => exact written _

/-- A decision by itself changes no counter but those of the nodes that its run enters. -/
theorem decide_changes (engine : Engine) (office : Office) (errand : Errand) :
    engine.Changes (decide engine office errand).engine := by
  have decides := decide_decides engine office errand
  generalize decide engine office errand = stride at decides ⊢
  generalize errand.decision = decision at decides
  cases decides with
  | starts => exact .adopt _ _ _ _ _ (.inr rfl)
  | resumes => exact .adopt _ _ _ _ _ (.inl rfl)
  | drives | drivesHome => exact .step _ .driver
  | breaksDown found concluded | concludes found concluded =>
    exact Engine.Changes.close found concluded
  | adoptsSuspended =>
    obtain ⟨runs, nextRun, metrics, ledger⟩ :=
      armedAll_changes engine office (adoptable office.desk _)
    refine .aside runs nextRun ?_ ledger
    rw [← metrics]
    rfl
  | _ => exact .aside rfl rfl rfl rfl

end Decisions

end Stride

end DurableFlow
