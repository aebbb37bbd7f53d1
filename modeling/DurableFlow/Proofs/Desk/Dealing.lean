import DurableFlow.Proofs.Desk.Charge

/-!
# What decisions do about pauses

A run passes from hand to hand: from the pass that suspends it to the acts that make it
pending, from the pending runs to the errand that has claimed it, and from there to the next
pass. No decision hands it to anybody else or keeps it besides.
-/

namespace DurableFlow

namespace Stride

variable {engine : Engine} {office : Office} {errand : Errand}

theorem charges_of_acts (acts : errand.acts = []) (engine : Engine) :
    errand.charges engine = (errand.decision.charge? engine).toList := by
  simp [Errand.charges, acts]

theorem keep_charges (d : Definition) (result : RunResult) :
    (keep d result).filterMap Act.charge? =
      (result.suspended.map fun state => ({ execution := state.execution } : Charge)).toList := by
  cases suspended : result.suspended with
  | none => simp [keep, suspended]
  | some state => simp [keep, suspended, List.filterMap_cons, Act.charge?]

/-- A pass is taken up, and its run is all that is in the charge of the errand. -/
theorem enter_deals {before : Engine} (extending : before.Extends engine) {purpose : Purpose}
    {run : Run} {acts : List Act} {deed : Deed} (told : acts.filterMap Act.charge? = [])
    (dealing : let stride := enter engine office errand purpose run acts
      stride.errand.charges stride.engine = [{ execution := run.context.execution }] →
        Dealing before office errand stride deed) :
    Deals before office errand deed (enter engine office errand purpose run acts) := by
  have numbered := extending.numbered
  refine ⟨extending.trans (numbered.adopt _), Nat.lt_succ_self _, dealing ?_⟩
  have owned := numbered.owner?_adopt { run with isCancelled := errand.isCancelled }
  show acts.filterMap Act.charge? ++
    (((engine.adopt { run with isCancelled := errand.isCancelled }).2.owner?
      engine.nextRun).map fun execution => ({ execution } : Charge)).toList = _
  rw [told, owned]
  rfl

/-- The state of a run that has been suspended bears its id. -/
theorem execution_of_result {now : Instant} {context : Context} {conclusion : Conclusion}
    {result : RunResult} {happening : Happening} {state : Suspended}
    (told : conclusion.result now context = .ok (result, happening))
    (suspended : result.suspended = some state) : state.execution = context.execution := by
  obtain ⟨_, _, _, captured⟩ := Conclusion.suspended_of_result told suspended
  exact (Suspended.capture?_eq_some captured).2.1

/-- The pending runs are shown, which is all that the engine has to do with a release. -/
theorem showPending_extends (numbered : engine.Numbered) (office : Office) :
    engine.Extends (showPending engine office) :=
  numbered.extends_of_runs rfl rfl (Nat.le_refl _)

theorem forgetWorkflow_charges (errand : Errand) (workflow : String) (dropped : List String)
    (engine : Engine) : (forgetWorkflow errand workflow dropped).charges engine = [] := by
  have free : (forgetWorkflow errand workflow dropped).acts.filterMap Act.charge? = [] :=
    List.filterMap_eq_nil_iff.mpr (forall_forgetWorkflow errand (fun _ _ => rfl) rfl)
  rw [Errand.charges, free]
  rfl

/-- The alarm of a pending run has rung. -/
theorem expire_deals (numbered : engine.Numbered) (orderly : office.Orderly) {execution : String}
    {state : Suspended} {alarm : Nat}
    (there : office.desk.pending? execution = some ⟨state, some alarm⟩) :
    Deals engine office errand (.release (.expiry alarm))
      (expire engine office errand execution) := by
  have fits : (Exit.expiry alarm).fits (some alarm) = true := beq_self_eq_true _
  have decides := expire_decides engine office errand execution
  generalize expire engine office errand execution = stride at decides ⊢
  obtain rfl : state.execution = execution := orderly.keyed _ _ there
  have shown := showPending_extends numbered (office.release state.execution)
  have agrees := Office.Agrees.refl (office.release state.execution)
  cases decides with
  | expiryMissed gone => exact absurd (gone.symm.trans there) (Option.some_ne_none _).symm
  | lapses found policy | timesOut found policy =>
    exact ⟨shown, trivial, .release _ state _ there fits agrees (List.nil_sublist _)⟩
  | transitions found =>
    cases there.symm.trans found
    exact ⟨shown, trivial, .release _ state _ there fits agrees (List.Sublist.refl _)⟩

/-- What a decision of a managed errand does about pauses is what its deed says. -/
theorem decide_deals (numbered : engine.Numbered) (orderly : office.Orderly)
    (managed : errand.IsManaged engine) (acts : errand.acts = []) :
    Deals engine office errand errand.deed (decide engine office errand) := by
  have agrees := Office.Agrees.refl office
  have still := numbered.extends_refl
  have allowed := managed.decision
  have charges := charges_of_acts acts engine
  have decides := decide_decides engine office errand
  simp only [Errand.deed, acts]
  generalize decide engine office errand = stride at decides ⊢
  generalize errand.decision = decision at decides allowed charges ⊢
  cases decides with
  | ends | awaitsStop | awaitsReply =>
    exact ⟨still, managed.decision, .keep trivial agrees (.refl _)⟩
  | starts valid begins =>
    subst begins
    obtain rfl : _ = none := allowed
    exact enter_deals numbered.tick rfl fun charges => .start agrees (Nat.lt_succ_self _) charges
  | @resumeRefused purpose d state =>
    have charge : { execution := state.execution, claimed := some state } ∈
        errand.charges engine := charges ▸ List.mem_singleton_self _
    exact ⟨still, trivial, .resume state charge agrees (List.nil_sublist _)⟩
  | @resumes purpose d state =>
    have charge : { execution := state.execution, claimed := some state } ∈
        errand.charges engine := charges ▸ List.mem_singleton_self _
    exact enter_deals still rfl fun entered => .resume state charge agrees (entered ▸ .refl _)
  | @drives purpose run =>
    have extending := numbered.stepRun run .driver
    exact ⟨extending, managed.decision.extending extending,
      .keep trivial agrees (managed.charges_extends extending)⟩
  | @drivesHome purpose run =>
    have extending := numbered.stepRun run .driver
    refine ⟨extending, allowed.extending extending, .keep trivial agrees ?_⟩
    rw [charges]
    exact Decision.charge?_extends allowed extending
  | drivesOn =>
    refine ⟨still, allowed, .keep trivial agrees ?_⟩
    rw [charges]
    exact List.Sublist.refl _
  | @breaksDown purpose run =>
    exact .idle trivial (numbered.tick.trans (numbered.tick.numbered.close run)) agrees trivial rfl
  | @concludes purpose run process conclusion result happening found concluded told =>
    refine ⟨numbered.tick.trans (numbered.tick.numbered.close run), trivial,
      .keep trivial agrees ?_⟩
    rw [charges, Decision.charge?, Engine.owner?, found]
    cases suspended : result.suspended with
    | none => simp [Errand.charges, Errand.go, concluding, Act.charge?, Decision.charge?, suspended]
    | some state =>
      simp [Errand.charges, Errand.go, concluding, Act.charge?, Decision.charge?, suspended,
        execution_of_result told suspended]
  | keeps =>
    refine ⟨still, trivial, .keep trivial agrees ?_⟩
    rw [charges]
    simp [Errand.charges, Errand.go, keep_charges, Decision.charge?]
  | claims matched =>
    obtain ⟨alarm, found⟩ := orderly.pending?_of_match? matched
    exact ⟨showPending_extends numbered _, trivial,
      .release .event _ alarm found rfl (.refl _) (.refl _)⟩
  | startsFor => exact .idle trivial still agrees rfl rfl
  | @cancels execution state alarm found =>
    obtain rfl : state.execution = execution := orderly.keyed _ _ found
    exact ⟨showPending_extends numbered _, trivial,
      .release .cancel state alarm found rfl (.refl _) (.refl _)⟩
  | stops => exact ⟨showPending_extends numbered _, trivial, .detach _ (.refl _) rfl⟩
  | forgets | stopped => exact .idle trivial still agrees trivial (forgetWorkflow_charges ..)
  | callsStop =>
    exact .idle trivial (numbered.extends_of_runs rfl rfl (Nat.le_succ _)) agrees trivial rfl
  | callsTrigger =>
    exact .idle trivial (numbered.extends_of_runs rfl rfl (Nat.le_add_right _ 2)) agrees trivial rfl
  | subscribeRefused | subscribes => exact .idle trivial numbered.tick agrees trivial rfl
  | installs => exact .idle trivial still ⟨⟨rfl, rfl, rfl⟩, rfl, rfl⟩ trivial rfl
  | attended | attends | expiryMissed | lapses | timesOut | transitions | restoresNothing
  | restoreFailed | restores | adopted | passesOver | adopts | recallsNothing | recallFailed
  | recalls | adoptsSuspended => exact allowed.elim
  | _ => exact .idle trivial still agrees trivial rfl

/-- What a step of a managed errand does about pauses is what its deed says. -/
theorem step_deals (numbered : engine.Numbered) (orderly : office.Orderly)
    (managed : errand.IsManaged engine) :
    Deals engine office errand errand.deed (step engine office errand) := by
  rw [step]
  split
  · rename_i first rest acts
    exact act_deals numbered managed acts
  · rename_i acts
    exact decide_deals numbered orderly managed acts

end Stride

end DurableFlow
