import DurableFlow.Proofs.Engine.Runs

/-!
# What an engine keeps in its ledger

Of the writes to a ledger that serves every call, two touch the suspended runs: one puts a
state in the place of what is stored of its run, the other takes away what is stored of a run.
Whatever else an engine does leaves them alone, and leaves its runs with their workflows.
-/

namespace DurableFlow

/-- The nanoseconds since the start of 1970. -/
def Instant.nanos (t : Instant) : Int := t.second * 10 ^ (9 : Nat) + t.nano

namespace Ledger

variable {α : Type}

/-- The rows with one key once another row has been written. -/
theorem filter_upsert (key : α → String) (row : α) (k : String) (rows : List α) :
    (upsert (fun r => key r == key row) (fun _ => row) row rows).filter (fun r => key r == k) =
      if key row = k then row :: (rows.filter fun r => key r == k).tail
      else rows.filter fun r => key r == k := by
  induction rows with
  | nil => by_cases same : key row = k <;> simp [upsert, same]
  | cons r rest ih =>
    by_cases there : key r = key row
    · by_cases same : key row = k <;> simp [upsert, there, same]
    · rw [upsert, if_neg (by simpa using there), List.filter_cons, ih, List.filter_cons]
      by_cases same : key row = k
      · have other : ¬ key r = k := fun equal => there (equal.trans same.symm)
        simp [same, other]
      · simp [same]

/-- The rows with one key once those with a key have been deleted. -/
theorem filter_delete (key : α → String) (k deleted : String) (rows : List α) :
    (rows.filter fun r => key r != deleted).filter (fun r => key r == k) =
      if k = deleted then [] else rows.filter fun r => key r == k := by
  rw [List.filter_filter]
  split
  · rename_i same
    rw [List.filter_eq_nil_iff]
    simp [same]
  · rename_i different
    refine List.filter_congr fun row _ => ?_
    by_cases own : key row = k <;> simp [own, different]

end Ledger

namespace Run

theorem put_workflow (run : Run) (task : TaskId) (phase : Phase) :
    (run.put task phase).context.workflow = run.context.workflow := by
  cases task <;> rfl

/-- A run stays with its workflow. -/
theorem step_run_workflow (around : Surroundings) (run : Run) (task : TaskId) :
    (run.step around task).run.context.workflow = run.context.workflow := by
  have happens := move_transition around.catalog run (.step task around.moment around.clock)
  change Transition around.catalog run (run.step around task).run at happens
  generalize (run.step around task).run = after at happens
  cases happens with
  | act task phase around known located plain =>
    rw [put_workflow]
    exact Phase.step_workflow around run.definition run.context phase
  | wait task phase located => exact put_workflow run task phase
  | fork task join ids located => exact put_workflow _ task _
  | join task join group count ending located outcome => exact put_workflow _ task _
  | choose next located =>
    unfold Run.choose
    repeat' split
    all_goals rfl
  | _ => rfl

end Run

namespace Engine

variable {engine middle after : Engine}

/-- The suspended runs in the ledger. -/
def rows (engine : Engine) : List Suspended :=
  match engine.ledger with
  | none => []
  | some ledger => ledger.suspended

/-- What the ledger has of a suspended run. -/
def stored (engine : Engine) (execution : String) : List Suspended :=
  engine.rows.filter fun state => state.execution == execution

/-- There is a ledger, and none of its operations fails. -/
def Serves (engine : Engine) : Prop := ∃ ledger, engine.ledger = some ledger ∧ ledger.failing = []

theorem mem_stored {state : Suspended} {execution : String} :
    state ∈ engine.stored execution ↔ state ∈ engine.rows ∧ state.execution = execution := by
  simp [stored]

theorem stored_congr (same : after.rows = engine.rows) : after.stored = engine.stored := by
  funext execution
  rw [stored, stored, same]

theorem rows_of_ledger (same : after.ledger = engine.ledger) : after.rows = engine.rows := by
  rw [rows, rows, same]

theorem stored_of_ledger (same : after.ledger = engine.ledger) : after.stored = engine.stored :=
  stored_congr (rows_of_ledger same)

theorem Serves.of_ledger (serves : engine.Serves) (same : after.ledger = engine.ledger) :
    after.Serves := by
  rw [Serves, same]
  exact serves

section Write

variable {change : Ledger → Except Failure Ledger}

/-- A write that leaves the suspended runs alone. -/
theorem write_rows (serves : engine.Serves)
    (still : ∀ ledger next, change ledger = .ok next →
      next.suspended = ledger.suspended ∧ next.failing = ledger.failing) :
    (engine.write change).Serves ∧ (engine.write change).rows = engine.rows := by
  obtain ⟨ledger, known, working⟩ := serves
  rw [write, known]
  dsimp only
  split
  · rename_i next written
    obtain ⟨suspended, failing⟩ := still ledger next written
    exact ⟨⟨next, rfl, failing.trans working⟩, by simp only [rows, known, suspended]⟩
  · exact ⟨⟨ledger, known, working⟩, rfl⟩

/-- A write that is carried out changes the suspended runs as it says. -/
theorem write_ok (serves : engine.Serves) (change : Ledger → Except Failure Ledger)
    {suspended : List Suspended → List Suspended}
    (carried : ∀ ledger : Ledger, ledger.failing = [] → change ledger =
      .ok { ledger with suspended := suspended ledger.suspended }) :
    (engine.write change).Serves ∧ (engine.write change).rows = suspended engine.rows := by
  obtain ⟨ledger, known, working⟩ := serves
  simp only [write, known, carried ledger working]
  exact ⟨⟨_, rfl, working⟩, by simp only [rows, known]⟩

/-- Once a state is saved, it stands in the place of what has been stored of its run. -/
theorem saveSuspended_stored (serves : engine.Serves) (state : Suspended) :
    (engine.write (·.saveSuspended state)).Serves ∧ ∀ execution,
      (engine.write (·.saveSuspended state)).stored execution =
        if state.execution = execution then state :: (engine.stored execution).tail
        else engine.stored execution := by
  obtain ⟨serving, written⟩ := write_ok serves (·.saveSuspended state) fun ledger working => by
    rw [Ledger.saveSuspended, if_pos (by simp [Ledger.serves, working])]
  refine ⟨serving, fun execution => ?_⟩
  rw [stored, written]
  exact Ledger.filter_upsert Suspended.execution state execution engine.rows

theorem deleteSuspended_stored (serves : engine.Serves) (deleted : String) :
    (engine.write (·.deleteSuspended deleted)).Serves ∧ ∀ execution,
      (engine.write (·.deleteSuspended deleted)).stored execution =
        if execution = deleted then [] else engine.stored execution := by
  obtain ⟨serving, written⟩ := write_ok serves (·.deleteSuspended deleted)
    fun ledger working => by
      rw [Ledger.deleteSuspended, if_pos (by simp [Ledger.serves, working])]
  refine ⟨serving, fun execution => ?_⟩
  rw [stored, written]
  exact Ledger.filter_delete Suspended.execution execution deleted engine.rows

end Write

/-- The nanoseconds since the start of 1970 at the next moment. -/
def now (engine : Engine) : Int := engine.moment.now.nanos

theorem now_eq (engine : Engine) :
    engine.now = engine.epoch.second * 10 ^ (9 : Nat) + engine.moments := by
  have whole : engine.moments / 10 ^ (9 : Nat) * 10 ^ (9 : Nat) +
      engine.moments % 10 ^ (9 : Nat) = engine.moments := Nat.div_add_mod' ..
  simp only [now, moment, Instant.nanos]
  omega

/-- One engine comes from another by what is no write to the suspended runs: it counts from
the same instant, and runs go on for their workflows. -/
structure Keeps (engine after : Engine) : Prop where
  epoch : after.epoch = engine.epoch
  moments_le : engine.moments ≤ after.moments
  nextRun_le : engine.nextRun ≤ after.nextRun
  workflow : ∀ id < engine.nextRun, ∀ run, after.run? id = some run →
    ∃ before, engine.run? id = some before ∧ run.context.workflow = before.context.workflow

namespace Keeps

/-- What changes nothing about the runs. -/
theorem of_runs (runs : after.runs = engine.runs) (nextRun : after.nextRun = engine.nextRun)
    (epoch : after.epoch = engine.epoch) (moments : engine.moments ≤ after.moments) :
    engine.Keeps after :=
  ⟨epoch, moments, Nat.le_of_eq nextRun.symm, fun id _ run found =>
    ⟨run, (run?_congr runs id).symm.trans found, rfl⟩⟩

theorem refl (engine : Engine) : engine.Keeps engine := of_runs rfl rfl rfl (Nat.le_refl _)

theorem trans (first : engine.Keeps middle) (second : middle.Keeps after) :
    engine.Keeps after := by
  refine ⟨second.epoch.trans first.epoch, Nat.le_trans first.moments_le second.moments_le,
    Nat.le_trans first.nextRun_le second.nextRun_le, fun id old run found => ?_⟩
  obtain ⟨between, there, same⟩ :=
    second.workflow id (Nat.lt_of_lt_of_le old first.nextRun_le) run found
  obtain ⟨before, known, same'⟩ := first.workflow id old between there
  exact ⟨before, known, same.trans same'⟩

theorem now_le (keeps : engine.Keeps after) : engine.now ≤ after.now := by
  have later := keeps.moments_le
  rw [now_eq, now_eq, keeps.epoch]
  omega

theorem now_lt (keeps : engine.Keeps after) (later : engine.moments < after.moments) :
    engine.now < after.now := by
  rw [now_eq, now_eq, keeps.epoch]
  omega

end Keeps

theorem keeps_write (engine : Engine) (change : Ledger → Except Failure Ledger) :
    engine.Keeps (engine.write change) := by
  rw [write]
  repeat' split
  all_goals exact .of_runs rfl rfl rfl (Nat.le_refl _)

theorem keeps_tick (engine : Engine) : engine.Keeps engine.tick :=
  .of_runs rfl rfl rfl (Nat.le_succ _)

theorem foldl_perform (context : Context) (effects : List Effect) (engine : Engine) :
    engine.Keeps (effects.foldl (perform context) engine) ∧
      (effects.foldl (perform context) engine).ledger = engine.ledger := by
  induction effects generalizing engine with
  | nil => exact ⟨.refl engine, rfl⟩
  | cons effect rest ih =>
    have first : engine.Keeps (engine.perform context effect) ∧
        (engine.perform context effect).ledger = engine.ledger := by
      cases effect <;> exact ⟨.of_runs rfl rfl rfl (Nat.le_refl _), rfl⟩
    exact ⟨first.1.trans (ih _).1, (ih _).2.trans first.2⟩

theorem keeps_setRun {id : Nat} {run changed : Run} (found : engine.run? id = some run)
    (same : changed.context.workflow = run.context.workflow) :
    engine.Keeps (engine.setRun id changed) := by
  refine ⟨rfl, Nat.le_refl _, Nat.le_refl _, fun other _ now there => ?_⟩
  rw [run?_setRun] at there
  split at there
  · rename_i asked
    rw [found, Option.map_some, Option.some.injEq] at there
    exact ⟨run, asked ▸ found, there ▸ same⟩
  · exact ⟨now, there, rfl⟩

/-- A step of a run leaves the ledger alone. -/
theorem stepRun_keeps (engine : Engine) (id : Nat) (task : TaskId) :
    engine.Keeps (engine.stepRun id task).1 ∧
      (engine.stepRun id task).1.ledger = engine.ledger := by
  rw [stepRun]
  split
  · exact ⟨.refl engine, rfl⟩
  · rename_i run found
    have ticked : engine.tick.run? id = some run := found
    have set := keeps_setRun ticked (Run.step_run_workflow engine.surroundings run task)
    obtain ⟨performed, ledger⟩ := foldl_perform run.context
      (run.step engine.surroundings task).effects
      (engine.tick.setRun id (run.step engine.surroundings task).run)
    exact ⟨(keeps_tick engine).trans (set.trans performed), ledger⟩

theorem keeps_close (engine : Engine) (id : Nat) (numbered : engine.Numbered) :
    engine.Keeps (engine.close id) := by
  refine ⟨rfl, Nat.le_refl _, Nat.le_refl _, fun other _ run there => ?_⟩
  rw [numbered.run?_close, Option.filter_eq_some_iff] at there
  exact ⟨run, there.1, rfl⟩

theorem keeps_adopt (engine : Engine) (run : Run) : engine.Keeps (engine.adopt run).2 := by
  refine ⟨rfl, Nat.le_refl _, Nat.le_succ _, fun id old found there => ?_⟩
  rw [run?_adopt_of_ne engine run (Nat.ne_of_lt old)] at there
  exact ⟨found, there, rfl⟩

end Engine

end DurableFlow
