import DurableFlow.Engine.Basic
import DurableFlow.Proofs.Run.Interleaving

/-!
# The runs of an engine

A run that is under way goes on under its id and its execution until it is closed, whatever
else the engine does in between, and ids are not used again.
-/

namespace DurableFlow

namespace Run

variable {catalog : Catalog} {run after : Run}

theorem put_execution (run : Run) (task : TaskId) (phase : Phase) :
    (run.put task phase).context.execution = run.context.execution := by
  cases task <;> rfl

theorem Transition.execution (happens : Transition catalog run after) :
    after.context.execution = run.context.execution := by
  cases happens with
  | act task phase around known located plain =>
    rw [put_execution]
    exact Phase.step_execution around run.definition run.context phase
  | wait task phase located => exact put_execution run task phase
  | fork task join ids located => exact put_execution _ task _
  | join task join group count ending located outcome => exact put_execution _ task _
  | choose next located =>
    unfold Run.choose
    repeat' split
    all_goals rfl
  | _ => rfl

theorem step_run_execution (around : Surroundings) (run : Run) (task : TaskId) :
    (run.step around task).run.context.execution = run.context.execution :=
  (move_transition around.catalog run (.step task around.moment around.clock)).execution

end Run

namespace Engine

variable {engine middle after : Engine} {id : Nat}

/-- The execution that a run belongs to. -/
def owner? (engine : Engine) (id : Nat) : Option String :=
  (engine.run? id).map fun run => run.context.execution

/-- Runs have different ids, all of which have been given out. -/
structure Numbered (engine : Engine) : Prop where
  nodup : (Table.ids engine.runs).Nodup
  lt : ∀ entry ∈ engine.runs, entry.1 < engine.nextRun

section Lookups

theorem run?_congr (runs : after.runs = engine.runs) (id : Nat) :
    after.run? id = engine.run? id := by
  rw [run?, run?, runs]

theorem run?_setRun (engine : Engine) (id other : Nat) (changed : Run) :
    (engine.setRun id changed).run? other =
      if other = id then (engine.run? id).map fun _ => changed else engine.run? other :=
  Table.lookup_update id other (fun _ => changed) engine.runs

theorem Numbered.run?_close (numbered : engine.Numbered) (id other : Nat) :
    (engine.close id).run? other =
      (engine.run? other).filter fun run => other != id || !run.branches.isEmpty :=
  Table.lookup_filter numbered.nodup _ other

theorem run?_adopt_eq (engine : Engine) (run : Run) (id : Nat) :
    (engine.adopt run).2.run? id = (engine.run? id).or ([(engine.nextRun, run)].lookup id) :=
  List.lookup_append

theorem run?_adopt_of_ne (engine : Engine) (run : Run) (different : id ≠ engine.nextRun) :
    (engine.adopt run).2.run? id = engine.run? id := by
  rw [run?_adopt_eq, Table.lookup_cons, if_neg different, List.lookup_nil, Option.or_none]

theorem run?_adopt (numbered : engine.Numbered) (run : Run) :
    (engine.adopt run).2.run? engine.nextRun = some run := by
  have unused : engine.run? engine.nextRun = none := by
    apply Table.lookup_eq_none_of_not_mem
    intro used
    obtain ⟨entry, member, same⟩ := List.mem_map.mp used
    exact absurd (numbered.lt entry member) (by omega)
  rw [run?_adopt_eq, unused, Table.lookup_cons, if_pos rfl]
  rfl

theorem runs_foldl_perform (context : Context) (effects : List Effect) (engine : Engine) :
    (effects.foldl (perform context) engine).runs = engine.runs := by
  induction effects generalizing engine with
  | nil => rfl
  | cons effect rest ih =>
    rw [List.foldl_cons, ih]
    cases effect <;> rfl

/-- A step of a task changes its own run only. -/
theorem run?_stepRun (engine : Engine) (id other : Nat) (task : TaskId) :
    (engine.stepRun id task).1.run? other =
      if other = id then (engine.run? id).map fun run => (run.step engine.surroundings task).run
      else engine.run? other := by
  cases found : engine.run? id with
  | none =>
    simp only [stepRun, found, Option.map_none]
    split
    · rename_i same
      rw [same, found]
    · rfl
  | some run =>
    have set := run?_setRun engine.tick id other (run.step engine.surroundings task).run
    rw [show engine.tick.run? id = some run from found] at set
    simp only [stepRun, found]
    rw [run?, runs_foldl_perform]
    exact set

end Lookups

/-- One engine comes from another: moments and ids have only been given out, and the runs
that have been there belong to whom they belonged to, unless they are closed. -/
structure Extends (engine after : Engine) : Prop where
  numbered : after.Numbered
  moments_le : engine.moments ≤ after.moments
  nextRun_le : engine.nextRun ≤ after.nextRun
  owner : ∀ id < engine.nextRun, after.owner? id = engine.owner? id ∨ after.owner? id = none

theorem Extends.trans (first : engine.Extends middle) (second : middle.Extends after) :
    engine.Extends after where
  numbered := second.numbered
  moments_le := Nat.le_trans first.moments_le second.moments_le
  nextRun_le := Nat.le_trans first.nextRun_le second.nextRun_le
  owner id old := by
    rcases second.owner id (Nat.lt_of_lt_of_le old first.nextRun_le) with same | closed
    · rw [same]
      exact first.owner id old
    · exact .inr closed

/-- What changes nothing about the runs. -/
theorem Numbered.extends_of_runs (numbered : engine.Numbered) (runs : after.runs = engine.runs)
    (nextRun : after.nextRun = engine.nextRun) (moments : engine.moments ≤ after.moments) :
    engine.Extends after where
  numbered := ⟨runs ▸ numbered.nodup, fun entry member => by
    rw [nextRun]
    exact numbered.lt entry (runs ▸ member)⟩
  moments_le := moments
  nextRun_le := Nat.le_of_eq nextRun.symm
  owner id _ := .inl (by rw [owner?, owner?, run?_congr runs])

theorem Numbered.extends_refl (numbered : engine.Numbered) : engine.Extends engine :=
  numbered.extends_of_runs rfl rfl (Nat.le_refl _)

theorem Numbered.tick (numbered : engine.Numbered) : engine.Extends engine.tick :=
  numbered.extends_of_runs rfl rfl (Nat.le_succ _)

theorem Numbered.write (numbered : engine.Numbered) (change : Ledger → Except Failure Ledger) :
    engine.Extends (engine.write change) := by
  have same : (engine.write change).runs = engine.runs ∧
      (engine.write change).nextRun = engine.nextRun ∧
      (engine.write change).moments = engine.moments := by
    rw [Engine.write]
    repeat' split
    all_goals exact ⟨rfl, rfl, rfl⟩
  exact numbered.extends_of_runs same.1 same.2.1 (Nat.le_of_eq same.2.2.symm)

theorem Numbered.perform (numbered : engine.Numbered) (context : Context)
    (effects : List Effect) : engine.Extends (effects.foldl (perform context) engine) := by
  induction effects generalizing engine with
  | nil => exact numbered.extends_refl
  | cons effect rest ih =>
    have first : engine.Extends (Engine.perform context engine effect) := by
      cases effect <;> exact numbered.extends_of_runs rfl rfl (Nat.le_refl _)
    exact first.trans (ih first.numbered)

theorem Numbered.setRun (numbered : engine.Numbered) {run changed : Run}
    (found : engine.run? id = some run)
    (same : changed.context.execution = run.context.execution) :
    engine.Extends (engine.setRun id changed) where
  numbered := by
    have ids : Table.ids (engine.setRun id changed).runs = Table.ids engine.runs :=
      Table.ids_update id (fun _ => changed) engine.runs
    refine ⟨by rw [ids]; exact numbered.nodup, fun entry member => ?_⟩
    have updated : entry ∈ Table.update id (fun _ => changed) engine.runs := member
    rcases Table.mem_update updated with old | ⟨before, old, rfl⟩
    · exact numbered.lt entry old
    · exact numbered.lt (id, before) old
  moments_le := Nat.le_refl _
  nextRun_le := Nat.le_refl _
  owner other _ := by
    rw [owner?, run?_setRun, owner?]
    split
    · rename_i asked
      simp [asked, found, same]
    · exact .inl rfl

theorem Numbered.stepRun (numbered : engine.Numbered) (id : Nat) (task : TaskId) :
    engine.Extends (engine.stepRun id task).1 := by
  rw [Engine.stepRun]
  split
  · exact numbered.extends_refl
  · rename_i run found
    have ticked := numbered.tick
    have set := ticked.numbered.setRun found
      (Run.step_run_execution engine.surroundings run task)
    exact (ticked.trans set).trans (set.numbered.perform run.context _)

theorem Numbered.close (numbered : engine.Numbered) (id : Nat) :
    engine.Extends (engine.close id) where
  numbered := ⟨Table.nodup_filter numbered.nodup _, fun entry member =>
    numbered.lt entry (List.mem_filter.mp member).1⟩
  moments_le := Nat.le_refl _
  nextRun_le := Nat.le_refl _
  owner other _ := by
    rw [owner?, numbered.run?_close, owner?]
    cases engine.run? other with
    | none => exact .inl rfl
    | some run =>
      rw [Option.filter_some]
      split
      · exact .inl rfl
      · exact .inr rfl

theorem Numbered.adopt (numbered : engine.Numbered) (run : Run) :
    engine.Extends (engine.adopt run).2 where
  numbered := by
    constructor
    · have unused : engine.nextRun ∉ Table.ids engine.runs := by
        intro used
        obtain ⟨entry, member, same⟩ := List.mem_map.mp used
        exact absurd (numbered.lt entry member) (by omega)
      simpa [Engine.adopt, List.nodup_append] using
        ⟨numbered.nodup, fun id run member same => unused (same ▸ List.mem_map_of_mem member)⟩
    · intro entry member
      rcases List.mem_append.mp member with old | new
      · exact Nat.lt_succ_of_lt (numbered.lt entry old)
      · rw [List.mem_singleton.mp new]
        exact Nat.lt_succ_self _
  moments_le := Nat.le_refl _
  nextRun_le := Nat.le_succ _
  owner id old := by
    rw [owner?, run?_adopt_of_ne engine run (Nat.ne_of_lt old), owner?]
    exact .inl rfl

theorem Numbered.owner?_adopt (numbered : engine.Numbered) (run : Run) :
    (engine.adopt run).2.owner? engine.nextRun = some run.context.execution := by
  rw [owner?, run?_adopt numbered run, Option.map_some]

end Engine

end DurableFlow
