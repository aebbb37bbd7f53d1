import DurableFlow.Proofs.Run.Rest

/-!
# What moves do to one task

A move of the run is the move of one task. Every other task stays where it stands, stays in
its group, and whoever waits for a group goes on to have the endings that it has had.
-/

namespace DurableFlow

namespace Run

variable {catalog : Catalog} {run after : Run} {task : TaskId} {phase : Phase}

/-- What a move does to a task that stands in a phase. -/
inductive Fate (catalog : Catalog) (run after : Run) : TaskId → Phase → Prop where
  | stays {task : TaskId} {phase : Phase} (located : after.phase? task = some phase) :
      Fate catalog run after task phase
  | acts {task : TaskId} {phase : Phase} (around : Surroundings)
      (known : around.catalog = catalog) (plain : phase.IsPlain)
      (context : after.context = (phase.step around run.definition run.context).2.1)
      (located : after.phase? task = some (phase.step around run.definition run.context).1) :
      Fate catalog run after task phase
  | forks {task : TaskId} {join : Join} {ids : List String}
      (located : after.phase? task = some (.joining join run.nextGroup ids.length)) :
      Fate catalog run after task (.forking join ids)
  | joins {task : TaskId} {join : Join} {group count : Nat} {ending : Ending}
      (outcome : join.outcome? count (run.endingsOf group) = some ending)
      (located : after.phase? task = some (Phase.joined join ending)) :
      Fate catalog run after task (.joining join group count)
  | arrives {id group : Nat} {ending : Ending}
      (located : run.branch? id = some ⟨group, .ended ending⟩)
      (left : after = run.arrive id group ending) :
      Fate catalog run after (.branch id) (.ended ending)
  | follows {ending : Ending} (drive : after.drive = follow ending) :
      Fate catalog run after .driver (.ended ending)

theorem phase?_dismiss (run : Run) (group : Nat) (task : TaskId) :
    (run.dismiss group).phase? task = run.phase? task := by
  cases task <;> rfl

/-- A task that stands somewhere after branches are set off stood there before, or it is one of
these branches and about to enter its node. -/
theorem phase?_of_fork {ids : List String}
    (located : (run.fork (ids.map .entering)).phase? task = some phase) :
    run.phase? task = some phase ∨ ∃ id, phase = .entering id := by
  cases task with
  | driver => exact .inl located
  | branch id =>
    obtain ⟨group, found⟩ := exists_branch_of_phase? located
    rw [branch?_fork] at found
    rcases Option.or_eq_some_iff.mp found with old | ⟨_, new⟩
    · exact .inl (by simp [phase?, old])
    · split at new
      · obtain ⟨entering, member, same⟩ := List.mem_map.mp (List.mem_of_getElem? new)
        obtain ⟨name, _, rfl⟩ := List.mem_map.mp member
        cases same
        exact .inr ⟨name, rfl⟩
      · contradiction

theorem branch?_arrive (run : Run) (id group : Nat) (ending : Ending) (other : Nat) :
    (run.arrive id group ending).branch? other =
      if other = id then none else run.branch? other := by
  rw [branch?, arrive, Table.lookup_filter_ne]
  rfl

/-- Whoever arrives is the last of its group so far. -/
theorem endings_arrive (run : Run) (id group : Nat) (ending : Ending) (other : Nat) :
    (run.arrive id group ending).endingsOf other =
      run.endingsOf other ++ if group = other then [arrival ending] else [] := by
  by_cases own : group = other <;> simp [endingsOf, arrive, own]

theorem branches_choose (run : Run) (next : List String) :
    (run.choose next).branches = run.branches := by
  unfold Run.choose
  repeat' split
  all_goals rfl

theorem endingsOf_put (run : Run) (task : TaskId) (phase : Phase) (group : Nat) :
    (run.put task phase).endingsOf group = run.endingsOf group := by
  cases task <;> rfl

theorem endingsOf_choose (run : Run) (next : List String) (group : Nat) :
    (run.choose next).endingsOf group = run.endingsOf group := by
  unfold Run.choose
  repeat' split
  all_goals rfl

/-- A task that is put elsewhere is the one that is looked for, or that one stays. -/
theorem Fate.of_put {middle : Run} {moved : TaskId} {old new : Phase}
    (same : ∀ other stood, run.phase? other = some stood → middle.phase? other = some stood)
    (stood : run.phase? moved = some old) (located : run.phase? task = some phase)
    (itself : moved = task → old = phase → Fate catalog run (middle.put moved new) task phase) :
    Fate catalog run (middle.put moved new) task phase := by
  by_cases own : moved = task
  · apply itself own
    rw [own, located] at stood
    exact (Option.some.inj stood).symm
  · apply Fate.stays
    rw [phase?_put (by rw [same _ _ stood]; rfl), if_neg fun other => own other.symm]
    exact same _ _ located

/-- Whatever happens to a run, a task stays where it stands or goes on from there. -/
theorem Tended.fate (tended : run.Tended) (happens : Transition catalog run after)
    (located : run.phase? task = some phase) : Fate catalog run after task phase := by
  cases happens with
  | rest => exact .stays located
  | wait moved old stood =>
    rw [put_self tended.unique stood]
    exact .stays located
  | act moved old around known stood plain =>
    have same : ∀ context other stands, run.phase? other = some stands →
        ({ run with context } : Run).phase? other = some stands :=
      fun context other stands there => (phase?_context run context other).trans there
    apply Fate.of_put (same _) stood located
    rintro rfl rfl
    apply Fate.acts around known plain
    · cases moved <;> rfl
    · rw [phase?_put (by rw [same _ _ _ stood]; rfl), if_pos rfl]
  | fork moved join ids stood =>
    have same : ∀ other stands, run.phase? other = some stands →
        (run.fork (ids.map .entering)).phase? other = some stands :=
      fun other stands there => phase?_fork _ there
    apply Fate.of_put same stood located
    rintro rfl rfl
    apply Fate.forks
    rw [phase?_put (by rw [same _ _ stood]; rfl), if_pos rfl]
  | join moved join group count ending stood outcome =>
    have same : ∀ other stands, run.phase? other = some stands →
        (run.dismiss group).phase? other = some stands :=
      fun other stands there => (phase?_dismiss run group other).trans there
    apply Fate.of_put same stood located
    rintro rfl rfl
    apply Fate.joins outcome
    rw [phase?_put (by rw [same _ _ stood]; rfl), if_pos rfl]
  | arrive id group ending stood =>
    cases task with
    | driver => exact .stays located
    | branch other =>
      by_cases own : other = id
      · obtain rfl := own
        have ended : phase = .ended ending := by
          have looked : run.phase? (.branch other) = some (.ended ending) := by
            simp [phase?, stood]
          exact Option.some.inj (located.symm.trans looked)
        rw [ended]
        exact .arrives stood rfl
      · apply Fate.stays
        rw [phase?, branch?_arrive, if_neg own]
        exact located
  | follow ending drive =>
    cases task with
    | driver =>
      have same := drive_of_phase? located
      rw [drive] at same
      cases same
      exact .follows rfl
    | branch other => exact .stays located
  | choose next drive =>
    cases task with
    | driver =>
      have same := drive_of_phase? located
      rw [drive] at same
      contradiction
    | branch other =>
      apply Fate.stays
      rw [phase?, branch?, branches_choose]
      exact located
  | cancel =>
    apply Fate.stays
    cases task <;> exact located

theorem drive_put {middle : Run} (other : task ≠ .driver) (phase : Phase) :
    (middle.put task phase).drive = middle.drive := by
  cases task with
  | driver => exact absurd rfl other
  | branch id => rfl

/-- A driver that is within no node goes on to the next ones, or it stays where it is. -/
theorem Transition.outside (happens : Transition catalog run after)
    (outside : run.phase? .driver = none) :
    after.drive = run.drive ∨ ∃ next, run.drive = .choosing next ∧ after = run.choose next := by
  have other : ∀ {task phase}, run.phase? task = some phase → task ≠ .driver := by
    rintro task phase located rfl
    rw [outside] at located
    contradiction
  cases happens with
  | wait task phase located => exact .inl (drive_put (other located) _)
  | act task phase around known located plain => exact .inl (drive_put (other located) _)
  | fork task join ids located => exact .inl (drive_put (other located) _)
  | join task join group count ending located outcome => exact .inl (drive_put (other located) _)
  | follow ending located => simp [phase?, located] at outside
  | choose next located => exact .inr ⟨next, located, rfl⟩
  | _ => exact .inl rfl

/-- A pass that has come to its end stays there. -/
theorem Transition.concluded (happens : Transition catalog run after) {conclusion : Conclusion}
    (ended : run.drive = .concluded conclusion) : after.drive = .concluded conclusion := by
  rcases happens.outside (by simp [phase?, ended]) with still | ⟨next, choosing, _⟩
  · exact still.trans ended
  · rw [ended] at choosing
    contradiction

theorem play_concluded {conclusion : Conclusion} (ended : run.drive = .concluded conclusion)
    (schedule : List Move) : (run.play catalog schedule).drive = .concluded conclusion := by
  induction schedule generalizing run with
  | nil => exact ended
  | cons m rest ih => exact ih ((move_transition catalog run m).concluded ended)

/-- A branch stays in its group until it arrives. -/
theorem Transition.group (happens : Transition catalog run after) {id : Nat} {branch : Branch}
    (there : run.branch? id = some branch) :
    (∃ branch', after.branch? id = some branch' ∧ branch'.group = branch.group) ∨
      ∃ ending, branch.phase = .ended ending ∧ after = run.arrive id branch.group ending := by
  have put : ∀ {middle : Run} task phase, middle.branch? id = some branch →
      ∃ branch', (middle.put task phase).branch? id = some branch' ∧
        branch'.group = branch.group := by
    intro middle task phase found
    have same := branch?_put middle task phase id
    rw [found] at same
    exact Option.map_eq_some_iff.mp same
  cases happens with
  | rest => exact .inl ⟨branch, there, rfl⟩
  | wait task phase _ => exact .inl (put task phase there)
  | act task phase around _ _ _ =>
    have found : ∀ context, ({ run with context } : Run).branch? id = some branch :=
      fun _ => there
    exact .inl (put task _ (found _))
  | fork task join ids _ =>
    apply Or.inl
    apply put
    rw [branch?_fork, there, Option.some_or]
  | join task join group count ending _ _ =>
    have found : (run.dismiss group).branch? id = some branch := there
    exact .inl (put task _ found)
  | arrive other group ending stood =>
    by_cases own : id = other
    · obtain rfl := own
      rw [there] at stood
      cases stood
      exact .inr ⟨ending, rfl, rfl⟩
    · apply Or.inl
      exact ⟨branch, by rw [branch?_arrive, if_neg own, there], rfl⟩
  | follow ending _ => exact .inl ⟨branch, there, rfl⟩
  | choose next _ =>
    apply Or.inl
    exact ⟨branch, by rw [branch?, branches_choose]; exact there, rfl⟩
  | cancel => exact .inl ⟨branch, there, rfl⟩

/-- As long as a group is waited for, its endings stay. -/
theorem Tended.endingsOf (tended : run.Tended) (happens : Transition catalog run after)
    {join : Join} {group count : Nat} (located : run.phase? task = some (.joining join group count))
    (still : after.phase? task = some (.joining join group count)) :
    ∃ more, after.endingsOf group = run.endingsOf group ++ more := by
  have same : after.endingsOf group = run.endingsOf group →
      ∃ more, after.endingsOf group = run.endingsOf group ++ more := by
    intro equal
    exact ⟨[], by rw [equal, List.append_nil]⟩
  cases happens with
  | rest => exact same rfl
  | wait moved phase _ => exact same (endingsOf_put ..)
  | act moved phase around _ _ _ => exact same (endingsOf_put ..)
  | fork moved join ids _ => exact same (endingsOf_put ..)
  | join moved join' group' count' ending stood _ =>
    apply same
    rw [endingsOf_put]
    apply endingsOf_dismiss
    rintro rfl
    obtain rfl := tended.single task moved group count count' ⟨join, located⟩ ⟨join', stood⟩
    rw [phase?_put (by rw [phase?_dismiss, stood]; rfl), if_pos rfl] at still
    cases join' <;> cases still
  | arrive id group' ending _ =>
    exact ⟨_, endings_arrive run id group' ending group⟩
  | follow ending _ => exact same rfl
  | choose next _ => exact same (endingsOf_choose ..)
  | cancel => exact same rfl

end Run

end DurableFlow
