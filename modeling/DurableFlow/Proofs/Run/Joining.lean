import DurableFlow.Proofs.Run.Tracing

/-!
# What branches lead to together

A task that waits for all its branches has an outcome when they have all ended, or when one of
them has failed. In which order they end makes no difference to what the outcome is: the endings
that have arrived are those of the branches, each branch at most once, and a branch that has not
arrived is still there. `Gathers` is this invariant, kept by every move of any task.
-/

namespace DurableFlow

namespace Join

/-- Branches agree on a node if there are branches and they all name it alone. -/
theorem agreed_eq_singleton_iff {nexts : List (List String)} {target : String} :
    agreed nexts = [target] ↔ nexts ≠ [] ∧ ∀ next ∈ nexts, next = [target] := by
  constructor
  · intro same
    unfold agreed at same
    split at same
    · rename_i id rest
      split at same
      · rename_i all
        cases same
        refine ⟨List.cons_ne_nil _ _, fun next member => ?_⟩
        rcases List.mem_cons.mp member with rfl | later
        · rfl
        · simpa using List.all_eq_true.mp all next later
      · contradiction
    · contradiction
  · rintro ⟨some_named, all⟩
    obtain ⟨next, member⟩ := List.exists_mem_of_ne_nil nexts some_named
    rcases agreed_of_mem (all next member ▸ member) with agree | ⟨other, member, different⟩
    · exact agree
    · exact absurd (all other member) different

theorem agreed_short (nexts : List (List String)) :
    agreed nexts = [] ∨ ∃ target, agreed nexts = [target] := by
  unfold agreed
  split
  · split
    · exact .inr ⟨_, rfl⟩
    · exact .inl rfl
  · exact .inl rfl

/-- Steps are resolved to a suspension, if there is one among them. -/
theorem resolve_eq_suspend_iff {join : Join} {steps : List Step} :
    (∃ id pause, join.resolve steps = .suspend id pause) ↔
      ∃ id pause, .suspend id pause ∈ steps := by
  unfold resolve
  cases found : suspension? steps with
  | none =>
    have unpaused := List.find?_eq_none.mp found
    constructor
    · rintro ⟨id, pause, same⟩
      cases join <;> cases same
    · rintro ⟨id, pause, member⟩
      exact absurd rfl (unpaused _ member)
  | some step =>
    have member := List.mem_of_find?_eq_some found
    have pauses := List.find?_some found
    cases step with
    | goOn next => cases pauses
    | suspend id pause => exact ⟨fun _ => ⟨id, pause, member⟩, fun _ => ⟨id, pause, rfl⟩⟩

/-- Where steps lead together that all go on. -/
def onward (steps : List Step) : Join → List String
  | parallel node _ => node.successors
  | fanOut => agreed (successors steps)

/-- Branches of a fan-out that go on lead to one node together, if each of them leads to it. -/
theorem onward_fanOut_iff {steps : List Step} (goes : ∀ step ∈ steps, ∃ own, step = .goOn own)
    (some_go : steps ≠ []) {target : String} :
    onward steps fanOut = [target] ↔ ∀ step ∈ steps, step = .goOn [target] := by
  rw [onward, agreed_eq_singleton_iff]
  constructor
  · rintro ⟨_, all⟩ step member
    obtain ⟨next, rfl⟩ := goes step member
    rw [all next (mem_successors.mpr member)]
  · intro all
    constructor
    · obtain ⟨step, member⟩ := List.exists_mem_of_ne_nil steps some_go
      rw [all step member] at member
      exact List.ne_nil_of_mem (mem_successors.mpr member)
    · intro next member
      cases all _ (mem_successors.mp member)
      rfl

/-- Steps that are resolved to going on go on themselves. -/
theorem resolve_eq_goOn {join : Join} {steps : List Step} {next : List String}
    (resolved : join.resolve steps = .goOn next) :
    (∀ step ∈ steps, ∃ own, step = .goOn own) ∧ next = join.onward steps := by
  have unpaused : ∀ step ∈ steps, ∃ own, step = .goOn own := by
    intro step member
    cases step with
    | goOn own => exact ⟨own, rfl⟩
    | suspend id pause =>
      obtain ⟨id, pause, same⟩ := resolve_eq_suspend_iff.mpr ⟨id, pause, member⟩
      exact absurd (resolved.symm.trans same) Step.noConfusion
  refine ⟨unpaused, ?_⟩
  unfold resolve at resolved
  cases found : suspension? steps with
  | none =>
    rw [found] at resolved
    cases join <;> cases resolved <;> rfl
  | some step =>
    obtain ⟨own, rfl⟩ := unpaused step (List.mem_of_find?_eq_some found)
    cases List.find?_some found

end Join

namespace Run

theorem arrival_eq_ok_iff {ending : Ending} {step : Step} :
    arrival ending = .ok step ↔ ending = .ok step := by
  match ending with
  | .ok other => exact Iff.rfl
  | .error failure => cases failure <;> simp [arrival]

theorem exists_of_arrival_eq_error {ending : Ending} {failure : Failure}
    (same : arrival ending = .error failure) : ∃ own, ending = .error own := by
  match ending with
  | .ok step => cases same
  | .error own => exact ⟨own, rfl⟩

theorem exists_arrival_of_error (failure : Failure) :
    ∃ told, arrival (.error failure) = .error told := by
  cases failure <;> exact ⟨_, rfl⟩

variable {catalog : Catalog} {run after begun : Run} {task : TaskId} {join : Join}
  {group count : Nat}

section Transitions

theorem branch?_put_of_ne {id : Nat} (different : task ≠ .branch id) (phase : Phase) :
    (run.put task phase).branch? id = run.branch? id := by
  cases task with
  | driver => rfl
  | branch own =>
    have other : id ≠ own := fun same => different (congrArg TaskId.branch same.symm)
    rw [put, branch?_setPhase, if_neg other]

theorem put_numbers (run : Run) (task : TaskId) (phase : Phase) :
    (run.put task phase).nextBranch = run.nextBranch ∧
      (run.put task phase).nextGroup = run.nextGroup := by
  cases task <;> exact ⟨rfl, rfl⟩

/-- Numbers that have been given to branches and groups are not given again. -/
theorem Transition.numbers (happens : Transition catalog run after) :
    run.nextBranch ≤ after.nextBranch ∧ run.nextGroup ≤ after.nextGroup := by
  have same : ∀ (middle : Run) task phase, run.nextBranch ≤ middle.nextBranch →
      run.nextGroup ≤ middle.nextGroup → run.nextBranch ≤ (middle.put task phase).nextBranch ∧
        run.nextGroup ≤ (middle.put task phase).nextGroup := by
    intro middle task phase branches groups
    rw [(put_numbers ..).1, (put_numbers ..).2]
    exact ⟨branches, groups⟩
  cases happens with
  | wait task phase located => exact same run _ _ (Nat.le_refl _) (Nat.le_refl _)
  | act task phase around known located plain => exact same _ _ _ (Nat.le_refl _) (Nat.le_refl _)
  | fork task join ids located => exact same _ _ _ (Nat.le_add_right ..) (Nat.le_succ _)
  | join task join group count ending located outcome =>
    exact same _ _ _ (Nat.le_refl _) (Nat.le_refl _)
  | choose next located =>
    unfold Run.choose
    repeat' split
    all_goals exact ⟨Nat.le_refl _, Nat.le_refl _⟩
  | _ => exact ⟨Nat.le_refl _, Nat.le_refl _⟩

theorem play_numbers (catalog : Catalog) (run : Run) (schedule : List Move) :
    run.nextBranch ≤ (run.play catalog schedule).nextBranch ∧
      run.nextGroup ≤ (run.play catalog schedule).nextGroup := by
  induction schedule generalizing run with
  | nil => exact ⟨Nat.le_refl _, Nat.le_refl _⟩
  | cons m rest ih =>
    obtain ⟨branches, groups⟩ := (move_transition catalog run m).numbers
    rw [play_cons]
    exact ⟨Nat.le_trans branches (ih _).1, Nat.le_trans groups (ih _).2⟩

/-- A branch has been there before in its group, or it has just been set off. -/
theorem Transition.source (happens : Transition catalog run after) {id : Nat} {branch : Branch}
    (there : after.branch? id = some branch) :
    (∃ old, run.branch? id = some old ∧ old.group = branch.group) ∨
      run.nextBranch ≤ id ∧ branch.group = run.nextGroup := by
  have put : ∀ {middle : Run} {task phase}, (middle.put task phase).branch? id = some branch →
      ∃ old, middle.branch? id = some old ∧ old.group = branch.group := by
    intro middle task phase found
    have same := branch?_put middle task phase id
    rw [found] at same
    exact Option.map_eq_some_iff.mp same.symm
  cases happens with
  | rest => exact .inl ⟨branch, there, rfl⟩
  | wait task phase located => exact .inl (put there)
  | act task phase around known located plain =>
    obtain ⟨old, found, same⟩ := put there
    exact .inl ⟨old, found, same⟩
  | fork task join ids located =>
    obtain ⟨old, found, same⟩ := put there
    rw [branch?_fork] at found
    rcases Option.or_eq_some_iff.mp found with before | ⟨_, new⟩
    · exact .inl ⟨old, before, same⟩
    · split at new
      · rename_i above
        obtain ⟨phase, _, rfl⟩ := List.mem_map.mp (List.mem_of_getElem? new)
        exact .inr ⟨above, same.symm⟩
      · contradiction
  | join task join group count ending located outcome =>
    obtain ⟨old, found, same⟩ := put there
    exact .inl ⟨old, found, same⟩
  | arrive other group ending located =>
    rw [branch?_arrive] at there
    split at there
    · contradiction
    · exact .inl ⟨branch, there, rfl⟩
  | follow ending located => exact .inl ⟨branch, there, rfl⟩
  | choose next located =>
    rw [branch?, branches_choose] at there
    exact .inl ⟨branch, there, rfl⟩
  | cancel => exact .inl ⟨branch, there, rfl⟩

/-- A branch that is gone does not come back. -/
theorem Transition.still_gone (happens : Transition catalog run after) {id : Nat}
    (known : id < run.nextBranch) (gone : run.branch? id = none) : after.branch? id = none := by
  rw [Option.eq_none_iff_forall_not_mem]
  intro branch there
  rcases happens.source there with ⟨old, stood, _⟩ | ⟨above, _⟩
  · rw [gone] at stood
    contradiction
  · exact absurd known (Nat.not_lt.mpr above)

/-- Whoever waits for a group that is not new has waited for it before. -/
theorem Transition.joining (happens : Transition catalog run after) (tended : run.Tended)
    (known : group < run.nextGroup)
    (located : after.phase? task = some (.joining join group count)) :
    run.phase? task = some (.joining join group count) := by
  have put : ∀ {middle : Run} {moved : TaskId} {old new : Phase},
      (∀ {task}, middle.phase? task = some (.joining join group count) →
        run.phase? task = some (.joining join group count)) →
      middle.phase? moved = some old → new ≠ .joining join group count →
      (middle.put moved new).phase? task = some (.joining join group count) →
        run.phase? task = some (.joining join group count) := by
    intro middle moved old new same stood active located
    rw [phase?_put (by rw [stood]; rfl)] at located
    split at located
    · exact absurd (Option.some.inj located) active
    · exact same located
  cases happens with
  | rest => exact located
  | wait moved phase stood =>
    rw [put_self tended.unique stood] at located
    exact located
  | act moved phase around _ stood plain =>
    exact put (fun {task} there => (phase?_context run _ task).symm.trans there)
      ((phase?_context ..).trans stood) (Phase.step_ne_joining around _ _ plain _ _ _) located
  | fork moved other ids stood =>
    refine put (fun there => ?_) (phase?_fork _ stood) ?_ located
    · rcases phase?_of_fork there with old | ⟨id, same⟩
      · exact old
      · cases same
    · rintro ⟨⟩
      exact absurd known (Nat.lt_irrefl _)
  | join moved other group' count' ending stood outcome =>
    refine put (fun {task} there => (phase?_dismiss run group' task).symm.trans there)
      ((phase?_dismiss ..).trans stood) ?_ located
    cases other <;> exact Phase.noConfusion
  | arrive id group' ending stood =>
    cases task with
    | driver => exact located
    | branch other =>
      rw [phase?, branch?_arrive] at located
      split at located
      · contradiction
      · exact located
  | follow ending stood =>
    cases task with
    | driver =>
      have drive := drive_of_phase? located
      rcases ending with failure | next | ⟨id, pause⟩ <;> cases drive
    | branch id => exact located
  | choose next stood =>
    cases task with
    | driver =>
      have drive := drive_of_phase? located
      unfold Run.choose at drive
      repeat' split at drive
      all_goals cases drive
    | branch id =>
      rw [phase?, branch?, branches_choose] at located
      exact located
  | cancel => cases task <;> exact located

/-- As long as a group is waited for, one of its branches arrives or all of them stay. -/
theorem Tended.arrives_or_stays (tended : run.Tended) (happens : Transition catalog run after)
    (located : run.phase? task = some (.joining join group count))
    (still : after.phase? task = some (.joining join group count)) :
    (∃ id ending, run.branch? id = some ⟨group, .ended ending⟩ ∧
        after = run.arrive id group ending) ∨
      after.endingsOf group = run.endingsOf group ∧
        ∀ id branch, run.branch? id = some branch → branch.group = group →
          ∃ later, after.branch? id = some later ∧ later.group = group := by
  by_cases arrives : ∃ id ending, run.branch? id = some ⟨group, .ended ending⟩ ∧
      after = run.arrive id group ending
  · exact .inl arrives
  right
  constructor
  · cases happens with
    | rest => rfl
    | wait moved phase _ => exact endingsOf_put ..
    | act moved phase around _ _ _ => exact endingsOf_put ..
    | fork moved join ids _ => exact endingsOf_put ..
    | join moved join' group' count' ending stood _ =>
      rw [endingsOf_put]
      apply endingsOf_dismiss
      rintro rfl
      obtain rfl := tended.single task moved group count count' ⟨join, located⟩ ⟨join', stood⟩
      rw [phase?_put_self ((phase?_dismiss ..).trans stood)] at still
      cases join' <;> cases still
    | arrive id group' ending stood =>
      have other : group' ≠ group := by
        rintro rfl
        exact arrives ⟨id, ending, stood, rfl⟩
      rw [endings_arrive, if_neg other, List.append_nil]
    | follow ending _ => rfl
    | choose next _ => exact endingsOf_choose ..
    | cancel => rfl
  · rintro id branch there rfl
    rcases happens.group there with ⟨later, found, same⟩ | ⟨ending, ended, left⟩
    · exact ⟨later, found, same⟩
    · refine absurd ⟨id, ending, ?_, left⟩ arrives
      rw [there, ← ended]

end Transitions

/-- What has arrived of a group are the endings of its branches, which have the numbers from
`first` on. -/
structure Gathers (catalog : Catalog) (begun : Run) (first group size : Nat)
    (schedule : List Move) (arrived : List (Nat × Ending)) : Prop where
  endings : (begun.play catalog schedule).endingsOf group = arrived.map fun one => arrival one.2
  once : (arrived.map Prod.fst).Nodup
  gone : ∀ i ending, (i, ending) ∈ arrived →
    i < size ∧ (begun.play catalog schedule).branch? (first + i) = none ∧
      begun.Comes catalog schedule (.branch (first + i)) (.ended ending)
  left : ∀ i < size, (∃ ending, (i, ending) ∈ arrived) ∨
    ∃ phase, (begun.play catalog schedule).branch? (first + i) = some ⟨group, phase⟩
  members : ∀ id branch, (begun.play catalog schedule).branch? id = some branch →
    branch.group = group → ∃ i < size, id = first + i
  ended : ∀ i < size, ∀ ending,
    begun.Comes catalog schedule (.branch (first + i)) (.ended ending) →
      (i, ending) ∈ arrived ∨
        (begun.play catalog schedule).phase? (.branch (first + i)) = some (.ended ending)
  numbered : first + size ≤ (begun.play catalog schedule).nextBranch

namespace Gathers

variable {first size : Nat} {schedule : List Move} {arrived : List (Nat × Ending)}

/-- Nothing has arrived of branches that have just been set off. -/
theorem start (catalog : Catalog) (tended : run.Tended) {ids : List String}
    (located : run.phase? task = some (.forking join ids)) :
    Gathers catalog ((run.fork (ids.map .entering)).put task
        (.joining join run.nextGroup ids.length)) run.nextBranch run.nextGroup ids.length []
      [] ∧ ∀ i id, ids[i]? = some id →
        ((run.fork (ids.map .entering)).put task
          (.joining join run.nextGroup ids.length)).branch? (run.nextBranch + i) =
            some ⟨run.nextGroup, .entering id⟩ := by
  have happens : Transition catalog run ((run.fork (ids.map .entering)).put task
    (.joining join run.nextGroup ids.length)) := .fork task join ids located
  have older : ∀ i, task ≠ .branch (run.nextBranch + i) := by
    rintro i rfl
    obtain ⟨group, there⟩ := exists_branch_of_phase? located
    exact absurd (tended.numbered _ (Table.mem_of_lookup there)).1
      (Nat.not_lt.mpr (Nat.le_add_right ..))
  have begins : ∀ i id, ids[i]? = some id → ((run.fork (ids.map .entering)).put task
      (.joining join run.nextGroup ids.length)).branch? (run.nextBranch + i) =
        some ⟨run.nextGroup, .entering id⟩ := by
    intro i id listed
    rw [branch?_put_of_ne (older i), branch?_fork,
      tended.branch?_eq_none (Nat.le_add_right ..), Option.none_or,
      if_pos (Nat.le_add_right ..), Nat.add_sub_cancel_left]
    simp [listed]
  have some_listed : ∀ i < ids.length, ∃ id, ids[i]? = some id :=
    fun i inside => ⟨ids[i], List.getElem?_eq_getElem inside⟩
  refine ⟨?_, begins⟩
  constructor
  · rw [play_nil, endingsOf_put]
    exact tended.endingsOf_eq_nil (Nat.le_refl _)
  · exact List.nodup_nil
  · exact fun i ending member => absurd member List.not_mem_nil
  · intro i inside
    obtain ⟨id, listed⟩ := some_listed i inside
    exact .inr ⟨_, begins i id listed⟩
  · intro id branch there same
    rcases happens.source there with ⟨old, stood, grouped⟩ | ⟨above, _⟩
    · have below := (tended.numbered _ (Table.mem_of_lookup stood)).2
      rw [grouped, same] at below
      exact absurd below (Nat.lt_irrefl _)
    · have below := ((tended.transition happens).numbered _ (Table.mem_of_lookup there)).1
      rw [(put_numbers ..).1] at below
      have below : id < run.nextBranch + (ids.map Phase.entering).length := below
      rw [List.length_map] at below
      exact ⟨id - run.nextBranch, by omega, by omega⟩
  · intro i inside ending comes
    obtain ⟨id, listed⟩ := some_listed i inside
    rw [comes_nil, phase?, begins i id listed] at comes
    cases comes
  · rw [play_nil, (put_numbers ..).1]
    show run.nextBranch + ids.length ≤ run.nextBranch + (ids.map Phase.entering).length
    rw [List.length_map]

section Moves

variable {m : Move}

/-- A branch that is gone stays so. -/
theorem still_gone (gathers : Gathers catalog begun first group size schedule arrived) {i : Nat}
    (inside : i < size) (gone : (begun.play catalog schedule).branch? (first + i) = none) :
    (begun.play catalog (schedule ++ [m])).branch? (first + i) = none := by
  rw [play_concat]
  have known := gathers.numbered
  exact (move_transition catalog _ m).still_gone (by omega) gone

/-- No branches are added to a group that has been set off. -/
theorem same_members (gathers : Gathers catalog begun first group size schedule arrived)
    (known : group < (begun.play catalog schedule).nextGroup) (id : Nat) (branch : Branch)
    (there : (begun.play catalog (schedule ++ [m])).branch? id = some branch)
    (own : branch.group = group) : ∃ i < size, id = first + i := by
  rw [play_concat] at there
  rcases (move_transition catalog _ m).source there with ⟨old, stood, grouped⟩ | ⟨_, grouped⟩
  · exact gathers.members id old stood (grouped.trans own)
  · rw [own] at grouped
    exact absurd known (grouped ▸ Nat.lt_irrefl _)

theorem numbered_move (gathers : Gathers catalog begun first group size schedule arrived) :
    first + size ≤ (begun.play catalog (schedule ++ [m])).nextBranch := by
  rw [play_concat]
  exact Nat.le_trans gathers.numbered (move_transition catalog _ m).numbers.1

/-- A branch that ends arrives behind those that have arrived before. -/
theorem arrive (gathers : Gathers catalog begun first group size schedule arrived)
    (known : group < (begun.play catalog schedule).nextGroup) {i : Nat} {ending : Ending}
    (inside : i < size)
    (stood : (begun.play catalog schedule).branch? (first + i) = some ⟨group, .ended ending⟩)
    (left : begun.play catalog (schedule ++ [m]) =
      (begun.play catalog schedule).arrive (first + i) group ending) :
    Gathers catalog begun first group size (schedule ++ [m]) (arrived ++ [(i, ending)]) := by
  have absent : ∀ ending, (i, ending) ∉ arrived := by
    intro other member
    rw [(gathers.gone i other member).2.1] at stood
    contradiction
  have stands : (begun.play catalog schedule).phase? (.branch (first + i)) =
      some (.ended ending) := by
    rw [phase?, stood]
    rfl
  have gone : (begun.play catalog (schedule ++ [m])).branch? (first + i) = none := by
    rw [left, branch?_arrive, if_pos rfl]
  have others : ∀ j, j ≠ i → (begun.play catalog (schedule ++ [m])).branch? (first + j) =
      (begun.play catalog schedule).branch? (first + j) := by
    intro j different
    rw [left, branch?_arrive, if_neg (by omega)]
  refine ⟨?_, ?_, ?_, ?_, gathers.same_members known, ?_, gathers.numbered_move⟩
  · rw [left, endings_arrive, if_pos rfl, gathers.endings, List.map_append]
    rfl
  · rw [List.map_append, List.nodup_append]
    refine ⟨gathers.once, List.nodup_singleton _, ?_⟩
    rintro other member _ last rfl
    obtain rfl := List.mem_singleton.mp last
    obtain ⟨⟨_, other⟩, there, rfl⟩ := List.mem_map.mp member
    exact absent other there
  · intro j other member
    rcases List.mem_append.mp member with old | new
    · obtain ⟨within, gone, comes⟩ := gathers.gone j other old
      exact ⟨within, gathers.still_gone within gone, comes.later m⟩
    · cases List.mem_singleton.mp new
      exact ⟨inside, gone, Comes.later (comes_of_phase? stands) m⟩
  · intro j within
    by_cases own : j = i
    · subst own
      exact .inl ⟨ending, List.mem_append_right _ (List.mem_singleton_self _)⟩
    · rcases gathers.left j within with ⟨other, member⟩ | ⟨phase, there⟩
      · exact .inl ⟨other, List.mem_append_left _ member⟩
      · exact .inr ⟨phase, (others j own).trans there⟩
  · intro j within other comes
    rcases comes_concat.mp comes with earlier | now
    · rcases gathers.ended j within other earlier with member | located
      · exact .inl (List.mem_append_left _ member)
      · by_cases own : j = i
        · subst own
          cases Option.some.inj (stands.symm.trans located)
          exact .inl (List.mem_append_right _ (List.mem_singleton_self _))
        · right
          rw [phase?, others j own]
          exact located
    · exact .inr now

/-- As long as no branch arrives, what has arrived is the same. -/
theorem stay (gathers : Gathers catalog begun first group size schedule arrived)
    (tended : (begun.play catalog schedule).Tended)
    (known : group < (begun.play catalog schedule).nextGroup)
    (same : (begun.play catalog (schedule ++ [m])).endingsOf group =
      (begun.play catalog schedule).endingsOf group)
    (stays : ∀ id branch, (begun.play catalog schedule).branch? id = some branch →
      branch.group = group → ∃ later,
        (begun.play catalog (schedule ++ [m])).branch? id = some later ∧ later.group = group) :
    Gathers catalog begun first group size (schedule ++ [m]) arrived := by
  refine ⟨same.trans gathers.endings, gathers.once, ?_, ?_, gathers.same_members known, ?_,
    gathers.numbered_move⟩
  · intro i ending member
    obtain ⟨inside, gone, comes⟩ := gathers.gone i ending member
    exact ⟨inside, gathers.still_gone inside gone, comes.later m⟩
  · intro i inside
    rcases gathers.left i inside with member | ⟨phase, there⟩
    · exact .inl member
    · obtain ⟨⟨_, phase⟩, found, rfl⟩ := stays _ _ there rfl
      exact .inr ⟨phase, found⟩
  · intro i inside ending comes
    rcases comes_concat.mp comes with earlier | now
    · refine (gathers.ended i inside ending earlier).imp_right fun stood => ?_
      have happens := move_transition catalog (begun.play catalog schedule) m
      rw [← play_concat] at happens
      cases tended.fate happens stood with
      | stays now => exact now
      | acts _ _ plain => exact plain.elim
      | arrives there left =>
        rcases gathers.left i inside with ⟨other, member⟩ | ⟨phase, own⟩
        · rw [(gathers.gone i other member).2.1] at there
          contradiction
        · rw [own] at there
          cases there
          obtain ⟨_, found, _⟩ := stays _ _ own rfl
          rw [left, branch?_arrive, if_pos rfl] at found
          contradiction
    · exact .inr now

/-- Whatever any task does, what has arrived are the endings of the branches. -/
theorem move (gathers : Gathers catalog begun first group size schedule arrived)
    (tended : (begun.play catalog schedule).Tended)
    (located : (begun.play catalog schedule).phase? task = some (.joining join group count))
    (still : (begun.play catalog (schedule ++ [m])).phase? task =
      some (.joining join group count)) :
    ∃ arrived, Gathers catalog begun first group size (schedule ++ [m]) arrived := by
  have happens := move_transition catalog (begun.play catalog schedule) m
  have known := (tended.complete _ _ _ ⟨join, located⟩).1
  rw [← play_concat] at happens
  rcases tended.arrives_or_stays happens located still with
    ⟨id, ending, stood, left⟩ | ⟨same, stays⟩
  · obtain ⟨i, inside, rfl⟩ := gathers.members id _ stood rfl
    exact ⟨_, gathers.arrive known inside stood left⟩
  · exact ⟨_, gathers.stay tended known same stays⟩

end Moves

/-- As long as the branches are waited for, what has arrived are their endings. -/
theorem play (begins : Gathers catalog begun first group size [] []) (tended : begun.Tended)
    (known : group < begun.nextGroup) (schedule : List Move)
    (still : (begun.play catalog schedule).phase? task = some (.joining join group count)) :
    ∃ arrived, Gathers catalog begun first group size schedule arrived := by
  induction schedule using List.reverseRecOn with
  | nil => exact ⟨[], begins⟩
  | append_singleton schedule m ih =>
    have tended' := tended.play catalog schedule
    have known' := Nat.lt_of_lt_of_le known (play_numbers catalog begun schedule).2
    have located : (begun.play catalog schedule).phase? task =
        some (.joining join group count) := by
      rw [play_concat] at still
      exact (move_transition catalog _ m).joining tended' known' still
    obtain ⟨arrived, gathers⟩ := ih located
    exact gathers.move tended' located still

variable {ending : Ending}

/-- When as many endings have arrived as there are branches, none of them is left. -/
theorem all_gone (gathers : Gathers catalog begun first group size schedule arrived)
    (tended : (begun.play catalog schedule).Tended)
    (located : (begun.play catalog schedule).phase? task = some (.joining join group size))
    (all : ((begun.play catalog schedule).endingsOf group).length = size) {i : Nat}
    (inside : i < size) : ∃ ending, (i, ending) ∈ arrived := by
  rcases gathers.left i inside with member | ⟨phase, there⟩
  · exact member
  · have counted := (tended.complete _ _ _ ⟨join, located⟩).2
    have missing := tended.members_pos there
    simp only at missing
    omega

/-- When no branch is left, there is an outcome. -/
theorem outcome?_ne_none (gathers : Gathers catalog begun first group size schedule arrived)
    (tended : (begun.play catalog schedule).Tended)
    (located : (begun.play catalog schedule).phase? task = some (.joining join group size))
    (gone : ∀ i < size, (begun.play catalog schedule).branch? (first + i) = none) :
    join.outcome? size ((begun.play catalog schedule).endingsOf group) ≠ none := by
  apply Join.outcome?_ne_none
  have counted := (tended.complete _ _ _ ⟨join, located⟩).2
  have none_left : (begun.play catalog schedule).members group = 0 := by
    refine List.sum_eq_zero fun n member => ?_
    obtain ⟨⟨id, branch⟩, there, rfl⟩ := List.mem_map.mp member
    by_cases own : branch.group = group
    · have found := (Table.lookup_eq_some_iff tended.unique).mpr there
      obtain ⟨i, inside, rfl⟩ := gathers.members id branch found own
      rw [← branch?, gone i inside] at found
      contradiction
    · rw [if_neg own]
  omega

/-- An outcome is an error if some branch ends with one, and only then. -/
theorem failed_iff (gathers : Gathers catalog begun first group size schedule arrived)
    (tended : (begun.play catalog schedule).Tended)
    (located : (begun.play catalog schedule).phase? task = some (.joining join group size))
    (all : join.waitForAll = true)
    (outcome : join.outcome? size ((begun.play catalog schedule).endingsOf group) = some ending) :
    (∃ failure, ending = .error failure) ↔ ∃ i < size, ∃ failure,
      begun.Comes catalog schedule (.branch (first + i)) (.ended (.error failure)) := by
  constructor
  · rintro ⟨failure, rfl⟩
    have failed := Join.collect_of_outcome? outcome
    rw [Join.awaited_of_waitForAll all] at failed
    have member := Join.mem_of_collect failed
    rw [gathers.endings] at member
    obtain ⟨⟨i, own⟩, there, same⟩ := List.mem_map.mp member
    obtain ⟨failure', rfl⟩ := exists_of_arrival_eq_error same
    obtain ⟨inside, _, comes⟩ := gathers.gone i _ there
    exact ⟨i, inside, failure', comes⟩
  · rintro ⟨i, inside, failure, comes⟩
    match ending with
    | .error failure => exact ⟨failure, rfl⟩
    | .ok step =>
      have counted := Join.length_of_outcome? all outcome
      obtain ⟨steps, same, _⟩ := Join.resolve_of_outcome? outcome
      rw [Join.awaited_of_waitForAll all, gathers.endings] at same
      have member : (i, .error failure) ∈ arrived := by
        obtain ⟨other, there⟩ := gathers.all_gone tended located counted inside
        rcases gathers.ended i inside _ comes with member | stands
        · exact member
        · rw [Run.phase?, (gathers.gone i other there).2.1] at stands
          contradiction
      obtain ⟨told, tells⟩ := exists_arrival_of_error failure
      have arrives : .error told ∈ arrived.map fun one => arrival one.2 :=
        List.mem_map.mpr ⟨_, member, tells⟩
      rw [same] at arrives
      obtain ⟨_, _, same⟩ := List.mem_map.mp arrives
      cases same

/-- An outcome that is no error comes of the steps of all branches, which are gone. -/
theorem resolved (gathers : Gathers catalog begun first group size schedule arrived)
    (tended : (begun.play catalog schedule).Tended)
    (located : (begun.play catalog schedule).phase? task = some (.joining join group size))
    (all : join.waitForAll = true) {step : Step}
    (outcome : join.outcome? size ((begun.play catalog schedule).endingsOf group) =
      some (.ok step)) :
    ∃ steps, step = join.resolve steps ∧
      (∀ i < size, (begun.play catalog schedule).branch? (first + i) = none ∧
        ∃ own ∈ steps, ∀ ending, begun.Comes catalog schedule (.branch (first + i))
          (.ended ending) ↔ ending = .ok own) ∧
      ∀ own ∈ steps, ∃ i < size,
        begun.Comes catalog schedule (.branch (first + i)) (.ended (.ok own)) := by
  have counted := Join.length_of_outcome? all outcome
  obtain ⟨steps, same, resolves, _⟩ := Join.resolve_of_outcome? outcome
  rw [Join.awaited_of_waitForAll all, gathers.endings] at same
  refine ⟨steps, resolves, fun i inside => ?_, fun own member => ?_⟩
  · obtain ⟨ending, there⟩ := gathers.all_gone tended located counted inside
    obtain ⟨_, gone, comes⟩ := gathers.gone i ending there
    have arrives : arrival ending ∈ arrived.map fun one => arrival one.2 :=
      List.mem_map.mpr ⟨_, there, rfl⟩
    rw [same] at arrives
    obtain ⟨own, member, arrives⟩ := List.mem_map.mp arrives
    obtain rfl := arrival_eq_ok_iff.mp arrives.symm
    refine ⟨gone, own, member, fun ending => ⟨fun comes' => ?_, ?_⟩⟩
    · rcases gathers.ended i inside ending comes' with there' | stands
      · exact congrArg Prod.snd (List.inj_on_of_nodup_map gathers.once there' there rfl)
      · rw [Run.phase?, gone] at stands
        contradiction
    · rintro rfl
      exact comes
  · have told : .ok own ∈ arrived.map fun one => arrival one.2 := by
      rw [same]
      exact List.mem_map_of_mem member
    obtain ⟨⟨i, ending⟩, there, arrives⟩ := List.mem_map.mp told
    obtain rfl := arrival_eq_ok_iff.mp arrives
    obtain ⟨inside, _, comes⟩ := gathers.gone i _ there
    exact ⟨i, inside, comes⟩

end Gathers

end Run

end DurableFlow
