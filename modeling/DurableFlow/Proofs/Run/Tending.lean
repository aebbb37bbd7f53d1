import DurableFlow.Proofs.Run.Interleaving

/-!
# Branches and the tasks that wait for them

A task that has set off branches waits for a group of its own, and every branch of the group
either still stands among the tasks or has left its ending. Branches that wait in turn wait
for groups set off after their own. So as long as there are branches, one of them can go on:
one of the latest group.
-/

namespace DurableFlow

namespace Phase

/-- A step within a node does not wait for branches. -/
theorem step_ne_joining (around : Surroundings) (d : Definition) (context : Context)
    {phase : Phase} (plain : phase.IsPlain) (join : Join) (group count : Nat) :
    (phase.step around d context).1 ≠ .joining join group count := by
  cases phase with
  | entering id => simp only [step]; split <;> simp
  | acting node =>
    simp only [step, act, call]
    repeat' split
    all_goals simp
  | replying node procedure reply due =>
    simp only [step, takeUp]
    repeat' split
    all_goals simp
  | settling node ending =>
    simp only [step, settle]
    repeat' split
    all_goals simp
  | forking => exact plain.elim
  | joining => exact plain.elim
  | ended => exact plain.elim
  | _ => simp [step]

end Phase

namespace Run

variable {run : Run} {task : TaskId} {phase : Phase}

/-- How many branches of a group have not ended. -/
def members (run : Run) (group : Nat) : Nat :=
  (run.branches.map fun entry => if entry.2.group = group then 1 else 0).sum

/-- The task waits for the branches of a group, of which there were so many. -/
def Awaits (run : Run) (task : TaskId) (group count : Nat) : Prop :=
  ∃ join, run.phase? task = some (.joining join group count)

/-- Branches have numbers of their own, and whoever waits for a group is the only one and
has all its branches accounted for. -/
structure Tended (run : Run) : Prop where
  unique : (Table.ids run.branches).Nodup
  numbered : ∀ entry ∈ run.branches, entry.1 < run.nextBranch ∧ entry.2.group < run.nextGroup
  arrived : ∀ arrival ∈ run.arrivals, arrival.1 < run.nextGroup
  complete : ∀ task group count, run.Awaits task group count →
    group < run.nextGroup ∧ run.members group + (run.endingsOf group).length = count
  single : ∀ task other group count count', run.Awaits task group count →
    run.Awaits other group count' → task = other
  nested : ∀ id branch group count, run.branch? id = some branch →
    run.Awaits (.branch id) group count → branch.group < group

section Put

theorem phase?_context (run : Run) (context : Context) (task : TaskId) :
    ({ run with context } : Run).phase? task = run.phase? task := by
  cases task <;> rfl

/-- A task that stands somewhere is put elsewhere, and no other task is. -/
theorem phase?_put (located : (run.phase? task).isSome) (phase : Phase) (other : TaskId) :
    (run.put task phase).phase? other = if other = task then some phase else run.phase? other := by
  cases task with
  | driver =>
    cases other with
    | driver => rfl
    | branch j => rfl
  | branch id =>
    cases other with
    | driver => rfl
    | branch j =>
      obtain ⟨old, there⟩ := Option.isSome_iff_exists.mp located
      obtain ⟨branch, found, _⟩ := Option.map_eq_some_iff.mp there
      have looked : (run.put (.branch id) phase).branch? j =
          if j = id then (run.branch? id).map fun branch => { branch with phase }
          else run.branch? j := by
        rw [branch?, put, setPhase_branches, Table.lookup_update]
        rfl
      rw [phase?, looked]
      by_cases same : j = id
      · simp [same, found]
      · simp [same, phase?]

/-- A task that is put where it stands stays there. -/
theorem put_self (unique : (Table.ids run.branches).Nodup)
    (located : run.phase? task = some phase) :
    run.put task phase = run := by
  cases task with
  | driver => rw [put, ← drive_of_phase? located]
  | branch id =>
    obtain ⟨group, found⟩ := exists_branch_of_phase? located
    have same : (run.setPhase id phase).branches = run.branches := by
      rw [setPhase_branches]
      refine (List.map_congr_left fun entry member => ?_).trans (List.map_id' _)
      by_cases asked : entry.1 = id
      · obtain ⟨j, branch⟩ := entry
        obtain rfl : j = id := asked
        have there : run.branches.lookup j = some branch :=
          (Table.lookup_eq_some_iff unique).mpr member
        cases there.symm.trans found
        simp
      · simp [asked]
    exact congrArg (fun branches => { run with branches }) same

theorem ids_put (run : Run) (task : TaskId) (phase : Phase) :
    Table.ids (run.put task phase).branches = Table.ids run.branches := by
  cases task with
  | driver => rfl
  | branch id => rw [put, setPhase_branches, Table.ids_update]

theorem members_put (run : Run) (task : TaskId) (phase : Phase) (group : Nat) :
    (run.put task phase).members group = run.members group := by
  cases task with
  | driver => rfl
  | branch id =>
    simp only [members, put, setPhase, List.map_map]
    refine congrArg List.sum (List.map_congr_left fun entry _ => ?_)
    by_cases same : entry.1 = id <;> simp [same]

theorem branch?_put (run : Run) (task : TaskId) (phase : Phase) (id : Nat) :
    ((run.put task phase).branch? id).map Branch.group = (run.branch? id).map Branch.group := by
  cases task with
  | driver => rfl
  | branch j =>
    rw [branch?, put, setPhase_branches, Table.lookup_update]
    by_cases same : id = j
    · simp [same, branch?, Function.comp_def]
    · simp [same, branch?]

/-- A task may go into any phase that, if it waits there for a group, tends that group. -/
theorem Tended.put (tended : run.Tended) {old : Phase} (located : run.phase? task = some old)
    (fits : ∀ join group count, phase = .joining join group count →
      group < run.nextGroup ∧ run.members group + (run.endingsOf group).length = count ∧
        (∀ other count', run.Awaits other group count' → other = task) ∧
        ∀ id branch, task = .branch id → run.branch? id = some branch → branch.group < group) :
    (run.put task phase).Tended := by
  have there : (run.phase? task).isSome := by simp [located]
  have awaits : ∀ other group count, (run.put task phase).Awaits other group count →
      (other = task ∧ ∃ join, phase = .joining join group count) ∨
        (other ≠ task ∧ run.Awaits other group count) := by
    rintro other group count ⟨join, stands⟩
    rw [phase?_put there] at stands
    by_cases same : other = task
    · rw [if_pos same] at stands
      exact .inl ⟨same, join, Option.some.inj stands⟩
    · rw [if_neg same] at stands
      exact .inr ⟨same, join, stands⟩
  have next : (run.put task phase).nextGroup = run.nextGroup ∧
      (run.put task phase).nextBranch = run.nextBranch ∧
      (run.put task phase).arrivals = run.arrivals := by
    cases task <;> exact ⟨rfl, rfl, rfl⟩
  refine ⟨?_, fun entry member => ?_, ?_, ?_, ?_, ?_⟩
  · rw [ids_put]
    exact tended.unique
  · rw [next.1, next.2.1]
    rcases mem_put_branches member with old | ⟨id, branch, _, old, rfl⟩
    · exact tended.numbered entry old
    · exact tended.numbered (id, branch) old
  · rw [next.1, next.2.2]
    exact tended.arrived
  · intro other group count waits
    rw [members_put, endingsOf, next.1, next.2.2]
    rcases awaits other group count waits with ⟨_, join, stands⟩ | ⟨_, stands⟩
    · obtain ⟨known, all, _⟩ := fits join group count stands
      exact ⟨known, all⟩
    · exact tended.complete other group count stands
  · intro first second group count count' waits waits'
    rcases awaits _ _ _ waits with ⟨rfl, join, stands⟩ | ⟨_, stands⟩
    · rcases awaits _ _ _ waits' with ⟨rfl, _⟩ | ⟨_, stands'⟩
      · rfl
      · exact ((fits join group count stands).2.2.1 second count' stands').symm
    · rcases awaits _ _ _ waits' with ⟨rfl, join, stands'⟩ | ⟨_, stands'⟩
      · exact (fits join group count' stands').2.2.1 first count stands
      · exact tended.single first second group count count' stands stands'
  · intro id branch group count found waits
    have sameGroup := branch?_put run task phase id
    rw [found] at sameGroup
    obtain ⟨old, stood, grouped⟩ := Option.map_eq_some_iff.mp sameGroup.symm
    rw [← grouped]
    rcases awaits _ _ _ waits with ⟨rfl, join, stands⟩ | ⟨_, stands⟩
    · exact (fits join group count stands).2.2.2 id old rfl stood
    · exact tended.nested id old group count stood stands

end Put

/-- The driver may take up anything that does not wait. -/
theorem Tended.driven (tended : run.Tended) (drive : Drive)
    (active : ∀ join group count, drive ≠ .running (.joining join group count)) :
    ({ run with drive } : Run).Tended := by
  have awaits : ∀ task group count, ({ run with drive } : Run).Awaits task group count →
      run.Awaits task group count := by
    rintro task group count ⟨join, stands⟩
    cases task with
    | driver => exact absurd (drive_of_phase? stands) (active join group count)
    | branch id => exact ⟨join, stands⟩
  refine ⟨tended.unique, tended.numbered, tended.arrived, ?_, ?_, ?_⟩
  · intro task group count waits
    exact tended.complete task group count (awaits _ _ _ waits)
  · intro task other group count count' waits waits'
    exact tended.single task other group count count' (awaits _ _ _ waits) (awaits _ _ _ waits')
  · intro id branch group count found waits
    exact tended.nested id branch group count found (awaits _ _ _ waits)

theorem endingsOf_dismiss {group other : Nat} (different : other ≠ group) :
    (run.dismiss group).endingsOf other = run.endingsOf other := by
  simp only [endingsOf, dismiss, List.filter_filter]
  congr 1
  apply List.filter_congr
  intro arrival _
  by_cases same : arrival.1 = other <;> simp [same, different]

/-- A group that nobody waits for may be forgotten. -/
theorem Tended.dismiss (tended : run.Tended) {group : Nat}
    (unawaited : ∀ task count, ¬ run.Awaits task group count) : (run.dismiss group).Tended := by
  refine ⟨tended.unique, tended.numbered, fun arrival member => ?_, ?_, tended.single,
    tended.nested⟩
  · exact tended.arrived arrival (List.mem_of_mem_filter member)
  · intro task other count waits
    have different : other ≠ group := by
      rintro rfl
      exact unawaited task count waits
    rw [endingsOf_dismiss different]
    exact tended.complete task other count waits

theorem fork_branches (run : Run) (phases : List Phase) :
    (run.fork phases).branches =
      run.branches ++ Table.enumerate run.nextBranch (phases.map (Branch.mk run.nextGroup)) := by
  refine congrArg (run.branches ++ ·) (List.ext_getElem (by simp [Table.enumerate]) ?_)
  intro i _ _
  simp [Table.enumerate]

/-- A branch of a run that has forked was there before, or it is one of the new ones. -/
theorem branch?_fork (run : Run) (phases : List Phase) (id : Nat) :
    (run.fork phases).branch? id = (run.branch? id).or
      (if run.nextBranch ≤ id then
        (phases.map (Branch.mk run.nextGroup))[id - run.nextBranch]? else none) := by
  rw [branch?, fork_branches, List.lookup_append, Table.lookup_enumerate]
  rfl

theorem members_fork_of_lt {phases : List Phase} {group : Nat} (old : group < run.nextGroup) :
    (run.fork phases).members group = run.members group := by
  rw [members, fork_branches, List.map_append, List.sum_append]
  suffices none_new : ∀ start, ((Table.enumerate start (phases.map (Branch.mk run.nextGroup))).map
      fun entry => if entry.2.group = group then 1 else 0).sum = 0 by
    rw [none_new, Nat.add_zero]
    rfl
  intro start
  apply List.sum_eq_zero
  intro n member
  obtain ⟨entry, there, rfl⟩ := List.mem_map.mp member
  obtain ⟨phase, _, same⟩ := List.mem_map.mp (Table.mem_enumerate there)
  simp [← same, Nat.ne_of_gt old]

/-- All branches that are set off together are members of their group. -/
theorem Tended.members_fork (tended : run.Tended) (phases : List Phase) :
    (run.fork phases).members run.nextGroup = phases.length := by
  rw [members, fork_branches, List.map_append, List.sum_append]
  have none_old : (run.branches.map fun entry =>
      if entry.2.group = run.nextGroup then 1 else 0).sum = 0 := by
    apply List.sum_eq_zero
    intro n member
    obtain ⟨entry, there, rfl⟩ := List.mem_map.mp member
    simp [Nat.ne_of_lt (tended.numbered entry there).2]
  suffices all_new : ∀ start, ((Table.enumerate start (phases.map (Branch.mk run.nextGroup))).map
      fun entry => if entry.2.group = run.nextGroup then 1 else 0).sum = phases.length by
    rw [none_old, all_new, Nat.zero_add]
  induction phases with
  | nil => simp
  | cons phase rest ih =>
    intro start
    rw [List.map_cons, Table.enumerate_cons, List.map_cons, List.sum_cons, ih]
    simp [Nat.add_comm]

/-- A branch that was there before stands where it stood. -/
theorem phase?_fork (phases : List Phase) (located : run.phase? task = some phase) :
    (run.fork phases).phase? task = some phase := by
  cases task with
  | driver => exact located
  | branch id =>
    obtain ⟨parent, found⟩ := exists_branch_of_phase? located
    simp [phase?, branch?_fork, found]

theorem awaits_of_fork {phases : List Phase}
    (active : ∀ phase ∈ phases, ∀ join group count, phase ≠ .joining join group count)
    {group count : Nat} (waits : (run.fork phases).Awaits task group count) :
    run.Awaits task group count := by
  obtain ⟨join, stands⟩ := waits
  cases task with
  | driver => exact ⟨join, stands⟩
  | branch id =>
    obtain ⟨parent, found⟩ := exists_branch_of_phase? stands
    rw [branch?_fork] at found
    rcases Option.or_eq_some_iff.mp found with old | ⟨_, new⟩
    · exact ⟨join, by simp [phase?, old]⟩
    · split at new
      · obtain ⟨phase, member, same⟩ := List.mem_map.mp (List.mem_of_getElem? new)
        cases same
        exact absurd rfl (active _ member join group count)
      · contradiction

/-- Branches may be set off as long as none of them waits yet. -/
theorem Tended.fork (tended : run.Tended) {phases : List Phase}
    (active : ∀ phase ∈ phases, ∀ join group count, phase ≠ .joining join group count) :
    (run.fork phases).Tended := by
  have awaits : ∀ task group count, (run.fork phases).Awaits task group count →
      run.Awaits task group count := fun _ _ _ waits => awaits_of_fork active waits
  refine ⟨?_, fun entry member => ?_, fun arrival member => ?_, ?_, ?_, ?_⟩
  · rw [fork_branches, Table.ids, List.map_append, List.nodup_append]
    refine ⟨tended.unique, ?_, ?_⟩
    · show (Table.ids _).Nodup
      rw [Table.ids_enumerate]
      exact List.nodup_range'
    · rintro id first _ second rfl
      obtain ⟨entry, there, rfl⟩ := List.mem_map.mp first
      have below := (tended.numbered entry there).1
      have above : entry.1 ∈ Table.ids (Table.enumerate run.nextBranch
          (phases.map (Branch.mk run.nextGroup))) := second
      rw [Table.ids_enumerate, List.mem_range'_1] at above
      omega
  · rw [fork_branches] at member
    show entry.1 < run.nextBranch + phases.length ∧ entry.2.group < run.nextGroup + 1
    rcases List.mem_append.mp member with there | new
    · have := tended.numbered entry there
      omega
    · have number : entry.1 ∈ Table.ids (Table.enumerate run.nextBranch
          (phases.map (Branch.mk run.nextGroup))) := List.mem_map_of_mem new
      rw [Table.ids_enumerate, List.mem_range'_1, List.length_map] at number
      obtain ⟨phase, _, same⟩ := List.mem_map.mp (Table.mem_enumerate new)
      have grouped : entry.2.group = run.nextGroup := by rw [← same]
      omega
  · have := tended.arrived arrival member
    show arrival.1 < run.nextGroup + 1
    omega
  · intro task group count waits
    have waited := awaits task group count waits
    obtain ⟨known, all⟩ := tended.complete task group count waited
    rw [members_fork_of_lt known]
    exact ⟨Nat.lt_succ_of_lt known, all⟩
  · intro task other group count count' waits waits'
    exact tended.single task other group count count' (awaits _ _ _ waits) (awaits _ _ _ waits')
  · intro id branch group count found waits
    obtain ⟨join, stands⟩ := awaits _ _ _ waits
    obtain ⟨parent, there⟩ := exists_branch_of_phase? stands
    rw [branch?_fork, there, Option.some_or] at found
    cases found
    exact tended.nested id _ group count there ⟨join, stands⟩

section Arrive

variable {id group : Nat} {ending : Ending}

theorem members_arrive (unique : (Table.ids run.branches).Nodup)
    (located : run.branch? id = some ⟨group, .ended ending⟩) (other : Nat) :
    (run.arrive id group ending).members other + (if group = other then 1 else 0) =
      run.members other :=
  Table.sum_filter_ne unique located fun branch => if branch.group = other then 1 else 0

theorem endingsOf_arrive (run : Run) (id group : Nat) (ending : Ending) (other : Nat) :
    ((run.arrive id group ending).endingsOf other).length =
      (run.endingsOf other).length + if group = other then 1 else 0 := by
  by_cases same : group = other <;> simp [endingsOf, arrive, same]

/-- A branch may leave its ending behind and be gone. -/
theorem Tended.arrive (tended : run.Tended)
    (located : run.branch? id = some ⟨group, .ended ending⟩) :
    (run.arrive id group ending).Tended := by
  have found : ∀ other branch, (run.arrive id group ending).branch? other = some branch →
      run.branch? other = some branch := by
    intro other branch there
    rw [branch?, Run.arrive, Table.lookup_filter_ne] at there
    split at there
    · contradiction
    · exact there
  have awaits : ∀ task other count, (run.arrive id group ending).Awaits task other count →
      run.Awaits task other count := by
    rintro task other count ⟨join, stands⟩
    cases task with
    | driver => exact ⟨join, stands⟩
    | branch j =>
      obtain ⟨parent, there⟩ := exists_branch_of_phase? stands
      exact ⟨join, by simp [phase?, found j _ there]⟩
  refine ⟨Table.nodup_filter tended.unique _, fun entry member => ?_, fun arrival member => ?_,
    ?_, ?_, ?_⟩
  · exact tended.numbered entry (List.mem_of_mem_filter member)
  · rcases List.mem_append.mp member with old | new
    · exact tended.arrived arrival old
    · rw [List.mem_singleton.mp new]
      exact (tended.numbered _ (Table.mem_of_lookup located)).2
  · intro task other count waits
    obtain ⟨known, all⟩ := tended.complete task other count (awaits _ _ _ waits)
    have left := members_arrive tended.unique located other
    rw [endingsOf_arrive]
    exact ⟨known, by omega⟩
  · intro task other group' count count' waits waits'
    exact tended.single task other group' count count' (awaits _ _ _ waits) (awaits _ _ _ waits')
  · intro j branch group' count there waits
    exact tended.nested j branch group' count (found j branch there) (awaits _ _ _ waits)

end Arrive

theorem entering_ne_joining (ids : List String) :
    ∀ phase ∈ ids.map Phase.entering, ∀ join group count, phase ≠ .joining join group count := by
  intro phase member
  obtain ⟨id, _, rfl⟩ := List.mem_map.mp member
  simp

theorem Tended.fork_entering (tended : run.Tended) (ids : List String) :
    (run.fork (ids.map .entering)).Tended :=
  tended.fork (entering_ne_joining ids)

/-- A run that has only just begun has nobody waiting. -/
theorem Tended.start (d : Definition) (context : Context) (limit : Nat) (next : List String) :
    (Run.start d context limit next).Tended := by
  have alone : ∀ task group count, ¬ (Run.start d context limit next).Awaits task group count := by
    rintro task group count ⟨join, stands⟩
    cases task <;> simp [Run.start, phase?, branch?] at stands
  refine ⟨by simp [Run.start], by simp [Run.start], by simp [Run.start], ?_, ?_, ?_⟩
  · exact fun task group count waits => absurd waits (alone task group count)
  · exact fun task other group count _ waits => absurd waits (alone task group count)
  · exact fun id branch group count _ waits => absurd waits (alone (.branch id) group count)

theorem drive_choose_ne (run : Run) (next other : List String) :
    (run.choose next).drive ≠ .choosing other := by
  unfold Run.choose
  repeat' split
  all_goals simp

theorem Tended.choose (tended : run.Tended) (next : List String) : (run.choose next).Tended := by
  have counted : ({ run with steps := run.steps + 1 } : Run).Tended :=
    ⟨tended.unique, tended.numbered, tended.arrived, tended.complete, tended.single, tended.nested⟩
  unfold Run.choose
  split
  · exact tended.driven _ (by simp)
  · split
    · exact tended.driven _ (by simp)
    · split
      · exact tended.driven _ (by simp)
      · apply counted.driven _
        intro join group count same
        split at same <;> simp at same

/-- Whatever happens to a run, its branches stay tended. -/
theorem Tended.transition {catalog : Catalog} {after : Run} (tended : run.Tended)
    (happens : Transition catalog run after) : after.Tended := by
  cases happens with
  | rest => exact tended
  | wait task phase located =>
    rw [put_self tended.unique located]
    exact tended
  | act task phase around known located plain =>
    have acted : Run.Tended { run with
        context := (phase.step around run.definition run.context).2.1 } :=
      ⟨tended.unique, tended.numbered, tended.arrived, tended.complete, tended.single,
        tended.nested⟩
    exact acted.put ((phase?_context ..).trans located) fun join group count same =>
      absurd same (Phase.step_ne_joining around _ _ plain join group count)
  | fork task join ids located =>
    refine (tended.fork_entering ids).put (phase?_fork _ located) fun join group count same => ?_
    cases same
    have unarrived : run.endingsOf run.nextGroup = [] := by
      simp only [endingsOf, List.map_eq_nil_iff, List.filter_eq_nil_iff]
      intro arrival member
      simpa using Nat.ne_of_lt (tended.arrived arrival member)
    refine ⟨Nat.lt_succ_self _, ?_, ?_, ?_⟩
    · rw [tended.members_fork, List.length_map]
      show _ + (run.endingsOf run.nextGroup).length = _
      rw [unarrived, List.length_nil, Nat.add_zero]
    · intro other count' waits
      have waited := awaits_of_fork (entering_ne_joining ids) waits
      have known := (tended.complete other _ _ waited).1
      exact absurd known (Nat.lt_irrefl _)
    · rintro id branch rfl found
      obtain ⟨parent, there⟩ := exists_branch_of_phase? located
      rw [branch?_fork, there, Option.some_or] at found
      cases found
      exact (tended.numbered _ (Table.mem_of_lookup there)).2
  | join task join group count ending located outcome =>
    have swapped : (run.dismiss group).put task (Phase.joined join ending) =
        (run.put task (Phase.joined join ending)).dismiss group := by
      cases task <;> rfl
    have active : ∀ other group count, Phase.joined join ending ≠ .joining other group count := by
      cases join <;> simp [Phase.joined]
    have left : (run.put task (Phase.joined join ending)).Tended :=
      tended.put located fun other group count same => absurd same (active other group count)
    rw [swapped]
    apply left.dismiss
    rintro other count' ⟨join', stands⟩
    rw [phase?_put (by simp [located])] at stands
    split at stands
    · exact active _ _ _ (Option.some.inj stands)
    · rename_i different
      exact different (tended.single other task group count' count ⟨join', stands⟩ ⟨join, located⟩)
  | arrive id group ending located => exact tended.arrive located
  | follow ending located =>
    apply tended.driven _
    intro join group count same
    match ending with
    | .ok (.goOn next) => cases same
    | .ok (.suspend id pause) => cases same
    | .error failure => cases same
  | choose next located => exact tended.choose next
  | cancel =>
    exact ⟨tended.unique, tended.numbered, tended.arrived, tended.complete, tended.single,
      tended.nested⟩

end Run

end DurableFlow
