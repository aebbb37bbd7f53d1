import DurableFlow.Proofs.Run.Sharing
import Mathlib.Data.List.Perm.Basic
import Mathlib.Logic.Function.Basic

/-!
# Branches that do not depend on each other

Whatever the order in which the branches of a node take their steps, each of the nodes below it
writes once what it would write alone, so that all orders come to the same variables and outputs.
`Shares` is the invariant: the nodes that have written, together with those whose writes each branch
is still to make (`Phase.Owes`), are all nodes below the one that has set off the branches. When
this node has its outcome, no branch has writes left to make.
-/

namespace DurableFlow

namespace Run

section Shares

variable {ι : Type u} {α : Type v} [DecidableEq ι] {ids : List ι} {id : ι} {owed : ι → List α}

/-- One of the entries does some of its part and keeps the rest. -/
theorem perm_of_paid (once : ids.Nodup) (member : id ∈ ids) {paid left : List α}
    (splits : owed id = paid ++ left) (done : List α) :
    (done ++ ids.flatMap owed).Perm
      (done ++ paid ++ ids.flatMap (Function.update owed id left)) := by
  have others : (ids.erase id).flatMap (Function.update owed id left) =
      (ids.erase id).flatMap owed := by
    refine List.flatMap_congr fun other among => Function.update_of_ne ?_ _ _
    rintro rfl
    exact once.not_mem_erase among
  have before := (List.perm_cons_erase member).flatMap_right owed
  have after := (List.perm_cons_erase member).flatMap_right (Function.update owed id left)
  rw [List.flatMap_cons, splits] at before
  rw [List.flatMap_cons, Function.update_self, others] at after
  rw [List.append_assoc]
  refine List.Perm.append_left done (before.trans ?_)
  rw [List.append_assoc]
  exact List.Perm.append_left paid after.symm

/-- The entries from `next` on get these parts in turn, and all others keep theirs. -/
def spreadOut (owed : Nat → List α) (next : Nat) (shares : List (List α)) (id : Nat) : List α :=
  if next ≤ id then (shares[id - next]?).getD [] else owed id

theorem flatMap_spreadOut (owed : Nat → List α) (next : Nat) (shares : List (List α)) :
    (List.range' next shares.length).flatMap (spreadOut owed next shares) = shares.flatten := by
  have each : (List.range' next shares.length).map (spreadOut owed next shares) = shares := by
    apply List.ext_getElem (by simp)
    intro i inside _
    rw [List.length_map, List.length_range'] at inside
    simp [spreadOut, inside]
  rw [List.flatMap_def, each]

/-- An entry with no part left may be dropped. -/
theorem flatMap_filter_ne {β : Type w} {owed : Nat → List α} {id : Nat} (nothing : owed id = [])
    (entries : List (Nat × β)) :
    (Table.ids (entries.filter (·.1 != id))).flatMap owed = (Table.ids entries).flatMap owed := by
  induction entries with
  | nil => rfl
  | cons entry rest ih =>
    rw [List.filter_cons]
    split
    · simp only [Table.ids, List.map_cons, List.flatMap_cons] at ih ⊢
      rw [ih]
    · rename_i same
      obtain rfl : entry.1 = id := by simpa using same
      simp only [Table.ids, List.map_cons, List.flatMap_cons, nothing, List.nil_append] at ih ⊢
      exact ih

end Shares

variable {catalog : Catalog} {d : Definition} {base : Context} {writes : String → Writes}
  {all : List String} {group first : Nat} {run : Run} {done : List String}
  {owed : Nat → List String} {id : Nat}

/-- The nodes of `done` have written, the branch with the number `id` is still to make the writes of
the nodes in `owed id`, and together these are the nodes of `all`. -/
structure Shares (d : Definition) (base : Context) (writes : String → Writes)
    (all : List String) (group first : Nat) (run : Run) (done : List String)
    (owed : Nat → List String) : Prop where
  definition : run.definition = d
  written : base.Follows run.context (Writes.allVars writes done) (Writes.allOutputs writes done)
  shared : (done ++ (Table.ids run.branches).flatMap owed).Perm all
  older : ∀ id < first, owed id = []
  owes : ∀ id phase, first ≤ id → run.phase? (.branch id) = some phase →
    phase.Owes d writes (owed id)
  fine : ∀ told ∈ run.arrivals, group ≤ told.1 → ∃ step, told.2 = .ok step
  numbered : first ≤ run.nextBranch

/-- A group is the one that has been set off first, or one of the branches from `first` on waits
for it. -/
def Attends (group first : Nat) (run : Run) (own : Nat) : Prop :=
  own = group ∨ group < own ∧ ∃ parent count, first ≤ parent ∧
    run.Awaits (.branch parent) own count

theorem Attends.mono {after : Run} {own : Nat} (attends : run.Attends group first own)
    (still : ∀ parent count, run.Awaits (.branch parent) own count →
      after.Awaits (.branch parent) own count) : after.Attends group first own :=
  attends.imp_right fun ⟨later, parent, count, known, waits⟩ =>
    ⟨later, parent, count, known, still parent count waits⟩

/-- Each of the branches from `first` on is of a group that is attended to. -/
def Attended (group first : Nat) (run : Run) : Prop :=
  ∀ id branch, first ≤ id → run.branch? id = some branch → run.Attends group first branch.group

theorem mem_ids_of_phase? {phase : Phase} (located : run.phase? (.branch id) = some phase) :
    id ∈ Table.ids run.branches := by
  obtain ⟨group, there⟩ := exists_branch_of_phase? located
  exact List.mem_map_of_mem (Table.mem_of_lookup there)

section Fork

variable {ids : List String} {shares : List (List String)}

theorem ids_fork (run : Run) (ids : List String) :
    Table.ids (run.fork (ids.map .entering)).branches =
      Table.ids run.branches ++ List.range' run.nextBranch ids.length := by
  rw [fork_branches, Table.ids, List.map_append]
  show Table.ids _ ++ Table.ids _ = _
  rw [Table.ids_enumerate, List.length_map, List.length_map]

/-- The writes that branches are to make which are set off come behind those that are still to be
made. -/
theorem Tended.flatMap_fork (tended : run.Tended) (owed : Nat → List String)
    (each : shares.length = ids.length) :
    (Table.ids (run.fork (ids.map .entering)).branches).flatMap
        (spreadOut owed run.nextBranch shares) =
      (Table.ids run.branches).flatMap owed ++ shares.flatten := by
  rw [ids_fork, List.flatMap_append, ← each, flatMap_spreadOut]
  refine congrArg (· ++ shares.flatten) (List.flatMap_congr fun id member => ?_)
  obtain ⟨entry, there, rfl⟩ := List.mem_map.mp member
  rw [spreadOut, if_neg (Nat.not_le.mpr (tended.numbered entry there).1)]

/-- Branches that are set off are to make the writes of their nodes and of those below them. -/
theorem Tended.owes_fork (tended : run.Tended)
    (each : List.Forall₂ (fun id share => d.Spreads [id] share) ids shares) {phase : Phase}
    (located : (run.fork (ids.map .entering)).phase? (.branch id) = some phase) :
    run.phase? (.branch id) = some phase ∧ spreadOut owed run.nextBranch shares id = owed id ∨
      run.nextBranch ≤ id ∧ phase.Owes d writes (spreadOut owed run.nextBranch shares id) := by
  obtain ⟨group, there⟩ := exists_branch_of_phase? located
  rw [branch?_fork] at there
  rcases Option.or_eq_some_iff.mp there with old | ⟨_, new⟩
  · have below := (tended.numbered _ (Table.mem_of_lookup old)).1
    exact .inl ⟨by simp [phase?, old], if_neg (Nat.not_le.mpr below)⟩
  · split at new
    · rename_i above
      rw [List.map_map, List.getElem?_map] at new
      obtain ⟨name, listed, same⟩ := Option.map_eq_some_iff.mp new
      cases same
      obtain ⟨inside, rfl⟩ := List.getElem?_eq_some_iff.mp listed
      have owes := each.get inside (each.length_eq ▸ inside)
      refine .inr ⟨above, ?_⟩
      rw [spreadOut, if_pos above, List.getElem?_eq_getElem (each.length_eq ▸ inside)]
      exact owes
    · contradiction

end Fork

namespace Shares

/-- Nothing has been done when the first branches are set off. -/
theorem start {task : TaskId} {join : Join} {ids : List String} (tended : run.Tended)
    (located : run.phase? task = some (.forking join ids)) (known : run.definition = d)
    (spreads : d.Spreads ids all) (writes : String → Writes) :
    ∃ owed, Shares d run.context writes all run.nextGroup run.nextBranch
      ((run.fork (ids.map .entering)).put task (.joining join run.nextGroup ids.length)) []
      owed := by
  obtain ⟨shares, rfl, each⟩ := spreads.shares
  refine ⟨spreadOut (fun _ => []) run.nextBranch shares, ?_, ?_, ?_, ?_, ?_, ?_, ?_⟩
  · rw [put_definition]
    exact known
  · rw [put_context]
    exact .refl run.context
  · have nothing : (Table.ids run.branches).flatMap (fun _ => ([] : List String)) = [] :=
      List.flatMap_eq_nil_iff.mpr fun _ _ => rfl
    rw [ids_put, tended.flatMap_fork _ each.length_eq.symm, nothing]
    exact .refl _
  · intro id below
    rw [spreadOut, if_neg (Nat.not_le.mpr below)]
  · intro id phase above stands
    have different : TaskId.branch id ≠ task := by
      rintro rfl
      obtain ⟨group, there⟩ := exists_branch_of_phase? located
      exact absurd (tended.numbered _ (Table.mem_of_lookup there)).1 (Nat.not_lt.mpr above)
    rw [phase?_put (by rw [phase?_fork _ located]; rfl), if_neg different] at stands
    rcases tended.owes_fork each stands with ⟨old, _⟩ | ⟨_, owes⟩
    · rw [phase?, tended.branch?_eq_none above] at old
      contradiction
    · exact owes
  · have same : ((run.fork (ids.map .entering)).put task
        (.joining join run.nextGroup ids.length)).arrivals = run.arrivals := by
      cases task <;> rfl
    rw [same]
    exact fun told member above => absurd (tended.arrived told member) (Nat.not_lt.mpr above)
  · rw [(put_numbers ..).1]
    exact Nat.le_add_right ..

/-- A branch that takes a step within its node makes some of its writes. -/
theorem act (shares : Shares d base writes all group first run done owed)
    (unique : (Table.ids run.branches).Nodup) (above : first ≤ id) {old phase : Phase}
    (located : run.phase? (.branch id) = some old)
    {context : Context} {paid left : List String}
    (pays : Phase.Pays d writes run.context (owed id) phase context paid left) :
    Shares d base writes all group first (({ run with context } : Run).put (.branch id) phase)
      (done ++ paid) (Function.update owed id left) := by
  constructor
  · rw [put_definition]
    exact shares.definition
  · rw [put_context, Writes.allVars, Writes.allOutputs, List.flatMap_append, List.flatMap_append]
    exact shares.written.write pays.written
  · rw [ids_put]
    exact (perm_of_paid unique (mem_ids_of_phase? located) pays.owed done).symm.trans
      shares.shared
  · intro other below
    rw [Function.update_of_ne (by omega)]
    exact shares.older other below
  · intro other stood above' stands
    rw [phase?_put (by rw [phase?_context, located]; rfl)] at stands
    by_cases own : other = id
    · subst own
      rw [if_pos rfl] at stands
      cases stands
      rw [Function.update_self]
      exact pays.owes
    · rw [if_neg fun same => own (TaskId.branch.inj same)] at stands
      rw [Function.update_of_ne own]
      exact shares.owes other stood above' stands
  · exact shares.fine
  · exact shares.numbered

/-- A branch that sets off branches leaves its writes to them. -/
theorem fork (shares : Shares d base writes all group first run done owed) (tended : run.Tended)
    (above : first ≤ id) {join : Join} {ids : List String}
    (located : run.phase? (.branch id) = some (.forking join ids)) :
    ∃ owed, Shares d base writes all group first
      ((run.fork (ids.map .entering)).put (.branch id) (.joining join run.nextGroup ids.length))
      done owed := by
  obtain ⟨waits, spreads⟩ := shares.owes id _ above located
  obtain ⟨parts, same, each⟩ := spreads.shares
  have forked : (run.fork (ids.map .entering)).phase? (.branch id) = some (.forking join ids) :=
    phase?_fork _ located
  have unmoved : spreadOut owed run.nextBranch parts id = owed id := by
    obtain ⟨group, there⟩ := exists_branch_of_phase? located
    exact if_neg (Nat.not_le.mpr (tended.numbered _ (Table.mem_of_lookup there)).1)
  refine ⟨Function.update (spreadOut owed run.nextBranch parts) id [], ?_, ?_, ?_, ?_, ?_, ?_, ?_⟩
  · rw [put_definition]
    exact shares.definition
  · rw [put_context]
    exact shares.written
  · rw [ids_put]
    -- Both what the branch has owed and what the new branches owe are among what is owed.
    have splits : spreadOut owed run.nextBranch parts id = parts.flatten ++ [] := by
      rw [unmoved, same, List.append_nil]
    have moved := perm_of_paid (tended.fork_entering ids).unique (mem_ids_of_phase? forked) splits
      done
    rw [tended.flatMap_fork _ each.length_eq.symm, ← List.append_assoc] at moved
    have left := (List.perm_append_comm_assoc done parts.flatten _).symm.trans
      ((List.append_assoc .. ▸ moved.symm).trans List.perm_append_comm)
    exact ((List.perm_append_left_iff _).mp left).trans shares.shared
  · intro other below
    have lower : ¬ run.nextBranch ≤ other :=
      Nat.not_le.mpr (Nat.lt_of_lt_of_le below shares.numbered)
    rw [Function.update_of_ne (by omega), spreadOut, if_neg lower]
    exact shares.older other below
  · intro other phase above' stands
    rw [phase?_put (by rw [forked]; rfl)] at stands
    by_cases own : other = id
    · subst own
      rw [if_pos rfl] at stands
      cases stands
      rw [Function.update_self]
      exact ⟨waits, rfl⟩
    · rw [if_neg fun same => own (TaskId.branch.inj same)] at stands
      rw [Function.update_of_ne own]
      rcases tended.owes_fork each stands with ⟨old, unmoved⟩ | ⟨_, owes⟩
      · rw [unmoved]
        exact shares.owes other phase above' old
      · exact owes
  · exact shares.fine
  · exact Nat.le_trans shares.numbered (Nat.le_add_right ..)

/-- A branch that has ended has no writes left to make, and may be gone. -/
theorem arrive (shares : Shares d base writes all group first run done owed)
    (above : first ≤ id) {own : Nat} {step : Step}
    (located : run.branch? id = some ⟨own, .ended (.ok step)⟩) :
    Shares d base writes all group first (run.arrive id own (.ok step)) done owed := by
  have stands : run.phase? (.branch id) = some (.ended (.ok step)) := by rw [phase?, located]; rfl
  have nothing : owed id = [] := shares.owes id _ above stands
  refine ⟨shares.definition, shares.written, ?_, shares.older, ?_, ?_, shares.numbered⟩
  · show (done ++ (Table.ids (run.branches.filter (·.1 != id))).flatMap owed).Perm all
    rw [flatMap_filter_ne nothing]
    exact shares.shared
  · intro other phase above' stands
    rw [phase?, branch?_arrive] at stands
    split at stands
    · contradiction
    · exact shares.owes other phase above' stands
  · intro told member later
    rcases List.mem_append.mp member with old | new
    · exact shares.fine told old later
    · rw [List.mem_singleton.mp new]
      exact ⟨step, rfl⟩

end Shares

namespace Attended

/-- A branch that comes to stand elsewhere goes on to wait for whom it has waited for, unless
there is nobody left. -/
theorem put (attended : run.Attended group first) {old phase : Phase}
    (located : run.phase? (.branch id) = some old)
    (waits : ∀ join own count, old = .joining join own count →
      ∀ other branch, run.branch? other = some branch → branch.group ≠ own) (context : Context) :
    (({ run with context } : Run).put (.branch id) phase).Attended group first := by
  intro other branch above there
  have same := branch?_put ({ run with context } : Run) (.branch id) phase other
  rw [there] at same
  obtain ⟨stood, found, grouped⟩ := Option.map_eq_some_iff.mp same.symm
  have found : run.branch? other = some stood := found
  rw [← grouped]
  refine (attended other stood above found).mono ?_
  rintro parent count ⟨join, awaits⟩
  refine ⟨join, ?_⟩
  have different : parent ≠ id := by
    rintro rfl
    rw [located] at awaits
    exact waits join stood.group count (Option.some.inj awaits) other stood found rfl
  rw [phase?_put (by rw [phase?_context, located]; rfl),
    if_neg fun same => different (TaskId.branch.inj same)]
  exact awaits

/-- The branches that a branch sets off are waited for by it. -/
theorem fork (attended : run.Attended group first)
    (known : group < run.nextGroup) (above : first ≤ id) {join : Join} {ids : List String}
    (located : run.phase? (.branch id) = some (.forking join ids)) :
    ((run.fork (ids.map .entering)).put (.branch id)
      (.joining join run.nextGroup ids.length)).Attended group first := by
  have forked : (run.fork (ids.map .entering)).phase? (.branch id) = some (.forking join ids) :=
    phase?_fork _ located
  have stands : ∀ task, ((run.fork (ids.map .entering)).put (.branch id)
      (.joining join run.nextGroup ids.length)).phase? task =
        if task = .branch id then some (.joining join run.nextGroup ids.length)
        else (run.fork (ids.map .entering)).phase? task :=
    phase?_put (by rw [forked]; rfl) _
  have happens : Transition [] run _ := .fork (.branch id) join ids located
  intro other branch above' there
  rcases happens.source there with ⟨old, found, grouped⟩ | ⟨_, grouped⟩
  · rw [← grouped]
    refine (attended other old above' found).mono ?_
    rintro parent count ⟨join, waits⟩
    refine ⟨join, ?_⟩
    have different : TaskId.branch parent ≠ .branch id := by
      intro same
      rw [same, located] at waits
      cases waits
    rw [stands, if_neg different]
    exact phase?_fork _ waits
  · rw [grouped]
    exact .inr ⟨known, id, ids.length, above, join, by rw [stands, if_pos rfl]⟩

theorem arrive (attended : run.Attended group first) {own : Nat} {ending : Ending}
    (located : run.branch? id = some ⟨own, .ended ending⟩) :
    (run.arrive id own ending).Attended group first := by
  intro other branch above there
  rw [branch?_arrive] at there
  split at there
  · contradiction
  · refine (attended other branch above there).mono ?_
    rintro parent count ⟨join, waits⟩
    refine ⟨join, ?_⟩
    have different : parent ≠ id := by
      rintro rfl
      rw [phase?, located] at waits
      cases waits
    rw [phase?, branch?_arrive, if_neg different]
    exact waits

theorem dismiss (attended : run.Attended group first) (own : Nat) :
    (run.dismiss own).Attended group first := by
  intro other branch above there
  refine (attended other branch above there).mono ?_
  rintro parent count ⟨join, waits⟩
  exact ⟨join, (phase?_dismiss ..).trans waits⟩

/-- When none of the first group is left, none of the branches is. -/
theorem none_left (attended : run.Attended group first) (tended : run.Tended)
    (gone : run.members group = 0) : ∀ id, first ≤ id → run.branch? id = none := by
  have unfound : ∀ n id branch, first ≤ id → run.branch? id = some branch → branch.group = n →
      False := by
    intro n
    induction n using Nat.strong_induction_on with
    | _ n ih =>
      rintro id branch above there rfl
      rcases attended id branch above there with same | ⟨_, parent, count, known, own, waits⟩
      · have missing := tended.members_pos there
        rw [same, gone] at missing
        exact absurd missing (Nat.lt_irrefl 0)
      · obtain ⟨older, found⟩ := exists_branch_of_phase? waits
        exact ih older (tended.nested parent _ _ count found ⟨own, waits⟩) parent _ known found rfl
  intro id above
  rw [Option.eq_none_iff_forall_not_mem]
  exact fun branch there => unfound _ id branch above there rfl

end Attended

namespace Shares

/-- What has been written before a node acts has been written for others. -/
theorem result (shares : Shares d base writes all group first run done owed)
    (independent : Independent catalog d base all writes) (above : first ≤ id) {node : Node}
    (located : run.phase? (.branch id) = some (.acting node)) {around : Surroundings}
    (known : around.catalog = catalog) :
    (∀ branches waitForAll, node.kind = .parallel branches waitForAll → waitForAll = true) ∧
      (Phase.act around run.context node).1.writes = writes node.id := by
  obtain ⟨found, spreads⟩ := shares.owes id _ above located
  obtain ⟨below, owing, _⟩ := spreads.exists_below
  have member : node.id ∈ (Table.ids run.branches).flatMap owed := by
    refine List.mem_flatMap.mpr ⟨id, mem_ids_of_phase? located, ?_⟩
    rw [owing]
    exact List.mem_cons_self
  have split := (List.Perm.append_left done (List.perm_cons_erase member)).symm.trans shares.shared
  have listed : node.id ∈ all :=
    split.subset (List.mem_append_right _ List.mem_cons_self)
  have others : ∀ other ∈ done, other ∈ all.erase node.id := by
    intro other earlier
    have left := (List.perm_middle.symm.trans split).erase node.id
    rw [List.erase_cons_head] at left
    exact left.subset (List.mem_append_left _ earlier)
  refine ⟨fun branches waitForAll => independent.waits _ listed node branches waitForAll found,
    independent.result _ listed node found _ _ _ shares.written ?_ ?_ around known⟩
  · intro name written
    obtain ⟨other, earlier, binds⟩ := Writes.mem_allVars.mp written
    exact Writes.mem_allVars.mpr ⟨other, others other earlier, binds⟩
  · intro name written
    obtain ⟨earlier, gives⟩ := Writes.mem_allOutputs.mp written
    exact Writes.mem_allOutputs.mpr ⟨others name earlier, gives⟩

/-- A branch goes on when those that it has set off have all ended, since none has failed. -/
theorem join (shares : Shares d base writes all group first run done owed)
    (attended : run.Attended group first) (tended : run.Tended) (above : first ≤ id) {join : Join}
    {own count : Nat} (located : run.phase? (.branch id) = some (.joining join own count))
    {ending : Ending} (outcome : join.outcome? count (run.endingsOf own) = some ending) :
    ∃ owed, Shares d base writes all group first
        ((run.dismiss own).put (.branch id) (Phase.joined join ending)) (done ++ []) owed ∧
      ((run.dismiss own).put (.branch id) (Phase.joined join ending)).Attended group first := by
  obtain ⟨waits, nothing⟩ := shares.owes id _ above located
  have later : group ≤ own := by
    obtain ⟨parent, there⟩ := exists_branch_of_phase? located
    have nested := tended.nested id _ own count there ⟨join, located⟩
    rcases attended id _ above there with same | ⟨below, _⟩
    · exact Nat.le_of_lt (same ▸ nested)
    · exact Nat.le_of_lt (Nat.lt_trans below nested)
  cases ending with
  | error failure =>
    have failed := Join.collect_of_outcome? outcome
    rw [Join.awaited_of_waitForAll waits] at failed
    obtain ⟨told, member, same⟩ := List.mem_map.mp (Join.mem_of_collect failed)
    obtain ⟨arrived, own'⟩ := List.mem_filter.mp member
    obtain ⟨step, fine⟩ := shares.fine told arrived (by rw [eq_of_beq own']; exact later)
    rw [fine] at same
    cases same
  | ok step =>
    have left : ∀ other branch, run.branch? other = some branch → branch.group ≠ own := by
      rintro other branch there rfl
      have counted := Join.length_of_outcome? waits outcome
      have together := (tended.complete _ _ _ ⟨join, located⟩).2
      have missing := tended.members_pos there
      omega
    have dismissed : Shares d base writes all group first (run.dismiss own) done owed :=
      ⟨shares.definition, shares.written, shares.shared, shares.older,
        fun other phase above stands => shares.owes other phase above
          ((phase?_dismiss ..).symm.trans stands),
        fun told member => shares.fine told (List.mem_of_mem_filter member), shares.numbered⟩
    have pays : Phase.Pays d writes run.context (owed id) (Phase.joined join (.ok step))
        run.context [] [] := by
      refine ⟨nothing, ?_, .refl run.context⟩
      cases join with
      | parallel node all => exact .inr ⟨rfl, by cases step <;> rfl⟩
      | fanOut => rfl
    refine ⟨_, dismissed.act tended.unique above ((phase?_dismiss ..).trans located) pays, ?_⟩
    refine (attended.dismiss own).put ((phase?_dismiss ..).trans located) ?_ run.context
    rintro _ _ _ ⟨⟩
    exact left

/-- Whatever a branch does, short of an error, the writes that have been made and those that are
still to be made are together those of all nodes. -/
theorem move (shares : Shares d base writes all group first run done owed)
    (attended : run.Attended group first) (tended : run.Tended) (known : group < run.nextGroup)
    (independent : Independent catalog d base all writes) (above : first ≤ id) (moment : Moment)
    (clock : Nat) (before : ∀ failure, run.phase? (.branch id) ≠ some (.ended (.error failure)))
    (after : ∀ failure, (run.move catalog (.step (.branch id) moment clock)).phase? (.branch id) ≠
      some (.ended (.error failure))) :
    ∃ done owed, Shares d base writes all group first
        (run.move catalog (.step (.branch id) moment clock)) done owed ∧
      (run.move catalog (.step (.branch id) moment clock)).Attended group first := by
  obtain rfl := shares.definition
  cases located : run.phase? (.branch id) with
  | none =>
    have same : run.move catalog (.step (.branch id) moment clock) = run := by
      rcases move_of_none catalog located moment clock with same | ⟨_, driver, _⟩
      · exact same
      · cases driver
    rw [same]
    exact ⟨done, owed, shares, attended⟩
  | some phase =>
    by_cases plain : phase.IsPlain
    · have moved := (move_plain located plain catalog moment clock).1
      have stands := phase?_move_plain located plain catalog moment clock
      obtain ⟨paid, left, pays⟩ := Phase.step_pays ⟨catalog, moment, clock⟩ run.context
        (shares.owes id phase above located) plain
        (fun failure same => after failure (by rw [stands, same]))
        (fun node same => shares.result independent above (same ▸ located) rfl)
      rw [moved]
      refine ⟨_, _, shares.act tended.unique above located pays, attended.put located ?_ _⟩
      rintro join own count rfl
      exact plain.elim
    · cases phase with
      | forking join ids =>
        rw [move_step located (fun _ => Phase.noConfusion)]
        obtain ⟨owed, forked⟩ := shares.fork tended above located
        exact ⟨done, owed, forked, attended.fork known above located⟩
      | joining join own count =>
        obtain ⟨waits, nothing⟩ := shares.owes id _ above located
        rw [move_step located (fun _ => Phase.noConfusion), stepPhase]
        cases outcome : join.outcome? count (run.endingsOf own) with
        | none =>
          simp only [put_self tended.unique located]
          exact ⟨done, owed, shares, attended⟩
        | some ending =>
          obtain ⟨owed, joins⟩ := shares.join attended tended above located outcome
          exact ⟨_, owed, joins⟩
      | ended ending =>
        cases ending with
        | error failure => exact absurd located (before failure)
        | ok step =>
          rcases move_of_ended catalog located moment clock with
            ⟨own, group', same, there, moved⟩ | ⟨driver, _⟩
          · cases same
            rw [moved]
            exact ⟨done, owed, shares.arrive above there, attended.arrive there⟩
          · cases driver
      | _ => exact absurd trivial plain

end Shares

/-- Only the branches from `first` on take steps, and none of those from `below` on comes to an
error. -/
structure Smooth (catalog : Catalog) (begun : Run) (first below : Nat) (schedule : List Move) :
    Prop where
  own : ∀ m ∈ schedule, ∃ id moment clock, first ≤ id ∧ m = .step (.branch id) moment clock
  fine : ∀ id failure, below ≤ id →
    ¬ begun.Comes catalog schedule (.branch id) (.ended (.error failure))

/-- A schedule is smooth from the first branch on, if none of the branches up to `below` fails. -/
theorem Smooth.whole {begun : Run} {size : Nat} {schedule : List Move}
    (smooth : Smooth catalog begun first (first + size) schedule)
    (unfailed : ∀ i < size, ∀ failure,
      ¬ begun.Comes catalog schedule (.branch (first + i)) (.ended (.error failure))) :
    Smooth catalog begun first first schedule := by
  refine ⟨smooth.own, fun id failure above comes => ?_⟩
  by_cases deeper : first + size ≤ id
  · exact smooth.fine id failure deeper comes
  · obtain ⟨i, rfl⟩ := Nat.exists_eq_add_of_le above
    exact unfailed i (by omega) failure comes

namespace Shares

variable {begun : Run}

/-- As long as nothing fails, the writes that have been made and those that are still to be made are
together those of all nodes. -/
theorem play (shares : Shares d base writes all group first begun done owed)
    (attended : begun.Attended group first) (tended : begun.Tended)
    (known : group < begun.nextGroup) (independent : Independent catalog d base all writes)
    {schedule : List Move} (smooth : Smooth catalog begun first first schedule) :
    ∃ done owed, Shares d base writes all group first (begun.play catalog schedule) done owed ∧
      (begun.play catalog schedule).Attended group first := by
  induction schedule using List.reverseRecOn with
  | nil => exact ⟨done, owed, shares, attended⟩
  | append_singleton schedule m ih =>
    obtain ⟨done, owed, shares, attended⟩ := ih
      ⟨fun m member => smooth.own m (List.mem_append_left _ member),
        fun id failure above comes => smooth.fine id failure above (comes.later m)⟩
    obtain ⟨id, moment, clock, above, rfl⟩ :=
      smooth.own m (List.mem_append_right _ (List.mem_singleton_self _))
    have known := Nat.lt_of_lt_of_le known (play_numbers catalog begun schedule).2
    rw [play_concat]
    refine shares.move attended (tended.play catalog schedule) known independent above moment clock
      (fun failure stands => ?_) (fun failure stands => ?_)
    · exact smooth.fine id failure above (Comes.later (comes_of_phase? stands) _)
    · rw [← play_concat] at stands
      exact smooth.fine id failure above (comes_of_phase? stands)

/-- When no branch is left, all that there is to write has been written. -/
theorem settled (shares : Shares d base writes all group first run done owed)
    (gone : ∀ id, first ≤ id → run.branch? id = none) : done.Perm all := by
  have nothing : (Table.ids run.branches).flatMap owed = [] := by
    refine List.flatMap_eq_nil_iff.mpr fun id member => ?_
    by_cases above : first ≤ id
    · obtain ⟨⟨own, branch⟩, there, rfl⟩ := List.mem_map.mp member
      have unfound := List.lookup_eq_none_iff.mp (gone own above) _ there
      simp at unfound
    · exact shares.older id (Nat.not_le.mp above)
  simpa [nothing] using shares.shared

end Shares

variable {task : TaskId} {join : Join} {ids : List String}

/-- After a schedule a task still waits for a group of branches, and with its next step it takes
up what they lead to. -/
structure Resolves (catalog : Catalog) (run : Run) (task : TaskId) (join : Join)
    (group count : Nat) (ending : Ending) : Prop where
  waits : run.phase? task = some (.joining join group count)
  joins : ∀ moment clock, (run.move catalog (.step task moment clock)).phase? task =
    some (Phase.joined join ending)

theorem Resolves.outcome? {count : Nat} {ending : Ending}
    (resolves : Resolves catalog run task join group count ending) :
    join.outcome? count (run.endingsOf group) = some ending := by
  have joins := resolves.joins ⟨⟨0, 0⟩, 0⟩ 0
  rw [move_step resolves.waits (fun _ => Phase.noConfusion), stepPhase] at joins
  cases outcome : join.outcome? count (run.endingsOf group) with
  | none =>
    simp only [outcome] at joins
    rw [phase?_put_self resolves.waits] at joins
    cases join <;> cases joins
  | some other =>
    simp only [outcome] at joins
    rw [phase?_put_self ((phase?_dismiss ..).trans resolves.waits)] at joins
    cases join <;> cases joins <;> rfl

theorem resolves_of_outcome? {count : Nat} {ending : Ending}
    (waits : run.phase? task = some (.joining join group count))
    (outcome : join.outcome? count (run.endingsOf group) = some ending) :
    Resolves catalog run task join group count ending := by
  refine ⟨waits, fun moment clock => ?_⟩
  rw [move_step waits (fun _ => Phase.noConfusion), stepPhase]
  simp only [outcome]
  exact phase?_put_self ((phase?_dismiss ..).trans waits) _

/-- Branches that do not depend on each other come to the same variables and outputs in every
order of their steps. -/
theorem confluent (tended : run.Tended)
    (located : run.phase? task = some (.forking join ids)) (waits : join.waitForAll = true)
    (spreads : run.definition.Spreads ids all)
    (independent : Independent catalog run.definition run.context all writes) {begun : Run}
    (set_off : begun =
      (run.fork (ids.map .entering)).put task (.joining join run.nextGroup ids.length))
    {schedule : List Move} {step : Step}
    (smooth : Smooth catalog begun run.nextBranch run.nextBranch schedule)
    (resolves : Resolves catalog (begun.play catalog schedule) task join run.nextGroup ids.length
      (.ok step)) :
    ∃ done, done.Perm all ∧ run.context.Follows (begun.play catalog schedule).context
      (Writes.allVars writes done) (Writes.allOutputs writes done) := by
  have happens : Transition catalog run begun := set_off ▸ .fork task join ids located
  have tended' := tended.transition happens
  have known : run.nextGroup < begun.nextGroup := by
    rw [set_off, (put_numbers ..).2]
    exact Nat.lt_succ_self _
  have attended : begun.Attended run.nextGroup run.nextBranch := by
    intro id branch above there
    rcases happens.source there with ⟨old, found, _⟩ | ⟨_, grouped⟩
    · rw [tended.branch?_eq_none above] at found
      contradiction
    · exact .inl grouped
  obtain ⟨owed, begins⟩ := Shares.start tended located rfl spreads writes
  rw [← set_off] at begins
  obtain ⟨done, owed, shares, attended⟩ := begins.play attended tended' known independent smooth
  have played := tended'.play catalog schedule
  have counted := Join.length_of_outcome? waits resolves.outcome?
  have together := (played.complete _ _ _ ⟨join, resolves.waits⟩).2
  have gone := attended.none_left played (by omega)
  exact ⟨done, shares.settled gone, shares.written⟩

end Run

end DurableFlow
