import DurableFlow.Proofs.Run.Lockstep
import DurableFlow.Proofs.Run.Termination
import DurableFlow.Proofs.Run.Undated

/-!
# Runs that are cut short

The driver of a run looks at the limit of its steps and at a request to cancel only between
two nodes. So over a sequential definition a run that is stopped by either of them has done
what any run does that is not: the same nodes, one after another, as far as it came.

`Standing.after` says where a run stands after so many nodes when nothing stops it. It depends
on the input alone, neither on the limit nor on the schedule. `Run.Follows` is the invariant: a
run stands after `n` steps where `n` nodes lead, or within the last of them, or it was stopped
there. Two runs with different limits and schedules are compared by where they stand.
-/

namespace DurableFlow

/-- Where a run stands between two steps of its driver. -/
structure Standing where
  context : Context
  drive : Drive

namespace Standing

/-- How the run ends here, if it does. -/
def end? (s : Standing) : Option Conclusion :=
  match s.drive with
  | .choosing [] => some .completed
  | .concluded conclusion => some conclusion
  | _ => none

/-- Run the next node in one piece. A run that has come to its end stays there. -/
def next (d : Definition) (catalog : Catalog) (moment : Moment) (s : Standing) : Standing :=
  match s.drive with
  | .choosing (id :: _) =>
    let visit := d.visit catalog moment s.context id
    { context := visit.context, drive := Run.follow visit.ending }
  | _ => s

/-- Where the run stands after so many nodes. -/
def after (d : Definition) (catalog : Catalog) (moment : Moment) (s : Standing) : Nat → Standing
  | 0 => s
  | n + 1 => (s.after d catalog moment n).next d catalog moment

/-- The run is at its end, or goes on at a single node of the definition. -/
def Fits (d : Definition) (s : Standing) : Prop :=
  match s.drive with
  | .choosing next => d.Offers next ∧ next.length ≤ 1
  | .running _ => False
  | .concluded _ => True

/-- Two runs stand at the same place, up to when they started. -/
def Alike (s other : Standing) : Prop :=
  s.context.undated = other.context.undated ∧ s.drive = other.drive

variable {d : Definition} {catalog : Catalog} {moment : Moment} {s other : Standing}
  {conclusion : Conclusion} {n m : Nat}

theorem Alike.end? (alike : s.Alike other) : s.end? = other.end? := by
  simp only [Standing.end?, alike.2]

theorem next_of_end? (ended : s.end? = some conclusion) : s.next d catalog moment = s := by
  unfold end? at ended
  unfold next
  split at ended <;> simp_all

/-- Behind the end nothing changes. -/
theorem after_of_end? (ended : (s.after d catalog moment n).end? = some conclusion)
    (le : n ≤ m) : s.after d catalog moment m = s.after d catalog moment n := by
  induction le with
  | refl => rfl
  | step _ ih => rw [after, ih, next_of_end? ended]

/-- A run that has not ended now has not ended before. -/
theorem end?_of_le (goes : (s.after d catalog moment m).end? = none) (le : n ≤ m) :
    (s.after d catalog moment n).end? = none := by
  cases ended : (s.after d catalog moment n).end? with
  | none => rfl
  | some conclusion =>
    rw [after_of_end? ended le, ended] at goes
    contradiction

theorem Alike.fits (alike : s.Alike other) (fits : s.Fits d) : other.Fits d := by
  unfold Fits at fits ⊢
  rw [← alike.2]
  exact fits

/-- A run that has not ended has one node next. -/
theorem Fits.exists_id (fits : s.Fits d) (goes : s.end? = none) :
    ∃ id, s.drive = .choosing [id] ∧ d.Offers [id] := by
  unfold Fits at fits
  unfold end? at goes
  split at fits
  · rename_i next located
    simp only [located] at goes
    match next, fits, goes with
    | [id], fits, _ => exact ⟨id, located, fits.1⟩
    | _ :: _ :: _, fits, _ => exact absurd fits.2 (by simp)
  · exact fits.elim
  · simp_all

theorem Alike.next (alike : s.Alike other) :
    (s.next d catalog moment).Alike (other.next d catalog moment) := by
  obtain ⟨context, drive⟩ := s
  obtain ⟨context', drive'⟩ := other
  obtain ⟨same, rfl⟩ := alike
  match drive with
  | .choosing [] => exact ⟨same, rfl⟩
  | .running phase => exact ⟨same, rfl⟩
  | .concluded conclusion => exact ⟨same, rfl⟩
  | .choosing (id :: rest) =>
    have visits : (d.visit catalog moment context id).undated =
        (d.visit catalog moment context' id).undated := by
      rw [Definition.visit_undated, Definition.visit_undated, same]
    have endings := congrArg Visit.ending visits
    exact ⟨congrArg Visit.context visits, congrArg Run.follow endings⟩

/-- No node reads when its run started. -/
theorem Alike.after (alike : s.Alike other) (n : Nat) :
    (s.after d catalog moment n).Alike (other.after d catalog moment n) := by
  induction n with
  | zero => exact alike
  | succ n ih => exact ih.next

end Standing

section Visits

variable {d : Definition} {catalog : Catalog} {moment : Moment} {context : Context}

/-- The ending goes on to a single node of the definition or to none. -/
def Ending.Fits (d : Definition) (ending : Ending) : Prop :=
  ∀ next, ending = .ok (.goOn next) → d.Offers next ∧ next.length ≤ 1

theorem Ending.fits_error (failure : Failure) : Ending.Fits d (.error failure) := by
  intro next same
  cases same

theorem Ending.fits_suspend (id : String) (pause : Pause) :
    Ending.Fits d (.ok (.suspend id pause)) := by
  intro next same
  cases same

theorem Ending.fits_successors (sequential : d.IsSequential) {node : Node} (has : d.Has node) :
    Ending.Fits d (.ok (.goOn node.successors)) := by
  intro next same
  cases same
  exact ⟨.successors node has, (sequential node has.mem_nodes).2⟩

theorem Ending.fits_single {id : String} (offered : d.Offers [id]) :
    Ending.Fits d (.ok (.goOn [id])) := by
  intro next same
  cases same
  exact ⟨offered, Nat.le_refl 1⟩

theorem Node.takeReply_fits (sequential : d.IsSequential) {node : Node} (has : d.Has node)
    (procedure : String) (reply : Reply) :
    Ending.Fits d (node.takeReply context procedure reply).ending := by
  cases reply with
  | output value => exact Ending.fits_successors sequential has
  | suspend pause => exact Ending.fits_suspend _ _
  | failed text => exact Ending.fits_error _
  | dateRange => exact Ending.fits_error _

theorem Node.perform_fits (valid : d.Valid catalog.knows) (sequential : d.IsSequential)
    {node : Node} (has : d.Has node) :
    Ending.Fits d (node.perform catalog moment context).ending := by
  unfold perform
  split
  · exact Ending.fits_error _
  · split
    · exact Ending.fits_error _
    · split
      · exact Ending.fits_error _
      · exact takeReply_fits sequential has _ _
  · simp only [route]
    split
    · exact Ending.fits_error _
    · rename_i branch chosen
      exact Ending.fits_single (valid.offers_reference has (branch?_mem_references chosen))
    · exact Ending.fits_successors sequential has
  · exact Ending.fits_suspend _ _
  · exact Ending.fits_successors sequential has
  · exact Ending.fits_successors sequential has

theorem Node.recover_fits (valid : d.Valid catalog.knows) {node : Node} (has : d.Has node)
    {visit : Visit} (fits : Ending.Fits d visit.ending) :
    Ending.Fits d (node.recover visit).ending := by
  unfold recover
  split
  · rename_i failure target _ handler
    have reference : target ∈ node.references := by simp [Node.references, handler]
    exact Ending.fits_single (valid.offers_reference has reference)
  · exact fits

theorem Node.perform_trail (node : Node) :
    (node.perform catalog moment context).context.trail = context.trail := by
  unfold perform
  repeat' split
  any_goals rfl
  simp only [Visit.after, takeReply]
  split <;> rfl

theorem Node.recover_trail (node : Node) (visit : Visit) :
    (node.recover visit).context.trail = visit.context.trail := by
  unfold recover
  split <;> rfl

/-- To visit a node of the definition is to enter this node and no other. -/
theorem Definition.visit_history (valid : d.Valid catalog.knows) {id : String}
    (offered : d.Offers [id]) :
    (d.visit catalog moment context id).context.history = context.history ++ [id] := by
  obtain ⟨node, found⟩ :=
    exists_node_of_mem_ids (valid.offers_mem_ids offered (List.mem_singleton_self id))
  have same := id_of_node? found
  simp only [visit, found, Context.history, Node.recover_trail, Node.perform_trail,
    Context.enter, same, List.reverse_cons]

theorem Definition.visit_fits (valid : d.Valid catalog.knows) (sequential : d.IsSequential)
    (id : String) : Ending.Fits d (d.visit catalog moment context id).ending := by
  unfold visit
  split
  · exact Ending.fits_error _
  · rename_i node found
    have has := has_of_node? found
    exact Node.recover_fits valid has (Node.perform_fits valid sequential has)

end Visits

namespace Standing

variable {d : Definition} {catalog : Catalog} {moment : Moment} {s other : Standing} {n m : Nat}

theorem fits_follow {context : Context} {ending : Ending} (fits : ending.Fits d) :
    Fits d { context, drive := Run.follow ending } := by
  match ending with
  | .ok (.goOn next) => exact fits next rfl
  | .ok (.suspend id pause) => trivial
  | .error failure => trivial

theorem Fits.next (valid : d.Valid catalog.knows) (sequential : d.IsSequential)
    (fits : s.Fits d) : (s.next d catalog moment).Fits d := by
  unfold Standing.next
  split
  · exact fits_follow (Definition.visit_fits valid sequential _)
  · exact fits

theorem Fits.after (valid : d.Valid catalog.knows) (sequential : d.IsSequential)
    (fits : s.Fits d) (n : Nat) : (s.after d catalog moment n).Fits d := by
  induction n with
  | zero => exact fits
  | succ n ih => exact ih.next valid sequential

/-- As long as the run has not ended, each step enters one node more. -/
theorem Fits.history_next (valid : d.Valid catalog.knows) (fits : s.Fits d)
    (goes : s.end? = none) (moment : Moment) :
    ∃ id, (s.next d catalog moment).context.history = s.context.history ++ [id] := by
  obtain ⟨id, located, offered⟩ := fits.exists_id goes
  refine ⟨id, ?_⟩
  simp only [Standing.next, located]
  exact Definition.visit_history valid offered

theorem history_le_next (valid : d.Valid catalog.knows) (fits : s.Fits d) :
    s.context.history <+: (s.next d catalog moment).context.history := by
  cases ended : s.end? with
  | some conclusion => rw [next_of_end? ended]
  | none =>
    obtain ⟨id, longer⟩ := fits.history_next valid ended moment
    exact ⟨[id], longer.symm⟩

/-- The nodes entered so far stay the first ones. -/
theorem Fits.history_grows (valid : d.Valid catalog.knows) (sequential : d.IsSequential)
    (fits : s.Fits d) (moment : Moment) (le : n ≤ m) :
    (s.after d catalog moment n).context.history <+:
      (s.after d catalog moment m).context.history := by
  induction le with
  | refl => exact List.prefix_refl _
  | step _ ih =>
    exact ih.trans (history_le_next valid (fits.after valid sequential _))

/-- A run that has not ended before has entered one node at each step. -/
theorem Fits.history_length (valid : d.Valid catalog.knows) (sequential : d.IsSequential)
    (fits : s.Fits d) (busy : ∀ k < n, (s.after d catalog moment k).end? = none) :
    (s.after d catalog moment n).context.history.length = s.context.history.length + n := by
  induction n with
  | zero => rfl
  | succ n ih =>
    obtain ⟨id, longer⟩ := (fits.after valid sequential n).history_next valid
      (busy n (Nat.lt_succ_self n)) moment
    rw [Standing.after, longer, List.length_append,
      ih fun k less => busy k (Nat.lt_succ_of_lt less)]
    rfl

end Standing

namespace Run

/-- The run has come to its end. -/
def IsConcluded (run : Run) : Prop := ∃ conclusion, run.drive = .concluded conclusion

/-- Between two nodes the run was stopped by somebody's request or by its limit. -/
def IsStopped (run : Run) (conclusion : Conclusion) : Prop :=
  conclusion = .failed .cancelled ∧ run.isCancelled = true ∨
    conclusion = .failed (.stepLimit run.limit) ∧ run.steps = run.limit

/-- The run is at a place between two nodes, or on its way there, or it was stopped there. -/
def IsAt (d : Definition) (catalog : Catalog) (moment : Moment) (run : Run) (s : Standing) :
    Prop :=
  match run.drive with
  | .choosing next => s = { context := run.context, drive := .choosing next }
  | .running phase =>
    phase.IsLone d run.context ∧
      s = { context := (phase.complete d catalog moment run.context).context
            drive := follow (phase.complete d catalog moment run.context).ending }
  | .concluded conclusion =>
    s.context = run.context ∧
      (s.end? = some conclusion ∨ s.end? = none ∧ run.IsStopped conclusion)

/-- The run goes where so many nodes lead as it has taken steps. -/
structure Follows (d : Definition) (catalog : Catalog) (moment : Moment) (origin : Standing)
    (run : Run) : Prop where
  definition : run.definition = d
  branches : run.branches = []
  within : run.steps ≤ run.limit
  busy : ∀ n < run.steps, (origin.after d catalog moment n).end? = none
  isAt : run.IsAt d catalog moment (origin.after d catalog moment run.steps)

section Steps

variable {d : Definition} {catalog : Catalog} {moment : Moment} {origin : Standing} {run : Run}

theorem Follows.start {context : Context} {limit : Nat} {next : List String} :
    (Run.start d context limit next).Follows d catalog moment
      { context, drive := .choosing next } :=
  ⟨rfl, rfl, Nat.zero_le _, fun _ less => absurd less (Nat.not_lt_zero _), rfl⟩

/-- There are no branches that could take a step. -/
theorem Follows.stepBranch (follows : run.Follows d catalog moment origin)
    (around : Surroundings) (id : Nat) :
    run.stepBranch around id = { run, signal := .finished } := by
  simp [Run.stepBranch, branch?, follows.branches]

/-- Between two nodes the driver ends the run, or stops it, or sets out for the next node. -/
theorem Follows.choose (follows : run.Follows d catalog moment origin)
    (fits : (origin.after d catalog moment run.steps).Fits d) {next : List String}
    (located : run.drive = .choosing next) :
    (run.choose next).Follows d catalog moment origin := by
  obtain ⟨definition, branches, within, busy, isAt⟩ := follows
  simp only [IsAt, located] at isAt
  cases goes : (origin.after d catalog moment run.steps).end? with
  | some conclusion =>
    -- Between two nodes the only end is that no node is next.
    obtain rfl : next = [] := by
      cases next with
      | nil => rfl
      | cons id rest => simp [isAt, Standing.end?] at goes
    refine ⟨definition, branches, within, busy, ?_⟩
    simp [IsAt, Run.choose, isAt, Standing.end?]
  | none =>
    obtain ⟨id, alone, -⟩ := fits.exists_id goes
    obtain rfl : next = [id] := by simpa [isAt] using alone
    unfold Run.choose
    split
    · contradiction
    · rename_i same
      cases same
      split
      · rename_i asked
        exact ⟨definition, branches, within, busy, by rw [isAt], .inr ⟨goes, .inl ⟨rfl, asked⟩⟩⟩
      · split
        · rename_i spent
          exact ⟨definition, branches, within, busy, by rw [isAt],
            .inr ⟨goes, .inr ⟨rfl, Nat.le_antisymm within spent⟩⟩⟩
        · rename_i unspent
          refine ⟨definition, branches, Nat.lt_of_not_le unspent, fun n less => ?_,
            trivial, ?_⟩
          · rcases Nat.lt_succ_iff_lt_or_eq.mp less with earlier | rfl
            · exact busy n earlier
            · exact goes
          · simp only [Standing.after, isAt]
            rfl

theorem Follows.follow (follows : run.Follows d catalog moment origin) {ending : Ending}
    (located : run.drive = .running (.ended ending)) :
    ({ run with drive := Run.follow ending } : Run).Follows d catalog moment origin := by
  obtain ⟨definition, branches, within, busy, isAt⟩ := follows
  simp only [IsAt, located, Phase.complete] at isAt
  refine ⟨definition, branches, within, busy, ?_⟩
  obtain ⟨-, stands⟩ := isAt
  simp only [IsAt, stands]
  cases ending with
  | error failure => exact ⟨trivial, .inl rfl⟩
  | ok outcome =>
    cases outcome with
    | goOn next => rfl
    | suspend id pause => exact ⟨trivial, .inl rfl⟩

/-- Every move leaves the run on its way. -/
theorem Follows.move (functional : catalog.IsFunctional) (sequential : d.IsSequential)
    (follows : run.Follows d catalog moment origin)
    (fits : (origin.after d catalog moment run.steps).Fits d) (m : Move) :
    (run.move catalog m).Follows d catalog moment origin := by
  cases m with
  | cancel =>
    obtain ⟨definition, branches, within, busy, isAt⟩ := follows
    refine ⟨definition, branches, within, busy, ?_⟩
    simp only [IsAt, Run.move] at isAt ⊢
    split at isAt
    · exact isAt
    · exact isAt
    · obtain ⟨here, finished | ⟨goes, ⟨cancelled, -⟩ | spent⟩⟩ := isAt
      · exact ⟨here, .inl finished⟩
      · exact ⟨here, .inr ⟨goes, .inl ⟨cancelled, rfl⟩⟩⟩
      · exact ⟨here, .inr ⟨goes, .inr spent⟩⟩
  | step task moment' clock =>
    cases task with
    | branch id =>
      simp only [Run.move, step, follows.stepBranch]
      exact follows
    | driver =>
      cases located : run.drive with
      | concluded conclusion =>
        have still := stepDriver_of_concluded located { catalog, moment := moment', clock }
        simp only [Run.move, step, still]
        exact follows
      | choosing next =>
        simp only [Run.move, step, stepDriver, located]
        exact follows.choose fits located
      | running phase =>
        by_cases finished : ∃ ending, phase = .ended ending
        · obtain ⟨ending, rfl⟩ := finished
          simp only [Run.move, step, stepDriver, located]
          exact follows.follow located
        · have isAt := follows.isAt
          simp only [IsAt, located] at isAt
          obtain ⟨lone, stands⟩ := isAt
          have plain := lone.isPlain fun ending same => finished ⟨ending, same⟩
          let around : Surroundings := { catalog, moment := moment', clock }
          have completes := Phase.step_complete around functional sequential moment lone
          obtain ⟨after, -⟩ := stepDriver_of_isPlain located plain around
          simp only [Run.move, step]
          rw [after, follows.definition]
          refine ⟨rfl, follows.branches, follows.within, follows.busy, ?_, ?_⟩
          · exact Phase.step_isLone around functional sequential lone
          · rw [stands, completes]
            rfl

theorem Follows.play (functional : catalog.IsFunctional) (sequential : d.IsSequential)
    (valid : d.Valid catalog.knows) (fits : origin.Fits d)
    (follows : run.Follows d catalog moment origin) (schedule : List Move) :
    (run.play catalog schedule).Follows d catalog moment origin :=
  play_induction (fun _ m h => h.move functional sequential (fits.after valid sequential _) m)
    follows schedule

end Steps

section Moves

variable {d : Definition} {catalog : Catalog} {moment : Moment} {origin : Standing}
  {run after : Run}

theorem Transition.limit (happens : Transition catalog run after) : after.limit = run.limit := by
  cases happens with
  | choose next =>
    unfold Run.choose
    repeat' split
    all_goals rfl
  | wait task | act task | fork task | join task => cases task <;> rfl
  | _ => rfl

theorem limit_play (catalog : Catalog) (run : Run) (schedule : List Move) :
    (run.play catalog schedule).limit = run.limit :=
  play_induction (P := fun after => after.limit = run.limit)
    (fun after m same => (move_transition catalog after m).limit.trans same) rfl schedule

theorem isCancelled_play {schedule : List Move} (unasked : .cancel ∉ schedule) :
    (run.play catalog schedule).isCancelled = run.isCancelled := by
  induction schedule generalizing run with
  | nil => rfl
  | cons m rest ih =>
    obtain ⟨first, others⟩ := not_or.mp (List.mem_cons.not.mp unasked)
    cases m with
    | cancel => exact absurd rfl first
    | step task moment clock =>
      rw [play_cons, ih others, isCancelled_move_step]

end Moves

/-- Two runs have come to the same end, up to timestamps: with one conclusion and one context.
So their results are the same up to timestamps, and at any moment there is a result of both
or of neither. -/
def EndsLike (run other : Run) : Prop :=
  ∃ conclusion, run.drive = .concluded conclusion ∧ other.drive = .concluded conclusion ∧
    run.context.undated = other.context.undated ∧
    (∀ now, (conclusion.result now run.context).isOk =
      (conclusion.result now other.context).isOk) ∧
    ∀ now later result result' told told',
      conclusion.result now run.context = .ok (result, told) →
      conclusion.result later other.context = .ok (result', told') →
      result.undated = result'.undated

/-- A run was stopped by a failure when it had entered so many nodes, the first ones that
another run enters by a schedule. Its context is the one that the other has, up to when they
started, at a point of that schedule where it stands between two nodes. -/
structure IsCut (catalog : Catalog) (failure : Failure) (n : Nat) (run other : Run)
    (schedule : List Move) : Prop where
  drive : run.drive = .concluded (.failed failure)
  length : run.context.history.length = n
  history : run.context.history = (other.play catalog schedule).context.history.take n
  point : ∃ done rest next, schedule = done ++ rest ∧
    (other.play catalog done).drive = .choosing next ∧
    (other.play catalog done).context.undated = run.context.undated

section Comparing

variable {d : Definition} {catalog : Catalog} {moment : Moment} {origin origin' : Standing}
  {run short long : Run} {n : Nat}

theorem EndsLike.of_standing {s other : Standing} (alike : s.Alike other)
    (here : s.context = short.context) (there : other.context = long.context)
    {conclusion : Conclusion} (ended : short.drive = .concluded conclusion)
    (ended' : long.drive = .concluded conclusion) : short.EndsLike long := by
  have same : short.context.undated = long.context.undated := by
    rw [← here, ← there]
    exact alike.1
  exact ⟨conclusion, ended, ended', same, Conclusion.isOk_result _ _ conclusion,
    fun _ _ _ _ _ _ => Conclusion.undated_of_result same⟩

/-- Where the run has ended without having been stopped, it has come to the end of its way. -/
theorem Follows.concluded (follows : run.Follows d catalog moment origin)
    {conclusion : Conclusion} (ended : run.drive = .concluded conclusion) :
    (origin.after d catalog moment run.steps).context = run.context ∧
      ((origin.after d catalog moment run.steps).end? = some conclusion ∨
        (origin.after d catalog moment run.steps).end? = none ∧ run.IsStopped conclusion) := by
  have isAt := follows.isAt
  simp only [IsAt, ended] at isAt
  exact isAt

/-- Nothing happens to a run that has come to its end. -/
theorem Follows.play_of_concluded (follows : run.Follows d catalog moment origin)
    {conclusion : Conclusion} (ended : run.drive = .concluded conclusion)
    (schedule : List Move) :
    (run.play catalog schedule).drive = .concluded conclusion ∧
      (run.play catalog schedule).context = run.context := by
  refine (play_induction (P := fun after => after.branches = [] ∧
      after.drive = .concluded conclusion ∧ after.context = run.context)
    (fun after m holds => ?_) ⟨follows.branches, ended, rfl⟩ schedule).2
  obtain ⟨alone, ended, kept⟩ := holds
  cases m with
  | cancel => exact ⟨alone, ended, kept⟩
  | step task moment' clock =>
    cases task with
    | branch id =>
      have still : (after.move catalog (.step (.branch id) moment' clock)) = after := by
        simp [Run.move, step, Run.stepBranch, branch?, alone]
      rw [still]
      exact ⟨alone, ended, kept⟩
    | driver =>
      simp only [Run.move, step, stepDriver_of_concluded ended]
      exact ⟨alone, ended, kept⟩

/-- A run whose way goes on has not come to an end that is no stop. -/
theorem Follows.not_concluded (follows : run.Follows d catalog moment origin)
    (unasked : run.isCancelled = false) (goes : (origin.after d catalog moment n).end? = none)
    (within : n ≤ run.limit) (less : run.steps < n) : ¬ run.IsConcluded := by
  rintro ⟨conclusion, ended⟩
  obtain ⟨-, finished | ⟨-, ⟨-, asked⟩ | ⟨-, spent⟩⟩⟩ := follows.concluded ended
  · rw [Standing.after_of_end? finished (Nat.le_of_lt less), finished] at goes
    contradiction
  · rw [unasked] at asked
    contradiction
  · omega

/-- Of two runs that have ended, the one that was let go on: either both came to the same end,
or the other was stopped before that. -/
theorem Follows.endsLike_or (follows : short.Follows d catalog moment origin)
    (follows' : long.Follows d catalog moment origin') (alike : origin.Alike origin')
    (unasked : long.isCancelled = false) (le : short.limit ≤ long.limit)
    {conclusion conclusion' : Conclusion} (ended : short.drive = .concluded conclusion)
    (ended' : long.drive = .concluded conclusion') :
    short.EndsLike long ∨
      (origin.after d catalog moment short.steps).end? = none ∧ short.IsStopped conclusion ∧
        short.steps ≤ long.steps := by
  have within : short.steps ≤ long.limit := Nat.le_trans follows.within le
  have alikeAt : ∀ n, (origin.after d catalog moment n).Alike
      (origin'.after d catalog moment n) := alike.after
  obtain ⟨here, finished | ⟨goes, stopped⟩⟩ := follows.concluded ended
  · left
    have finished' := (alikeAt short.steps).end?.symm.trans finished
    obtain ⟨there, finishes | ⟨goes, ⟨-, asked⟩ | ⟨-, spent⟩⟩⟩ := follows'.concluded ended'
    · have together : origin'.after d catalog moment long.steps =
          origin'.after d catalog moment short.steps := by
        rcases Nat.le_total short.steps long.steps with before | before
        · exact Standing.after_of_end? finished' before
        · exact (Standing.after_of_end? finishes before).symm
      rw [together] at there finishes
      obtain rfl : conclusion = conclusion' := by
        rw [finished'] at finishes
        exact Option.some.inj finishes
      exact .of_standing (alikeAt short.steps) here there ended ended'
    · rw [unasked] at asked
      contradiction
    · rw [Standing.after_of_end? finished' (spent ▸ within), finished'] at goes
      contradiction
  · right
    refine ⟨goes, stopped, Nat.le_of_not_lt fun less => ?_⟩
    exact follows'.not_concluded unasked ((alikeAt short.steps).end? ▸ goes) within less
      ⟨conclusion', ended'⟩

/-- Between two nodes the run comes to its end, or the driver takes one more step. -/
theorem choose_steps (run : Run) (next : List String) :
    (run.choose next).steps = run.steps ∧ (run.choose next).IsConcluded ∨
      (run.choose next).steps = run.steps + 1 ∧ ¬ (run.choose next).IsConcluded := by
  unfold Run.choose
  split
  · exact .inl ⟨rfl, _, rfl⟩
  · split
    · exact .inl ⟨rfl, _, rfl⟩
    · split
      · exact .inl ⟨rfl, _, rfl⟩
      · exact .inr ⟨rfl, by rintro ⟨conclusion, same⟩; cases same⟩

/-- Within a node the driver takes no step that counts, and a run that ends there has come to
the end of its way. -/
theorem Follows.within_node (follows : run.Follows d catalog moment origin) {phase : Phase}
    (located : run.drive = .running phase) (moment' : Moment) (clock : Nat) :
    (run.move catalog (.step .driver moment' clock)).steps = run.steps ∧
      ∀ conclusion, (run.move catalog (.step .driver moment' clock)).drive =
          .concluded conclusion →
        (origin.after d catalog moment run.steps).end? = some conclusion := by
  have isAt := follows.isAt
  simp only [IsAt, located] at isAt
  obtain ⟨lone, stands⟩ := isAt
  by_cases finished : ∃ ending, phase = .ended ending
  · obtain ⟨ending, rfl⟩ := finished
    simp only [Run.move, step, stepDriver, located]
    refine ⟨trivial, fun conclusion same => ?_⟩
    simp only [stands, Phase.complete, Standing.end?, same]
  · have plain := lone.isPlain fun ending same => finished ⟨ending, same⟩
    obtain ⟨after, -⟩ := stepDriver_of_isPlain located plain { catalog, moment := moment', clock }
    simp only [Run.move, step, after]
    refine ⟨trivial, fun conclusion same => ?_⟩
    cases same

/-- A step of a run that has not come to a place between two nodes leaves it on this side of
that place. -/
theorem Follows.nears (follows : run.Follows d catalog moment origin)
    (unasked : run.isCancelled = false) (goes : (origin.after d catalog moment n).end? = none)
    (within : n ≤ run.limit) (near : run.steps < n ∨ run.steps = n ∧ ¬ run.IsConcluded)
    (elsewhere : ∀ next, run.drive = .choosing next → run.steps ≠ n) (task : TaskId)
    (moment' : Moment) (clock : Nat) :
    (run.move catalog (.step task moment' clock)).steps < n ∨
      (run.move catalog (.step task moment' clock)).steps = n ∧
        ¬ (run.move catalog (.step task moment' clock)).IsConcluded := by
  cases task with
  | branch id =>
    simp only [Run.move, step, follows.stepBranch]
    exact near
  | driver =>
    cases located : run.drive with
    | concluded conclusion =>
      have less : run.steps < n := near.resolve_right fun here => here.2 ⟨_, located⟩
      exact absurd ⟨_, located⟩ (follows.not_concluded unasked goes within less)
    | choosing next =>
      have less : run.steps < n :=
        near.resolve_right fun here => elsewhere next located here.1
      simp only [Run.move, step, stepDriver, located]
      rcases run.choose_steps next with ⟨same, -⟩ | ⟨one, unfinished⟩
      · exact .inl (same ▸ less)
      · exact (Nat.lt_or_eq_of_le less).imp (one ▸ ·) fun last => ⟨one.trans last, unfinished⟩
    | running phase =>
      have upTo : run.steps ≤ n :=
        near.elim Nat.le_of_lt fun here => Nat.le_of_eq here.1
      obtain ⟨same, ends⟩ := follows.within_node located moment' clock
      have unfinished : ¬ (run.move catalog (.step .driver moment' clock)).IsConcluded := by
        rintro ⟨conclusion, ended⟩
        have finished := ends conclusion ended
        rw [Standing.end?_of_le goes upTo] at finished
        contradiction
      exact (Nat.lt_or_eq_of_le upTo).imp (same ▸ ·) fun last => ⟨same.trans last, unfinished⟩

/-- A run that nobody cancels comes by every place on its way that is within its limit. -/
theorem Follows.exists_choosing (functional : catalog.IsFunctional)
    (sequential : d.IsSequential) (valid : d.Valid catalog.knows) (fits : origin.Fits d)
    (follows : run.Follows d catalog moment origin) (unasked : run.isCancelled = false)
    (goes : (origin.after d catalog moment n).end? = none) (within : n ≤ run.limit)
    (near : run.steps < n ∨ run.steps = n ∧ ¬ run.IsConcluded) {schedule : List Move}
    (others : .cancel ∉ schedule) (ended : (run.play catalog schedule).IsConcluded) :
    ∃ done rest next, schedule = done ++ rest ∧
      (run.play catalog done).drive = .choosing next ∧ (run.play catalog done).steps = n := by
  by_cases there : ∃ next, run.drive = .choosing next ∧ run.steps = n
  · obtain ⟨next, located, same⟩ := there
    exact ⟨[], schedule, next, rfl, located, same⟩
  · induction schedule generalizing run with
    | nil =>
      have less : run.steps < n := near.resolve_right fun here => here.2 ended
      exact absurd ended (follows.not_concluded unasked goes within less)
    | cons m rest ih =>
      obtain ⟨first, further⟩ := not_or.mp (List.mem_cons.not.mp others)
      cases m with
      | cancel => exact absurd rfl first
      | step task moment' clock =>
        have nearer := follows.nears unasked goes within near
          (fun next located same => there ⟨next, located, same⟩) task moment' clock
        have moved := follows.move functional sequential (fits.after valid sequential _)
          (.step task moment' clock)
        have still := (isCancelled_move_step catalog run task moment' clock).trans unasked
        have bounded := (move_transition catalog run (.step task moment' clock)).limit
        by_cases now : ∃ next, (run.move catalog (.step task moment' clock)).drive =
            .choosing next ∧ (run.move catalog (.step task moment' clock)).steps = n
        · obtain ⟨next, located, same⟩ := now
          exact ⟨[_], rest, next, rfl, located, same⟩
        · obtain ⟨done, left, next, rfl, located, same⟩ :=
            ih moved still (bounded ▸ within) nearer further ended now
          exact ⟨_ :: done, left, next, rfl, located, same⟩

/-- Two runs that stand at one place between two nodes have the same context. -/
theorem Follows.context_eq (follows : run.Follows d catalog moment origin) {next : List String}
    (located : run.drive = .choosing next) :
    (origin.after d catalog moment run.steps).context = run.context := by
  have isAt := follows.isAt
  simp only [IsAt, located] at isAt
  rw [isAt]

/-- Somebody has asked for the run to be cancelled when it had taken so many steps, and it has
not been stopped by its limit. -/
structure IsAsked (d : Definition) (catalog : Catalog) (moment : Moment) (origin : Standing)
    (n : Nat) (run : Run) : Prop where
  follows : run.Follows d catalog moment origin
  asked : run.isCancelled = true
  steps : run.steps = n
  ends : ∀ conclusion, run.drive = .concluded conclusion →
    (origin.after d catalog moment n).end? = some conclusion ∨ conclusion = .failed .cancelled

/-- Between two nodes the driver takes notice of the request before it looks at the limit. -/
theorem IsAsked.choose (asked : run.IsAsked d catalog moment origin n) {next : List String}
    (located : run.drive = .choosing next) :
    (run.choose next).isCancelled = true ∧ (run.choose next).steps = n ∧
      ∀ conclusion, (run.choose next).drive = .concluded conclusion →
        (origin.after d catalog moment n).end? = some conclusion ∨
          conclusion = .failed .cancelled := by
  cases next with
  | nil =>
    have isAt := asked.follows.isAt
    simp only [IsAt, located, asked.steps] at isAt
    refine ⟨asked.asked, asked.steps, fun conclusion ended => .inl ?_⟩
    cases ended
    rw [isAt]
    rfl
  | cons id rest =>
    simp only [Run.choose, asked.asked, if_true]
    refine ⟨trivial, asked.steps, fun conclusion ended => .inr ?_⟩
    cases ended
    rfl

theorem IsAsked.move (functional : catalog.IsFunctional) (sequential : d.IsSequential)
    (asked : run.IsAsked d catalog moment origin n)
    (fits : (origin.after d catalog moment run.steps).Fits d) (m : Move) :
    (run.move catalog m).IsAsked d catalog moment origin n := by
  have moved := asked.follows.move functional sequential fits m
  cases m with
  | cancel => exact ⟨moved, rfl, asked.steps, asked.ends⟩
  | step task moment' clock =>
    cases task with
    | branch id =>
      simp only [Run.move, step, asked.follows.stepBranch]
      exact asked
    | driver =>
      cases located : run.drive with
      | concluded conclusion =>
        have still := stepDriver_of_concluded located { catalog, moment := moment', clock }
        simp only [Run.move, step, still]
        exact asked
      | choosing next =>
        obtain ⟨still, same, ends⟩ := asked.choose located
        simp only [Run.move, step, stepDriver, located] at moved ⊢
        exact ⟨moved, still, same, ends⟩
      | running phase =>
        obtain ⟨same, ends⟩ := asked.follows.within_node located moment' clock
        rw [asked.steps] at same ends
        exact ⟨moved, (isCancelled_move_step ..).trans asked.asked, same,
          fun conclusion ended => .inl (ends conclusion ended)⟩

end Comparing

end Run

/-- A new run of a definition on some input. -/
def Run.fresh (d : Definition) (input : Data) (execution : String) (now : Instant)
    (limit : Nat) : Run :=
  .start d (Context.start d.id execution (Context.bindInput d.vars input) now) limit [d.start]

/-- Where a new run stands. -/
def Standing.fresh (d : Definition) (input : Data) (execution : String) (now : Instant) :
    Standing where
  context := Context.start d.id execution (Context.bindInput d.vars input) now
  drive := .choosing [d.start]

theorem Standing.fits_fresh {d : Definition} {known : String → Bool} (valid : d.Valid known)
    {input : Data} {execution : String} {now : Instant} :
    (Standing.fresh d input execution now).Fits d :=
  ⟨valid.offers_start, Nat.le_refl 1⟩

namespace Run

/-- What a schedule comes to is reached by those of its steps that change something. -/
theorem exists_reaches (catalog : Catalog) (run : Run) (schedule : List Move) :
    ∃ n, run.Reaches catalog n (run.play catalog schedule) := by
  induction schedule using List.reverseRecOn with
  | nil => exact ⟨0, .refl⟩
  | append_singleton earlier m ih =>
    obtain ⟨n, reached⟩ := ih
    rw [play_append, play_cons, play_nil]
    cases m with
    | cancel => exact ⟨n, reached.cancel⟩
    | step task moment clock =>
      by_cases changes : (run.play catalog earlier).move catalog (.step task moment clock) =
          run.play catalog earlier
      · rw [changes]
        exact ⟨n, reached⟩
      · exact ⟨n + 1, reached.step task moment clock changes⟩

/-- Wherever a run stands in which no node comes to set itself off, it can be brought to its
end. -/
theorem exists_finished {d : Definition} {catalog : Catalog} {begun : Run}
    (valid : d.Valid catalog.knows) (acyclic : d.ForksAcyclic) (tended : begun.Tended)
    (grounded : begun.Grounded d) (before : List Move) :
    ∃ rest, .cancel ∉ rest ∧ ((begun.play catalog before).play catalog rest).IsFinished := by
  obtain ⟨weight, weighs⟩ := acyclic.exists_weight
  by_contra endless
  -- As long as it has not ended some step changes the run; but there are only so many.
  have further : ∀ n, ∃ rest m, .cancel ∉ rest ∧ n ≤ m ∧
      begun.Reaches catalog m ((begun.play catalog before).play catalog rest) := by
    intro n
    induction n with
    | zero =>
      obtain ⟨m, reached⟩ := exists_reaches catalog begun before
      exact ⟨[], m, List.not_mem_nil, Nat.zero_le m, reached⟩
    | succ n ih =>
      obtain ⟨rest, m, others, le, reached⟩ := ih
      have goes : ¬ Run.Rests catalog ((begun.play catalog before).play catalog rest) :=
        fun rests => endless ⟨rest, others, (reached.tended tended).isFinished rests⟩
      simp only [Rests, not_forall] at goes
      obtain ⟨task, moment, clock, changes⟩ := goes
      refine ⟨rest ++ [.step task moment clock], m + 1, by simp [others],
        Nat.succ_le_succ le, ?_⟩
      rw [play_append]
      exact reached.step task moment clock changes
  obtain ⟨rest, m, -, le, reached⟩ := further (begun.work d weight + 1)
  have bounded := (reached.bounded valid weighs tended grounded).work_le
  omega

section Fresh

variable {d : Definition} {catalog : Catalog} {moment : Moment} {input : Data}
  {execution : String} {now later : Instant} {limit more n : Nat} {short : Run}
  {schedule : List Move}

theorem follows_fresh (functional : catalog.IsFunctional) (sequential : d.IsSequential)
    (valid : d.Valid catalog.knows) (input : Data) (execution : String) (now : Instant)
    (limit : Nat) (moment : Moment) (schedule : List Move) :
    ((fresh d input execution now limit).play catalog schedule).Follows d catalog moment
      (.fresh d input execution now) :=
  Follows.start.play functional sequential valid (Standing.fits_fresh valid) schedule

/-- A run that was stopped before it came to the end of its way is a prefix of every run on
the same input that was let go on. -/
theorem Follows.isCut (functional : catalog.IsFunctional) (sequential : d.IsSequential)
    (valid : d.Valid catalog.knows)
    (follows : short.Follows d catalog moment (.fresh d input execution now))
    (goes : ((Standing.fresh d input execution now).after d catalog moment
      short.steps).end? = none)
    (here : ((Standing.fresh d input execution now).after d catalog moment
      short.steps).context = short.context)
    {failure : Failure} (stopped : short.drive = .concluded (.failed failure))
    (within : short.steps ≤ more) (others : .cancel ∉ schedule)
    (ended : ((fresh d input execution later more).play catalog schedule).IsConcluded) :
    short.IsCut catalog failure short.steps (fresh d input execution later more) schedule := by
  let origin := Standing.fresh d input execution now
  let origin' := Standing.fresh d input execution later
  have fits : origin.Fits d := Standing.fits_fresh valid
  have fits' : origin'.Fits d := Standing.fits_fresh valid
  have alikeAt : ∀ n, (origin.after d catalog moment n).Alike
      (origin'.after d catalog moment n) := Standing.Alike.after ⟨rfl, rfl⟩
  have goes' : (origin'.after d catalog moment short.steps).end? = none :=
    (alikeAt short.steps).end? ▸ goes
  let long := (fresh d input execution later more).play catalog schedule
  have followed : long.Follows d catalog moment origin' :=
    follows_fresh functional sequential valid input execution later more moment schedule
  have uncut : long.isCancelled = false := isCancelled_play others
  have bounded : long.limit = more := limit_play catalog _ schedule
  have length : short.context.history.length = short.steps := by
    rw [← here, fits.history_length valid sequential follows.busy]
    exact Nat.zero_add _
  have le : short.steps ≤ long.steps := Nat.le_of_not_lt fun less =>
    followed.not_concluded uncut goes' (bounded ▸ within) less ended
  refine ⟨stopped, length, ?_, ?_⟩
  · obtain ⟨conclusion, ended⟩ := ended
    have grows := fits'.history_grows valid sequential moment le
    rw [(followed.concluded ended).1,
      ← Context.history_eq_of_undated (alikeAt short.steps).1, here] at grows
    rw [← length]
    exact List.prefix_iff_eq_take.mp grows
  · have near : 0 < short.steps ∨
        0 = short.steps ∧ ¬ (fresh d input execution later more).IsConcluded :=
      (Nat.eq_zero_or_pos short.steps).symm.imp_right fun none_taken =>
        ⟨none_taken.symm, by rintro ⟨conclusion, same⟩; cases same⟩
    have started : (fresh d input execution later more).Follows d catalog moment origin' := .start
    obtain ⟨done, rest, next, split, located, same⟩ :=
      started.exists_choosing functional sequential valid fits' rfl goes' within near others ended
    refine ⟨done, rest, next, split, located, ?_⟩
    have stands := (follows_fresh functional sequential valid input execution later more moment
      done).context_eq located
    rw [← stands, same, ← here]
    exact (alikeAt short.steps).1.symm

/-- Wherever a run stands, it can be brought to its end. -/
theorem exists_rest (sequential : d.IsSequential) (valid : d.Valid catalog.knows)
    (before : List Move) :
    ∃ rest, .cancel ∉ rest ∧
      (((fresh d input execution now limit).play catalog before).play catalog
        rest).IsConcluded := by
  have acyclic : d.ForksAcyclic := by
    intro id cycle
    obtain ⟨branch, forks, -⟩ := exists_fork_of_cycle cycle
    obtain ⟨node, found, member⟩ := forks.node?
    have alone := (sequential node (Definition.mem_nodes_of_node? found)).1
    cases kind : node.kind <;> simp [Node.branches, NodeKind.isParallel, kind] at alone member
  have tended : (fresh d input execution now limit).Tended := .start ..
  have grounded : (fresh d input execution now limit).Grounded d :=
    .start rfl limit valid.offers_start
  obtain ⟨rest, others, ended, -⟩ := exists_finished valid acyclic tended grounded before
  exact ⟨rest, others, ended⟩

/-- A run that has ended, beside one on the same input that was let go on: both came to the
same end, or the one was cut. -/
theorem Follows.endsLike_or_isCut (functional : catalog.IsFunctional)
    (sequential : d.IsSequential) (valid : d.Valid catalog.knows)
    (follows : short.Follows d catalog moment (.fresh d input execution now))
    (le : short.limit ≤ more) {conclusion : Conclusion}
    (ended : short.drive = .concluded conclusion) (others : .cancel ∉ schedule)
    (endsLong : ((fresh d input execution later more).play catalog schedule).IsConcluded) :
    short.EndsLike ((fresh d input execution later more).play catalog schedule) ∧
        short.context.history.length = short.steps ∨
      ((Standing.fresh d input execution now).after d catalog moment short.steps).end? = none ∧
        short.IsStopped conclusion ∧ ∀ failure, conclusion = .failed failure →
          short.IsCut catalog failure short.steps (fresh d input execution later more)
            schedule := by
  have alike : (Standing.fresh d input execution now).Alike
      (Standing.fresh d input execution later) := ⟨rfl, rfl⟩
  have followed :=
    follows_fresh functional sequential valid input execution later more moment schedule
  have uncut : ((fresh d input execution later more).play catalog schedule).isCancelled = false :=
    isCancelled_play others
  have bounded : ((fresh d input execution later more).play catalog schedule).limit = more :=
    limit_play ..
  obtain ⟨here, -⟩ := follows.concluded ended
  obtain ⟨conclusion', ended'⟩ := id endsLong
  rcases follows.endsLike_or followed alike uncut (le.trans_eq bounded.symm) ended
    ended' with same | ⟨goes, stopped, -⟩
  · left
    refine ⟨same, ?_⟩
    rw [← here, (Standing.fits_fresh valid).history_length valid sequential follows.busy]
    exact Nat.zero_add _
  · right
    refine ⟨goes, stopped, fun failure same => ?_⟩
    subst same
    exact follows.isCut functional sequential valid goes here ended
      (Nat.le_trans follows.within le) others endsLong

/-- A run that is asked to be cancelled when it has taken so many steps is asked for good. -/
theorem isAsked_fresh (functional : catalog.IsFunctional) (sequential : d.IsSequential)
    (valid : d.Valid catalog.knows) (moment : Moment) {before : List Move}
    (goes : ¬ ((fresh d input execution now limit).play catalog before).IsConcluded)
    (after : List Move) :
    (((fresh d input execution now limit).play catalog before).play catalog
      (.cancel :: after)).IsAsked d catalog moment (.fresh d input execution now)
        ((fresh d input execution now limit).play catalog before).steps := by
  have follows :=
    follows_fresh functional sequential valid input execution now limit moment before
  have fits (n : Nat) :
      ((Standing.fresh d input execution now).after d catalog moment n).Fits d :=
    (Standing.fits_fresh valid).after valid sequential n
  exact play_induction (fun _ m asked => asked.move functional sequential (fits _) m)
    ⟨follows.move functional sequential (fits _) .cancel, rfl, rfl,
      fun conclusion ended => absurd ⟨conclusion, ended⟩ goes⟩ after

/-- Cutting a run short yields a prefix of it. Any run over a sequential definition comes to
its end, and it is compared with one on the same input that nobody cancels and that may take at
least as many steps. If nobody cancels it either, it ends like the other, or its limit stops it
when it has entered just as many nodes. If somebody asks for it to be cancelled, it has ended
before, or it ends like the other with the node that it is at, or it is cancelled when it has
entered just as many nodes as it had taken steps. What was stopped is a prefix of the other. -/
theorem cut_short_to_prefix (functional : catalog.IsFunctional) (sequential : d.IsSequential)
    (valid : d.Valid catalog.knows) (input : Data) (execution : String) (now later : Instant)
    {limit more : Nat} (le : limit ≤ more) :
    (∀ before, ∃ rest, .cancel ∉ rest ∧
      (((fresh d input execution now limit).play catalog before).play catalog
        rest).IsConcluded) ∧
    ∀ schedule, .cancel ∉ schedule →
      ((fresh d input execution later more).play catalog schedule).IsConcluded →
      (∀ other, .cancel ∉ other →
        ((fresh d input execution now limit).play catalog other).IsConcluded →
        ((fresh d input execution now limit).play catalog other).EndsLike
            ((fresh d input execution later more).play catalog schedule) ∨
          ((fresh d input execution now limit).play catalog other).IsCut catalog
            (.stepLimit limit) limit (fresh d input execution later more) schedule) ∧
      ∀ before after reached cut, .cancel ∉ before →
        reached = (fresh d input execution now limit).play catalog before →
        cut = reached.play catalog (.cancel :: after) → cut.IsConcluded →
        (reached.IsConcluded → cut.drive = reached.drive ∧ cut.context = reached.context) ∧
        (¬ reached.IsConcluded →
          cut.EndsLike ((fresh d input execution later more).play catalog schedule) ∧
              cut.context.history.length = reached.steps ∨
            cut.IsCut catalog .cancelled reached.steps (fresh d input execution later more)
              schedule) := by
  let moment : Moment := ⟨⟨0, 0⟩, 0⟩
  refine ⟨exists_rest sequential valid, fun schedule others endsLong => ⟨?_, ?_⟩⟩
  · rintro other calm ⟨conclusion, ended⟩
    have follows :=
      follows_fresh functional sequential valid input execution now limit moment other
    have bounded := limit_play catalog (fresh d input execution now limit) other
    rcases follows.endsLike_or_isCut functional sequential valid (bounded ▸ le) ended others
      endsLong with ⟨same, -⟩ | ⟨-, stopped, cut⟩
    · exact .inl same
    · right
      rcases stopped with ⟨-, asked⟩ | ⟨reason, spent⟩
      · rw [isCancelled_play calm] at asked
        contradiction
      · have result := cut _ reason
        rw [spent, bounded] at result
        exact result
  · rintro before after reached cut - rfl rfl ⟨conclusion, ended⟩
    refine ⟨fun earlier => ?_, fun goes => ?_⟩
    · obtain ⟨conclusion', ended'⟩ := earlier
      have follows :=
        follows_fresh functional sequential valid input execution now limit moment before
      obtain ⟨same, kept⟩ := follows.play_of_concluded ended' (.cancel :: after)
      exact ⟨same.trans ended'.symm, kept⟩
    · have asked := isAsked_fresh functional sequential valid moment goes after
      have bounded := (limit_play catalog
        ((fresh d input execution now limit).play catalog before) (.cancel :: after)).trans
        (limit_play ..)
      rcases asked.follows.endsLike_or_isCut functional sequential valid
        (bounded.trans_le le) ended others endsLong with ⟨same, length⟩ | ⟨unfinished, -, cut⟩
      · exact .inl ⟨same, length.trans asked.steps⟩
      · right
        rw [asked.steps] at unfinished cut
        rcases asked.ends conclusion ended with finished | cancelled
        · rw [unfinished] at finished
          contradiction
        · exact cut _ cancelled

/-- A workflow that greets again and again. -/
def circling : Definition where
  id := "circling"
  name := "circling"
  start := "greet"
  nodes := [
    { id := "greet", kind := .procedure (some "greet") [], next := some (.one "turn") },
    { id := "turn", kind := .sequential, next := some (.one "greet") }]

/-- The driver takes so many steps, all of them at once. -/
def steadily (n : Nat) : List Move := List.replicate n (.step .driver ⟨⟨0, 0⟩, 0⟩ 0)

theorem greeting_isFunctional : greeting.IsFunctional := by
  intro name procedure found moment other invocation input
  simp only [greeting, Fields.get?_cons, Fields.get?_nil] at found
  split at found
  · cases found
    exact ⟨rfl, by simp⟩
  · contradiction

/-- With two steps it greets once, with five steps three times. Somebody who asks for it to be
cancelled while it greets for the second time stops it before the fourth step. -/
theorem cut_short_to_prefix_circling :
    ((Run.fresh circling .null "run" ⟨0, 0⟩ 2).play greeting (steadily 15)).IsCut greeting
        (.stepLimit 2) 2 (Run.fresh circling .null "run" ⟨1, 0⟩ 5) (steadily 37) ∧
      (((Run.fresh circling .null "run" ⟨0, 0⟩ 4).play greeting (steadily 15)).play greeting
        (.cancel :: steadily 8)).IsCut greeting .cancelled 3
          (Run.fresh circling .null "run" ⟨1, 0⟩ 5) (steadily 37) := by
  have sequential : circling.IsSequential := by
    rw [Definition.IsSequential]
    decide
  have valid : circling.Valid greeting.knows := by decide
  have unasked (n : Nat) : Move.cancel ∉ steadily n := by
    intro asked
    cases List.eq_of_mem_replicate asked
  have long : ((Run.fresh circling .null "run" ⟨1, 0⟩ 5).play greeting (steadily 37)).drive =
      .concluded (.failed (.stepLimit 5)) := rfl
  have short : ((Run.fresh circling .null "run" ⟨0, 0⟩ 2).play greeting (steadily 15)).drive =
      .concluded (.failed (.stepLimit 2)) := rfl
  have goes : ((Run.fresh circling .null "run" ⟨0, 0⟩ 4).play greeting (steadily 15)).drive =
      .running (.entering "greet") := rfl
  have asked : (((Run.fresh circling .null "run" ⟨0, 0⟩ 4).play greeting (steadily 15)).play
      greeting (.cancel :: steadily 8)).drive = .concluded (.failed .cancelled) := rfl
  constructor
  · obtain ⟨-, compared⟩ := cut_short_to_prefix greeting_isFunctional sequential valid .null
      "run" ⟨0, 0⟩ ⟨1, 0⟩ (show 2 ≤ 5 by decide)
    rcases (compared (steadily 37) (unasked 37) ⟨_, long⟩).1 (steadily 15) (unasked 15)
      ⟨_, short⟩ with ⟨conclusion, same, same', -⟩ | cut
    · rw [short] at same
      rw [long, ← same] at same'
      cases same'
    · exact cut
  · obtain ⟨-, compared⟩ := cut_short_to_prefix greeting_isFunctional sequential valid .null
      "run" ⟨0, 0⟩ ⟨1, 0⟩ (show 4 ≤ 5 by decide)
    have stopped := (compared (steadily 37) (unasked 37) ⟨_, long⟩).2 (steadily 15) (steadily 8)
      _ _ (unasked 15) rfl rfl ⟨_, asked⟩
    have unfinished : ¬ ((Run.fresh circling .null "run" ⟨0, 0⟩ 4).play greeting
        (steadily 15)).IsConcluded := by
      rintro ⟨conclusion, ended⟩
      rw [goes] at ended
      cases ended
    rcases stopped.2 unfinished with ⟨⟨conclusion, same, same', -⟩, -⟩ | cut
    · rw [asked] at same
      rw [long, ← same] at same'
      cases same'
    · exact cut

end Fresh

end Run

end DurableFlow
