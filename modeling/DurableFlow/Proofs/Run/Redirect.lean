import DurableFlow.Proofs.Run.Failing
import DurableFlow.Proofs.Run.History

/-!
# Where control goes after a failure

A node that fails and names another node for that case ends as if this node came next. What
becomes of it is up to whoever ran the node. The driver goes there at once, or not at all when
the run is cancelled or has used up its steps. A fan-out goes there if all its branches agree
on it, a parallel node does not ask.
-/

namespace DurableFlow

namespace Join

/-- Endings without an error are steps. -/
theorem endings_of_collect {endings : List Ending} {steps : List Step}
    (h : collect endings = .ok steps) : endings = steps.map .ok := by
  induction endings generalizing steps with
  | nil =>
    cases h
    rfl
  | cons ending rest ih =>
    cases ending with
    | error failure => cases h
    | ok step =>
      rw [collect] at h
      cases collected : collect rest with
      | error failure => simp [collected] at h
      | ok others =>
        simp only [collected] at h
        cases h
        rw [ih collected, List.map_cons]

/-- An outcome without an error is what the steps of all that count resolve to. -/
theorem resolve_of_outcome? {join : Join} {count : Nat} {endings : List Ending} {step : Step}
    (outcome : join.outcome? count endings = some (.ok step)) :
    ∃ steps, join.awaited endings = steps.map .ok ∧ step = join.resolve steps ∧
      (steps.length = count ∨ join.waitForAll = false) := by
  unfold outcome? at outcome
  dsimp only at outcome
  split at outcome
  · cases outcome
  · rename_i steps collected
    split at outcome
    · rename_i enough
      cases outcome
      refine ⟨steps, endings_of_collect collected, rfl, ?_⟩
      exact enough.imp_right fun first => by simpa using first.1
    · contradiction

theorem length_of_outcome? {count : Nat} {endings : List Ending} {join : Join} {step : Step}
    (all : join.waitForAll = true) (outcome : join.outcome? count endings = some (.ok step)) :
    endings.length = count := by
  obtain ⟨steps, counted, _, enough⟩ := resolve_of_outcome? outcome
  rw [awaited_of_waitForAll all] at counted
  rw [counted, List.length_map]
  exact enough.resolve_right (by simp [all])

/-- Branches agree on a node that one of them names, unless another names something else. -/
theorem agreed_of_mem {nexts : List (List String)} {target : String} (named : [target] ∈ nexts) :
    agreed nexts = [target] ∨ ∃ other ∈ nexts, other ≠ [target] := by
  by_cases differ : ∃ other ∈ nexts, other ≠ [target]
  · exact .inr differ
  · left
    push Not at differ
    cases nexts with
    | nil => contradiction
    | cons next rest =>
      have agree : rest.all (· == [target]) = true := by
        rw [List.all_eq_true]
        intro other member
        rw [differ other (List.mem_cons_of_mem _ member)]
        exact beq_self_eq_true _
      rw [differ next List.mem_cons_self, agreed, if_pos agree]

theorem mem_successors {steps : List Step} {next : List String} :
    next ∈ successors steps ↔ .goOn next ∈ steps := by
  constructor
  · intro named
    obtain ⟨step, member, names⟩ := List.mem_filterMap.mp named
    cases step with
    | goOn other =>
      cases names
      exact member
    | suspend id pause => contradiction
  · intro member
    exact List.mem_filterMap.mpr ⟨_, member, rfl⟩

/-- A fan-out to which one branch names a node goes on to the node, unless some other branch
names something else. -/
theorem agrees_of_outcome? {count : Nat} {endings : List Ending} {target : String}
    {next : List String} (outcome : fanOut.outcome? count endings = some (.ok (.goOn next)))
    (named : .ok (.goOn [target]) ∈ endings) :
    next = [target] ∨ ∃ other ≠ [target], .ok (.goOn other) ∈ endings := by
  obtain ⟨steps, counted, resolved, _⟩ := resolve_of_outcome? outcome
  rw [awaited_of_waitForAll rfl] at counted
  subst counted
  have member : .goOn [target] ∈ steps := by simpa using named
  unfold resolve at resolved
  split at resolved
  · rename_i suspend found
    have suspends := List.find?_some found
    rw [← resolved] at suspends
    contradiction
  · cases resolved
    rcases agreed_of_mem (mem_successors.mpr member) with agree | ⟨other, named, different⟩
    · exact .inl agree
    · exact .inr ⟨other, different, List.mem_map_of_mem (mem_successors.mp named)⟩

end Join

namespace Run

variable {d : Definition} {catalog : Catalog} {run after : Run} {target : String}

theorem Transition.definition (happens : Transition catalog run after) :
    after.definition = run.definition ∧ after.limit = run.limit := by
  have put : ∀ (run : Run) task phase, (run.put task phase).definition = run.definition ∧
      (run.put task phase).limit = run.limit := by
    intro run task phase
    cases task <;> exact ⟨rfl, rfl⟩
  cases happens with
  | wait task phase located => exact put ..
  | act task phase around known located plain => exact put ..
  | fork task join ids located => exact put ..
  | join task join group count ending located outcome => exact put ..
  | choose next located =>
    unfold Run.choose
    repeat' split
    all_goals exact ⟨rfl, rfl⟩
  | _ => exact ⟨rfl, rfl⟩

/-- Nothing is ever taken out of the history. -/
theorem Transition.trail (happens : Transition catalog run after) :
    run.context.trail <:+ after.context.trail := by
  have put : ∀ (run : Run) task phase,
      run.context.trail <:+ (run.put task phase).context.trail := by
    intro run task phase
    cases task <;> exact List.suffix_rfl
  cases happens with
  | act task phase around known located plain =>
    rw [put_context, Phase.step_trail]
    exact List.suffix_append ..
  | wait task phase located => exact put ..
  | fork task join ids located => exact put (run.fork _) ..
  | join task join group count ending located outcome => exact put (run.dismiss group) ..
  | choose next located =>
    unfold Run.choose
    repeat' split
    all_goals exact List.suffix_rfl
  | _ => exact List.suffix_rfl

theorem trail_play (catalog : Catalog) (run : Run) (schedule : List Move) :
    run.context.trail <:+ (run.play catalog schedule).context.trail := by
  induction schedule generalizing run with
  | nil => exact List.suffix_rfl
  | cons m rest ih => exact (move_transition catalog run m).trail.trans (ih _)

/-- The node has been entered since. -/
def Enters (target : String) (run after : Run) : Prop :=
  ∃ added, after.context.trail = added ++ run.context.trail ∧ target ∈ added

theorem Enters.before {middle : Run} (later : Enters target middle after)
    (grows : run.context.trail <:+ middle.context.trail) : Enters target run after := by
  obtain ⟨added, entered, member⟩ := later
  obtain ⟨earlier, grown⟩ := grows
  exact ⟨added ++ earlier, by rw [entered, ← grown, List.append_assoc],
    List.mem_append_left _ member⟩

theorem Enters.later (before : Enters target run after) (schedule : List Move) :
    Enters target run (after.play catalog schedule) := by
  obtain ⟨added, entered, member⟩ := before
  obtain ⟨later, grown⟩ := trail_play catalog after schedule
  exact ⟨later ++ added, by rw [← grown, entered, List.append_assoc],
    List.mem_append_right _ member⟩

/-- Nothing but this node comes next. -/
inductive HeadsFor (target : String) : Drive → Prop where
  | redirecting (node : Node) (failure : Failure) :
      HeadsFor target (.running (.redirecting node target failure))
  | ended : HeadsFor target (.running (.ended (.ok (.goOn [target]))))
  | choosing : HeadsFor target (.choosing [target])
  | entering : HeadsFor target (.running (.entering target))

/-- How it goes on with a driver that heads for a node. -/
inductive HeadsFor.Goes (target : String) (run after : Run) : Prop where
  | heads (still : HeadsFor target after.drive)
  | enters (entered : Enters target run after)
  | cancelled (drive : after.drive = .concluded (.failed .cancelled))
  | spent (drive : after.drive = .concluded (.failed (.stepLimit run.limit)))

/-- A driver that heads for a node gets there, or the run is cut short. -/
theorem HeadsFor.transition (heads : HeadsFor target run.drive) {node : Node}
    (known : run.definition.node? target = some node) (tended : run.Tended)
    (happens : Transition catalog run after) : Goes target run after := by
  have keeps : ∀ {phase}, HeadsFor target (.running phase) →
      after.phase? .driver = some phase → Goes target run after := by
    intro phase heads still
    rw [← drive_of_phase? still] at heads
    exact .heads heads
  generalize drive : run.drive = stands at heads
  cases heads with
  | redirecting node failure =>
    have located : run.phase? .driver = some (.redirecting node target failure) := by
      simp [phase?, drive]
    cases tended.fate happens located with
    | stays still => exact keeps (.redirecting node failure) still
    | acts around known plain context still => exact keeps .ended still
  | ended =>
    have located : run.phase? .driver = some (.ended (.ok (.goOn [target]))) := by
      simp [phase?, drive]
    cases tended.fate happens located with
    | stays still => exact keeps .ended still
    | acts around known plain context still => exact plain.elim
    | follows drive =>
      apply Goes.heads
      rw [drive]
      exact .choosing
  | choosing =>
    rcases happens.outside (by simp [phase?, drive]) with still | ⟨next, choosing, left⟩
    · apply Goes.heads
      rw [still, drive]
      exact .choosing
    · rw [drive] at choosing
      cases choosing
      rw [left]
      by_cases asked : run.isCancelled = true
      · exact .cancelled (by simp [choose, asked])
      · by_cases spent : run.limit ≤ run.steps
        · exact .spent (by simp [choose, asked, spent])
        · apply Goes.heads
          simp only [choose, asked, spent, if_false, List.isEmpty_nil, if_true, Bool.false_eq_true]
          exact .entering
  | entering =>
    have located : run.phase? .driver = some (.entering target) := by
      simp [phase?, drive]
    cases tended.fate happens located with
    | stays still => exact keeps .entering still
    | acts around _ plain context still =>
      apply Goes.enters
      refine ⟨[target], ?_, List.mem_singleton_self _⟩
      rw [context, Phase.step_trail, Phase.enters, known]
      simp [Definition.id_of_node? known]

/-- Unless the pass is cut short, the node that the driver heads for is entered. -/
theorem HeadsFor.play (heads : HeadsFor target run.drive) {node : Node}
    (known : run.definition.node? target = some node) (tended : run.Tended)
    {schedule : List Move} {conclusion : Conclusion}
    (ended : (run.play catalog schedule).drive = .concluded conclusion) :
    conclusion = .failed .cancelled ∨ conclusion = .failed (.stepLimit run.limit) ∨
      Enters target run (run.play catalog schedule) := by
  induction schedule generalizing run with
  | nil =>
    have drive : run.drive = .concluded conclusion := ended
    rw [drive] at heads
    cases heads
  | cons m rest ih =>
    have happens := move_transition catalog run m
    obtain ⟨sameDefinition, sameLimit⟩ := happens.definition
    cases heads.transition known tended happens with
    | heads still =>
      rw [← sameDefinition] at known
      rw [← sameLimit]
      rcases ih still known (tended.transition happens) ended with cut | cut | entered
      · exact .inl cut
      · exact .inr (.inl cut)
      · exact .inr (.inr (entered.before happens.trail))
    | enters entered => exact .inr (.inr (entered.later rest))
    | cancelled drive =>
      rw [play_cons, play_concluded drive] at ended
      cases ended
      exact .inl rfl
    | spent drive =>
      rw [play_cons, play_concluded drive] at ended
      cases ended
      exact .inr (.inl rfl)

/-- The ending of the node that the driver is within may be the end of the pass. -/
theorem conclusion_of_ended {ending : Ending} (located : run.drive = .running (.ended ending))
    {last conclusion : Conclusion} (follows : follow ending = .concluded last)
    (tended : run.Tended) {schedule : List Move}
    (ended : (run.play catalog schedule).drive = .concluded conclusion) : conclusion = last := by
  induction schedule generalizing run with
  | nil =>
    have drive : run.drive = .concluded conclusion := ended
    rw [drive] at located
    contradiction
  | cons m rest ih =>
    have happens := move_transition catalog run m
    have stands : run.phase? .driver = some (.ended ending) := by simp [phase?, located]
    cases tended.fate happens stands with
    | stays still => exact ih (drive_of_phase? still) (tended.transition happens) ended
    | acts around known plain context still => exact plain.elim
    | follows drive =>
      rw [play_cons, play_concluded (drive.trans follows)] at ended
      cases ended
      rfl

section FanOut

/-- The driver waits for a fan-out, one branch of which has named the node or is about to. -/
structure Promised (target : String) (group count : Nat) (run : Run) : Prop where
  drive : run.drive = .running (.joining .fanOut group count)
  promise : .ok (.goOn [target]) ∈ run.endingsOf group ∨
    ∃ id branch, run.branch? id = some branch ∧ branch.group = group ∧
      ((∃ node failure, branch.phase = .redirecting node target failure) ∨
        branch.phase = .ended (.ok (.goOn [target])))

/-- The driver stands at the end of a fan-out whose branches do not agree on the node. -/
def Disagrees (target : String) (run : Run) : Prop :=
  ∃ group count, run.drive = .running (.joining .fanOut group count) ∧
    (run.endingsOf group).length = count ∧ .ok (.goOn [target]) ∈ run.endingsOf group ∧
      ∃ other ≠ [target], .ok (.goOn other) ∈ run.endingsOf group

variable {group count : Nat}

/-- A branch that names a node goes on to do so. -/
theorem named_of_fate {id : Nat} {phase next : Phase}
    (named : (∃ node failure, phase = .redirecting node target failure) ∨
      phase = .ended (.ok (.goOn [target])))
    (stands : after.phase? (.branch id) = some next)
    (fate : Fate catalog run after (.branch id) phase) :
    (∃ node failure, next = .redirecting node target failure) ∨
      next = .ended (.ok (.goOn [target])) := by
  rcases named with ⟨node, failure, rfl⟩ | rfl
  · cases fate with
    | stays still =>
      rw [stands] at still
      exact .inl ⟨node, failure, Option.some.inj still⟩
    | acts around known plain context still =>
      rw [stands] at still
      exact .inr (Option.some.inj still)
  · cases fate with
    | stays still =>
      rw [stands] at still
      exact .inr (Option.some.inj still)
    | acts around known plain context still => exact plain.elim
    | arrives located left =>
      rw [left, phase?, branch?_arrive, if_pos rfl] at stands
      contradiction

/-- When all endings are there, the promise is among them. -/
theorem Promised.left (promised : run.Promised target group count) (tended : run.Tended)
    (all : (run.endingsOf group).length = count) :
    .ok (.goOn [target]) ∈ run.endingsOf group := by
  rcases promised.promise with left | ⟨id, branch, there, rfl, _⟩
  · exact left
  · have waits : run.Awaits .driver branch.group count :=
      ⟨.fanOut, by simp [phase?, promised.drive]⟩
    have counted := (tended.complete _ _ _ waits).2
    have missing := tended.members_pos there
    omega

/-- What has been promised stays so until the driver has all endings. -/
theorem Promised.transition (promised : run.Promised target group count) (tended : run.Tended)
    (happens : Transition catalog run after) :
    after.Promised target group count ∨
      ∃ ending, Join.fanOut.outcome? count (run.endingsOf group) = some ending ∧
        after.drive = .running (.ended ending) := by
  have located : run.phase? .driver = some (.joining .fanOut group count) := by
    simp [phase?, promised.drive]
  cases tended.fate happens located with
  | acts around known plain context still => exact plain.elim
  | joins outcome still => exact .inr ⟨_, outcome, drive_of_phase? still⟩
  | stays still =>
    refine .inl ⟨drive_of_phase? still, ?_⟩
    obtain ⟨more, grown⟩ := tended.endingsOf happens located still
    rcases promised.promise with left | ⟨id, branch, there, member, named⟩
    · rw [grown]
      exact .inl (List.mem_append_left _ left)
    · rcases happens.group there with ⟨branch', found, same⟩ | ⟨ending, ended, left⟩
      · refine .inr ⟨id, branch', found, same.trans member, ?_⟩
        have stood : run.phase? (.branch id) = some branch.phase := by simp [phase?, there]
        have stands : after.phase? (.branch id) = some branch'.phase := by simp [phase?, found]
        exact named_of_fate named stands (tended.fate happens stood)
      · rcases named with ⟨node, failure, redirecting⟩ | settled
        · rw [ended] at redirecting
          contradiction
        · rw [ended] at settled
          cases settled
          left
          rw [left, endings_arrive, if_pos member]
          exact List.mem_append_right _ (List.mem_singleton_self _)

/-- A fan-out whose branch names a node leads there in a run that is completed, unless its
branches do not agree. -/
theorem Promised.play (promised : run.Promised target group count) {node : Node}
    (known : run.definition.node? target = some node) (tended : run.Tended)
    {schedule : List Move} (ended : (run.play catalog schedule).drive = .concluded .completed) :
    Enters target run (run.play catalog schedule) ∨
      ∃ first rest, schedule = first ++ rest ∧ (run.play catalog first).Disagrees target := by
  induction schedule generalizing run with
  | nil =>
    have drive : run.drive = .concluded .completed := ended
    rw [promised.drive] at drive
    contradiction
  | cons m rest ih =>
    have happens := move_transition catalog run m
    have tended' := tended.transition happens
    have known' : (run.move catalog m).definition.node? target = some node := by
      rw [happens.definition.1, known]
    rcases promised.transition tended happens with still | ⟨ending, outcome, drive⟩
    · rcases ih still known' tended' ended with entered | ⟨first, last, parts, disagrees⟩
      · exact .inl (entered.before happens.trail)
      · exact .inr ⟨m :: first, last, congrArg (m :: ·) parts, disagrees⟩
    · match ending with
      | .error failure => cases conclusion_of_ended drive rfl tended' ended
      | .ok (.suspend id pause) => cases conclusion_of_ended drive rfl tended' ended
      | .ok (.goOn next) =>
        have all := Join.length_of_outcome? rfl outcome
        have left := promised.left tended all
        rcases Join.agrees_of_outcome? outcome left with rfl | ⟨other, different, named⟩
        · have heads : HeadsFor target (run.move catalog m).drive := drive ▸ .ended
          rcases heads.play known' tended' ended with cut | cut | entered
          · contradiction
          · contradiction
          · exact .inl (entered.before happens.trail)
        · exact .inr ⟨[], m :: rest, rfl, group, count, promised.drive, all, left, other, different,
            named⟩

end FanOut

end Run

end DurableFlow
