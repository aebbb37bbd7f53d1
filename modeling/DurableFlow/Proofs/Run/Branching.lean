import DurableFlow.Proofs.Run.Careers
import DurableFlow.Proofs.Run.Confluence
import DurableFlow.Proofs.Run.Handling

/-!
# Branches in any order

What a task takes up that waits for all its branches depends on how the branches end, not on the
order in which they do. What they have written depends on the order unless they are independent:
they bind different variables, none reads what another writes, and below them nothing races and
nothing fails.
-/

namespace DurableFlow

namespace Run

variable {catalog : Catalog} {run : Run} {task : TaskId} {join : Join} {ids : List String}

/-- A task that sets off branches and waits for all of them has an outcome once they are gone,
whatever other tasks do in between. The outcome is an error if some branch has ended with one,
and only then. Otherwise all branches have ended and each has entered its node once, what their
procedures have put out is kept, the outcome is a suspension if some branch has suspended the
run, and a fan-out goes on to the node that all branches name. The history and the outputs have
grown by what the tasks have entered and kept, of which the last counts for each node. If the
branches at all depths are independent, each order of their steps in which none fails comes to the
same variables and outputs. -/
theorem branches_join_in_any_order (catalog : Catalog) (tended : run.Tended)
    (located : run.phase? task = some (.forking join ids)) (waits : join.waitForAll = true)
    (moment : Moment) (clock : Nat) :
    let begun := run.move catalog (.step task moment clock)
    (∀ schedule,
      ((begun.play catalog schedule).phase? task =
          some (.joining join run.nextGroup ids.length) →
        (∀ i < ids.length,
          (begun.play catalog schedule).branch? (run.nextBranch + i) = none) →
        ∃ ending, Resolves catalog (begun.play catalog schedule) task join run.nextGroup
          ids.length ending) ∧
      (∀ ending, Resolves catalog (begun.play catalog schedule) task join run.nextGroup
          ids.length ending →
        Reports catalog begun run.nextBranch join ids schedule ending) ∧
      (begun.play catalog schedule).context.history =
        begun.context.history ++ (begun.log catalog entered schedule).map (·.2) ∧
      ∀ id, Fields.get? (begun.play catalog schedule).context.outputs id =
        (Fields.get? (begun.log catalog kept schedule).reverse id).or
          (Fields.get? begun.context.outputs id)) ∧
    ∀ all writes, run.definition.Spreads ids all →
      Independent catalog run.definition run.context all writes →
      ∀ schedule schedule' step step',
        Smooth catalog begun run.nextBranch (run.nextBranch + ids.length) schedule →
        Smooth catalog begun run.nextBranch (run.nextBranch + ids.length) schedule' →
        Resolves catalog (begun.play catalog schedule) task join run.nextGroup ids.length
          (.ok step) →
        Resolves catalog (begun.play catalog schedule') task join run.nextGroup ids.length
          (.ok step') →
        ∀ name,
          Fields.get? (begun.play catalog schedule).context.vars name =
              Fields.get? (begun.play catalog schedule').context.vars name ∧
            Fields.get? (begun.play catalog schedule).context.outputs name =
              Fields.get? (begun.play catalog schedule').context.outputs name := by
  intro begun
  have set_off : begun =
      (run.fork (ids.map .entering)).put task (.joining join run.nextGroup ids.length) :=
    move_step located (fun _ => Phase.noConfusion) catalog moment clock
  have happens : Transition catalog run begun := set_off ▸ .fork task join ids located
  have tended' := tended.transition happens
  have known : run.nextGroup < begun.nextGroup := by
    rw [set_off, (put_numbers ..).2]
    exact Nat.lt_succ_self _
  obtain ⟨gathers, begins⟩ := Gathers.start catalog tended located
  rw [← set_off] at gathers begins
  have reports : ∀ schedule ending, Resolves catalog (begun.play catalog schedule) task join
      run.nextGroup ids.length ending →
        Reports catalog begun run.nextBranch join ids schedule ending := by
    intro schedule ending resolves
    obtain ⟨arrived, gathers⟩ := gathers.play tended' known schedule resolves.waits
    exact gathers.reports tended' begins resolves.waits waits resolves.outcome?
  refine ⟨fun schedule => ⟨fun stands gone => ?_, reports schedule, ?_, fun id => ?_⟩, ?_⟩
  · obtain ⟨arrived, gathers⟩ := gathers.play tended' known schedule stands
    have some_outcome := gathers.outcome?_ne_none (tended'.play catalog schedule) stands gone
    obtain ⟨ending, outcome⟩ := Option.ne_none_iff_exists'.mp some_outcome
    exact ⟨ending, resolves_of_outcome? stands outcome⟩
  · exact history_log catalog begun schedule
  · rw [outputs_log, Fields.get?_merge_reverse]
  · intro all writes spreads independent schedule schedule' step step' smooth smooth' resolves
      resolves' name
    -- None of the branches themselves has failed, since the outcome is no error.
    obtain ⟨done, once, _, _, written⟩ := confluent tended located waits spreads independent set_off
      (smooth.whole (reports _ _ resolves).unfailed) resolves
    obtain ⟨done', once', _, _, written'⟩ :=
      confluent tended located waits spreads independent set_off
      (smooth'.whole (reports _ _ resolves').unfailed) resolves'
    rw [written, written']
    exact independent.in_any_order once once' _ _ name

/-- A schedule in which nothing fails is smooth, if it is one of branches. -/
theorem smooth_of_flawless {begun : Run} {first below : Nat} {schedule : List Move}
    (own : ∀ m ∈ schedule, ∃ id moment clock, first ≤ id ∧ m = .step (.branch id) moment clock)
    (flawless : begun.flawless catalog schedule = true) :
    Smooth catalog begun first below schedule := by
  refine ⟨own, fun id failure _ ⟨before, begins, stands⟩ => ?_⟩
  have fine : ∀ (before schedule : List Move) (begun : Run), before <+: schedule →
      begun.flawless catalog schedule = true → (begun.play catalog before).isFine = true := by
    intro before
    induction before with
    | nil => exact fun schedule begun _ flawless => isFine_of_flawless flawless
    | cons m rest ih =>
      rintro _ begun ⟨later, rfl⟩ flawless
      rw [List.cons_append, Run.flawless, Bool.and_eq_true] at flawless
      exact ih _ _ ⟨later, rfl⟩ flawless.2
  have failed := isFailure_of_isFine (fine before schedule begun begins flawless) stands
  cases failed

/-- A parallel node that waits for its branches, with another parallel node that may be among
them. -/
def nesting (outer inner : List String) (waitForAll : Bool) (onError : Option String) :
    Definition where
  id := "nesting"
  name := "nesting"
  start := "outer"
  nodes := [
    { id := "outer", kind := .parallel outer true },
    { id := "inner", kind := .parallel inner waitForAll, onError },
    { id := "a", kind := .procedure (some "a") [] },
    { id := "b", kind := .procedure (some "b") [] }]

/-- Two procedures that reply by the serial number of the moment at which they are called. -/
def answering (a b : Nat → Reply) : Catalog :=
  [("a", { contract := { name := "a" }, reply := fun moment _ _ => a moment.serial }),
    ("b", { contract := { name := "b" }, reply := fun moment _ _ => b moment.serial })]

/-- An output that binds one variable. -/
def bound (name : String) (n : Int) : Data := .obj [(name, .num (.int n))]

/-- A run of `nesting` that is about to set off the branches of its first node. -/
def unforked (d : Definition) : Run :=
  (Run.start d (Context.start d.id "run" [] ⟨0, 0⟩) 10 [d.start]).play [] (turns .driver 4)

/-- The same run when it has just set them off. -/
def forked (d : Definition) (catalog : Catalog) : Run :=
  (unforked d).move catalog (.step .driver ⟨⟨0, 0⟩, 0⟩ 0)

/-- Branches that take so many steps each, one after the other, at later and later moments. -/
def stretches (plan : List (Nat × Nat)) : List Move :=
  plan.zipIdx.flatMap fun stretch =>
    List.replicate stretch.1.2 (.step (.branch stretch.1.1) ⟨⟨0, 0⟩, stretch.2⟩ 0)

theorem own_of_stretches (plan : List (Nat × Nat)) :
    ∀ m ∈ stretches plan, ∃ id moment clock, 0 ≤ id ∧ m = .step (.branch id) moment clock := by
  intro m member
  obtain ⟨stretch, _, taken⟩ := List.mem_flatMap.mp member
  exact ⟨_, _, _, Nat.zero_le _, List.eq_of_mem_replicate taken⟩

/-- The procedures of `nesting`, of which the first counts the moments. -/
def counting : Catalog :=
  answering (fun n => .output (bound "x" n)) fun _ => .output (bound "y" 2)

/-- The procedures of `nesting`, which bind the same variable. -/
def clashing : Catalog :=
  answering (fun _ => .output (bound "x" 1)) fun _ => .output (bound "x" 2)

/-- The procedures of `nesting`, which fail for different reasons. -/
def refusing : Catalog := answering (fun _ => .failed "p") fun _ => .failed "q"

/-- The procedures of `nesting`, of which the first fails. -/
def failing : Catalog := answering (fun _ => .failed "p") fun _ => .output (bound "y" 2)

/-- What is left of a failure below the inner node of `nesting`. -/
def complaint (text : String) : Fields Data :=
  [("lastError", .ofPairs [("nodeId", .str "inner"), ("message", .str text)])]

/-- What the first node of `nesting` does with its branches. -/
def outer (ids : List String) : Join := .parallel { id := "outer", kind := .parallel ids true } true

/-- Two branches that bind different variables, one of them below another branch. -/
def pairing : Definition := nesting ["inner", "b"] ["a"] true none

/-- The procedures of `pairing`. -/
def pairs : Catalog := answering (fun _ => .output (bound "x" 1)) fun _ => .output (bound "y" 2)

/-- What the nodes of `pairing` write. -/
def pairWrites (id : String) : Writes :=
  if id = "a" then ⟨[("x", .num (.int 1))], some (bound "x" 1)⟩
  else if id = "b" then ⟨[("y", .num (.int 2))], some (bound "y" 2)⟩
  else {}

theorem pairing_spreads : pairing.Spreads ["inner", "b"] ["inner", "a", "b"] := by
  have alone : ∀ id, pairing.branchesOf id = [] → pairing.Spreads [id] [id] := by
    intro id none_below
    have below : pairing.Spreads (pairing.branchesOf id) [] := by
      rw [none_below]
      exact .nil
    exact below.cons .nil
  have inner : pairing.Spreads (pairing.branchesOf "inner") ["a"] := alone "a" rfl
  exact inner.cons (alone "b" rfl)

theorem pairing_independent (context : Context) :
    Independent pairs pairing context ["inner", "a", "b"] pairWrites := by
  refine ⟨?_, ?_, ?_⟩
  · intro id member node branches waitForAll found kind
    simp only [List.mem_cons, List.not_mem_nil, or_false] at member
    rcases member with rfl | rfl | rfl <;> cases found <;> cases kind
    rfl
  · intro id member node found context vars outputs _ _ _ around known
    obtain ⟨_, moment, clock⟩ := around
    obtain rfl : _ = pairs := known
    simp only [List.mem_cons, List.not_mem_nil, or_false] at member
    rcases member with rfl | rfl | rfl <;> cases found <;> rfl
  · intro id member other member' name bound bound'
    simp only [List.mem_cons, List.not_mem_nil, or_false] at member member'
    rcases member with rfl | rfl | rfl <;> rcases member' with rfl | rfl | rfl <;>
      simp_all [pairWrites, Fields.names]

/-- The branch below the other one comes first, or it comes last. -/
def pairOrder (isFirst : Bool) : List Move :=
  if isFirst then stretches [(0, 4), (2, 7), (0, 3), (1, 7)]
  else stretches [(1, 7), (0, 4), (2, 7), (0, 3)]

theorem pairOrder_resolves (isFirst : Bool) :
    Resolves pairs ((forked pairing pairs).play pairs (pairOrder isFirst)) .driver
      (outer ["inner", "b"]) 0 2 (.ok (.goOn [])) := by
  cases isFirst <;> exact resolves_of_outcome? rfl rfl

theorem pairOrder_smooth (isFirst : Bool) :
    Smooth pairs (forked pairing pairs) 0 2 (pairOrder isFirst) := by
  cases isFirst <;> exact smooth_of_flawless (own_of_stretches _) rfl

theorem branches_join_in_any_order_pairing :
    (unforked pairing).Tended ∧
      (unforked pairing).phase? .driver =
        some (.forking (outer ["inner", "b"]) ["inner", "b"]) ∧
      (outer ["inner", "b"]).waitForAll = true ∧
      pairing.Spreads ["inner", "b"] ["inner", "a", "b"] ∧
      Independent pairs pairing (unforked pairing).context ["inner", "a", "b"] pairWrites ∧
      (∀ isFirst, Smooth pairs (forked pairing pairs) 0 2 (pairOrder isFirst) ∧
        Resolves pairs ((forked pairing pairs).play pairs (pairOrder isFirst)) .driver
            (outer ["inner", "b"]) 0 2 (.ok (.goOn [])) ∧
          Reports pairs (forked pairing pairs) 0 (outer ["inner", "b"]) ["inner", "b"]
            (pairOrder isFirst) (.ok (.goOn []))) ∧
      ∀ name,
        Fields.get? ((forked pairing pairs).play pairs (pairOrder true)).context.vars name =
            Fields.get? ((forked pairing pairs).play pairs (pairOrder false)).context.vars name ∧
          Fields.get? ((forked pairing pairs).play pairs (pairOrder true)).context.outputs name =
            Fields.get? ((forked pairing pairs).play pairs (pairOrder false)).context.outputs
              name := by
  have tended : (unforked pairing).Tended := (Tended.start ..).play [] _
  have located : (unforked pairing).phase? .driver =
    some (.forking (outer ["inner", "b"]) ["inner", "b"]) := rfl
  have independent := pairing_independent (unforked pairing).context
  obtain ⟨each, confluent⟩ :=
    branches_join_in_any_order pairs tended located rfl ⟨⟨0, 0⟩, 0⟩ 0
  refine ⟨tended, located, rfl, pairing_spreads, independent, fun isFirst =>
    ⟨pairOrder_smooth isFirst, pairOrder_resolves isFirst,
      (each (pairOrder isFirst)).2.1 _ (pairOrder_resolves isFirst)⟩, ?_⟩
  exact confluent _ _ pairing_spreads independent _ _ _ _ (pairOrder_smooth true)
    (pairOrder_smooth false) (pairOrder_resolves true) (pairOrder_resolves false)

/-- In an order of its branches the first node of `nesting` has an ending, and these are the
variables. -/
structure Leaves (d : Definition) (catalog : Catalog) (ids : List String)
    (plan : List (Nat × Nat)) (ending : Ending) (vars : Fields Data) : Prop where
  waits : ((forked d catalog).play catalog (stretches plan)).phase? .driver =
    some (.joining (outer ids) 0 ids.length)
  outcome : (outer ids).outcome? ids.length
    (((forked d catalog).play catalog (stretches plan)).endingsOf 0) = some ending
  vars : ((forked d catalog).play catalog (stretches plan)).context.vars = vars

/-- The order of the steps shows in the variables, even if the node has one branch only, when
below this branch others race, bind the same variable or fail on behalf of a node that handles the
failure; it shows if a procedure replies by the time; and it shows if a branch fails, since the
others may be cut off. Of a node that is listed twice one output is kept only. -/
theorem order_shows :
    (Leaves (nesting ["inner"] ["a", "b"] false none) pairs ["inner"] [(0, 4), (1, 7), (0, 3)]
          (.ok (.goOn [])) [("x", .num (.int 1))] ∧
        Leaves (nesting ["inner"] ["a", "b"] false none) pairs ["inner"]
          [(0, 4), (2, 7), (0, 3)] (.ok (.goOn [])) [("y", .num (.int 2))]) ∧
      (Leaves (nesting ["inner"] ["a", "b"] true none) clashing ["inner"]
          [(0, 4), (1, 7), (2, 7), (0, 3)] (.ok (.goOn [])) [("x", .num (.int 2))] ∧
        Leaves (nesting ["inner"] ["a", "b"] true none) clashing ["inner"]
          [(0, 4), (2, 7), (1, 7), (0, 3)] (.ok (.goOn [])) [("x", .num (.int 1))]) ∧
      (Leaves (nesting ["inner"] ["a", "b"] true (some "a")) refusing ["inner"]
          [(0, 4), (1, 6), (2, 6), (0, 4)] (.ok (.goOn []))
          (complaint "Procedure a failed: p") ∧
        Leaves (nesting ["inner"] ["a", "b"] true (some "a")) refusing ["inner"]
          [(0, 4), (2, 6), (1, 6), (0, 4)] (.ok (.goOn []))
          (complaint "Procedure b failed: q")) ∧
      (Leaves (nesting ["a", "b"] [] true none) counting ["a", "b"] [(0, 7), (1, 7)]
          (.ok (.goOn [])) [("x", .num (.int 0)), ("y", .num (.int 2))] ∧
        Leaves (nesting ["a", "b"] [] true none) counting ["a", "b"] [(1, 7), (0, 7)]
          (.ok (.goOn [])) [("x", .num (.int 1)), ("y", .num (.int 2))]) ∧
      (Leaves (nesting ["a", "b"] [] true none) failing ["a", "b"] [(0, 6)]
          (.error (.procedure "a" "p")) [] ∧
        Leaves (nesting ["a", "b"] [] true none) failing ["a", "b"] [(1, 7), (0, 6)]
          (.error (.procedure "a" "p")) [("y", .num (.int 2))]) ∧
      Leaves (nesting ["a", "a"] [] true none) counting ["a", "a"] [(0, 7), (1, 7)]
          (.ok (.goOn [])) [("x", .num (.int 1))] ∧
        (forked (nesting ["a", "a"] [] true none) counting).Comes counting
          (stretches [(0, 7), (1, 7)]) (.branch 0)
          (.replying { id := "a", kind := .procedure (some "a") [] } "a"
            (.output (bound "x" 0)) 0) ∧
        ((forked (nesting ["a", "a"] [] true none) counting).play counting
          (stretches [(0, 7), (1, 7)])).context.outputs = [("a", bound "x" 1)] := by
  refine ⟨⟨⟨rfl, rfl, rfl⟩, ⟨rfl, rfl, rfl⟩⟩, ⟨⟨rfl, rfl, rfl⟩, ⟨rfl, rfl, rfl⟩⟩,
    ⟨⟨rfl, rfl, rfl⟩, ⟨rfl, rfl, rfl⟩⟩, ⟨⟨rfl, rfl, rfl⟩, ⟨rfl, rfl, rfl⟩⟩,
    ⟨⟨rfl, rfl, rfl⟩, ⟨rfl, rfl, rfl⟩⟩, ⟨rfl, rfl, rfl⟩, ?_, rfl⟩
  exact ⟨(stretches [(0, 7), (1, 7)]).take 3, List.take_prefix .., rfl⟩

end Run

end DurableFlow
