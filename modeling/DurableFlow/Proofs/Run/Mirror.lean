import DurableFlow.Proofs.Run.Redirect

/-!
# A definition without its waits

Take the await nodes of a definition as nodes that do nothing. A task of a run over the
definition and a task of a run without the waits do the same things, one step for one step, up
to the point where the one is suspended and the other goes on. `Mirrored` is what this means for
where the tasks stand. Where branches come together, the two stay together if the run goes on
behind a suspended branch as it goes on behind the parallel node.
-/

namespace DurableFlow

def NodeKind.isAwait : NodeKind → Bool
  | .await .. => true
  | _ => false

/-- The kind of a node that does not wait. -/
def NodeKind.withoutWait : NodeKind → NodeKind
  | .await .. => .sequential
  | kind => kind

def Node.withoutWait (node : Node) : Node := { node with kind := node.kind.withoutWait }

/-- The definition with its await nodes as nodes that do nothing. -/
def Definition.withoutWaits (d : Definition) : Definition :=
  { d with nodes := d.nodes.map Node.withoutWait }

theorem Node.withoutWait_of_isAwait {node : Node} (acts : node.kind.isAwait = false) :
    node.withoutWait = node := by
  obtain ⟨id, kind, next, onError⟩ := node
  cases kind with
  | await => contradiction
  | _ => rfl

theorem Definition.node?_withoutWaits (d : Definition) (id : String) :
    d.withoutWaits.node? id = (d.node? id).map Node.withoutWait := by
  simp only [withoutWaits, node?, List.find?_map]
  rfl

@[simp] theorem Definition.ids_withoutWaits (d : Definition) : d.withoutWaits.ids = d.ids := by
  simp only [withoutWaits, ids, List.map_map]
  rfl

theorem Node.references_withoutWait {node : Node} {id : String}
    (refers : id ∈ node.withoutWait.references) : id ∈ node.references := by
  by_cases waits : node.kind.isAwait = true
  · cases kind : node.kind with
    | await names filter timeout =>
      simp only [references, withoutWait, kind, NodeKind.withoutWait, NodeKind.references,
        List.append_nil] at refers ⊢
      exact List.mem_append_left _ refers
    | _ => simp [kind, NodeKind.isAwait] at waits
  · rw [withoutWait_of_isAwait (Bool.not_eq_true _ ▸ waits)] at refers
    exact refers

/-- A definition that is valid is so without its waits. -/
theorem Definition.Valid.withoutWaits {d : Definition} {known : String → Bool}
    (valid : d.Valid known) : d.withoutWaits.Valid known := by
  have distinct : repeated [] d.ids = [] :=
    List.map_eq_nil_iff.mp (List.append_eq_nil_iff.mp (List.append_eq_nil_iff.mp valid).1).1
  have start : d.withoutWaits.start ∈ d.ids := valid.start_mem_ids
  rw [Valid, problems, ids_withoutWaits, distinct, if_pos start]
  simp only [List.map_nil, List.nil_append, List.flatMap_eq_nil_iff, List.append_eq_nil_iff]
  intro node member
  obtain ⟨original, there, rfl⟩ := List.mem_map.mp member
  constructor
  · rw [danglingReferences, List.map_eq_nil_iff, List.filter_eq_nil_iff]
    intro id refers
    have known := valid.reference_mem_ids there (Node.references_withoutWait refers)
    simpa using known
  · have clean := (valid.node_problems there).2
    simp only [procedureProblems, Node.withoutWait] at clean ⊢
    cases kind : original.kind with
    | procedure name config => simpa [kind, NodeKind.withoutWait] using clean
    | _ => rfl

/-- All parallel nodes wait for all of their branches. -/
def Definition.WaitsForAll (d : Definition) : Prop :=
  ∀ node ∈ d.nodes, ∀ branches waitForAll, node.kind = .parallel branches waitForAll →
    waitForAll = true

/-- A node at which branches may come together or wait is followed by what is expected. -/
def Node.Fits (expected : Option (List String)) (node : Node) : Prop :=
  node.kind.isParallel = true ∨ node.kind.isAwait = true →
    ∀ next, expected = some next → node.successors = next

theorem Node.fits_none (node : Node) : node.Fits none := by
  rintro _ next ⟨⟩

/-- The await nodes among the branches of a parallel node, and the parallel nodes among them,
are followed by what follows the parallel node. -/
def Definition.Aligned (d : Definition) : Prop :=
  ∀ node ∈ d.nodes, ∀ branches waitForAll, node.kind = .parallel branches waitForAll →
    ∀ id ∈ branches, ∀ branch, d.node? id = some branch → branch.Fits (some node.successors)

/-- The node with this id waits. -/
def Definition.WaitsAt (d : Definition) (id : String) : Prop :=
  ∃ node, d.node? id = some node ∧ node.kind.isAwait = true

/-- Where a task goes, and where a task goes that does not wait. Both may be suspended if a
procedure has raised a pause. -/
inductive Step.Mirrored (d : Definition) (raised : Prop) (expected : Option (List String)) :
    Step → Step → Prop where
  | goesOn (next : List String) : Mirrored d raised expected (.goOn next) (.goOn next)
  /-- The one waits. Whoever resumes it goes on behind its node, and the other goes there at
  once or nowhere. -/
  | passed {id : String} {pause : Pause} {node : Node} {next : List String}
      (found : d.node? id = some node) (waits : node.kind.isAwait = true)
      (follows : next = [] ∨ next = node.successors)
      (fits : ∀ after, expected = some after → node.successors = after) :
      Mirrored d raised expected (.suspend id pause) (.goOn next)
  | suspended {id : String} {pause : Pause} (raises : raised) :
      Mirrored d raised expected (.suspend id pause) (.suspend id pause)
  /-- The one waits and knows nothing of the pause that suspends the other. -/
  | dropped {id id' : String} {pause pause' : Pause} (waits : d.WaitsAt id) (raises : raised) :
      Mirrored d raised expected (.suspend id pause) (.suspend id' pause')

namespace Join

/-- What is expected to follow the nodes of the branches. -/
def expected : Join → Option (List String)
  | parallel node _ => some node.successors
  | fanOut => none

def withoutWait : Join → Join
  | parallel node waitForAll => parallel node.withoutWait waitForAll
  | fanOut => fanOut

/-- A parallel node is itself followed by what is expected. The driver expects nothing. -/
def FitsIn (expected : Option (List String)) : Join → Prop
  | parallel node _ => ∀ next, expected = some next → node.successors = next
  | fanOut => expected = none

@[simp] theorem waitForAll_withoutWait (join : Join) :
    join.withoutWait.waitForAll = join.waitForAll := by
  cases join <;> rfl

end Join

/-- A task has come to a failure. -/
def Phase.isFailure : Phase → Bool
  | .settling _ (.error _) | .redirecting .. | .ended (.error _) => true
  | _ => false

/-- Where a task stands, and where a task stands that does not wait. The groups of the other
run have other numbers. -/
inductive Phase.Mirrored (d : Definition) (raised : Prop) (offset : Nat)
    (expected : Option (List String)) : Phase → Phase → Prop where
  | entering {id : String} (fits : ∀ node, d.node? id = some node → node.Fits expected) :
      Mirrored d raised offset expected (.entering id) (.entering id)
  | announcing {node : Node} (has : d.Has node) (fits : node.Fits expected) :
      Mirrored d raised offset expected (.announcing node) (.announcing node.withoutWait)
  | acting {node : Node} (has : d.Has node) (fits : node.Fits expected) :
      Mirrored d raised offset expected (.acting node) (.acting node.withoutWait)
  | replying (node : Node) (procedure : String) (reply : Reply) (due : Nat) :
      Mirrored d raised offset expected (.replying node procedure reply due)
        (.replying node.withoutWait procedure reply due)
  | recording (node : Node) (output : Data) :
      Mirrored d raised offset expected (.recording node output)
        (.recording node.withoutWait output)
  | forking {join : Join} {ids : List String} (all : join.waitForAll = true)
      (fits : join.FitsIn expected)
      (known : ∀ id ∈ ids, ∀ node, d.node? id = some node → node.Fits join.expected) :
      Mirrored d raised offset expected (.forking join ids) (.forking join.withoutWait ids)
  | joining {join : Join} {group count : Nat} (all : join.waitForAll = true)
      (fits : join.FitsIn expected) :
      Mirrored d raised offset expected (.joining join group count)
        (.joining join.withoutWait (group + offset) count)
  | settling (node : Node) {step step' : Step}
      (mirrored : step.Mirrored d raised expected step') :
      Mirrored d raised offset expected (.settling node (.ok step))
        (.settling node.withoutWait (.ok step'))
  | ended {step step' : Step} (mirrored : step.Mirrored d raised expected step') :
      Mirrored d raised offset expected (.ended (.ok step)) (.ended (.ok step'))

/-- A procedure has replied that the run is to be suspended. -/
def Phase.isPausing : Phase → Bool
  | .replying _ _ (.suspend _) _ => true
  | _ => false

section Steps

variable {d : Definition} {raised : Prop} {offset : Nat} {expected : Option (List String)}

@[simp] theorem Node.successors_withoutWait (node : Node) :
    node.withoutWait.successors = node.successors := rfl

namespace Phase

/-- Which node was entered last is of no concern to any node. -/
theorem act_node (around : Surroundings) (context : Context) (last : Option String)
    (node : Node) : act around { context with node := last } node = act around context node := by
  rw [act, act]
  split <;> rfl

/-- What a task does next, and what a task does that does not wait. -/
structure StepMirrored (d : Definition) (raised : Prop) (offset : Nat)
    (expected : Option (List String)) (result result' : Phase × Context × List Effect) : Prop where
  phase : result.1.Mirrored d raised offset expected result'.1
  context : ∃ last, result'.2.1 = { result.2.1 with node := last }
  calls : result'.2.2.filterMap Effect.call? = result.2.2.filterMap Effect.call?

theorem call_mirrored {node : Node} (acts : node.withoutWait = node) (around : Surroundings)
    (context : Context) (name : String) (config : Fields Data)
    (fine : (call around context node name config).1.isFailure = false) :
    (call around context node name config).1.Mirrored d raised offset expected
      (call around context node name config).1 := by
  have replies : ∀ reply due, (replying node name reply due).Mirrored d raised offset expected
      (replying node name reply due) := by
    intro reply due
    have mirrored : (replying node name reply due).Mirrored d raised offset expected _ :=
      .replying node name reply due
    rw [acts] at mirrored
    exact mirrored
  rw [call] at fine ⊢
  split
  · rename_i unknown
    rw [unknown] at fine
    contradiction
  · rename_i procedure found
    rw [found] at fine
    cases input : context.input config with
    | error failure => simp [input, isFailure] at fine
    | ok value => exact replies ..

theorem settling_mirrored {node : Node} (acts : node.withoutWait = node) (next : List String) :
    (settling node (.ok (.goOn next))).Mirrored d raised offset expected
      (settling node (.ok (.goOn next))) := by
  have mirrored : (settling node (.ok (.goOn next))).Mirrored d raised offset expected _ :=
    .settling node (.goesOn next)
  rw [acts] at mirrored
  exact mirrored

theorem act_mirrored (all : d.WaitsForAll) (aligned : d.Aligned) {node : Node}
    (has : d.Has node) (fits : node.Fits expected) (around : Surroundings) (context : Context)
    (fine : (act around context node).1.isFailure = false) :
    (act around context node).1.Mirrored d raised offset expected
        (act around context node.withoutWait).1 ∧
      (act around context node.withoutWait).2.filterMap Effect.call? =
        (act around context node).2.filterMap Effect.call? := by
  by_cases waits : node.kind.isAwait = true
  · obtain ⟨names, filter, timeout, kind⟩ : ∃ names filter timeout,
        node.kind = .await names filter timeout := by
      cases kind : node.kind <;> simp [kind, NodeKind.isAwait] at waits ⊢
    have idle : node.withoutWait.kind = .sequential := by
      simp only [Node.withoutWait, kind, NodeKind.withoutWait]
    simp only [act, kind, idle]
    exact ⟨.settling node (.passed has waits (.inr rfl) (fits (.inr waits))), trivial⟩
  · have acts : node.withoutWait = node :=
      Node.withoutWait_of_isAwait (Bool.not_eq_true _ ▸ waits)
    rw [acts]
    refine ⟨?_, rfl⟩
    cases kind : node.kind with
    | await names filter timeout =>
      rw [kind] at waits
      exact absurd rfl waits
    | procedure named config =>
      cases named with
      | none => simp [act, kind, isFailure] at fine
      | some name =>
        simp only [act, kind] at fine ⊢
        exact call_mirrored acts around context name config fine
    | condition condition =>
      simp only [act, kind, Node.route] at fine ⊢
      split
      · rename_i failure failed
        rw [failed] at fine
        contradiction
      · rename_i branch _
        exact settling_mirrored acts [branch]
      · exact settling_mirrored acts node.successors
    | sequential =>
      simp only [act, kind]
      exact settling_mirrored acts node.successors
    | parallel branches waitForAll =>
      simp only [act, kind]
      have parallel : node.kind.isParallel = true := by
        rw [kind]
        rfl
      have mirrored : (forking (.parallel node waitForAll) branches).Mirrored d raised offset
          expected _ :=
        .forking (all node has.mem_nodes branches waitForAll kind) (fits (.inl parallel))
          (aligned node has.mem_nodes branches waitForAll kind)
      rw [Join.withoutWait, acts] at mirrored
      exact mirrored

theorem takeUp_mirrored (node : Node) (procedure : String) (reply : Reply)
    (raises : ∀ pause, reply = .suspend pause → raised)
    (fine : (takeUp node procedure reply).isFailure = false) :
    (takeUp node procedure reply).Mirrored d raised offset expected
      (takeUp node.withoutWait procedure reply) := by
  cases reply with
  | output value => exact .recording node value
  | suspend pause => exact .settling node (.suspended (raises pause rfl))
  | failed text => contradiction
  | dateRange => contradiction

theorem Mirrored.isPlain {phase phase' : Phase}
    (mirrored : phase.Mirrored d raised offset expected phase') (plain : phase.IsPlain) :
    phase'.IsPlain := by
  cases mirrored with
  | forking => exact plain
  | joining => exact plain
  | ended => exact plain
  | _ => trivial

/-- As long as nothing fails, a step within a node does the same whether the definition has
waits or not. -/
theorem Mirrored.step (all : d.WaitsForAll) (aligned : d.Aligned) {phase phase' : Phase}
    (mirrored : phase.Mirrored d raised offset expected phase') (plain : phase.IsPlain)
    (pauses : phase.isPausing = true → raised)
    (around : Surroundings) (context : Context) (last : Option String)
    (fine : (phase.step around d context).1.isFailure = false) :
    StepMirrored d raised offset expected (phase.step around d context)
      (phase'.step around d.withoutWaits { context with node := last }) := by
  cases mirrored with
  | @entering id fits =>
    cases found : d.node? id with
    | none => simp [Phase.step, found, isFailure] at fine
    | some node =>
      have found' : d.withoutWaits.node? id = some node.withoutWait := by
        rw [Definition.node?_withoutWaits, found]
        rfl
      simp only [Phase.step, found, found']
      exact ⟨.announcing (Definition.has_of_node? found) (fits node found), ⟨_, rfl⟩, rfl⟩
  | announcing has fits => exact ⟨.acting has fits, ⟨last, rfl⟩, rfl⟩
  | acting has fits =>
    simp only [Phase.step] at fine ⊢
    rw [act_node]
    obtain ⟨phase, calls⟩ := act_mirrored all aligned has fits around context fine
    exact ⟨phase, ⟨last, rfl⟩, calls⟩
  | replying node procedure reply due =>
    simp only [Phase.step] at fine ⊢
    by_cases early : around.clock < due
    · rw [if_pos early, if_pos early]
      exact ⟨.replying node procedure reply due, ⟨last, rfl⟩, rfl⟩
    · rw [if_neg early] at fine
      rw [if_neg early, if_neg early]
      refine ⟨takeUp_mirrored node procedure reply ?_ fine, ⟨last, rfl⟩, rfl⟩
      rintro pause rfl
      exact pauses rfl
  | recording node output => exact ⟨.settling node (.goesOn _), ⟨last, rfl⟩, rfl⟩
  | settling node mirrored =>
    cases mirrored with
    | goesOn next => exact ⟨.ended (.goesOn next), ⟨last, rfl⟩, rfl⟩
    | passed found waits follows fits =>
      exact ⟨.ended (.passed found waits follows fits), ⟨last, rfl⟩, rfl⟩
    | suspended raises => exact ⟨.ended (.suspended raises), ⟨last, rfl⟩, rfl⟩
    | dropped waits raises => exact ⟨.ended (.dropped waits raises), ⟨last, rfl⟩, rfl⟩
  | forking => exact plain.elim
  | joining => exact plain.elim
  | ended => exact plain.elim

end Phase

end Steps

section Joins

variable {d : Definition} {raised : Prop} {expected : Option (List String)}
  {steps steps' : List Step}

namespace Join

theorem collect_map_ok (steps : List Step) : collect (steps.map .ok) = .ok steps := by
  induction steps with
  | nil => rfl
  | cons step rest ih => simp only [List.map_cons, collect, ih]

/-- Branches agree on nothing, or on what each of them names. -/
theorem agreed_of_mem_nexts {nexts : List (List String)} {next : List String}
    (named : next ∈ nexts) : agreed nexts = [] ∨ agreed nexts = next := by
  unfold agreed
  split
  · rename_i id rest
    split
    · rename_i same
      right
      rcases List.mem_cons.mp named with rfl | later
      · rfl
      · exact (eq_of_beq (List.all_eq_true.mp same next later)).symm
    · exact .inl rfl
  · exact .inl rfl

/-- Where no branch is suspended, all go the same ways without their waits. -/
theorem steps_eq_of_mirrored
    (mirrored : List.Forall₂ (Step.Mirrored d raised expected) steps steps')
    (unsuspended : suspension? steps = none) : steps' = steps := by
  induction mirrored with
  | nil => rfl
  | cons first rest ih =>
    cases first with
    | goesOn next => rw [ih unsuspended]
    | _ => contradiction

/-- Where a branch is suspended and none is without the waits, some branch has gone past its
wait. -/
theorem exists_passed (mirrored : List.Forall₂ (Step.Mirrored d raised expected) steps steps')
    {suspend : Step} (suspended : suspension? steps = some suspend)
    (passed : suspension? steps' = none) :
    ∃ next, .goOn next ∈ steps' ∧ suspend.Mirrored d raised expected (.goOn next) ∧
      ∃ id pause, suspend = .suspend id pause := by
  induction mirrored with
  | nil => contradiction
  | cons first rest ih =>
    cases first with
    | goesOn next =>
      obtain ⟨next', member, mirrored, suspends⟩ := ih suspended passed
      exact ⟨next', List.mem_cons_of_mem _ member, mirrored, suspends⟩
    | passed found waits follows fits =>
      cases suspended
      exact ⟨_, List.mem_cons_self, .passed found waits follows fits, _, _, rfl⟩
    | suspended raises => contradiction
    | dropped waits raises => contradiction

/-- Without the waits only a procedure suspends a branch. -/
theorem raised_of_mirrored
    (mirrored : List.Forall₂ (Step.Mirrored d raised expected) steps steps') {suspend : Step}
    (suspended : suspension? steps' = some suspend) :
    raised ∧ ∃ id pause, suspend = .suspend id pause := by
  induction mirrored with
  | nil => contradiction
  | cons first rest ih =>
    cases first with
    | goesOn next => exact ih suspended
    | passed found waits follows fits => exact ih suspended
    | suspended raises =>
      cases suspended
      exact ⟨raises, _, _, rfl⟩
    | dropped waits raises =>
      cases suspended
      exact ⟨raises, _, _, rfl⟩

/-- The first branches that are suspended are the same, or the one waits. -/
theorem suspension?_mirrored
    (mirrored : List.Forall₂ (Step.Mirrored d raised expected) steps steps')
    {suspend suspend' : Step} (suspended : suspension? steps = some suspend)
    (suspended' : suspension? steps' = some suspend') (outer : Option (List String)) :
    suspend.Mirrored d raised outer suspend' := by
  induction mirrored with
  | nil => contradiction
  | cons first rest ih =>
    cases first with
    | goesOn next => exact ih suspended suspended'
    | passed found waits follows fits =>
      obtain ⟨raises, id, pause, rfl⟩ := raised_of_mirrored rest suspended'
      cases suspended
      exact .dropped ⟨_, found, waits⟩ raises
    | suspended raises =>
      cases suspended
      cases suspended'
      exact .suspended raises
    | dropped waits raises =>
      cases suspended
      cases suspended'
      exact .dropped waits raises

/-- Branches lead their parent where they lead it without their waits, or it is suspended at a
node behind which it is to go there. -/
theorem resolve_mirrored {join : Join} (fits : join.FitsIn expected)
    (mirrored : List.Forall₂ (Step.Mirrored d raised join.expected) steps steps') :
    (join.resolve steps).Mirrored d raised expected (join.withoutWait.resolve steps') := by
  cases suspended : suspension? steps with
  | none =>
    rw [steps_eq_of_mirrored mirrored suspended]
    cases join with
    | parallel node waitForAll =>
      simp only [resolve, withoutWait, suspended]
      exact .goesOn node.successors
    | fanOut =>
      simp only [resolve, withoutWait, suspended]
      exact .goesOn _
  | some suspend =>
    cases suspended' : suspension? steps' with
    | some suspend' =>
      simp only [resolve, suspended, suspended']
      exact suspension?_mirrored mirrored suspended suspended' expected
    | none =>
      obtain ⟨next, member, passes, id, pause, rfl⟩ := exists_passed mirrored suspended suspended'
      simp only [resolve, suspended, suspended']
      cases passes with
      | passed found waits follows expects =>
        cases join with
        | parallel parent waitForAll =>
          have same := expects parent.successors rfl
          simp only [withoutWait, Node.successors_withoutWait]
          refine .passed found waits (.inr same.symm) ?_
          intro after expected
          rw [same, fits after expected]
        | fanOut =>
          simp only [withoutWait]
          refine .passed found waits ?_ ?_
          · rcases agreed_of_mem_nexts (mem_successors.mpr member) with nothing | agreed
            · exact .inl nothing
            · rw [agreed]
              exact follows
          · intro after expected
            rw [fits] at expected
            contradiction

/-- As long as no branch fails, a parent has all endings at the same time with the waits and
without them. -/
theorem outcome?_mirrored {join : Join} (all : join.waitForAll = true)
    (fits : join.FitsIn expected)
    (mirrored : List.Forall₂ (Step.Mirrored d raised join.expected) steps steps') {count : Nat}
    {ending : Ending} (outcome : join.outcome? count (steps.map .ok) = some ending) :
    ∃ step step', ending = .ok step ∧ step.Mirrored d raised expected step' ∧
      join.withoutWait.outcome? count (steps'.map .ok) = some (.ok step') := by
  simp only [outcome?, all, if_true, collect_map_ok, Bool.not_true, Bool.false_eq_true, false_and,
    or_false] at outcome
  split at outcome
  · rename_i counted
    cases outcome
    refine ⟨_, _, rfl, resolve_mirrored fits mirrored, ?_⟩
    have counted' : steps'.length = count := mirrored.length_eq.symm.trans counted
    simp [outcome?, all, collect_map_ok, counted']
  · contradiction

end Join

/-- What the endings of its branches lead a task to. -/
theorem Phase.joined_mirrored {offset : Nat} (join : Join) {step step' : Step}
    (mirrored : step.Mirrored d raised expected step') :
    (joined join (.ok step)).Mirrored d raised offset expected
      (joined join.withoutWait (.ok step')) := by
  cases join with
  | parallel node waitForAll => exact .settling node mirrored
  | fanOut => exact .ended mirrored

end Joins

end DurableFlow
