import DurableFlow.Proofs.Definition.Forks
import DurableFlow.Proofs.Run.Joining

/-!
# What branches write into the context that they share

A node writes once: its output and the fields of it, or the failure that it hands on. As long as
what a node writes does not depend on what the other nodes write, it is known beforehand, and a
branch in any phase owes the writes of the nodes that it and the branches below it have not
written for yet. What has been written and what is owed are together the nodes at all depths, each
as often as it is listed, after every move of any branch.
-/

namespace DurableFlow

/-- What a node writes into the context. -/
structure Writes where
  vars : Fields Data := []
  output : Option Data := none
deriving DecidableEq

namespace Writes

variable {ids : List String} {id : String}

/-- The bindings that nodes write, one node after the other. -/
def allVars (writes : String → Writes) (ids : List String) : Fields Data :=
  ids.flatMap fun id => (writes id).vars

/-- The outputs that nodes write, one node after the other. -/
def allOutputs (writes : String → Writes) (ids : List String) : Fields Data :=
  ids.flatMap fun id => (writes id).output.toList.map (id, ·)

theorem mem_allVars {writes : String → Writes} {name : String} :
    name ∈ Fields.names (allVars writes ids) ↔
      ∃ id ∈ ids, name ∈ Fields.names (writes id).vars := by
  simp only [Fields.names, allVars, List.map_flatMap, List.mem_flatMap]

theorem mem_allOutputs {writes : String → Writes} {name : String} :
    name ∈ Fields.names (allOutputs writes ids) ↔
      name ∈ ids ∧ (writes name).output.isSome = true := by
  simp only [Fields.names, allOutputs, List.map_flatMap, List.mem_flatMap, List.map_map,
    List.mem_map, Option.mem_toList, Option.isSome_iff_exists]
  constructor
  · rintro ⟨id, member, output, written, rfl⟩
    exact ⟨member, output, written⟩
  · rintro ⟨member, output, written⟩
    exact ⟨name, member, output, written, rfl⟩

end Writes

/-- A context that differs from another in what has been written over it, and in the nodes that
have been entered. -/
def Context.Follows (base context : Context) (vars outputs : Fields Data) : Prop :=
  ∃ node trail, context = { base with
    vars := Fields.merge base.vars vars
    outputs := Fields.merge base.outputs outputs
    node
    trail }

theorem Context.Follows.write {base context : Context} {vars outputs : Fields Data}
    (follows : base.Follows context vars outputs) {context' : Context}
    {vars' outputs' : Fields Data} (written : context.Follows context' vars' outputs') :
    base.Follows context' (vars ++ vars') (outputs ++ outputs') := by
  obtain ⟨_, _, rfl⟩ := follows
  obtain ⟨node, trail, rfl⟩ := written
  exact ⟨node, trail, by simp only [Fields.merge_merge]⟩

theorem Context.Follows.refl (context : Context) : context.Follows context [] [] :=
  ⟨context.node, context.trail, rfl⟩

namespace Phase

/-- What a node writes when a failure of it is handed on to another node. -/
def handed (node : Node) (failure : Failure) : Writes :=
  if node.onError.isSome then { vars := [("lastError", lastError node failure)] } else {}

/-- What a task in a phase is still to write before it is done with the node that it is within. -/
def writes : Phase → Writes
  | .replying _ _ (.output output) _ | .recording _ output => ⟨output.fields, some output⟩
  | .replying node procedure (.failed text) _ => handed node (.procedure procedure text)
  | .settling node (.error failure) => handed node failure
  | .redirecting node _ failure => { vars := [("lastError", lastError node failure)] }
  | _ => {}

end Phase

namespace Definition

/-- Nodes with the branches below them at every depth, one for each time that it is listed. -/
inductive Spreads (d : Definition) : List String → List String → Prop where
  | nil : Spreads d [] []
  | cons {id : String} {ids below rest : List String} (first : Spreads d (d.branchesOf id) below)
      (later : Spreads d ids rest) : Spreads d (id :: ids) (id :: (below ++ rest))

namespace Spreads

variable {d : Definition} {ids all : List String}

/-- Nodes that are set off together share what they spread to. -/
theorem shares (spreads : d.Spreads ids all) :
    ∃ shares : List (List String), all = shares.flatten ∧
      List.Forall₂ (fun id share => d.Spreads [id] share) ids shares := by
  induction spreads with
  | nil => exact ⟨[], rfl, .nil⟩
  | @cons id ids below rest first _ _ ih =>
    obtain ⟨shares, rfl, each⟩ := ih
    refine ⟨(id :: below) :: shares, rfl, .cons ?_ each⟩
    have alone := Spreads.cons first .nil
    rwa [List.append_nil] at alone

/-- A node comes before the branches below it. -/
theorem exists_below {id : String} (spreads : d.Spreads [id] all) :
    ∃ below, all = id :: below ∧ d.Spreads (d.branchesOf id) below := by
  cases spreads with
  | @cons _ _ below rest first later =>
    cases later
    exact ⟨below, by rw [List.append_nil], first⟩

theorem eq_nil (spreads : d.Spreads [] all) : all = [] := by
  cases spreads
  rfl

end Spreads

end Definition

/-- What the nodes at all depths write does not depend on what others among them write, nor on
when their procedures are called. No two nodes bind the same variable, and parallel nodes wait
for all their branches. -/
structure Independent (catalog : Catalog) (d : Definition) (base : Context) (all : List String)
    (writes : String → Writes) : Prop where
  waits : ∀ id ∈ all, ∀ node branches waitForAll, d.node? id = some node →
    node.kind = .parallel branches waitForAll → waitForAll = true
  result : ∀ id ∈ all, ∀ node, d.node? id = some node → ∀ context vars outputs,
    base.Follows context vars outputs →
    (∀ name ∈ Fields.names vars,
      name ∈ Fields.names (Writes.allVars writes (all.erase id))) →
    (∀ name ∈ Fields.names outputs,
      name ∈ Fields.names (Writes.allOutputs writes (all.erase id))) →
    ∀ around : Surroundings, around.catalog = catalog →
      (Phase.act around context node).1.writes = writes id
  apart : ∀ id ∈ all, ∀ other ∈ all, ∀ name, name ∈ Fields.names (writes id).vars →
    name ∈ Fields.names (writes other).vars → other = id

/-- What nodes write that are independent comes to the same in whatever order they write it. -/
theorem Independent.in_any_order {catalog : Catalog} {d : Definition} {base : Context}
    {all done done' : List String} {writes : String → Writes}
    (independent : Independent catalog d base all writes) (once : done.Perm all)
    (once' : done'.Perm all) (vars outputs : Fields Data) (name : String) :
    Fields.get? (Fields.merge vars (Writes.allVars writes done)) name =
        Fields.get? (Fields.merge vars (Writes.allVars writes done')) name ∧
      Fields.get? (Fields.merge outputs (Writes.allOutputs writes done)) name =
        Fields.get? (Fields.merge outputs (Writes.allOutputs writes done')) name := by
  have same : ∀ id, id ∈ done ↔ id ∈ done' := fun id => once.mem_iff.trans once'.mem_iff.symm
  constructor
  · refine Fields.get?_merge_flatMap_congr same (fun id member other member' => ?_) _
    exact independent.apart id (once.subset member) other (once.subset member') name
  · refine Fields.get?_merge_flatMap_congr same (fun id _ other _ own own' => ?_) _
    have named : ∀ id, name ∈ Fields.names ((writes id).output.toList.map (id, ·)) →
        name = id := by
      intro id member
      obtain ⟨field, there, rfl⟩ := List.mem_map.mp member
      obtain ⟨_, _, rfl⟩ := List.mem_map.mp there
      rfl
    exact (named other own').symm.trans (named id own)

namespace Phase

variable {d : Definition} {writes : String → Writes} {phase : Phase} {owed : List String}

/-- The nodes whose writes a task in a phase is still to make, with those below the branches that it
is still to set off. -/
def Owes (d : Definition) (writes : String → Writes) : Phase → List String → Prop
  | .entering id, owed => d.Spreads [id] owed
  | .announcing node, owed | .acting node, owed =>
    d.node? node.id = some node ∧ d.Spreads [node.id] owed
  | .forking join ids, owed => join.waitForAll = true ∧ d.Spreads ids owed
  | .joining join _ _, owed => join.waitForAll = true ∧ owed = []
  | .replying node procedure reply due, owed =>
    (owed = [node.id] ∧ (Phase.replying node procedure reply due).writes = writes node.id)
  | .recording node output, owed =>
    (owed = [node.id] ∧ (Phase.recording node output).writes = writes node.id)
  | .redirecting node target failure, owed =>
    (owed = [node.id] ∧ (Phase.redirecting node target failure).writes = writes node.id)
  | .settling node ending, owed =>
    (owed = [node.id] ∧ (Phase.settling node ending).writes = writes node.id) ∨
      (owed = [] ∧ (Phase.settling node ending).writes = {})
  | .ended _, owed => owed = []

/-- A step of a task makes the writes of the nodes in `paid`, and those of the nodes in `left` are
still to be made afterwards. -/
structure Pays (d : Definition) (writes : String → Writes) (context : Context)
    (owed : List String) (phase : Phase) (context' : Context) (paid left : List String) : Prop where
  owed : owed = paid ++ left
  owes : phase.Owes d writes left
  written : context.Follows context' (Writes.allVars writes paid) (Writes.allOutputs writes paid)

theorem Pays.nothing {context context' : Context} (owes : phase.Owes d writes owed)
    (same : context.Follows context' [] []) :
    Pays d writes context owed phase context' [] owed :=
  ⟨rfl, owes, same⟩

/-- A node that writes nothing is done with. -/
theorem Pays.silent {context : Context} {id : String} (silent : writes id = {})
    (owes : phase.Owes d writes owed) :
    Pays d writes context (id :: owed) phase context [id] owed := by
  refine ⟨rfl, owes, ?_⟩
  simpa [Writes.allVars, Writes.allOutputs, silent] using Context.Follows.refl context

section Steps

variable {around : Surroundings} {context : Context}

/-- A node that acts sets off its branches, calls its procedure or comes to an ending. -/
theorem act_cases (around : Surroundings) (context : Context) (node : Node) :
    (∃ branches waitForAll, node.kind = .parallel branches waitForAll ∧
        (act around context node).1 = .forking (.parallel node waitForAll) branches) ∨
      node.branches = [] ∧
        ((∃ ending, (act around context node).1 = .settling node ending) ∨
          ∃ procedure reply due,
            (act around context node).1 = .replying node procedure reply due) := by
  cases kind : node.kind with
  | parallel branches waitForAll => exact .inl ⟨_, _, rfl, by simp only [act, kind]⟩
  | procedure named config =>
    simp only [act, Node.branches, kind]
    refine .inr ⟨trivial, ?_⟩
    cases named with
    | none => exact .inl ⟨_, rfl⟩
    | some name =>
      simp only [call]
      repeat' split
      · exact .inl ⟨_, rfl⟩
      · exact .inl ⟨_, rfl⟩
      · exact .inr ⟨_, _, _, rfl⟩
  | _ =>
    simp only [act, Node.branches, kind]
    exact .inr ⟨trivial, .inl ⟨_, rfl⟩⟩

/-- A node that acts owes what it is about to write, or it leaves the rest to its branches. -/
theorem act_pays {node : Node} (known : d.node? node.id = some node)
    (spreads : d.Spreads [node.id] owed)
    (waits : ∀ branches waitForAll, node.kind = .parallel branches waitForAll →
      waitForAll = true)
    (result : (act around context node).1.writes = writes node.id) :
    ∃ paid left, Pays d writes context owed (act around context node).1 context paid left := by
  obtain ⟨below, rfl, further⟩ := spreads.exists_below
  rw [Definition.branchesOf_of_node? known] at further
  rcases act_cases around context node with ⟨branches, all, kind, acts⟩ | ⟨alone, acts⟩
  · rw [acts] at result ⊢
    rw [Node.branches, kind] at further
    exact ⟨_, _, .silent result.symm ⟨waits branches all kind, further⟩⟩
  · rw [alone] at further
    obtain rfl := further.eq_nil
    rcases acts with ⟨ending, acts⟩ | ⟨procedure, reply, due, acts⟩ <;> rw [acts] at result ⊢
    · exact ⟨_, _, .nothing (.inl ⟨rfl, result⟩) (.refl context)⟩
    · exact ⟨_, _, .nothing ⟨rfl, result⟩ (.refl context)⟩

theorem record_pays {node : Node} {output : Data}
    (writing : (Phase.recording node output).writes = writes node.id) (ending : Step) :
    Pays d writes context [node.id] (.settling node (.ok ending)) (context.record node.id output)
      [node.id] [] := by
  refine ⟨rfl, .inr ⟨rfl, rfl⟩, context.node, context.trail, ?_⟩
  simp only [Writes.allVars, Writes.allOutputs, List.flatMap_cons, List.flatMap_nil,
    List.append_nil, ← writing, Phase.writes]
  rfl

theorem redirect_pays {node : Node} {target : String} {failure : Failure}
    (writing : (Phase.redirecting node target failure).writes = writes node.id) (step : Step) :
    Pays d writes context [node.id] (.ended (.ok step))
      (context.bind "lastError" (lastError node failure)) [node.id] [] := by
  refine ⟨rfl, rfl, context.node, context.trail, ?_⟩
  simp only [Writes.allVars, Writes.allOutputs, List.flatMap_cons, List.flatMap_nil,
    List.append_nil, ← writing, Phase.writes]
  rfl

/-- A node that comes to an ending hands on a failure or is done with. -/
theorem settle_pays (around : Surroundings) (context : Context) {node : Node} {ending : Ending}
    (owes : (Phase.settling node ending).Owes d writes owed)
    (fine : ∀ failure, ((Phase.settling node ending).step around d context).1 ≠
      .ended (.error failure)) :
    ∃ paid left, Pays d writes context owed ((Phase.settling node ending).step around d context).1
      ((Phase.settling node ending).step around d context).2.1 paid left := by
  rcases ending with failure | next | ⟨id, pause⟩
  case ok.goOn | ok.suspend =>
    rcases owes with ⟨rfl, writing⟩ | ⟨rfl, _⟩
    · exact ⟨_, _, .silent writing.symm rfl⟩
    · exact ⟨_, _, .nothing rfl (.refl context)⟩
  case error =>
    simp only [step, settle] at fine ⊢
    cases handler : node.onError with
    | none =>
      rw [handler] at fine
      exact absurd rfl (fine _)
    | some target =>
      have hands : (Phase.settling node (.error failure)).writes =
          (Phase.redirecting node target failure).writes := by
        simp [Phase.writes, handed, handler]
      rcases owes with ⟨rfl, writing⟩ | ⟨rfl, silent⟩
      · exact ⟨_, _, .nothing ⟨rfl, hands.symm.trans writing⟩ (.refl context)⟩
      · rw [hands] at silent
        cases silent

/-- A step within a node pays what it writes, unless it comes to an error. -/
theorem step_pays (around : Surroundings) (context : Context)
    (owes : phase.Owes d writes owed) (plain : phase.IsPlain)
    (fine : ∀ failure, (phase.step around d context).1 ≠ .ended (.error failure))
    (acts : ∀ node, phase = .acting node →
      (∀ branches waitForAll, node.kind = .parallel branches waitForAll → waitForAll = true) ∧
        (act around context node).1.writes = writes node.id) :
    ∃ paid left, Pays d writes context owed (phase.step around d context).1
      (phase.step around d context).2.1 paid left := by
  cases phase with
  | entering id =>
    cases found : d.node? id with
    | none =>
      simp only [step, found] at fine
      exact absurd rfl (fine _)
    | some node =>
      obtain rfl := Definition.id_of_node? found
      simp only [step, found]
      exact ⟨[], owed, .nothing ⟨found, owes⟩ ⟨_, _, rfl⟩⟩
  | announcing node => exact ⟨[], owed, .nothing owes (.refl context)⟩
  | acting node => exact act_pays owes.1 owes.2 (acts node rfl).1 (acts node rfl).2
  | replying node procedure reply due =>
    obtain ⟨rfl, writing⟩ := owes
    simp only [step] at fine ⊢
    split
    · exact ⟨_, _, .nothing ⟨rfl, writing⟩ (.refl context)⟩
    · rename_i late
      rw [if_neg late] at fine
      cases reply with
      | output value => exact ⟨_, _, .nothing ⟨rfl, writing⟩ (.refl context)⟩
      | suspend pause => exact ⟨_, _, .nothing (.inl ⟨rfl, writing⟩) (.refl context)⟩
      | failed text => exact ⟨_, _, .nothing (.inl ⟨rfl, writing⟩) (.refl context)⟩
      | dateRange => exact absurd rfl (fine _)
  | recording node output =>
    obtain ⟨rfl, writing⟩ := owes
    exact ⟨_, _, record_pays writing _⟩
  | redirecting node target failure =>
    obtain ⟨rfl, writing⟩ := owes
    exact ⟨_, _, redirect_pays writing _⟩
  | settling node ending => exact settle_pays around context owes fine
  | forking => exact plain.elim
  | joining => exact plain.elim
  | ended => exact plain.elim

end Steps

end Phase

end DurableFlow
