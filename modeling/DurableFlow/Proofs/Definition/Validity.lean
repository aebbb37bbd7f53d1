import DurableFlow.Definition.Validate
import Mathlib.Data.List.Basic

/-!
# What a valid definition promises

A definition without problems has a node for its start and for every id that one of its
nodes refers to, and knows the procedure of every procedure node. `Offers` describes the
lists of nodes that control can be handed to in one piece; under a valid definition all
of them are ids of nodes.
-/

namespace DurableFlow

namespace Definition

variable {d : Definition} {known : String → Bool}

/-- The node is the one that its own id stands for. -/
def Has (d : Definition) (node : Node) : Prop := d.node? node.id = some node

theorem Has.mem_nodes {node : Node} (h : d.Has node) : node ∈ d.nodes := mem_nodes_of_node? h

theorem Has.mem_ids {node : Node} (h : d.Has node) : node.id ∈ d.ids :=
  List.mem_map_of_mem h.mem_nodes

theorem has_of_node? {id : String} {node : Node} (h : d.node? id = some node) : d.Has node := by
  have same := id_of_node? h
  subst same
  exact h

/-- An id of the definition stands for a node. -/
theorem exists_node_of_mem_ids {id : String} (h : id ∈ d.ids) : ∃ node, d.node? id = some node := by
  obtain ⟨node, member, rfl⟩ := List.mem_map.mp h
  have found : (d.nodes.find? (·.id == node.id)).isSome :=
    List.find?_isSome.mpr ⟨node, member, by simp⟩
  exact Option.isSome_iff_exists.mp found

theorem Valid.start_mem_ids (h : d.Valid known) : d.start ∈ d.ids := by
  by_contra absent
  simp [Valid, problems, absent] at h

/-- No node of a valid definition has a problem of its own. -/
theorem Valid.node_problems (h : d.Valid known) {node : Node} (member : node ∈ d.nodes) :
    d.danglingReferences node = [] ∧ procedureProblems known node = [] := by
  have none_found := (List.append_eq_nil_iff.mp h).2
  have clean := List.flatMap_eq_nil_iff.mp none_found node member
  exact List.append_eq_nil_iff.mp clean

/-- Every id that a node refers to is the id of a node. -/
theorem Valid.reference_mem_ids (h : d.Valid known) {node : Node} (member : node ∈ d.nodes)
    {id : String} (reference : id ∈ node.references) : id ∈ d.ids := by
  have clean := List.map_eq_nil_iff.mp (h.node_problems member).1
  have settled := List.filter_eq_nil_iff.mp clean id reference
  simpa using settled

/-- A procedure node names a procedure that is known. -/
theorem Valid.procedure_known (h : d.Valid known) {node : Node} (member : node ∈ d.nodes)
    {name : Option String} {config : Fields Data} (kind : node.kind = .procedure name config) :
    ∃ procedure, name = some procedure ∧ known procedure = true := by
  have clean := (h.node_problems member).2
  cases name with
  | none => simp [procedureProblems, kind] at clean
  | some procedure => exact ⟨procedure, rfl, by simpa [procedureProblems, kind] using clean⟩

/-- Lists of nodes that control can be handed to in one piece: no node at all, a single one,
or all the successors of a node. -/
inductive Offers (d : Definition) : List String → Prop where
  | nothing : Offers d []
  | single (id : String) (member : id ∈ d.ids) : Offers d [id]
  | successors (node : Node) (has : d.Has node) : Offers d node.successors

theorem Valid.offers_mem_ids (h : d.Valid known) {next : List String} (offered : d.Offers next)
    {id : String} (member : id ∈ next) : id ∈ d.ids := by
  cases offered with
  | nothing => simp at member
  | single other known => rw [List.mem_singleton.mp member]; exact known
  | successors node has =>
    exact h.reference_mem_ids has.mem_nodes (Node.mem_references_of_mem_successors member)

theorem Valid.offers_start (h : d.Valid known) : d.Offers [d.start] :=
  .single _ h.start_mem_ids

/-- Where a node refers to, control can be handed. -/
theorem Valid.offers_reference (h : d.Valid known) {node : Node} (has : d.Has node) {id : String}
    (reference : id ∈ node.references) : d.Offers [id] :=
  .single _ (h.reference_mem_ids has.mem_nodes reference)

end Definition

end DurableFlow
