import DurableFlow.Proofs.Definition.Validity
import Mathlib.Algebra.GroupWithZero.Nat
import Mathlib.Algebra.Order.BigOperators.Group.List
import Mathlib.Algebra.Order.Group.Nat
import Mathlib.Data.Fintype.Card
import Mathlib.Data.Set.Finite.Basic
import Mathlib.Logic.Relation

/-!
# How parallel nodes fork

A parallel node sets off its branches without going through the driver of the run. When no
node comes to fork itself, however many parallel nodes lie between, each node has a weight:
the number of nodes that are run before it is done with.
-/

namespace DurableFlow

/-- The nodes that a node sets off at the same time. -/
def Node.branches (node : Node) : List String :=
  match node.kind with
  | .parallel branches _ => branches
  | _ => []

namespace Definition

/-- The branches of the node that an id stands for. -/
def branchesOf (d : Definition) (id : String) : List String :=
  ((d.node? id).map Node.branches).getD []

/-- The one node sets off the other. -/
def Forks (d : Definition) (id branch : String) : Prop := branch ∈ d.branchesOf id

/-- No node sets itself off, be it through other parallel nodes. -/
def ForksAcyclic (d : Definition) : Prop := ∀ id, ¬ Relation.TransGen d.Forks id id

variable {d : Definition}

theorem branchesOf_of_node? {id : String} {node : Node} (h : d.node? id = some node) :
    d.branchesOf id = node.branches := by
  simp [branchesOf, h]

theorem Forks.node? {id branch : String} (h : d.Forks id branch) :
    ∃ node, d.node? id = some node ∧ branch ∈ node.branches := by
  cases found : d.node? id with
  | none => simp [Forks, branchesOf, found] at h
  | some node => exact ⟨node, rfl, by simpa [Forks, branchesOf, found] using h⟩

theorem Forks.mem_ids {id branch : String} (h : d.Forks id branch) : id ∈ d.ids := by
  obtain ⟨node, found, _⟩ := h.node?
  exact id_of_node? found ▸ (has_of_node? found).mem_ids

/-- There are finitely many nodes, so that forks without cycles come to an end. -/
theorem ForksAcyclic.wellFounded (acyclic : d.ForksAcyclic) :
    WellFounded fun branch id => d.Forks id branch := by
  let Below (a b : { id // id ∈ d.ids }) : Prop := Relation.TransGen d.Forks b.1 a.1
  have : IsTrans { id // id ∈ d.ids } Below := ⟨fun _ _ _ first second => second.trans first⟩
  have : Std.Irrefl Below := ⟨fun a => acyclic a.1⟩
  have : Finite { id // id ∈ d.ids } := List.finite_toSet d.ids
  have below : WellFounded Below := Finite.wellFounded_of_trans_of_irrefl Below
  have ends : ∀ id : { id // id ∈ d.ids }, Acc (fun branch id => d.Forks id branch) id.1 := by
    intro id
    induction id using below.induction with
    | _ id ih =>
      refine .intro _ fun branch forked => ?_
      by_cases known : branch ∈ d.ids
      · exact ih ⟨branch, known⟩ (.single forked)
      · exact .intro _ fun _ further => absurd further.mem_ids known
  refine ⟨fun id => ?_⟩
  by_cases known : id ∈ d.ids
  · exact ends ⟨id, known⟩
  · exact .intro _ fun _ forked => absurd forked.mem_ids known

/-- Each node weighs one more than its branches together. -/
def Weighs (d : Definition) (weight : String → Nat) : Prop :=
  ∀ id, weight id = 1 + ((d.branchesOf id).map weight).sum

/-- Without cycles of forks every node has a weight. -/
theorem ForksAcyclic.exists_weight (acyclic : d.ForksAcyclic) : ∃ weight, d.Weighs weight := by
  refine ⟨acyclic.wellFounded.fix fun id below =>
    1 + ((d.branchesOf id).attach.map fun branch => below branch.1 branch.2).sum, fun id => ?_⟩
  rw [WellFounded.fix_eq]
  simp only [List.map_attach_eq_pmap, List.pmap_eq_map]

/-- The weight of all nodes and of all that follow them: no less than what the driver of a
run can set off at once. -/
def breadth (d : Definition) (weight : String → Nat) : Nat :=
  (d.nodes.map fun node => weight node.id + (node.successors.map weight).sum).sum

theorem Offers.weight_le {next : List String} (offered : d.Offers next)
    (weight : String → Nat) : (next.map weight).sum ≤ d.breadth weight := by
  have single : ∀ node ∈ d.nodes,
      weight node.id + (node.successors.map weight).sum ≤ d.breadth weight := fun node member =>
    List.le_sum_of_mem (List.mem_map.mpr ⟨node, member, rfl⟩)
  cases offered with
  | nothing => simp
  | single id member =>
    obtain ⟨node, there, rfl⟩ := List.mem_map.mp member
    have := single node there
    simp only [List.map_cons, List.map_nil, List.sum_cons, List.sum_nil]
    omega
  | successors node has =>
    have := single node has.mem_nodes
    omega

end Definition

end DurableFlow
