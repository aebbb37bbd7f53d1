import DurableFlow.Proofs.Definition.Exchange
import DurableFlow.Run.Suspended

/-!
# Definitions and suspended runs are decoded as they were

A suspended run is read back from the entries of its record as a definition is, its times through
their texts. A definition that is decoded has its objects in order, whatever it is decoded from, so
it is not changed any more by being written and read again.
-/

namespace DurableFlow

open Decode

theorem Wait.decode_toData (wait : Wait) : decode (.ofData wait.toData) = .ok wait := by
  have entries : wait.toData = .ofPairs (present
      [("procedures", some (.texts wait.names)), ("filter", wait.filter.map .str)]) := by
    simp [toData, present_cons, Exchange.textIfSome]
  have names := list_texts wait.names
  rw [decode, entries]
  refine record_bind (show ["procedures", "filter"].Nodup by decide) ?_ fun known found => ?_
  · simp only [List.forall_mem_cons]
    exact ⟨checked_some rfl names, checked_text rfl _, List.forall_mem_nil _⟩
  · rw [required_of (found "procedures" rfl) names, ok_bind, optional_text (found "filter" rfl)]
    rfl

namespace Suspended

/-- The types of a suspended run's parts hold objects with their names in order. -/
structure Proper (state : Suspended) : Prop where
  vars : (Data.obj state.vars).Sorted
  outputs : (Data.obj state.outputs).Sorted
  data : state.data.Sorted

/-- The times that a suspended run holds. -/
def times (state : Suspended) : List Instant :=
  state.pausedAt :: state.startedAt :: state.deadline.toList

/-- The fields of a suspended run with the values that they have. -/
def entries (state : Suspended) : List (String × Option Data) :=
  [("workflowId", some (.str state.workflow)), ("executionId", some (.str state.execution)),
    ("currentNodeId", some (.str state.node)), ("variables", some (.obj state.vars)),
    ("nodeOutputs", some (.obj state.outputs)), ("nodesExecuted", some (.texts state.history)),
    ("waitingFor", some state.wait.toData), ("reason", some (.str state.reason)),
    ("data", if state.data.isNull then none else some state.data),
    ("timeoutAt", state.deadline.map fun t => .str t.zuluText),
    ("timeoutNode", state.deadlineNode.map .str), ("pausedAt", some (.str state.pausedAt.zuluText)),
    ("startedAt", some (.str state.startedAt.zuluText))]

theorem toData_eq (state : Suspended) : state.toData = .ofPairs (present state.entries) := by
  have data : (if state.data.isNull then [] else [("data", state.data)]) =
      Exchange.ifSome "data" (if state.data.isNull then none else some state.data) := by
    split <;> rfl
  have deadline : (state.deadline.map Instant.zuluText).map Data.str =
      state.deadline.map fun t => .str t.zuluText := Option.map_map ..
  simp [toData, entries, present_cons, Exchange.textIfSome, data, deadline]

theorem decode_toData {state : Suspended} (proper : state.Proper)
    (timed : ∀ t ∈ state.times, Instant.parse t.zuluText = .ok t) (now : Instant) :
    decode now (.ofData state.toData) = .ok state := by
  have text : ∀ s, string (.ofData (.str s)) = .ok s := fun _ => rfl
  have time : ∀ t ∈ state.times, instant (.ofData (.str t.zuluText)) = .ok t := by
    intro t member
    simp only [Source.ofData, instant, timed t member]
    rfl
  have paused := time state.pausedAt List.mem_cons_self
  have started := time state.startedAt (List.mem_cons_of_mem _ List.mem_cons_self)
  have deadline : ∀ t ∈ state.deadline,
      option instant (.ofData (.str t.zuluText)) = .ok (some t) := by
    intro t given
    refine option_ofData rfl (time t ?_)
    rw [times, Option.mem_def.mp given]
    exact List.mem_cons_of_mem _ (List.mem_cons_of_mem _ List.mem_cons_self)
  have vars := map_data proper.vars
  have outputs := map_data proper.outputs
  have history := list_texts state.history
  have wait := state.wait.decode_toData
  have kept := data_ofData state.data proper.data
  rw [decode, toData_eq]
  refine record_bind (show ["workflowId", "executionId", "currentNodeId", "variables",
    "nodeOutputs", "nodesExecuted", "waitingFor", "reason", "data", "timeoutAt", "timeoutNode",
    "pausedAt", "startedAt"].Nodup by decide) ?_ fun known found => ?_
  · simp only [entries, List.forall_mem_cons]
    refine ⟨checked_some rfl (text _), checked_some rfl (text _), checked_some rfl (text _),
      checked_some rfl vars, checked_some rfl outputs, checked_some rfl history,
      checked_some rfl wait, checked_some rfl (text _), ?_, checked_map rfl deadline,
      checked_text rfl _, checked_some rfl paused, checked_some rfl started, List.forall_mem_nil _⟩
    split
    · nofun
    · exact checked_some rfl kept
  · have left : defaulted known "data" Decode.data .null = .ok state.data := by
      have value : known.lookup "data" = Option.map .ofData
        (if state.data.isNull then none else some state.data) := found "data" rfl
      by_cases null : state.data.isNull = true
      · rw [if_pos null] at value
        rw [defaulted, value]
        cases same : state.data <;> rw [same] at null <;> first | rfl | cases null
      · rw [if_neg null] at value
        exact defaulted_of value kept
    rw [required_of (found "workflowId" rfl) (text _), ok_bind,
      required_of (found "executionId" rfl) (text _), ok_bind,
      required_of (found "currentNodeId" rfl) (text _), ok_bind,
      required_of (found "variables" rfl) vars, ok_bind,
      required_of (found "nodeOutputs" rfl) outputs, ok_bind,
      required_of (found "nodesExecuted" rfl) history, ok_bind,
      required_of (found "waitingFor" rfl) wait, ok_bind,
      defaulted_of (found "reason" rfl) (text _), ok_bind, left, ok_bind,
      optional_of (found "timeoutAt" rfl) deadline, ok_bind,
      optional_text (found "timeoutNode" rfl), ok_bind,
      required_of (found "pausedAt" rfl) paused, ok_bind,
      defaulted_of (found "startedAt" rfl) started]
    rfl

end Suspended

namespace Exchange

/-- Definitions and suspended runs whose objects are in order, as their types promise, are decoded
from what they are encoded as, if the texts of a run's times are. Every definition that is decoded
from data is one of those. -/
theorem decodes_what_it_encodes :
    (∀ d : Definition, d.Proper → Definition.ofData d.toData = .ok d) ∧
    (∀ state : Suspended, state.Proper →
      (∀ t ∈ state.times, Instant.parse t.zuluText = .ok t) →
      ∀ now, Suspended.decode now (.ofData state.toData) = .ok state) ∧
    ∀ (j : Data) (d : Definition), Definition.ofData j = .ok d →
      d.Proper ∧ Definition.ofData d.toData = .ok d :=
  ⟨fun _ proper => Definition.decode_toData proper,
    fun _ proper timed now => Suspended.decode_toData proper timed now,
    fun _ _ decoded => ⟨Definition.proper_of_decode decoded,
      Definition.decode_toData (Definition.proper_of_decode decoded)⟩⟩

/-- A workflow with a node of every kind. -/
def motley : Definition where
  id := "motley"
  name := "Motley"
  vars := [("a", .arr [.null, .obj [("b", .num (.int 1)), ("c", .bool true)]])]
  start := "fork"
  nodes := [
    { id := "fork", kind := .parallel ["call", "choose"] false, next := some (.many []) },
    { id := "call", kind := .procedure none [("x", .str "y")], onError := some "end" },
    { id := "choose", kind := .condition { switch := some "tier", cases := [("vip", "call")] } },
    { id := "wait", kind := .await ["go"] (some "true") (some ⟨1000, some "end"⟩),
      next := some (.many ["call", "end"]) },
    { id := "end", kind := .sequential, next := some (.one "fork") }]
  trigger := some { provider := "hook", procedure := "hook.watch" }

/-- The workflow waits. -/
def motleyWait : Suspended where
  workflow := "motley"
  execution := "1"
  node := "wait"
  vars := [("a", .null)]
  outputs := []
  history := ["fork", "wait"]
  wait := { names := ["go"], filter := some "true" }
  data := .obj [("k", .str "v")]
  deadline := some ⟨1, 0⟩
  deadlineNode := some "end"
  pausedAt := ⟨0, 7⟩
  startedAt := ⟨0, 0⟩

theorem decodes_what_it_encodes_motley :
    motley.Proper ∧ motleyWait.Proper ∧
      (∀ t ∈ motleyWait.times, Instant.parse t.zuluText = .ok t) ∧
      Definition.ofData motley.toData = .ok motley ∧
      Suspended.decode ⟨0, 0⟩ (.ofData motleyWait.toData) = .ok motleyWait := by
  have sorted : ∀ name (v : Data), Fields.Sorted [(name, v)] :=
    fun name v => List.pairwise_singleton ..
  have proper : motley.Proper := by
    refine ⟨⟨sorted .., ⟨trivial, ⟨⟨?_, trivial, trivial, trivial⟩, trivial⟩⟩, trivial⟩, ?_, ?_⟩
    · exact List.pairwise_pair.mpr (by decide)
    · simp only [motley, List.forall_mem_cons]
      refine ⟨trivial, ⟨sorted .., trivial, trivial⟩, List.pairwise_singleton .., ?_, trivial,
        nofun⟩
      rintro t ⟨⟩
      decide
    · rintro t ⟨⟩
      exact ⟨List.Pairwise.nil, trivial⟩
  have proper' : motleyWait.Proper :=
    ⟨⟨sorted .., trivial, trivial⟩, ⟨List.Pairwise.nil, trivial⟩, ⟨sorted .., trivial, trivial⟩⟩
  have timed : ∀ t ∈ motleyWait.times, Instant.parse t.zuluText = .ok t := by decide +kernel
  exact ⟨proper, proper', timed, decodes_what_it_encodes.1 _ proper,
    decodes_what_it_encodes.2.1 _ proper' timed _⟩

end Exchange

end DurableFlow
