import DurableFlow.Definition.Exchange
import DurableFlow.Proofs.Source.Decoding

/-!
# Definitions are decoded as they were

Each part of a definition is written as a record, some of whose fields are left out. The entries of
the record say which they are, and what is left out is what a reader takes for granted, so each
part is read back from its entries.
-/

namespace DurableFlow

open Decode

/-- The types of a node's parts hold durations of 64 bits and objects with their names in order. -/
def NodeKind.Proper : NodeKind → Prop
  | .procedure _ config => (Data.obj config).Sorted
  | .condition c => Fields.Sorted c.cases
  | .await _ _ timeout => ∀ t ∈ timeout, t.durationMs < 2 ^ (64 : Nat)
  | .parallel .. => True
  | .sequential => True

/-- The types of a definition's parts hold objects with their names in order. -/
structure Definition.Proper (d : Definition) : Prop where
  vars : (Data.obj d.vars).Sorted
  nodes : ∀ node ∈ d.nodes, node.kind.Proper
  trigger : ∀ t ∈ d.trigger, (Data.obj t.subscriptionConfig).Sorted

theorem AwaitTimeout.decode_toData {t : AwaitTimeout} (small : t.durationMs < 2 ^ (64 : Nat)) :
    decode (.ofData t.toData) = .ok t := by
  have entries : t.toData = .ofPairs (present
      [("durationMs", some (.nat t.durationMs)), ("node", t.node.map .str)]) := by
    simp [toData, present_cons, Exchange.textIfSome]
  have duration := nat64_nat small
  rw [decode, entries]
  refine record_bind (show ["durationMs", "node"].Nodup by decide) ?_ fun known found => ?_
  · simp only [List.forall_mem_cons]
    exact ⟨checked_some rfl duration, checked_text rfl _, nofun⟩
  · rw [required_of (found "durationMs" rfl) duration, ok_bind,
      optional_text (found "node" rfl)]
    rfl

theorem AwaitTimeout.sorted_toData (t : AwaitTimeout) : t.toData.Sorted := by
  refine Data.sorted_ofPairs (List.forall_mem_cons.mpr ⟨trivial, fun field member => ?_⟩)
  obtain ⟨_, node⟩ := t
  cases node with
  | none => cases member
  | some id =>
    rw [List.mem_singleton.mp member]
    trivial

theorem Trigger.decode_toData {t : Trigger} (sorted : (Data.obj t.subscriptionConfig).Sorted) :
    decode (.ofData t.toData) = .ok t := by
  have entries : t.toData = .ofPairs (present [("provider", some (.str t.provider)),
      ("triggerProcedureName", some (.str t.procedure)), ("eventType", t.eventType.map .str),
      ("subscriptionConfig", some (.obj t.subscriptionConfig))]) := by
    simp [toData, present_cons, Exchange.textIfSome]
  have text : ∀ s, string (.ofData (.str s)) = .ok s := fun _ => rfl
  have config := map_data sorted
  rw [decode, entries]
  refine record_bind (show ["provider", "triggerProcedureName", "eventType",
    "subscriptionConfig"].Nodup by decide) ?_ fun known found => ?_
  · simp only [List.forall_mem_cons]
    exact ⟨checked_some rfl (text _), checked_some rfl (text _), checked_text rfl _,
      checked_some rfl config, nofun⟩
  · rw [required_of (found "provider" rfl) (text _), ok_bind,
      required_of (found "triggerProcedureName" rfl) (text _), ok_bind,
      optional_text (found "eventType" rfl), ok_bind,
      defaulted_of (found "subscriptionConfig" rfl) config]
    rfl

theorem mapM_text? (ids : List String) : (ids.map Data.str).mapM Data.text? = some ids := by
  induction ids with
  | nil => rfl
  | cons id rest ih =>
    rw [List.map_cons, List.mapM_cons, ih]
    rfl

theorem Next.decode_toData (next : Next) : decode (.ofData next.toData) = .ok next := by
  cases next with
  | one id => rfl
  | many ids =>
    simp only [decode, toData, data_ofData _ (Data.sorted_texts ids)]
    simp only [Data.texts, mapM_text?]

namespace NodeKind

/-- The fields of a node that its kind has, with the values that they have. -/
def entries (kind : NodeKind) : List (String × Option Data) :=
  ("type", some (.str kind.name)) ::
  match kind with
  | procedure name config => [("procedureName", name.map .str), ("config", some (.obj config))]
  | condition c =>
    [("expression", c.expression.map .str), ("trueBranch", c.trueBranch.map .str),
      ("falseBranch", c.falseBranch.map .str), ("switch", c.switch.map .str),
      ("cases", if c.cases.isEmpty then none else some (.obj (Fields.mapValues .str c.cases))),
      ("default", c.fallback.map .str)]
  | parallel branches waitForAll =>
    [("branches", some (.texts branches)), ("waitForAll", some (.bool waitForAll))]
  | sequential => []
  | await procedures filter timeout =>
    [("procedures", some (.texts procedures)), ("filter", filter.map .str),
      ("timeout", timeout.map AwaitTimeout.toData)]

theorem fields_eq (kind : NodeKind) : kind.fields = present kind.entries := by
  cases kind with
  | condition c =>
    obtain ⟨_, _, _, _, cases, _⟩ := c
    cases cases <;> simp [fields, entries, present_cons, Exchange.textIfSome, Exchange.ifSome]
  | _ => simp [fields, entries, present_cons, Exchange.textIfSome]

/-- No field of a kind is one that every node has. -/
theorem ownFields_entries (kind : NodeKind) :
    ∀ entry ∈ kind.entries, (Node.ownFields.find? (·.name == entry.1)).isSome = false := by
  cases kind <;> simp only [entries, List.forall_mem_cons] <;> decide

theorem nodup_entries (kind : NodeKind) : (kind.entries.map Prod.fst).Nodup := by
  cases kind <;> simp only [entries, List.map_cons, List.map_nil] <;> decide

/-- What the fields of a kind hold is in order. -/
theorem sorted_entries {kind : NodeKind} (proper : kind.Proper) :
    ∀ entry ∈ kind.entries, ∀ v, entry.2 = some v → v.Sorted := by
  have text : ∀ (value : Option String) v, value.map Data.str = some v → v.Sorted := by
    rintro (_ | s) v ⟨⟩
    trivial
  refine List.forall_mem_cons.mpr ⟨by rintro v ⟨⟩; trivial, ?_⟩
  cases kind with
  | procedure name config =>
    simp only [List.forall_mem_cons]
    exact ⟨text name, by rintro v ⟨⟩; exact proper, nofun⟩
  | condition c =>
    simp only [List.forall_mem_cons]
    refine ⟨text _, text _, text _, text _, fun v given => ?_, text _, nofun⟩
    split at given <;> cases given
    refine ⟨Fields.Sorted.mapValues proper _, Data.sortedFields_iff.mpr fun field member => ?_⟩
    obtain ⟨_, -, rfl⟩ := List.mem_map.mp member
    trivial
  | parallel branches waitForAll =>
    simp only [List.forall_mem_cons]
    exact ⟨by rintro v ⟨⟩; exact Data.sorted_texts branches, by rintro v ⟨⟩; trivial, nofun⟩
  | sequential => nofun
  | await procedures filter timeout =>
    simp only [List.forall_mem_cons]
    refine ⟨by rintro v ⟨⟩; exact Data.sorted_texts procedures, text filter, fun v given => ?_,
      nofun⟩
    cases timeout with
    | none => cases given
    | some t =>
      cases given
      exact t.sorted_toData

theorem nameAmong_some {fields : List (String × Source)} (fresh : "type" ∉ fields.map Prod.fst)
    (name : String) : nameAmong (some name) fields = .ok name := by
  induction fields with
  | nil => rfl
  | cons field rest ih =>
    obtain ⟨other, later⟩ := not_or.mp (mt List.mem_cons.mpr fresh)
    rw [nameAmong, if_neg (Ne.symm other)]
    exact ih later

/-- The name of the kind is found wherever it stands. -/
theorem nameAmong_none {fields : List (String × Source)} (distinct : (fields.map Prod.fst).Nodup)
    {v : Source} {name : String} (found : fields.lookup "type" = some v)
    (named : decodeName v = .ok name) : nameAmong none fields = .ok name := by
  induction fields with
  | nil => cases found
  | cons field rest ih =>
    obtain ⟨other, value⟩ := field
    obtain ⟨fresh, distinct⟩ := List.nodup_cons.mp distinct
    rw [List.lookup_cons] at found
    by_cases here : "type" = other
    · subst here
      cases found
      rw [nameAmong, if_pos rfl]
      simp only [named]
      exact nameAmong_some fresh name
    · rw [beq_eq_false_iff_ne.mpr here] at found
      rw [nameAmong, if_neg (Ne.symm here)]
      exact ih distinct found

theorem decodeName_name (kind : NodeKind) :
    decodeName (.ofData (.str kind.name)) = .ok kind.name := by
  cases kind <;> rfl

section Kinds

variable {fields : List (String × Data)}

theorem decodeProcedure_ofFields {name : Option String} {config : Fields Data}
    (sorted : (Data.obj config).Sorted) (stands : Stands fields (procedure name config).entries) :
    decodeProcedure (Source.ofFields fields) = .ok (.procedure name config) := by
  have read := map_data sorted
  refine stands.bind ?_ fun known found => ?_
  · simp only [entries, List.forall_mem_cons]
    exact ⟨checked_none rfl _, checked_text rfl _, checked_some rfl read, nofun⟩
  · rw [optional_text (found "procedureName" rfl), ok_bind,
      defaulted_of (found "config" rfl) read]
    rfl

theorem decodeCondition_ofFields {c : Condition} (sorted : Fields.Sorted c.cases)
    (stands : Stands fields (condition c).entries) :
    decodeCondition (Source.ofFields fields) = .ok (.condition c) := by
  have read : Decode.map string (.ofData (.obj (Fields.mapValues .str c.cases))) = .ok c.cases :=
    map_obj sorted fun _ _ => rfl
  refine stands.bind ?_ fun known found => ?_
  · simp only [entries, List.forall_mem_cons]
    refine ⟨checked_none rfl _, checked_text rfl _, checked_text rfl _, checked_text rfl _,
      checked_text rfl _, ?_, checked_text rfl _, nofun⟩
    split
    · nofun
    · exact checked_some rfl read
  · have cases : defaulted known "cases" (Decode.map string) [] = .ok c.cases := by
      have value : known.lookup "cases" = Option.map .ofData (if c.cases.isEmpty then none
          else some (.obj (Fields.mapValues .str c.cases))) := found "cases" rfl
      by_cases empty : c.cases.isEmpty = true
      · rw [if_pos empty] at value
        rw [defaulted, value, List.isEmpty_iff.mp empty]
        rfl
      · rw [if_neg empty] at value
        exact defaulted_of value read
    rw [optional_text (found "expression" rfl), ok_bind,
      optional_text (found "trueBranch" rfl), ok_bind,
      optional_text (found "falseBranch" rfl), ok_bind,
      optional_text (found "switch" rfl), ok_bind, cases, ok_bind,
      optional_text (found "default" rfl)]
    rfl

theorem decodeParallel_ofFields {branches : List String} {waitForAll : Bool}
    (stands : Stands fields (parallel branches waitForAll).entries) :
    decodeParallel (Source.ofFields fields) = .ok (.parallel branches waitForAll) := by
  have flag : Decode.bool (.ofData (.bool waitForAll)) = .ok waitForAll := rfl
  refine stands.bind ?_ fun known found => ?_
  · simp only [entries, List.forall_mem_cons]
    exact ⟨checked_none rfl _, checked_some rfl (list_texts _), checked_some rfl flag, nofun⟩
  · rw [required_of (found "branches" rfl) (list_texts _), ok_bind,
      defaulted_of (found "waitForAll" rfl) flag]
    rfl

theorem decodeAwait_ofFields {procedures : List String} {filter : Option String}
    {timeout : Option AwaitTimeout} (small : ∀ t ∈ timeout, t.durationMs < 2 ^ (64 : Nat))
    (stands : Stands fields (await procedures filter timeout).entries) :
    decodeAwait (Source.ofFields fields) = .ok (.await procedures filter timeout) := by
  have read : ∀ t ∈ timeout, option AwaitTimeout.decode (.ofData t.toData) = .ok (some t) :=
    fun t given => option_ofData rfl (AwaitTimeout.decode_toData (small t given))
  refine stands.bind ?_ fun known found => ?_
  · simp only [entries, List.forall_mem_cons]
    exact ⟨checked_none rfl _, checked_some rfl (list_texts _), checked_text rfl _,
      checked_map rfl read, nofun⟩
  · rw [required_of (found "procedures" rfl) (list_texts _), ok_bind,
      optional_text (found "filter" rfl), ok_bind, optional_of (found "timeout" rfl) read]
    rfl

/-- A kind is read back from the fields that it has. -/
theorem decode_ofFields {kind : NodeKind} (proper : kind.Proper)
    (stands : Stands fields kind.entries) : decode (Source.ofFields fields) = .ok kind := by
  have distinct : ((Source.ofFields fields).map Prod.fst).Nodup := by
    rw [Source.ofFields_eq_map, Fields.mapValues, List.map_map]
    exact stands.distinct
  have found : (Source.ofFields fields).lookup "type" = some (.ofData (.str kind.name)) := by
    rw [Source.lookup_ofFields, stands.found]
    rfl
  rw [decode, nameAmong_none distinct found (decodeName_name kind), ok_bind]
  cases kind with
  | procedure name config => exact decodeProcedure_ofFields proper stands
  | condition c => exact decodeCondition_ofFields proper stands
  | parallel branches waitForAll => exact decodeParallel_ofFields stands
  | sequential => rfl
  | await procedures filter timeout => exact decodeAwait_ofFields proper stands

end Kinds

end NodeKind

namespace Node

/-- Whether every node has a field of a name. -/
def isOwn (name : String) : Bool := (ownFields.find? (·.name == name)).isSome

/-- The fields of a node with the values that they have. -/
def entries (node : Node) : List (String × Option Data) :=
  ("id", some (.str node.id)) :: node.kind.entries ++
    [("next", node.next.map Next.toData), ("onError", node.onError.map .str)]

theorem splitFields_ofFields {fields : List (String × Data)}
    (distinct : (Fields.names fields).Nodup) {seen : List String}
    (fresh : ∀ name ∈ seen, name ∉ Fields.names fields)
    (checked : ∀ field ∈ fields, Checked ownFields (field.1, some field.2))
    (sorted : ∀ field ∈ fields, isOwn field.1 = false → field.2.Sorted) :
    splitFields seen (Source.ofFields fields) =
      .ok (Source.ofFields (fields.filter fun field => isOwn field.1),
        Source.ofFields (fields.filter fun field => !isOwn field.1)) := by
  induction fields generalizing seen with
  | nil => rfl
  | cons field rest ih =>
    obtain ⟨name, v⟩ := field
    obtain ⟨other, distinct⟩ := List.nodup_cons.mp distinct
    obtain ⟨first, later⟩ := List.forall_mem_cons.mp checked
    obtain ⟨ordered, others⟩ := List.forall_mem_cons.mp sorted
    have unseen : name ∉ seen := fun member => fresh name member List.mem_cons_self
    rw [Source.ofFields, splitFields, List.filter_cons, List.filter_cons]
    cases found : ownFields.find? (·.name == name) with
    | none =>
      have foreign : isOwn name = false := by rw [isOwn, found, Option.isSome_none]
      have further : ∀ n ∈ seen, n ∉ Fields.names rest := fun n member among =>
        fresh n member (List.mem_cons_of_mem _ among)
      simp only [data_ofData v (ordered foreign), ih distinct further later others, foreign,
        Source.settled_ofData]
      rfl
    | some spec =>
      have own : isOwn name = true := by rw [isOwn, found, Option.isSome_some]
      have further : ∀ n ∈ name :: seen, n ∉ Fields.names rest := by
        refine List.forall_mem_cons.mpr ⟨other, fun n member among => ?_⟩
        exact fresh n member (List.mem_cons_of_mem _ among)
      simp only [if_neg unseen, first spec v found rfl, ih distinct further later others, own]
      rfl

theorem nodup_entries (node : Node) : (node.entries.map Prod.fst).Nodup := by
  obtain ⟨id, kind, next, onError⟩ := node
  cases kind <;> simp only [entries, NodeKind.entries, List.map_cons, List.map_nil,
    List.cons_append, List.nil_append] <;> decide

theorem lookup_entries (node : Node) :
    node.entries.lookup "id" = some (some (.str node.id)) ∧
      node.entries.lookup "next" = some (node.next.map Next.toData) ∧
      node.entries.lookup "onError" = some (node.onError.map .str) := by
  obtain ⟨id, kind, next, onError⟩ := node
  cases kind <;> exact ⟨rfl, rfl, rfl⟩

theorem filter_entries (node : Node) :
    (node.entries.filter fun entry => !isOwn entry.1) = node.kind.entries := by
  have kept : (node.kind.entries.filter fun entry => !isOwn entry.1) = node.kind.entries :=
    List.filter_eq_self.mpr fun entry member => by
      rw [isOwn, node.kind.ownFields_entries entry member, Bool.not_false]
  have own : (!isOwn "id") = false ∧ (!isOwn "next") = false ∧ (!isOwn "onError") = false := by
    decide
  simp only [entries, List.cons_append, List.filter_cons, List.filter_append, List.filter_nil, own,
    kept, Bool.false_eq_true, if_false, List.append_nil]

theorem decode_toData {node : Node} (proper : node.kind.Proper) :
    decode (.ofData node.toData) = .ok node := by
  have entries : node.toData = .ofPairs (present node.entries) := by
    have split : ∀ first second : List (String × Option Data),
        present (first ++ second) = present first ++ present second :=
      fun first second => List.filterMap_append
    simp [toData, Node.entries, present_cons, split, NodeKind.fields_eq, Exchange.textIfSome]
  have text : ∀ s, string (.ofData (.str s)) = .ok s := fun _ => rfl
  have next : ∀ n ∈ node.next, option Next.decode (.ofData n.toData) = .ok (some n) := by
    intro n _
    exact option_ofData (by cases n <;> rfl) n.decode_toData
  have stands := stands_present node.nodup_entries
  have checked : ∀ entry ∈ node.entries, Checked ownFields entry := by
    refine List.forall_mem_append.mpr ⟨List.forall_mem_cons.mpr ⟨checked_some rfl (text _), ?_⟩, ?_⟩
    · intro entry member
      have foreign := node.kind.ownFields_entries entry member
      exact checked_none (Option.not_isSome_iff_eq_none.mp (by rw [foreign]; decide)) _
    · simp only [List.forall_mem_cons]
      exact ⟨checked_map rfl next, checked_text rfl _, nofun⟩
  have sorted : ∀ field ∈ Fields.ofList (present node.entries),
      isOwn field.1 = false → field.2.Sorted := by
    intro field member foreign
    have among : (field.1, some field.2) ∈
        node.entries.filter fun entry => !isOwn entry.1 :=
      List.mem_filter.mpr ⟨stands.members _ _ member, by rw [foreign, Bool.not_false]⟩
    rw [filter_entries] at among
    exact NodeKind.sorted_entries proper _ among _ rfl
  have separated := splitFields_ofFields stands.distinct (fun _ member =>
    (List.not_mem_nil member).elim)
    (fun field member => checked _ (stands.members _ _ member)) sorted
  have others := stands.filter fun name => !isOwn name
  rw [filter_entries] at others
  have found : ∀ name, isOwn name = true →
      (Source.ofFields ((Fields.ofList (present node.entries)).filter fun field =>
        isOwn field.1)).lookup name = (node.entries.lookup name).join.map .ofData := by
    intro name own
    rw [Source.lookup_ofFields, Fields.get?_filter isOwn, if_pos own, stands.found]
  obtain ⟨id, following, redirect⟩ := node.lookup_entries
  rw [entries]
  simp only [decode, Data.ofPairs, Source.ofData, Source.untagged, separated, ok_bind, stopError]
  rw [required_of ((found "id" rfl).trans (by rw [id]; rfl)) (text node.id), ok_bind,
    optional_of ((found "next" rfl).trans (by rw [following]; rfl)) next, ok_bind,
    optional_text ((found "onError" rfl).trans (by rw [redirect]; rfl)), ok_bind,
    NodeKind.decode_ofFields proper others]
  rfl

end Node

theorem Definition.decode_toData {d : Definition} (proper : d.Proper) :
    Definition.ofData d.toData = .ok d := by
  have entries : d.toData = .ofPairs (present [("id", some (.str d.id)),
      ("name", some (.str d.name)), ("version", some (.str d.version)),
      ("variables", some (.obj d.vars)), ("startNodeId", some (.str d.start)),
      ("nodes", some (.arr (d.nodes.map Node.toData))),
      ("trigger", d.trigger.map Trigger.toData)]) := by
    simp [toData, present_cons]
  have text : ∀ s, string (.ofData (.str s)) = .ok s := fun _ => rfl
  have vars := map_data proper.vars
  have nodes : list Node.decode (.ofData (.arr (d.nodes.map Node.toData))) = .ok d.nodes :=
    list_arr fun node member => node.decode_toData (proper.nodes node member)
  have trigger : ∀ t ∈ d.trigger, option Trigger.decode (.ofData t.toData) = .ok (some t) :=
    fun t given => option_ofData rfl (Trigger.decode_toData (proper.trigger t given))
  rw [ofData, decode, entries]
  refine record_bind (show ["id", "name", "version", "variables", "startNodeId", "nodes",
    "trigger"].Nodup by decide) ?_ fun known found => ?_
  · simp only [List.forall_mem_cons]
    exact ⟨checked_some rfl (text _), checked_some rfl (text _), checked_some rfl (text _),
      checked_some rfl vars, checked_some rfl (text _), checked_some rfl nodes,
      checked_map rfl trigger, nofun⟩
  · rw [required_of (found "id" rfl) (text _), ok_bind,
      required_of (found "name" rfl) (text _), ok_bind,
      defaulted_of (found "version" rfl) (text _), ok_bind,
      defaulted_of (found "variables" rfl) vars, ok_bind,
      required_of (found "startNodeId" rfl) (text _), ok_bind,
      required_of (found "nodes" rfl) nodes, ok_bind, optional_of (found "trigger" rfl) trigger]
    rfl

section Decoded

theorem AwaitTimeout.lt_of_decode {v : Source} {t : AwaitTimeout} (h : decode v = .ok t) :
    t.durationMs < 2 ^ (64 : Nat) := by
  obtain ⟨known, -, h⟩ := bind_eq_ok_iff.mp h
  obtain ⟨duration, read, h⟩ := bind_eq_ok_iff.mp h
  obtain ⟨node, -, h⟩ := bind_eq_ok_iff.mp h
  cases h
  obtain ⟨v, number⟩ := exists_of_required read
  exact lt_of_nat64 number

theorem Trigger.sorted_of_decode {v : Source} {t : Trigger} (h : decode v = .ok t) :
    (Data.obj t.subscriptionConfig).Sorted := by
  obtain ⟨known, -, h⟩ := bind_eq_ok_iff.mp h
  obtain ⟨provider, -, h⟩ := bind_eq_ok_iff.mp h
  obtain ⟨procedure, -, h⟩ := bind_eq_ok_iff.mp h
  obtain ⟨eventType, -, h⟩ := bind_eq_ok_iff.mp h
  obtain ⟨config, read, h⟩ := bind_eq_ok_iff.mp h
  cases h
  exact sorted_of_defaulted read

theorem NodeKind.proper_of_decode {fields : List (String × Source)} {kind : NodeKind}
    (h : decode fields = .ok kind) : kind.Proper := by
  obtain ⟨name, -, h⟩ := bind_eq_ok_iff.mp h
  split at h
  · obtain ⟨known, -, h⟩ := bind_eq_ok_iff.mp h
    obtain ⟨name, -, h⟩ := bind_eq_ok_iff.mp h
    obtain ⟨config, read, h⟩ := bind_eq_ok_iff.mp h
    cases h
    exact sorted_of_defaulted read
  · obtain ⟨known, -, h⟩ := bind_eq_ok_iff.mp h
    obtain ⟨expression, -, h⟩ := bind_eq_ok_iff.mp h
    obtain ⟨trueBranch, -, h⟩ := bind_eq_ok_iff.mp h
    obtain ⟨falseBranch, -, h⟩ := bind_eq_ok_iff.mp h
    obtain ⟨switch, -, h⟩ := bind_eq_ok_iff.mp h
    obtain ⟨cases, read, h⟩ := bind_eq_ok_iff.mp h
    obtain ⟨fallback, -, h⟩ := bind_eq_ok_iff.mp h
    cases h
    obtain ⟨v, read⟩ | rfl := exists_of_defaulted read
    · exact (sorted_of_map read).1
    · exact List.Pairwise.nil
  · obtain ⟨known, -, h⟩ := bind_eq_ok_iff.mp h
    obtain ⟨branches, -, h⟩ := bind_eq_ok_iff.mp h
    obtain ⟨waitForAll, -, h⟩ := bind_eq_ok_iff.mp h
    cases h
    trivial
  · obtain ⟨known, -, h⟩ := bind_eq_ok_iff.mp h
    obtain ⟨procedures, -, h⟩ := bind_eq_ok_iff.mp h
    obtain ⟨filter, -, h⟩ := bind_eq_ok_iff.mp h
    obtain ⟨timeout, read, h⟩ := bind_eq_ok_iff.mp h
    cases h
    rintro t ⟨⟩
    obtain ⟨v, decoded⟩ := exists_of_optional read
    exact AwaitTimeout.lt_of_decode decoded
  · cases h
    trivial

theorem Node.proper_of_decode {v : Source} {node : Node} (h : decode v = .ok node) :
    node.kind.Proper := by
  rw [decode] at h
  split at h
  · obtain ⟨⟨own, others⟩, -, h⟩ := bind_eq_ok_iff.mp h
    obtain ⟨_, -, h⟩ := bind_eq_ok_iff.mp h
    obtain ⟨id, -, h⟩ := bind_eq_ok_iff.mp h
    obtain ⟨next, -, h⟩ := bind_eq_ok_iff.mp h
    obtain ⟨onError, -, h⟩ := bind_eq_ok_iff.mp h
    obtain ⟨kind, read, h⟩ := bind_eq_ok_iff.mp h
    cases h
    exact NodeKind.proper_of_decode read
  · cases h

/-- Whatever it is decoded from, a definition keeps what the types of its parts promise. -/
theorem Definition.proper_of_decode {v : Source} {d : Definition} (h : decode v = .ok d) :
    d.Proper := by
  obtain ⟨known, -, h⟩ := bind_eq_ok_iff.mp h
  obtain ⟨id, -, h⟩ := bind_eq_ok_iff.mp h
  obtain ⟨name, -, h⟩ := bind_eq_ok_iff.mp h
  obtain ⟨version, -, h⟩ := bind_eq_ok_iff.mp h
  obtain ⟨vars, bound, h⟩ := bind_eq_ok_iff.mp h
  obtain ⟨start, -, h⟩ := bind_eq_ok_iff.mp h
  obtain ⟨nodes, listed, h⟩ := bind_eq_ok_iff.mp h
  obtain ⟨trigger, triggered, h⟩ := bind_eq_ok_iff.mp h
  cases h
  refine ⟨sorted_of_defaulted bound, fun node member => ?_, ?_⟩
  · obtain ⟨v, read⟩ := exists_of_required listed
    obtain ⟨w, decoded⟩ := mem_of_list read node member
    exact Node.proper_of_decode decoded
  · rintro t ⟨⟩
    obtain ⟨v, decoded⟩ := exists_of_optional triggered
    exact Trigger.sorted_of_decode decoded

end Decoded

end DurableFlow
