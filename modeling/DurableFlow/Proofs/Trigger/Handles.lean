import DurableFlow.Proofs.Data.Bindings
import DurableFlow.Proofs.Ledger.Rows

/-!
# The handles of a subscription

What a trigger procedure has put out is kept as a whole, and two of its fields once more as texts.
The stop procedure is given all of it again, with the id as a text. A subscription that is read back
names the same handles, and all that it may differ in are floats that are not read for their own
text.
-/

namespace DurableFlow

open Exchange

namespace Subscription

/-- These fields are the metadata of a subscription, which has its handles from there. -/
structure Bears (s : Subscription) (fields : Fields Data) : Prop where
  metadata : s.metadata = .obj fields
  sorted : (Data.obj fields).Sorted
  channel : s.channel = (Fields.get? fields "channelId").bind Data.text?
  resource : s.resource = (Fields.get? fields "resourceId").bind Data.text?

section Output

variable {now : Instant} {workflow : String} {trigger : Trigger} {output : Data} {s : Subscription}

/-- A subscription is made of an output that has an id, for the provider and by the procedure of the
trigger. -/
theorem of_ofOutput (made : ofOutput now workflow trigger output = .ok s) :
    ∃ expiresAt, expiresAt? output = .ok expiresAt ∧ id? output = some s.id ∧
      s = { workflow, id := s.id, provider := trigger.provider, procedure := trigger.procedure
            channel := (output.field? "channelId").bind Data.text?
            resource := (output.field? "resourceId").bind Data.text?
            metadata := output, createdAt := now, expiresAt } := by
  unfold ofOutput at made
  cases id : id? output with
  | none =>
    rw [id] at made
    cases made
  | some text =>
    cases expires : expiresAt? output with
    | error fault =>
      rw [id, expires] at made
      cases made
    | ok expiresAt =>
      rw [id, expires] at made
      cases made
      exact ⟨expiresAt, rfl, rfl, rfl⟩

/-- Only an object has an id. -/
theorem obj_of_id? {text : String} (found : id? output = some text) :
    ∃ fields, output = .obj fields := by
  cases output with
  | obj fields => exact ⟨fields, rfl⟩
  | _ => cases found

theorem bears_of_ofOutput (made : ofOutput now workflow trigger output = .ok s)
    (sorted : output.Sorted) : ∃ fields, output = .obj fields ∧ s.Bears fields := by
  obtain ⟨expiresAt, -, id, is⟩ := of_ofOutput made
  obtain ⟨fields, rfl⟩ := obj_of_id? id
  rw [is]
  exact ⟨fields, rfl, rfl, sorted, rfl, rfl⟩

end Output

section Stopping

variable {s : Subscription} {fields : Fields Data}

/-- A handle that is written anew is there already. -/
theorem bound_of_textIfSome {name : String} {value : Option String} (id : Data)
    (other : name ≠ "id") (its : value = (Fields.get? fields name).bind Data.text?) :
    ∀ field ∈ textIfSome name value,
      Fields.get? (Fields.insert fields "id" id) field.1 = some field.2 := by
  intro field member
  cases value with
  | none => cases member
  | some text =>
    rw [List.mem_singleton.mp member, Fields.get?_insert, if_neg other]
    obtain ⟨v, found, same⟩ := Option.bind_eq_some_iff.mp its.symm
    cases v with
    | str text' => rw [found, ← Option.some.inj same]
    | _ => cases same

/-- The stop procedure is given the metadata with the id as a text, and nothing else has changed. -/
theorem Bears.stopInput_eq (bears : s.Bears fields) :
    s.stopInput = .obj (Fields.insert fields "id" (.str s.id)) := by
  have named : s.metadata.fields = fields := congrArg Data.fields bears.metadata
  have sorted : Fields.Sorted fields := bears.sorted.1
  have distinct : (Fields.names (("id", .str s.id) :: (textIfSome "channelId" s.channel ++
      textIfSome "resourceId" s.resource))).Nodup := by
    cases s.channel <;> cases s.resource <;> simp [Fields.names, textIfSome, ifSome]
  have bound := List.forall_mem_append.mpr
    ⟨bound_of_textIfSome (.str s.id) (by decide) bears.channel,
      bound_of_textIfSome (.str s.id) (by decide) bears.resource⟩
  rw [stopInput, named, List.cons_append, Fields.merge_ofList sorted distinct, Fields.merge_cons]
  exact congrArg Data.obj (Fields.merge_eq_of_bound (sorted.insert _ _)
    (List.nodup_cons.mp distinct).2 bound)

end Stopping

section Rereading

variable {s read : Subscription} {fields xs : Fields Data}

/-- A subscription is read back as it was, but for its metadata. -/
theorem Bears.echo?_eq_some_iff (bears : s.Bears fields) : s.echo? = some read ↔
    ∃ xs, Data.echoFields? fields = some xs ∧ read = { s with metadata := .obj xs } := by
  rw [Subscription.echo?, bears.metadata, Data.echo?, Option.map_map, Option.map_eq_some_iff]
  exact exists_congr fun xs => and_congr_right fun _ => eq_comm

theorem Bears.reread_eq_ok_iff (bears : s.Bears fields) : s.reread = .ok read ↔
    (Data.obj fields).depth < Source.Reader.maxDepth ∧
      ∃ xs, Data.echoFields? fields = some xs ∧ read = { s with metadata := .obj xs } := by
  have sorted : s.metadata.Sorted := bears.metadata ▸ bears.sorted
  rw [Subscription.reread_eq_ok_iff sorted, bears.echo?_eq_some_iff, bears.metadata]

/-- It has the same handles. -/
theorem Bears.echo (bears : s.Bears fields) (found : Data.echoFields? fields = some xs) :
    Bears { s with metadata := .obj xs } xs := by
  have echoes := echoFields?_eq_some_iff.mp found
  refine ⟨rfl, Source.sorted_echo? _ bears.sorted (echo?_obj.mpr found), ?_, ?_⟩
  · exact bears.channel.trans (text?_of_forall₂ echoes _).symm
  · exact bears.resource.trans (text?_of_forall₂ echoes _).symm

/-- The stop procedure is given the same again exactly if the floats beside the id are read for
their own texts. -/
theorem Bears.stopInput_reread_iff (bears : s.Bears fields)
    (held : ∀ n ∈ (Data.obj fields).numbers, n.InRange) (reads : s.reread = .ok read) :
    read.stopInput = s.stopInput ↔
      Number.FloatsLast (Data.obj (Fields.erase fields "id")).numbers := by
  obtain ⟨-, xs, found, rfl⟩ := bears.reread_eq_ok_iff.mp reads
  have others : ∀ n ∈ (Data.obj (Fields.erase fields "id")).numbers, n.InRange := by
    intro n member
    obtain ⟨field, among, its⟩ := Data.mem_numbersOfFields.mp member
    exact held n (Data.mem_numbersOfFields.mpr ⟨field, List.mem_of_mem_filter among, its⟩)
  have erased : Data.echoFields? (Fields.erase fields "id") = some (Fields.erase xs "id") :=
    echoFields?_eq_some_iff.mpr (forall₂_erase (echoFields?_eq_some_iff.mp found) "id")
  have bears' := bears.echo found
  rw [bears.stopInput_eq, bears'.stopInput_eq, Data.obj.injEq,
    Fields.insert_eq_insert_iff bears'.sorted.1 bears.sorted.1, Number.floatsLast_iff others,
    ← Data.echo?_eq_self_iff, echo?_obj, erased, Option.some.injEq]

end Rereading

end Subscription

end DurableFlow
