import DurableFlow.Ledger.Basic
import DurableFlow.Proofs.Run.Exchange
import DurableFlow.Proofs.Source.Rereading
import DurableFlow.Proofs.Time.Writing

/-!
# Rows are read back

The data of a row is kept as text. A row comes back as its echo: everything in it is as it was
saved, but each number of its data is the one that is read for its text. A row whose data nests too
deeply, or has a number that is too large once it is read, does not come back at all.
-/

namespace DurableFlow

open Decode

/-- Each float among the numbers is the one that is read for its text. -/
def Number.FloatsLast (numbers : List Number) : Prop :=
  ∀ x, .float x ∈ numbers → (Number.float x).echo? = some (.float x)

/-- Numbers in their range are all read as they were written if the floats are. -/
theorem Number.floatsLast_iff {numbers : List Number} (held : ∀ n ∈ numbers, n.InRange) :
    FloatsLast numbers ↔ ∀ n ∈ numbers, n.echo? = some n := by
  constructor
  · intro last n member
    cases n with
    | int i => exact Number.echo?_int (held _ member)
    | float x => exact last x member
  · exact fun each x member => each _ member

section Fields

variable {fields xs : Fields Data}

/-- The second field has the name of the first one and its value as it is read. -/
def Echoes (field read : String × Data) : Prop :=
  field.1 = read.1 ∧ field.2.echo? = some read.2

theorem echoFields?_eq_some_iff :
    Data.echoFields? fields = some xs ↔ List.Forall₂ Echoes fields xs := by
  induction fields generalizing xs with
  | nil => cases xs <;> simp [Data.echoFields?]
  | cons field rest ih =>
    rw [Data.echoFields?]
    constructor
    · intro found
      split at found
      · rename_i x xs first later
        cases found
        exact .cons ⟨rfl, first⟩ (ih.mp later)
      · cases found
    · rintro (_ | ⟨⟨name, value⟩, later⟩)
      rename_i read _
      obtain ⟨_, _⟩ := read
      cases name
      rw [value, ih.mpr later]

theorem forall₂_insert (echoes : List.Forall₂ Echoes fields xs)
    (name : String) {v x : Data} (found : v.echo? = some x) :
    List.Forall₂ Echoes (Fields.insert fields name v) (Fields.insert xs name x) := by
  induction echoes with
  | nil => exact .cons ⟨rfl, found⟩ .nil
  | @cons field read rest reads first later ih =>
    obtain ⟨other, v⟩ := field
    obtain ⟨_, x⟩ := read
    obtain ⟨rfl, value⟩ := first
    unfold Fields.insert
    split
    · exact .cons ⟨rfl, found⟩ (.cons ⟨rfl, value⟩ later)
    · split
      · exact .cons ⟨rfl, found⟩ later
      · exact .cons ⟨rfl, value⟩ ih

theorem forall₂_merge {base read delta : Fields Data} (start : List.Forall₂ Echoes base read)
    (echoes : List.Forall₂ Echoes delta xs) :
    List.Forall₂ Echoes (Fields.merge base delta) (Fields.merge read xs) := by
  induction echoes generalizing base read with
  | nil => exact start
  | @cons field read' rest reads first later ih =>
    obtain ⟨name, v⟩ := field
    obtain ⟨_, x⟩ := read'
    obtain ⟨rfl, value⟩ := first
    exact ih (forall₂_insert start name value)

/-- What depends neither on numbers nor on what is nested is the same of the data that is read. -/
theorem congr_echo? {α : Type} (f : Data → α) {v x : Data} (found : v.echo? = some x)
    (numbers : ∀ n m, f (.num n) = f (.num m)) (arrays : ∀ xs ys, f (.arr xs) = f (.arr ys))
    (objects : ∀ xs ys, f (.obj xs) = f (.obj ys)) : f x = f v := by
  cases v with
  | num n =>
    obtain ⟨m, -, rfl⟩ := Option.map_eq_some_iff.mp found
    exact numbers m n
  | arr items =>
    obtain ⟨ys, -, rfl⟩ := Option.map_eq_some_iff.mp found
    exact arrays ys items
  | obj fields =>
    obtain ⟨ys, -, rfl⟩ := Option.map_eq_some_iff.mp found
    exact objects ys fields
  | _ =>
    cases found
    rfl

theorem text?_echo? {v x : Data} (found : v.echo? = some x) : x.text? = v.text? :=
  congr_echo? Data.text? found (fun _ _ => rfl) (fun _ _ => rfl) fun _ _ => rfl

theorem isNull_echo? {v x : Data} (found : v.echo? = some x) : x.isNull = v.isNull :=
  congr_echo? Data.isNull found (fun _ _ => rfl) (fun _ _ => rfl) fun _ _ => rfl

/-- Texts are read as they are. -/
theorem text?_of_forall₂ (echoes : List.Forall₂ Echoes fields xs) (name : String) :
    (Fields.get? xs name).bind Data.text? = (Fields.get? fields name).bind Data.text? := by
  induction echoes with
  | nil => rfl
  | @cons field read rest later first _ ih =>
    obtain ⟨n, v⟩ := field
    obtain ⟨_, x⟩ := read
    obtain ⟨rfl, echo⟩ := first
    rw [Fields.get?_cons, Fields.get?_cons]
    split
    · exact text?_echo? echo
    · exact ih

theorem forall₂_erase (echoes : List.Forall₂ Echoes fields xs) (name : String) :
    List.Forall₂ Echoes (Fields.erase fields name) (Fields.erase xs name) :=
  List.rel_filter (fun _ _ same => iff_of_eq (congrArg (fun n => (n != name) = true) same.1)) echoes

/-- An object of pairs is read as the object of the pairs that are read. -/
theorem echo?_ofPairs {pairs xs : List (String × Data)} (echoes : List.Forall₂ Echoes pairs xs) :
    (Data.ofPairs pairs).echo? = some (.ofPairs xs) := by
  have fields : List.Forall₂ Echoes (Fields.ofList pairs) (Fields.ofList xs) :=
    forall₂_merge .nil echoes
  rw [Data.ofPairs, Data.echo?, echoFields?_eq_some_iff.mpr fields]
  rfl

theorem echo?_texts (texts : List String) : (Data.texts texts).echo? = some (.texts texts) := by
  have items : Data.echoItems? (texts.map .str) = some (texts.map .str) := by
    induction texts with
    | nil => rfl
    | cons s rest ih => rw [List.map_cons, Data.echoItems?, ih]; rfl
  rw [Data.texts, Data.echo?, items]
  rfl

theorem echoes_textIfSome (name : String) (value : Option String) :
    List.Forall₂ Echoes (Exchange.textIfSome name value) (Exchange.textIfSome name value) := by
  cases value with
  | none => exact .nil
  | some s => exact .cons ⟨rfl, rfl⟩ .nil

theorem Wait.echo?_toData (wait : Wait) : wait.toData.echo? = some wait.toData :=
  echo?_ofPairs (.cons ⟨rfl, echo?_texts wait.names⟩ (echoes_textIfSome "filter" wait.filter))

theorem Data.mem_numbersOfFields {n : Number} :
    n ∈ Data.numbersOfFields fields ↔ ∃ field ∈ fields, n ∈ field.2.numbers := by
  induction fields with
  | nil => simp [Data.numbersOfFields]
  | cons field rest ih => simp [Data.numbersOfFields, ih]

end Fields

theorem ofDecode_eq_ok_iff {α : Type} {result : Except DecodeError α} {x : α} :
    Failure.ofDecode result = .ok x ↔ result = .ok x := by
  cases result <;> simp [Failure.ofDecode]

section Suspensions

/-- The suspended run with the numbers of its data as they are read. -/
def Suspended.echo? (state : Suspended) : Option Suspended :=
  match Data.echoFields? state.vars, Data.echoFields? state.outputs, state.data.echo? with
  | some vars, some outputs, some data => some { state with vars, outputs, data }
  | _, _, _ => none

variable {state read : Suspended}

theorem echo?_obj {fields xs : Fields Data} :
    (Data.obj fields).echo? = some (.obj xs) ↔ Data.echoFields? fields = some xs := by
  simp [Data.echo?]

/-- The parts of a suspended run that is read back. -/
theorem Suspended.echo?_eq_some_iff : state.echo? = some read ↔
    ∃ vars outputs data, Data.echoFields? state.vars = some vars ∧
      Data.echoFields? state.outputs = some outputs ∧ state.data.echo? = some data ∧
      read = { state with vars, outputs, data } := by
  unfold Suspended.echo?
  constructor
  · intro found
    split at found
    · rename_i vars outputs data is is' is''
      exact ⟨vars, outputs, data, is, is', is'', (Option.some.inj found).symm⟩
    · cases found
  · rintro ⟨vars, outputs, data, is, is', is'', rfl⟩
    rw [is, is', is'']

theorem Suspended.echo?_toData (found : state.echo? = some read) :
    state.toData.echo? = some read.toData := by
  obtain ⟨vars, outputs, data, is, is', is'', rfl⟩ := Suspended.echo?_eq_some_iff.mp found
  refine echo?_ofPairs (List.rel_append (List.rel_append (List.rel_append (List.rel_append ?_ ?_)
    (echoes_textIfSome ..)) (echoes_textIfSome ..)) ?_)
  · exact .cons ⟨rfl, rfl⟩ (.cons ⟨rfl, rfl⟩ (.cons ⟨rfl, rfl⟩ (.cons ⟨rfl, echo?_obj.mpr is⟩
      (.cons ⟨rfl, echo?_obj.mpr is'⟩ (.cons ⟨rfl, echo?_texts _⟩
      (.cons ⟨rfl, Wait.echo?_toData _⟩ (.cons ⟨rfl, rfl⟩ .nil)))))))
  · show List.Forall₂ Echoes (if state.data.isNull then [] else _) (if data.isNull then [] else _)
    rw [isNull_echo? is'']
    split
    · exact .nil
    · exact .cons ⟨rfl, is''⟩ .nil
  · exact .cons ⟨rfl, rfl⟩ (.cons ⟨rfl, rfl⟩ .nil)

theorem Suspended.Proper.echo? (proper : state.Proper) (found : state.echo? = some read) :
    read.Proper := by
  obtain ⟨vars, outputs, data, is, is', is'', rfl⟩ := Suspended.echo?_eq_some_iff.mp found
  exact ⟨Source.sorted_echo? _ proper.vars (echo?_obj.mpr is),
    Source.sorted_echo? _ proper.outputs (echo?_obj.mpr is'),
    Source.sorted_echo? _ proper.data is''⟩

theorem echoFields_eq_map (fields : List (String × Data)) :
    Source.echoFields fields = Fields.mapValues Source.echo fields := by
  induction fields with
  | nil => rfl
  | cons field rest ih =>
    rw [Source.echoFields, ih]
    rfl

/-- The fields of a suspended run that hold data are decoded if the run is. -/
theorem Suspended.decoded {now : Instant} {fields : List (String × Source)}
    {stop : Option TextFault} (success : Suspended.decode now (.obj fields stop) = .ok read)
    {name : String} {s : Source} (member : (name, s) ∈ fields) :
    (name = "variables" ∨ name = "nodeOutputs" → ∃ xs, Decode.map Decode.data s = .ok xs) ∧
      (name = "data" → ∃ x, Decode.data s = .ok x) := by
  obtain ⟨known, taken, -⟩ := bind_eq_ok_iff.mp success
  refine ⟨?_, ?_⟩
  · rintro (rfl | rfl)
    · have passes : (FieldSpec.of "variables" (Decode.map Decode.data)).check s = .ok () :=
        check_of_record stop taken member rfl
      exact decoded_of_check passes
    · have passes : (FieldSpec.of "nodeOutputs" (Decode.map Decode.data)).check s = .ok () :=
        check_of_record stop taken member rfl
      exact decoded_of_check passes
  · rintro rfl
    have passes : (FieldSpec.of "data" Decode.data).check s = .ok () :=
      check_of_record stop taken member rfl
    exact decoded_of_check passes

theorem Suspended.nodup_entries (state : Suspended) : (state.entries.map Prod.fst).Nodup :=
  show ["workflowId", "executionId", "currentNodeId", "variables", "nodeOutputs", "nodesExecuted",
    "waitingFor", "reason", "data", "timeoutAt", "timeoutNode", "pausedAt", "startedAt"].Nodup by
  decide

theorem Suspended.mem_fields {name : String} {v : Data}
    (found : (state.entries.lookup name).join = some v) :
    (name, v) ∈ Fields.ofList (present state.entries) :=
  Fields.mem_of_get? (by rw [(stands_present state.nodup_entries).found, found])

theorem Suspended.echo?_of_decode {now : Instant}
    (success : Suspended.decode now (Source.echo state.toData) = .ok read) :
    ∃ found, state.echo? = some found := by
  rw [Suspended.toData_eq] at success
  have among : ∀ name v, (state.entries.lookup name).join = some v →
      (name, Source.echo v) ∈ Source.echoFields (Fields.ofList (present state.entries)) := by
    intro name v found
    rw [echoFields_eq_map]
    exact List.mem_map.mpr ⟨_, Suspended.mem_fields found, rfl⟩
  have fields : ∀ name xs, (name = "variables" ∨ name = "nodeOutputs") →
      (state.entries.lookup name).join = some (.obj xs) →
      ∃ ys, Data.echoFields? xs = some ys := by
    intro name xs known found
    obtain ⟨ys, is⟩ := (Suspended.decoded success (among name _ found)).1 known
    obtain ⟨x, echo⟩ := Source.echo?_of_data (.obj xs) (data_of_map_data is)
    obtain ⟨zs, is', -⟩ := Option.map_eq_some_iff.mp echo
    exact ⟨zs, is'⟩
  obtain ⟨vars, is⟩ := fields "variables" state.vars (.inl rfl) rfl
  obtain ⟨outputs, is'⟩ := fields "nodeOutputs" state.outputs (.inr rfl) rfl
  obtain ⟨x, is''⟩ : ∃ x, state.data.echo? = some x := by
    by_cases null : state.data.isNull = true
    · cases same : state.data <;> rw [same] at null <;> first | exact ⟨_, rfl⟩ | cases null
    · have found : (state.entries.lookup "data").join = some state.data := if_neg null
      obtain ⟨x, is⟩ := (Suspended.decoded success (among "data" _ found)).2 rfl
      exact Source.echo?_of_data state.data is
  exact ⟨_, Suspended.echo?_eq_some_iff.mpr ⟨vars, outputs, x, is, is', is'', rfl⟩⟩

theorem Data.depthItems_le {items : List Data} {most : Nat} (each : ∀ v ∈ items, v.depth ≤ most) :
    Data.depthItems items ≤ most := by
  induction items with
  | nil => exact Nat.zero_le _
  | cons v rest ih =>
    obtain ⟨first, later⟩ := List.forall_mem_cons.mp each
    exact Nat.max_le.mpr ⟨first, ih later⟩

theorem Data.depthFields_le {fields : List (String × Data)} {most : Nat}
    (each : ∀ field ∈ fields, field.2.depth ≤ most) : Data.depthFields fields ≤ most := by
  induction fields with
  | nil => exact Nat.zero_le _
  | cons field rest ih =>
    obtain ⟨first, later⟩ := List.forall_mem_cons.mp each
    exact Nat.max_le.mpr ⟨first, ih later⟩

theorem Data.depth_texts (texts : List String) : (Data.texts texts).depth ≤ 1 := by
  refine Nat.succ_le_succ (Data.depthItems_le fun v member => ?_)
  obtain ⟨s, -, rfl⟩ := List.mem_map.mp member
  exact Nat.le_refl 0

theorem Data.depth_ofPairs {pairs : List (String × Data)} {most : Nat}
    (each : ∀ field ∈ pairs, field.2.depth ≤ most) : (Data.ofPairs pairs).depth ≤ most + 1 :=
  Nat.succ_le_succ (Data.depthFields_le fun field member =>
    each field (Fields.mem_of_mem_ofList member))

theorem Wait.depth_toData (wait : Wait) : wait.toData.depth ≤ 2 := by
  refine Data.depth_ofPairs (List.forall_mem_cons.mpr ⟨Data.depth_texts _, ?_⟩)
  cases wait.filter with
  | none => nofun
  | some s => exact List.forall_mem_singleton.mpr (Nat.zero_le 1)

/-- Only three of the fields hold data that may nest. -/
theorem Suspended.flat_or_data {name : String} {v : Data} (entry : (name, some v) ∈ state.entries) :
    v.depth ≤ 2 ∨ ((name = "variables" ∨ name = "nodeOutputs") ∧ ∃ xs, v = .obj xs) ∨
      name = "data" := by
  have whenSome : ∀ {α : Type} {value : Option α} {write : α → String},
      some v = value.map (fun x => .str (write x)) → v.depth ≤ 2 := by
    intro α value write is
    obtain ⟨x, -, rfl⟩ := Option.map_eq_some_iff.mp is.symm
    exact Nat.zero_le 2
  simp only [Suspended.entries, List.mem_cons, List.not_mem_nil, or_false, Prod.mk.injEq,
    Option.some.injEq] at entry
  rcases entry with ⟨-, rfl⟩ | ⟨-, rfl⟩ | ⟨-, rfl⟩ | ⟨rfl, rfl⟩ | ⟨rfl, rfl⟩ | ⟨-, rfl⟩ | ⟨-, rfl⟩ |
    ⟨-, rfl⟩ | ⟨rfl, -⟩ | ⟨-, is⟩ | ⟨-, is⟩ | ⟨-, rfl⟩ | ⟨-, rfl⟩
  all_goals first
    | exact .inl (Nat.zero_le 2)
    | exact .inr (.inl ⟨.inl rfl, _, rfl⟩)
    | exact .inr (.inl ⟨.inr rfl, _, rfl⟩)
    | exact .inl ((Data.depth_texts _).trans (by decide))
    | exact .inl (Wait.depth_toData _)
    | exact .inr (.inr rfl)
    | exact .inl (whenSome is)

/-- A suspended run whose data nests too deeply is not decoded. -/
theorem Suspended.not_decode_of_cutOff {now : Instant} {s : Source}
    (cut : Source.Reader.CutOff Source.Reader.maxDepth state.toData s) :
    Suspended.decode now s ≠ .ok read := by
  rw [Suspended.toData_eq, Data.ofPairs] at cut
  cases cut with
  | bracket flat => exact absurd flat (by decide)
  | @obj _ _ field s before member cut =>
    intro success
    have decoded := Suspended.decoded success (List.mem_append_right before List.mem_cons_self)
    have deep : 127 ≤ field.2.depth := cut.le_depth
    have fails := cut.data_ne_ok
    obtain ⟨name, v⟩ := field
    have entry := mem_present (Fields.mem_of_mem_ofList member)
    rcases Suspended.flat_or_data entry with flat | ⟨known, xs, rfl⟩ | rfl
    · have deep : 127 ≤ v.depth := deep
      omega
    · obtain ⟨ys, is⟩ := decoded.1 known
      cases cut with
      | bracket flat => exact absurd flat (by decide)
      | obj success => exact fails _ (data_of_map_data is)
    · obtain ⟨x, is⟩ := decoded.2 rfl
      exact fails x is

/-- What is read back for a suspended run. -/
theorem Suspended.reread_eq_ok_iff (proper : state.Proper) (dated : ∀ t ∈ state.times, t.Dated) :
    state.reread = .ok read ↔
      state.toData.depth < Source.Reader.maxDepth ∧ state.echo? = some read := by
  rw [Suspended.reread, ofDecode_eq_ok_iff]
  by_cases shallow : state.toData.depth < Source.Reader.maxDepth
  · have whole : Source.decodeText (Suspended.decode state.startedAt) state.toData.compact =
        Suspended.decode state.startedAt (Source.echo state.toData) := by
      simp only [Source.decodeText, Source.Reader.read_compact shallow]
      cases Suspended.decode state.startedAt (Source.echo state.toData) <;> rfl
    have decodes : ∀ found, state.echo? = some found →
        Suspended.decode state.startedAt (Source.echo state.toData) = .ok found := by
      intro found is
      have times : found.times = state.times := by
        obtain ⟨vars, outputs, data, -, -, -, rfl⟩ := Suspended.echo?_eq_some_iff.mp is
        rfl
      rw [Source.echo_eq_ofData _ (Suspended.echo?_toData is)]
      exact Suspended.decode_toData (proper.echo? is)
        (fun t member => (dated t (times ▸ member)).parse_zuluText) _
    rw [whole]
    constructor
    · intro success
      obtain ⟨found, is⟩ := Suspended.echo?_of_decode success
      rw [decodes found is] at success
      cases success
      exact ⟨shallow, is⟩
    · exact fun both => decodes read both.2
  · obtain ⟨s, shortened, cut⟩ := Source.Reader.read_cutOff (Nat.le_of_not_lt shallow)
    refine iff_of_false ?_ fun both => shallow both.1
    simp only [Source.decodeText, shortened]
    intro success
    split at success
    · cases success
    · cases success
    · rename_i value is _
      cases success
      exact Suspended.not_decode_of_cutOff cut is

/-- The numbers that the data of a suspended run holds. -/
def Suspended.numbers (state : Suspended) : List Number :=
  (Data.obj state.vars).numbers ++ (Data.obj state.outputs).numbers ++ state.data.numbers

theorem Suspended.echo?_eq_self_iff :
    state.echo? = some state ↔ ∀ n ∈ state.numbers, n.echo? = some n := by
  have fields : ∀ xs : Fields Data, Data.echoFields? xs = some xs ↔
      ∀ n ∈ (Data.obj xs).numbers, n.echo? = some n := fun xs => by
    rw [← echo?_obj, Data.echo?_eq_self_iff]
  rw [Suspended.numbers, List.forall_mem_append, List.forall_mem_append, ← fields, ← fields,
    ← Data.echo?_eq_self_iff, Suspended.echo?_eq_some_iff]
  constructor
  · rintro ⟨vars, outputs, data, is, is', is'', same⟩
    exact ⟨⟨is.trans (congrArg some (congrArg Suspended.vars same).symm),
      is'.trans (congrArg some (congrArg Suspended.outputs same).symm)⟩,
      is''.trans (congrArg some (congrArg Suspended.data same).symm)⟩
  · rintro ⟨⟨is, is'⟩, is''⟩
    exact ⟨_, _, _, is, is', is'', rfl⟩

end Suspensions

section Outputs

/-- The record of a run with the numbers of its output as they are read. -/
def RunRecord.echo? (record : RunRecord) : Option RunRecord :=
  match record.output with
  | none => some record
  | some output => output.echo?.map fun output => { record with output := some output }

/-- What is read back for the record of a run. -/
theorem RunRecord.reread_eq_ok_iff {record read : RunRecord}
    (sorted : ∀ output ∈ record.output, output.Sorted) :
    record.reread = .ok read ↔
      (∀ output ∈ record.output, output.depth < Source.Reader.maxDepth) ∧
        record.echo? = some read := by
  rw [RunRecord.reread, RunRecord.echo?]
  cases is : record.output with
  | none => simp
  | some output =>
    have reread := fun w => Data.reread_eq_ok_iff (w := w) (sorted output is)
    dsimp only
    rw [ofDecode_eq_ok_iff, map_eq_ok_iff, Option.map_eq_some_iff]
    simp only [reread, Option.mem_def, Option.some.injEq, forall_eq', and_assoc, exists_and_left]

/-- The subscription with the numbers of its metadata as they are read. -/
def Subscription.echo? (subscription : Subscription) : Option Subscription :=
  subscription.metadata.echo?.map fun metadata => { subscription with metadata }

/-- What is read back for a subscription. -/
theorem Subscription.reread_eq_ok_iff {subscription read : Subscription}
    (sorted : subscription.metadata.Sorted) :
    subscription.reread = .ok read ↔
      subscription.metadata.depth < Source.Reader.maxDepth ∧ subscription.echo? = some read := by
  have reread := fun w => Data.reread_eq_ok_iff (w := w) sorted
  rw [Subscription.reread, Subscription.echo?, ofDecode_eq_ok_iff, map_eq_ok_iff,
    Option.map_eq_some_iff]
  simp only [reread, and_assoc, exists_and_left]

end Outputs

end DurableFlow
