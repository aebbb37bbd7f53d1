import DurableFlow.Proofs.Data.Fields
import DurableFlow.Proofs.Template.LonePath

/-!
# Rendering data

Data is rendered in one pass over its texts. `FillsInto` says what data is rendered to without
saying in which order or where it stops: every array and object stays, with the places it has, and
of the texts each that is a template gives way to what it becomes on its own. The rest is read off
that relation, place by place (`Rendered`). Since a text gives way to a value at once, what a value
has in it is never rendered, be it a template itself.
-/

namespace DurableFlow

namespace Template

mutual

/-- The texts within a value that are templates, in their order. -/
def leaves : Data → List String
  | .str text => if isTemplate text then [text] else []
  | .arr items => itemLeaves items
  | .obj fields => fieldLeaves fields
  | _ => []

def itemLeaves : List Data → List String
  | [] => []
  | v :: rest => leaves v ++ itemLeaves rest

def fieldLeaves : List (String × Data) → List String
  | [] => []
  | (_, v) :: rest => leaves v ++ fieldLeaves rest

end

mutual

/-- A value and the same value with its templates filled in, each by itself. -/
def FillsInto (scope : Data) : Data → Data → Prop
  | .str text, w =>
    if isTemplate text then renderData scope (.str text) = .ok w else w = .str text
  | .arr items, .arr items' => ItemsFillInto scope items items'
  | .obj fields, .obj fields' => FieldsFillInto scope fields fields'
  | .null, .null => True
  | .bool a, .bool b => a = b
  | .num m, .num n => m = n
  | _, _ => False

def ItemsFillInto (scope : Data) : List Data → List Data → Prop
  | [], [] => True
  | v :: rest, w :: rest' => FillsInto scope v w ∧ ItemsFillInto scope rest rest'
  | _, _ => False

/-- Names are no texts to be filled in. -/
def FieldsFillInto (scope : Data) : List (String × Data) → List (String × Data) → Prop
  | [], [] => True
  | (m, v) :: rest, (n, w) :: rest' =>
    (m = n ∧ FillsInto scope v w) ∧ FieldsFillInto scope rest rest'
  | _, _ => False

end

variable {scope v w x : Data}

section Success

mutual

theorem renderData_eq_ok_iff (scope : Data) :
    (v w : Data) → (renderData scope v = .ok w ↔ FillsInto scope v w)
  | .str text, w => by
    by_cases marked : isTemplate text = true
    · rw [FillsInto, if_pos marked]
    · rw [FillsInto, if_neg marked, renderData, if_neg marked, Except.ok.injEq, eq_comm]
  | .null, w => by cases w <;> simp [renderData, FillsInto]
  | .bool b, w => by cases w <;> simp [renderData, FillsInto]
  | .num n, w => by cases w <;> simp [renderData, FillsInto]
  | .arr items, w => by
    have inner := renderItems_eq_ok_iff scope items
    rw [renderData]
    cases rendered : renderItems scope items with
    | error e =>
      simp only [rendered, reduceCtorEq, false_iff] at inner
      cases w <;> simp [FillsInto, inner]
    | ok items' =>
      simp only [rendered, Except.ok.injEq] at inner
      cases w <;> simp [FillsInto, ← inner]
  | .obj fields, w => by
    have inner := renderFields_eq_ok_iff scope fields
    rw [renderData]
    cases rendered : renderFields scope fields with
    | error e =>
      simp only [rendered, reduceCtorEq, false_iff] at inner
      cases w <;> simp [FillsInto, inner]
    | ok fields' =>
      simp only [rendered, Except.ok.injEq] at inner
      cases w <;> simp [FillsInto, ← inner]

theorem renderItems_eq_ok_iff (scope : Data) :
    (vs ws : List Data) → (renderItems scope vs = .ok ws ↔ ItemsFillInto scope vs ws)
  | [], ws => by cases ws <;> simp [renderItems, ItemsFillInto]
  | v :: rest, ws => by
    have first := renderData_eq_ok_iff scope v
    have others := renderItems_eq_ok_iff scope rest
    rw [renderItems]
    cases ws with
    | nil => cases renderData scope v <;> cases renderItems scope rest <;> simp [ItemsFillInto]
    | cons w ws =>
      rw [ItemsFillInto, ← first, ← others]
      cases renderData scope v <;> cases renderItems scope rest <;> simp

theorem renderFields_eq_ok_iff (scope : Data) :
    (vs ws : List (String × Data)) → (renderFields scope vs = .ok ws ↔ FieldsFillInto scope vs ws)
  | [], ws => by cases ws <;> simp [renderFields, FieldsFillInto]
  | (name, v) :: rest, ws => by
    have first := renderData_eq_ok_iff scope v
    have others := renderFields_eq_ok_iff scope rest
    rw [renderFields]
    cases ws with
    | nil => cases renderData scope v <;> cases renderFields scope rest <;> simp [FieldsFillInto]
    | cons field ws =>
      obtain ⟨name', w⟩ := field
      rw [FieldsFillInto, ← first, ← others]
      cases renderData scope v <;> cases renderFields scope rest <;> simp

end

end Success

section Failure

/-- Why a text by itself cannot be filled in, if it cannot. -/
def fault? (scope : Data) (text : String) : Option RenderFault :=
  match renderData scope (.str text) with
  | .ok _ => none
  | .error e => some e

theorem eq_none_of_ok {result : Except ε α} {failure : Option ε} {a : α}
    (fails : ∀ e, result = .error e ↔ failure = some e) (h : result = .ok a) : failure = none :=
  Option.eq_none_iff_forall_ne_some.mpr fun e failed => by
    rw [(fails e).mpr failed] at h
    cases h

mutual

/-- Rendering fails as the first of the templates does that cannot be filled in. -/
theorem renderData_eq_error_iff (scope : Data) : (v : Data) → (e : RenderFault) →
    (renderData scope v = .error e ↔ (leaves v).findSome? (fault? scope) = some e)
  | .str text, e => by
    by_cases marked : isTemplate text = true
    · simp only [leaves, if_pos marked, List.findSome?_cons, List.findSome?_nil, fault?]
      cases renderData scope (.str text) <;> simp
    · simp [leaves, renderData, marked]
  | .null, e => by simp [renderData, leaves]
  | .bool _, e => by simp [renderData, leaves]
  | .num _, e => by simp [renderData, leaves]
  | .arr items, e => by
    rw [renderData, leaves, ← renderItems_eq_error_iff scope items e]
    cases renderItems scope items <;> simp
  | .obj fields, e => by
    rw [renderData, leaves, ← renderFields_eq_error_iff scope fields e]
    cases renderFields scope fields <;> simp

theorem renderItems_eq_error_iff (scope : Data) : (vs : List Data) → (e : RenderFault) →
    (renderItems scope vs = .error e ↔ (itemLeaves vs).findSome? (fault? scope) = some e)
  | [], e => by simp [renderItems, itemLeaves]
  | v :: rest, e => by
    have first := renderData_eq_error_iff scope v
    have others := renderItems_eq_error_iff scope rest e
    rw [renderItems, itemLeaves, List.findSome?_append]
    cases rendered : renderData scope v with
    | error e' => simp [(first e').mp rendered]
    | ok w =>
      rw [eq_none_of_ok first rendered, Option.none_or, ← others]
      cases renderItems scope rest <;> simp

theorem renderFields_eq_error_iff (scope : Data) :
    (vs : List (String × Data)) → (e : RenderFault) →
    (renderFields scope vs = .error e ↔ (fieldLeaves vs).findSome? (fault? scope) = some e)
  | [], e => by simp [renderFields, fieldLeaves]
  | (name, v) :: rest, e => by
    have first := renderData_eq_error_iff scope v
    have others := renderFields_eq_error_iff scope rest e
    rw [renderFields, fieldLeaves, List.findSome?_append]
    cases rendered : renderData scope v with
    | error e' => simp [(first e').mp rendered]
    | ok w =>
      rw [eq_none_of_ok first rendered, Option.none_or, ← others]
      cases renderFields scope rest <;> simp

end

theorem renderData_fails_iff :
    (∃ e, renderData scope v = .error e) ↔
      ∃ text ∈ leaves v, ∃ e, renderData scope (.str text) = .error e := by
  have failed : ∀ text e, fault? scope text = some e ↔ renderData scope (.str text) = .error e := by
    intro text e
    unfold fault?
    split <;> rename_i rendered <;> simp [rendered]
  constructor
  · rintro ⟨e, error⟩
    obtain ⟨text, member, first⟩ :=
      List.exists_of_findSome?_eq_some ((renderData_eq_error_iff scope v e).mp error)
    exact ⟨text, member, e, (failed text e).mp first⟩
  · rintro ⟨text, member, e, error⟩
    obtain ⟨e', first⟩ := Option.isSome_iff_exists.mp
      (List.findSome?_isSome_iff.mpr
        ⟨text, member, Option.isSome_iff_exists.mpr ⟨e, (failed text e).mpr error⟩⟩)
    exact ⟨e', (renderData_eq_error_iff scope v e').mpr first⟩

mutual

/-- Without a template in it a value stays as it is. -/
theorem renderData_of_leaves_nil (scope : Data) :
    (v : Data) → leaves v = [] → renderData scope v = .ok v
  | .str text, unmarked => by
    by_cases marked : isTemplate text = true
    · simp [leaves, marked] at unmarked
    · rw [renderData, if_neg marked]
  | .null, _ => by rw [renderData]
  | .bool _, _ => by rw [renderData]
  | .num _, _ => by rw [renderData]
  | .arr items, unmarked => by
    rw [leaves] at unmarked
    rw [renderData, renderItems_of_leaves_nil scope items unmarked]
  | .obj fields, unmarked => by
    rw [leaves] at unmarked
    rw [renderData, renderFields_of_leaves_nil scope fields unmarked]

theorem renderItems_of_leaves_nil (scope : Data) :
    (vs : List Data) → itemLeaves vs = [] → renderItems scope vs = .ok vs
  | [], _ => by rw [renderItems]
  | v :: rest, unmarked => by
    rw [itemLeaves, List.append_eq_nil_iff] at unmarked
    rw [renderItems, renderData_of_leaves_nil scope v unmarked.1,
      renderItems_of_leaves_nil scope rest unmarked.2]

theorem renderFields_of_leaves_nil (scope : Data) :
    (vs : List (String × Data)) → fieldLeaves vs = [] → renderFields scope vs = .ok vs
  | [], _ => by rw [renderFields]
  | (name, v) :: rest, unmarked => by
    rw [fieldLeaves, List.append_eq_nil_iff] at unmarked
    rw [renderFields, renderData_of_leaves_nil scope v unmarked.1,
      renderFields_of_leaves_nil scope rest unmarked.2]

end

end Failure

section Places

theorem get?_fieldsFillInto {fields fields' : List (String × Data)}
    (filled : FieldsFillInto scope fields fields') {name : String}
    (found : Fields.get? fields name = some x) :
    ∃ y, Fields.get? fields' name = some y ∧ FillsInto scope x y := by
  induction fields generalizing fields' with
  | nil => cases found
  | cons field rest ih =>
    obtain ⟨m, v⟩ := field
    cases fields' with
    | nil => cases filled
    | cons field' rest' =>
      obtain ⟨n, w⟩ := field'
      obtain ⟨⟨rfl, first⟩, others⟩ := filled
      rw [Fields.get?_cons] at found ⊢
      split at found
      · rename_i same
        cases found
        exact ⟨w, if_pos same, first⟩
      · rename_i different
        rw [if_neg different]
        exact ih others found

theorem getElem?_itemsFillInto {items items' : List Data}
    (filled : ItemsFillInto scope items items') {position : Nat}
    (found : items[position]? = some x) :
    ∃ y, items'[position]? = some y ∧ FillsInto scope x y := by
  induction items generalizing items' position with
  | nil => cases found
  | cons v rest ih =>
    cases items' with
    | nil => cases filled
    | cons w rest' =>
      obtain ⟨first, others⟩ := filled
      cases position with
      | zero =>
        cases found
        exact ⟨w, rfl, first⟩
      | succ position => exact ih others found

theorem FillsInto.step? (filled : FillsInto scope v w) {segment : Segment}
    (found : v.step? segment = some x) : ∃ y, w.step? segment = some y ∧ FillsInto scope x y := by
  cases segment with
  | key name =>
    cases v with
    | obj fields =>
      cases w with
      | obj fields' =>
        rw [FillsInto] at filled
        exact get?_fieldsFillInto filled found
      | _ => simp [FillsInto] at filled
    | _ => cases found
  | index position =>
    cases v with
    | arr items =>
      cases w with
      | arr items' =>
        rw [FillsInto] at filled
        exact getElem?_itemsFillInto filled found
      | _ => simp [FillsInto] at filled
    | _ => cases found

/-- What is at a place within a value fills into what is at that place afterwards. -/
theorem FillsInto.follow? {place : List Segment} (filled : FillsInto scope v w)
    (found : v.follow? place = some x) : ∃ y, w.follow? place = some y ∧ FillsInto scope x y := by
  induction place generalizing v w with
  | nil =>
    cases found
    exact ⟨w, rfl, filled⟩
  | cons segment place ih =>
    rw [Data.follow?] at found
    split at found
    · rename_i inner stepped
      obtain ⟨inner', stepped', filled'⟩ := filled.step? stepped
      obtain ⟨y, found', filled'⟩ := ih filled' found
      exact ⟨y, by rw [Data.follow?, stepped']; exact found', filled'⟩
    · cases found

theorem length_itemsFillInto {items items' : List Data}
    (filled : ItemsFillInto scope items items') : items'.length = items.length := by
  induction items generalizing items' with
  | nil =>
    cases items' with
    | nil => rfl
    | cons w rest' => cases filled
  | cons v rest ih =>
    cases items' with
    | nil => cases filled
    | cons w rest' => exact congrArg (· + 1) (ih filled.2)

theorem names_fieldsFillInto {fields fields' : List (String × Data)}
    (filled : FieldsFillInto scope fields fields') :
    Fields.names fields' = Fields.names fields := by
  induction fields generalizing fields' with
  | nil =>
    cases fields' with
    | nil => rfl
    | cons field' rest' => cases filled
  | cons field rest ih =>
    cases fields' with
    | nil => cases filled
    | cons field' rest' =>
      obtain ⟨⟨same, -⟩, others⟩ := filled
      exact congrArg₂ List.cons same.symm (ih others)

end Places

/-- What is the same in a value and in what it is rendered to, at every place, and what is not. -/
structure Rendered (scope v w : Data) : Prop where
  /-- What has no template in it is left alone. -/
  plain : ∀ place x, v.follow? place = some x → leaves x = [] → w.follow? place = some x
  arrays : ∀ place items, v.follow? place = some (.arr items) →
    ∃ items', w.follow? place = some (.arr items') ∧ items'.length = items.length
  objects : ∀ place fields, v.follow? place = some (.obj fields) →
    ∃ fields', w.follow? place = some (.obj fields') ∧ Fields.names fields' = Fields.names fields
  /-- A text becomes what it is rendered to by itself. -/
  texts : ∀ place text, v.follow? place = some (.str text) →
    ∃ x, renderData scope (.str text) = .ok x ∧ w.follow? place = some x
  /-- A text from the scope stands where its path stood, with whatever is in it. -/
  verbatim : ∀ place text (path : PlainPath) s, v.follow? place = some (.str text) →
    path.StandsAlone text → path.literal? = none → (∀ hop ∈ path.hops, hop.IsExact) →
    scope.follow? path.segments = some (.str s) → w.follow? place = some (.str s)

theorem FillsInto.rendered (filled : FillsInto scope v w) : Rendered scope v w where
  plain place x found unmarked := by
    obtain ⟨y, found', filled'⟩ := filled.follow? found
    cases (renderData_of_leaves_nil scope x unmarked).symm.trans
      ((renderData_eq_ok_iff scope x y).mpr filled')
    exact found'
  arrays place items found := by
    obtain ⟨y, found', filled'⟩ := filled.follow? found
    cases y with
    | arr items' =>
      rw [FillsInto] at filled'
      exact ⟨items', found', length_itemsFillInto filled'⟩
    | _ => simp [FillsInto] at filled'
  objects place fields found := by
    obtain ⟨y, found', filled'⟩ := filled.follow? found
    cases y with
    | obj fields' =>
      rw [FillsInto] at filled'
      exact ⟨fields', found', names_fieldsFillInto filled'⟩
    | _ => simp [FillsInto] at filled'
  texts place text found := by
    obtain ⟨y, found', filled'⟩ := filled.follow? found
    exact ⟨y, (renderData_eq_ok_iff scope _ y).mpr filled', found'⟩
  verbatim place text path s found alone other precise leads := by
    obtain ⟨y, found', filled'⟩ := filled.follow? found
    have rendered := (renderData_eq_ok_iff scope _ y).mpr filled'
    have readable : path.IsReadable := by
      by_contra unreadable
      obtain ⟨e, failed, -⟩ := renderData_of_unreadable alone scope unreadable other
      cases rendered.symm.trans failed
    cases rendered.symm.trans (renderData_of_follow? alone readable precise leads (by simp))
    exact found'

/-- Data is rendered text by text: to the same data with each template replaced by what it is
rendered to by itself, unless one of them cannot be. -/
theorem rendered_text_by_text (scope v : Data) :
    (∀ w, renderData scope v = .ok w ↔ FillsInto scope v w) ∧
    (∀ w, renderData scope v = .ok w → Rendered scope v w) ∧
    ((∃ e, renderData scope v = .error e) ↔
      ∃ text ∈ leaves v, ∃ e, renderData scope (.str text) = .error e) ∧
    (leaves v = [] → renderData scope v = .ok v) :=
  ⟨renderData_eq_ok_iff scope v,
    fun w rendered => ((renderData_eq_ok_iff scope v w).mp rendered).rendered,
    renderData_fails_iff, renderData_of_leaves_nil scope v⟩

/-- A payload with a template in it is put in place as it is. -/
theorem rendered_text_by_text_injection :
    let scope : Data := .obj [("trigger", .obj [("subject", .str "\x7b\x7b secret \x7d\x7d")])]
    let v : Data := .obj [("retries", .int 3), ("title", .str "\x7b\x7btrigger.subject\x7d\x7d")]
    ∃ w, renderData scope v = .ok w ∧ w.follow? [.key "retries"] = some (.int 3) ∧
      w.follow? [.key "title"] = some (.str "\x7b\x7b secret \x7d\x7d") := by
  intro scope v
  let path : PlainPath := ⟨"trigger".toList, [.name "subject".toList]⟩
  have alone : path.StandsAlone "\x7b\x7btrigger.subject\x7d\x7d" := by
    refine ⟨⟨⟨'t', "rigger".toList, by decide, by decide, List.all_eq_true.mp (by decide)⟩, ?_⟩,
      [], [], List.forall_mem_nil _, List.forall_mem_nil _, by decide⟩
    exact List.forall_mem_singleton.mpr
      ⟨'s', "ubject".toList, by decide, by decide, List.all_eq_true.mp (by decide)⟩
  have precise : ∀ hop ∈ path.hops, hop.IsExact := List.forall_mem_singleton.mpr trivial
  have readable : path.IsReadable :=
    ⟨⟨List.all_eq_true.mp (by decide),
        List.forall_mem_singleton.mpr (List.all_eq_true.mp (by decide))⟩,
      by decide, List.forall_mem_singleton.mpr
        (by decide : String.ofList "subject".toList ∉ Expr.Writing.keywords)⟩
  obtain ⟨-, same, fails, -⟩ := rendered_text_by_text scope v
  cases rendered : renderData scope v with
  | ok w =>
    exact ⟨w, rfl, (same w rendered).plain [.key "retries"] _ rfl rfl,
      (same w rendered).verbatim [.key "title"] _ path _ rfl alone rfl precise rfl⟩
  | error e =>
    obtain ⟨text, member, e', failed⟩ := fails.mp ⟨e, rendered⟩
    obtain rfl : text = "\x7b\x7btrigger.subject\x7d\x7d" := List.mem_singleton.mp member
    cases failed.symm.trans (renderData_of_follow? alone readable precise rfl (by simp))

/-- The word of a literal alone is no path, though there be a field of that name. -/
theorem lone_word_of_literal :
    let path : PlainPath := ⟨"true".toList, []⟩
    let scope : Data := .obj [("true", .str "\x7b\x7b x \x7d\x7d")]
    path.StandsAlone "\x7b\x7b true \x7d\x7d" ∧
      scope.follow? path.segments = some (.str "\x7b\x7b x \x7d\x7d") ∧
      renderData scope (.str "\x7b\x7b true \x7d\x7d") = .ok (.bool true) := by
  intro path scope
  have blank : ∀ c ∈ [' '], Text.isBlank c = true :=
    List.forall_mem_singleton.mpr (by decide +kernel)
  have alone : path.StandsAlone "\x7b\x7b true \x7d\x7d" :=
    ⟨⟨⟨'t', "rue".toList, by decide, by decide, List.all_eq_true.mp (by decide)⟩,
      List.forall_mem_nil _⟩, [' '], [' '], blank, blank, by decide⟩
  exact ⟨alone, rfl, renderData_of_literal alone scope rfl⟩

end Template

end DurableFlow
