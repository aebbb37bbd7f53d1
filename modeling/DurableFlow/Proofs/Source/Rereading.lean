import DurableFlow.Proofs.Source.Echoing
import DurableFlow.Proofs.Source.Spelling
import DurableFlow.Source.Text

/-!
# Compact text is read back

What is read for the compact text of data is the echo of the data. That is so as long as the data
does not nest more levels than the reader goes into; from there on reading stops, and nothing is
decoded at all.
-/

namespace DurableFlow

namespace Source

namespace Reader

section Texts

/-- The items behind the first one, up to the end of their array. -/
def moreItems (items : List Data) : List Char :=
  items.flatMap (fun v => ',' :: v.compact.toList) ++ [']']

/-- A field as it is written. -/
def fieldText (field : String × Data) : List Char :=
  (Data.quoted field.1).toList ++ ':' :: field.2.compact.toList

/-- The fields behind the first one, up to the end of their object. -/
def moreFields (fields : List (String × Data)) : List Char :=
  fields.flatMap (fun field => ',' :: fieldText field) ++ ['\x7d']

theorem toList_intercalate (text : String) (texts : List String) :
    (",".intercalate (text :: texts)).toList =
      text.toList ++ texts.flatMap fun text => ',' :: text.toList := by
  rw [String.toList_intercalate, List.map_cons]
  induction texts generalizing text with
  | nil => simp
  | cons next texts ih =>
    rw [List.map_cons, List.intercalate_cons_cons, ih, List.flatMap_cons]
    simp

theorem compactItems_eq (items : List Data) :
    Data.compactItems items = items.map Data.compact := by
  induction items with
  | nil => rfl
  | cons v rest ih => rw [Data.compactItems, ih, List.map_cons]

theorem compactFields_eq (fields : List (String × Data)) : Data.compactFields fields =
    fields.map fun field => Data.quoted field.1 ++ ":" ++ field.2.compact := by
  induction fields with
  | nil => rfl
  | cons field rest ih => rw [Data.compactFields, ih, List.map_cons]

theorem toList_arr (v : Data) (rest : List Data) :
    (Data.arr (v :: rest)).compact.toList = '[' :: (v.compact.toList ++ moreItems rest) := by
  rw [Data.compact, compactItems_eq, List.map_cons, String.toList_append, String.toList_append,
    toList_intercalate, List.flatMap_map, moreItems]
  simp

theorem toList_obj (field : String × Data) (rest : List (String × Data)) :
    (Data.obj (field :: rest)).compact.toList = '\x7b' :: (fieldText field ++ moreFields rest) := by
  rw [Data.compact, compactFields_eq, List.map_cons, String.toList_append, String.toList_append,
    toList_intercalate, List.flatMap_map, moreFields]
  simp [fieldText]

/-- No value is written with a blank first, nor with the end of an array. -/
theorem head_compact (v : Data) :
    ∃ c cs, v.compact.toList = c :: cs ∧ isBlank c = false ∧ c ≠ ']' := by
  cases v with
  | null => exact ⟨'n', _, rfl, by decide⟩
  | bool b => cases b <;> exact ⟨_, _, rfl, by decide⟩
  | num n =>
    obtain ⟨_, ⟨ds, tail, rfl, whole, -⟩, unsigned | signed⟩ := toString_shape n
    · obtain ⟨c, cs, rfl, digit⟩ := whole.head
      exact ⟨c, cs ++ tail, unsigned, not_isBlank_of_isDigit digit, by rintro rfl; cases digit⟩
    · exact ⟨'-', _, signed, by decide⟩
  | str s => exact ⟨'"', _, toList_quoted s, by decide⟩
  | arr items =>
    cases items with
    | nil => exact ⟨'[', _, rfl, by decide⟩
    | cons v rest => exact ⟨'[', _, toList_arr v rest, by decide⟩
  | obj fields =>
    cases fields with
    | nil => exact ⟨'\x7b', _, rfl, by decide⟩
    | cons field rest => exact ⟨'\x7b', _, toList_obj field rest, by decide⟩

theorem delimited_moreItems (items : List Data) (rest : List Char) :
    Delimited (moreItems items ++ rest) := by
  cases items <;> (rintro c ⟨⟩; decide)

theorem delimited_moreFields (fields : List (String × Data)) (rest : List Char) :
    Delimited (moreFields fields ++ rest) := by
  cases fields <;> (rintro c ⟨⟩; decide)

end Texts

section Steps

variable {fuel depth : Nat} {c : Char} {cs rest : List Char}

/-- The item read next, behind those in `done`. -/
def withItem (fuel depth : Nat) (done : List Source) (read : Read) : Read :=
  match read with
  | (v, some rest) => items fuel depth (v :: done) rest
  | (v, none) => (.arr (v :: done).reverse none, none)

/-- The value of the field that is read next, behind those in `done`. -/
def withField (fuel depth : Nat) (done : List (String × Source)) (name : String)
    (read : Read) : Read :=
  match read with
  | (v, some rest) => fields fuel depth ((name, v) :: done) rest
  | (v, none) => (.obj ((name, v) :: done).reverse none, none)

theorem items_first (visible : isBlank c = false) (inside : c ≠ ']') :
    items (fuel + 1) depth [] (c :: cs) = withItem fuel depth [] (value fuel depth (c :: cs)) := by
  simp only [items, skipBlanks_visible visible]
  split
  · rename_i h
    cases h
  · rename_i h
    exact absurd (List.head_eq_of_cons_eq h) inside
  · rfl
  all_goals contradiction

theorem items_next (visible : isBlank c = false) (inside : c ≠ ']') (v : Source)
    (done : List Source) : items (fuel + 1) depth (v :: done) (',' :: c :: cs) =
      withItem fuel depth (v :: done) (value fuel depth (c :: cs)) := by
  have there : skipBlanks (',' :: c :: cs) = ',' :: c :: cs := skipBlanks_visible (by decide) _
  simp only [items, there, skipBlanks_visible visible]
  split
  · rename_i h
    cases h
  · rename_i h
    exact absurd (List.head_eq_of_cons_eq h) inside
  · rfl

theorem fields_first {name : String} {inner : List Char}
    (read : string (inner.length + 1) [] inner = .ok (name, ':' :: rest)) :
    fields (fuel + 1) depth [] ('"' :: inner) =
      withField fuel depth [] name (value fuel depth rest) := by
  rcases found : value fuel depth rest with ⟨v, _ | behind⟩ <;>
    simp [fields, skipBlanks_visible (show isBlank '"' = false by decide), read,
      skipBlanks_visible (show isBlank ':' = false by decide), withField, found]

theorem fields_next {name : String} {inner : List Char}
    (read : string (inner.length + 1) [] inner = .ok (name, ':' :: rest))
    (before : String × Source) (done : List (String × Source)) :
    fields (fuel + 1) depth (before :: done) (',' :: '"' :: inner) =
      withField fuel depth (before :: done) name (value fuel depth rest) := by
  rcases found : value fuel depth rest with ⟨v, _ | behind⟩ <;>
    simp [fields, skipBlanks_visible (show isBlank '"' = false by decide), read,
      skipBlanks_visible (show isBlank ',' = false by decide),
      skipBlanks_visible (show isBlank ':' = false by decide), withField, found]

/-- A field is written as a string that is read, and its value behind a colon. -/
theorem fieldText_append (field : String × Data) (rest : List Char) :
    ∃ inner, fieldText field ++ rest = '"' :: inner ∧
      string (inner.length + 1) [] inner =
        .ok (field.1, ':' :: (field.2.compact.toList ++ rest)) := by
  refine ⟨_, ?_, string_quoted field.1 _⟩
  rw [fieldText, toList_quoted]
  simp

end Steps

section Runs

variable {fuel depth : Nat} {rest : List Char}

theorem moreItems_cons (v : Data) (more : List Data) (rest : List Char) :
    moreItems (v :: more) ++ rest = ',' :: (v.compact.toList ++ (moreItems more ++ rest)) := by
  simp [moreItems]

theorem moreFields_cons (field : String × Data) (more : List (String × Data))
    (rest : List Char) :
    moreFields (field :: more) ++ rest = ',' :: (fieldText field ++ (moreFields more ++ rest)) := by
  simp [moreFields]

theorem length_compact_pos (v : Data) : 0 < v.compact.toList.length := by
  obtain ⟨c, cs, text, -, -⟩ := head_compact v
  rw [text]
  exact Nat.succ_pos _

theorem length_moreItems_cons (v : Data) (more : List Data) : (moreItems (v :: more)).length =
    v.compact.toList.length + (moreItems more).length + 1 := by
  have whole := congrArg List.length (moreItems_cons v more [])
  simpa [Nat.add_assoc] using whole

theorem length_moreItems_pos (more : List Data) : 0 < (moreItems more).length := by
  simp [moreItems]

theorem length_moreFields_cons (field : String × Data) (more : List (String × Data)) :
    (moreFields (field :: more)).length =
      (fieldText field).length + (moreFields more).length + 1 := by
  have whole := congrArg List.length (moreFields_cons field more [])
  simpa [Nat.add_assoc] using whole

theorem length_moreFields_pos (more : List (String × Data)) : 0 < (moreFields more).length := by
  simp [moreFields]

theorem length_fieldText (field : String × Data) :
    field.2.compact.toList.length < (fieldText field).length := by
  rw [fieldText, List.length_append, List.length_cons]
  omega

/-- Behind an opening bracket the first item is read. -/
theorem items_moreItems_first (v : Data) (more : List Data) :
    items (fuel + 1) depth [] (v.compact.toList ++ (moreItems more ++ rest)) =
      withItem fuel depth []
        (value fuel depth (v.compact.toList ++ (moreItems more ++ rest))) := by
  obtain ⟨c, cs, text, visible, inside⟩ := head_compact v
  rw [text]
  exact items_first visible inside

/-- Behind an item the next one is read. -/
theorem items_moreItems_next (v : Data) (more : List Data) (before : Source)
    (done : List Source) :
    items (fuel + 1) depth (before :: done) (moreItems (v :: more) ++ rest) =
      withItem fuel depth (before :: done)
        (value fuel depth (v.compact.toList ++ (moreItems more ++ rest))) := by
  obtain ⟨c, cs, text, visible, inside⟩ := head_compact v
  rw [moreItems_cons, text]
  exact items_next visible inside before done

theorem fields_moreFields_first (field : String × Data) (more : List (String × Data)) :
    fields (fuel + 1) depth [] (fieldText field ++ (moreFields more ++ rest)) =
      withField fuel depth [] field.1
        (value fuel depth (field.2.compact.toList ++ (moreFields more ++ rest))) := by
  obtain ⟨inner, text, read⟩ := fieldText_append field (moreFields more ++ rest)
  rw [text]
  exact fields_first read

theorem fields_moreFields_next (field : String × Data) (more : List (String × Data))
    (before : String × Source) (done : List (String × Source)) :
    fields (fuel + 1) depth (before :: done) (moreFields (field :: more) ++ rest) =
      withField fuel depth (before :: done) field.1
        (value fuel depth (field.2.compact.toList ++ (moreFields more ++ rest))) := by
  obtain ⟨inner, text, read⟩ := fieldText_append field (moreFields more ++ rest)
  rw [moreFields_cons, text]
  exact fields_next read before done

theorem value_open (fuel : Nat) (deep : 1 < depth) (cs : List Char) :
    value (fuel + 1) depth ('[' :: cs) = items fuel (depth - 1) [] cs ∧
      value (fuel + 1) depth ('\x7b' :: cs) = fields fuel (depth - 1) [] cs :=
  ⟨if_neg (Nat.not_le_of_lt deep), if_neg (Nat.not_le_of_lt deep)⟩

mutual

/-- Data that does not nest too deeply is read as far as it is written. -/
theorem value_compact (v : Data) {fuel depth : Nat} {rest : List Char} (shallow : v.depth < depth)
    (enough : v.compact.toList.length ≤ fuel) (delimited : Delimited rest) :
    value fuel depth (v.compact.toList ++ rest) = (echo v, some rest) := by
  obtain ⟨fuel, rfl⟩ : ∃ n, fuel = n + 1 :=
    ⟨fuel - 1, by have := length_compact_pos v; omega⟩
  cases v with
  | null => rfl
  | bool b => cases b <;> rfl
  | num n => exact value_toString n fuel depth delimited
  | str s =>
    show value (fuel + 1) depth ((Data.quoted s).toList ++ rest) = _
    rw [toList_quoted, List.cons_append, List.append_assoc]
    have read := string_quoted s rest
    show ofPart ((string ((s.toList.flatMap spelled ++ '"' :: rest).length + 1) []
      (s.toList.flatMap spelled ++ '"' :: rest)).map _) = _
    rw [read]
    rfl
  | arr items =>
    have deep : 1 < depth := by rw [Data.depth] at shallow; omega
    rw [Data.depth] at shallow
    cases items with
    | nil =>
      obtain ⟨fuel, rfl⟩ : ∃ n, fuel = n + 1 := ⟨fuel - 1, by simp [Data.compact] at enough; omega⟩
      exact (value_open (fuel + 1) deep (']' :: rest)).1
    | cons v more =>
      have pos := length_moreItems_pos more
      have pos' := length_compact_pos v
      rw [toList_arr, List.length_cons, List.length_append] at enough
      obtain ⟨fuel, rfl⟩ : ∃ n, fuel = n + 1 := ⟨fuel - 1, by omega⟩
      rw [Data.depthItems] at shallow
      rw [toList_arr, List.cons_append, List.append_assoc, (value_open _ deep _).1,
        items_moreItems_first,
        value_compact v (by omega) (by omega) (delimited_moreItems more rest)]
      exact items_moreItems more (by omega) (by omega) (echo v) []
  | obj fields =>
    have deep : 1 < depth := by rw [Data.depth] at shallow; omega
    rw [Data.depth] at shallow
    cases fields with
    | nil =>
      obtain ⟨fuel, rfl⟩ : ∃ n, fuel = n + 1 := ⟨fuel - 1, by simp [Data.compact] at enough; omega⟩
      exact (value_open (fuel + 1) deep ('\x7d' :: rest)).2
    | cons field more =>
      have pos := length_moreFields_pos more
      have pos' := length_fieldText field
      rw [toList_obj, List.length_cons, List.length_append] at enough
      obtain ⟨fuel, rfl⟩ : ∃ n, fuel = n + 1 := ⟨fuel - 1, by omega⟩
      rw [Data.depthFields] at shallow
      rw [toList_obj, List.cons_append, List.append_assoc, (value_open _ deep _).2,
        fields_moreFields_first,
        value_compact field.2 (by omega) (by omega) (delimited_moreFields more rest)]
      exact fields_moreFields more (by omega) (by omega) (field.1, echo field.2) []
termination_by structural v

theorem items_moreItems (more : List Data) {fuel depth : Nat} {rest : List Char}
    (shallow : Data.depthItems more < depth) (enough : (moreItems more).length ≤ fuel)
    (before : Source) (done : List Source) :
    items fuel depth (before :: done) (moreItems more ++ rest) =
      (.arr ((before :: done).reverse ++ echoItems more) none, some rest) := by
  obtain ⟨fuel, rfl⟩ : ∃ n, fuel = n + 1 :=
    ⟨fuel - 1, by have := length_moreItems_pos more; omega⟩
  cases more with
  | nil =>
    rw [echoItems, List.append_nil]
    rfl
  | cons v more =>
    have pos := length_compact_pos v
    rw [length_moreItems_cons] at enough
    rw [Data.depthItems] at shallow
    rw [items_moreItems_next,
      value_compact v (by omega) (by omega) (delimited_moreItems more rest), withItem,
      items_moreItems more (by omega) (by omega) (echo v) (before :: done), echoItems]
    simp
termination_by structural more

theorem fields_moreFields (more : List (String × Data)) {fuel depth : Nat} {rest : List Char}
    (shallow : Data.depthFields more < depth) (enough : (moreFields more).length ≤ fuel)
    (before : String × Source) (done : List (String × Source)) :
    fields fuel depth (before :: done) (moreFields more ++ rest) =
      (.obj ((before :: done).reverse ++ echoFields more) none, some rest) := by
  obtain ⟨fuel, rfl⟩ : ∃ n, fuel = n + 1 :=
    ⟨fuel - 1, by have := length_moreFields_pos more; omega⟩
  cases more with
  | nil =>
    rw [echoFields, List.append_nil]
    rfl
  | cons field more =>
    have pos := length_fieldText field
    rw [length_moreFields_cons] at enough
    rw [Data.depthFields] at shallow
    rw [fields_moreFields_next,
      value_compact field.2 (by omega) (by omega) (delimited_moreFields more rest), withField,
      fields_moreFields more (by omega) (by omega) (field.1, echo field.2) (before :: done),
      echoFields]
    simp
termination_by structural more

end

/-- What is left of data that nests more levels than the reader goes into: reading stops at the
first bracket that is one too many, and everything around it ends there. -/
inductive CutOff : Nat → Data → Source → Prop
  | bracket {depth : Nat} {v : Data} : depth ≤ 1 → depth ≤ v.depth →
    CutOff depth v (.broken .malformed)
  | arr {depth : Nat} {items : List Data} {v : Data} {s : Source} (read : List Source) :
    v ∈ items → CutOff (depth - 1) v s → CutOff depth (.arr items) (.arr (read ++ [s]) none)
  | obj {depth : Nat} {fields : List (String × Data)} {field : String × Data} {s : Source}
    (read : List (String × Source)) : field ∈ fields → CutOff (depth - 1) field.2 s →
    CutOff depth (.obj fields) (.obj (read ++ [(field.1, s)]) none)

mutual

/-- Data that nests too deeply is cut off. -/
theorem value_cutOff (v : Data) (fuel : Nat) (rest : List Char) {depth : Nat} (pos : 0 < depth)
    (deep : depth ≤ v.depth) (enough : v.compact.toList.length ≤ fuel) :
    ∃ s, value fuel depth (v.compact.toList ++ rest) = (s, none) ∧ CutOff depth v s := by
  obtain ⟨fuel, rfl⟩ : ∃ n, fuel = n + 1 :=
    ⟨fuel - 1, by have := length_compact_pos v; omega⟩
  cases v with
  | arr items =>
    cases items with
    | nil =>
      have flat : depth ≤ 1 := deep
      exact ⟨_, if_pos flat, .bracket flat deep⟩
    | cons v more =>
      rw [toList_arr, List.cons_append, List.append_assoc]
      by_cases flat : depth ≤ 1
      · exact ⟨_, if_pos flat, .bracket flat deep⟩
      have positive := length_moreItems_pos more
      have positive' := length_compact_pos v
      rw [toList_arr, List.length_cons, List.length_append] at enough
      obtain ⟨fuel, rfl⟩ : ∃ n, fuel = n + 1 := ⟨fuel - 1, by omega⟩
      rw [Data.depth, Data.depthItems] at deep
      rw [(value_open _ (by omega) _).1, items_moreItems_first]
      by_cases here : depth - 1 ≤ v.depth
      · obtain ⟨s, read, cut⟩ :=
          value_cutOff v fuel (moreItems more ++ rest) (by omega) here (by omega)
        rw [read]
        exact ⟨_, rfl, .arr [] List.mem_cons_self cut⟩
      · rw [value_compact v (by omega) (by omega) (delimited_moreItems more rest), withItem]
        obtain ⟨read, w, s, is, member, cut⟩ :=
          items_cutOff more fuel (depth - 1) rest (by omega) (by omega) (by omega) (echo v) []
        exact ⟨_, is, .arr read (List.mem_cons_of_mem _ member) cut⟩
  | obj fields =>
    cases fields with
    | nil =>
      have flat : depth ≤ 1 := deep
      exact ⟨_, if_pos flat, .bracket flat deep⟩
    | cons field more =>
      rw [toList_obj, List.cons_append, List.append_assoc]
      by_cases flat : depth ≤ 1
      · exact ⟨_, if_pos flat, .bracket flat deep⟩
      have positive := length_moreFields_pos more
      have positive' := length_fieldText field
      rw [toList_obj, List.length_cons, List.length_append] at enough
      obtain ⟨fuel, rfl⟩ : ∃ n, fuel = n + 1 := ⟨fuel - 1, by omega⟩
      rw [Data.depth, Data.depthFields] at deep
      rw [(value_open _ (by omega) _).2, fields_moreFields_first]
      by_cases here : depth - 1 ≤ field.2.depth
      · obtain ⟨s, read, cut⟩ :=
          value_cutOff field.2 fuel (moreFields more ++ rest) (by omega) here (by omega)
        rw [read]
        exact ⟨_, rfl, .obj [] List.mem_cons_self cut⟩
      · rw [value_compact field.2 (by omega) (by omega) (delimited_moreFields more rest),
          withField]
        obtain ⟨read, w, s, is, member, cut⟩ :=
          fields_cutOff more fuel (depth - 1) rest (by omega) (by omega) (by omega)
            (field.1, echo field.2) []
        exact ⟨_, is, .obj read (List.mem_cons_of_mem _ member) cut⟩
  | _ => exact absurd (Nat.lt_of_lt_of_le pos deep) (Nat.lt_irrefl 0)
termination_by structural v

theorem items_cutOff (more : List Data) (fuel depth : Nat) (rest : List Char)
    (pos : 0 < depth) (deep : depth ≤ Data.depthItems more)
    (enough : (moreItems more).length ≤ fuel) (before : Source) (done : List Source) :
    ∃ read v s, items fuel depth (before :: done) (moreItems more ++ rest) =
      (.arr (read ++ [s]) none, none) ∧ v ∈ more ∧ CutOff depth v s := by
  obtain ⟨fuel, rfl⟩ : ∃ n, fuel = n + 1 :=
    ⟨fuel - 1, by have := length_moreItems_pos more; omega⟩
  cases more with
  | nil => exact absurd (Nat.lt_of_lt_of_le pos deep) (Nat.lt_irrefl 0)
  | cons v more =>
    have positive := length_compact_pos v
    rw [length_moreItems_cons] at enough
    rw [Data.depthItems] at deep
    rw [items_moreItems_next]
    by_cases here : depth ≤ v.depth
    · obtain ⟨s, read, cut⟩ := value_cutOff v fuel (moreItems more ++ rest) pos here (by omega)
      rw [read, withItem, List.reverse_cons]
      exact ⟨_, v, s, rfl, List.mem_cons_self, cut⟩
    · rw [value_compact v (by omega) (by omega) (delimited_moreItems more rest), withItem]
      obtain ⟨read, w, s, is, member, cut⟩ :=
        items_cutOff more fuel depth rest pos (by omega) (by omega) (echo v) (before :: done)
      exact ⟨read, w, s, is, List.mem_cons_of_mem _ member, cut⟩
termination_by structural more

theorem fields_cutOff (more : List (String × Data)) (fuel depth : Nat) (rest : List Char)
    (pos : 0 < depth) (deep : depth ≤ Data.depthFields more)
    (enough : (moreFields more).length ≤ fuel) (before : String × Source)
    (done : List (String × Source)) :
    ∃ read field s, fields fuel depth (before :: done) (moreFields more ++ rest) =
        (.obj (read ++ [(field.1, s)]) none, none) ∧
      field ∈ more ∧ CutOff depth field.2 s := by
  obtain ⟨fuel, rfl⟩ : ∃ n, fuel = n + 1 :=
    ⟨fuel - 1, by have := length_moreFields_pos more; omega⟩
  cases more with
  | nil => exact absurd (Nat.lt_of_lt_of_le pos deep) (Nat.lt_irrefl 0)
  | cons field more =>
    have positive := length_fieldText field
    rw [length_moreFields_cons] at enough
    rw [Data.depthFields] at deep
    rw [fields_moreFields_next]
    by_cases here : depth ≤ field.2.depth
    · obtain ⟨s, read, cut⟩ :=
        value_cutOff field.2 fuel (moreFields more ++ rest) pos here (by omega)
      rw [read, withField, List.reverse_cons]
      exact ⟨_, field, s, rfl, List.mem_cons_self, cut⟩
    · rw [value_compact field.2 (by omega) (by omega) (delimited_moreFields more rest), withField]
      obtain ⟨read, w, s, is, member, cut⟩ :=
        fields_cutOff more fuel depth rest pos (by omega) (by omega) (field.1, echo field.2)
          (before :: done)
      exact ⟨read, w, s, is, List.mem_cons_of_mem _ member, cut⟩
termination_by structural more

end

/-- The text of data that does not nest too deeply is read as a whole. -/
theorem read_compact {v : Data} (shallow : v.depth < maxDepth) :
    read v.compact = (echo v, none) := by
  have whole : value (2 * v.compact.toList.length + 2) maxDepth (v.compact.toList ++ []) =
      (echo v, some []) := value_compact v shallow (by omega) delimited_nil
  rw [List.append_nil] at whole
  simp only [read, whole]
  rfl

/-- The text of data that nests too deeply is cut off. -/
theorem read_cutOff {v : Data} (deep : maxDepth ≤ v.depth) :
    ∃ s, read v.compact = (s, none) ∧ CutOff maxDepth v s := by
  obtain ⟨s, whole, cut⟩ := value_cutOff v (2 * v.compact.toList.length + 2) []
    (show 0 < maxDepth by decide) deep (by omega)
  rw [List.append_nil] at whole
  refine ⟨s, ?_, cut⟩
  simp only [read, whole]

end Runs

end Reader

section Ends

theorem dataItems_append_error {items : List Source} {s : Source}
    (fails : ∀ w, Decode.data s ≠ .ok w) (ws : List Data) :
    Decode.dataItems (items ++ [s]) ≠ .ok ws := by
  induction items generalizing ws with
  | nil =>
    intro decoded
    simp only [List.nil_append, Decode.dataItems] at decoded
    split at decoded
    · cases decoded
    · rename_i w is
      exact fails w is
  | cons v items ih =>
    intro decoded
    simp only [List.cons_append, Decode.dataItems] at decoded
    split at decoded
    · cases decoded
    · split at decoded
      · cases decoded
      · rename_i ws is
        exact ih ws is

theorem dataFields_append_error {fields : List (String × Source)} {name : String} {s : Source}
    (fails : ∀ w, Decode.data s ≠ .ok w) (ws : List (String × Data)) :
    Decode.dataFields (fields ++ [(name, s)]) ≠ .ok ws := by
  induction fields generalizing ws with
  | nil =>
    intro decoded
    simp only [List.nil_append, Decode.dataFields] at decoded
    split at decoded
    · cases decoded
    · rename_i w is
      exact fails w is
  | cons v fields ih =>
    intro decoded
    simp only [List.cons_append, Decode.dataFields] at decoded
    split at decoded
    · cases decoded
    · split at decoded
      · cases decoded
      · rename_i ws is
        exact ih ws is

/-- Data that was cut off is not decoded. -/
theorem Reader.CutOff.data_ne_ok {depth : Nat} {v : Data} {s : Source}
    (cut : Reader.CutOff depth v s) (w : Data) : Decode.data s ≠ .ok w := by
  induction cut generalizing w with
  | bracket => nofun
  | arr read member cut ih =>
    intro decoded
    simp only [Decode.data] at decoded
    split at decoded
    · cases decoded
    · rename_i ws is
      exact dataItems_append_error ih ws is
  | obj read member cut ih =>
    intro decoded
    simp only [Decode.data] at decoded
    split at decoded
    · cases decoded
    · rename_i ws is
      exact dataFields_append_error ih ws is

/-- Data that was cut off nests that deeply. -/
theorem Reader.CutOff.le_depth {depth : Nat} {v : Data} {s : Source}
    (cut : Reader.CutOff depth v s) : depth ≤ v.depth := by
  induction cut with
  | bracket _ deep => exact deep
  | arr read member cut ih =>
    have among := Data.depth_le_depthItems member
    rw [Data.depth]
    omega
  | obj read member cut ih =>
    have among := Data.depth_le_depthFields member
    rw [Data.depth]
    omega

end Ends

end Source

/-- What is read back for data in order. -/
theorem Data.reread_eq_ok_iff {v w : Data} (sorted : v.Sorted) :
    v.reread = .ok w ↔ v.depth < Source.Reader.maxDepth ∧ v.echo? = some w := by
  by_cases shallow : v.depth < Source.Reader.maxDepth
  · rw [← Source.data_echo_eq_ok_iff sorted]
    simp only [reread, Source.decodeText, Source.Reader.read_compact shallow, shallow, true_and]
    cases Decode.data (Source.echo v) <;> rfl
  · refine iff_of_false ?_ fun both => shallow both.1
    obtain ⟨s, read, cut⟩ := Source.Reader.read_cutOff (Nat.le_of_not_lt shallow)
    intro is
    simp only [reread, Source.decodeText, read] at is
    cases decoded : Decode.data s with
    | error e =>
      rw [decoded] at is
      cases is
    | ok w => exact cut.data_ne_ok w decoded

end DurableFlow
