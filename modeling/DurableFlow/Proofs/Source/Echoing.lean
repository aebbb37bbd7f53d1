import DurableFlow.Proofs.Source.Decoding
import DurableFlow.Proofs.Source.Numerals

/-!
# Echoes of data

The echo of data is the data with every number as it is read for its text. It has the shape of the
data and the names of its objects, so it is what is decoded if every number can be held.
-/

namespace DurableFlow

namespace Data

mutual

/-- How many levels are nested. -/
def depth : Data → Nat
  | .arr items => depthItems items + 1
  | .obj fields => depthFields fields + 1
  | _ => 0

def depthItems : List Data → Nat
  | [] => 0
  | v :: rest => max (depth v) (depthItems rest)

def depthFields : List (String × Data) → Nat
  | [] => 0
  | (_, v) :: rest => max (depth v) (depthFields rest)

end

theorem depth_le_depthItems {items : List Data} {v : Data} (member : v ∈ items) :
    v.depth ≤ depthItems items := by
  induction items with
  | nil => cases member
  | cons w rest ih =>
    rw [depthItems]
    rcases List.mem_cons.mp member with rfl | later
    · exact Nat.le_max_left _ _
    · exact (ih later).trans (Nat.le_max_right _ _)

theorem depth_le_depthFields {fields : List (String × Data)} {field : String × Data}
    (member : field ∈ fields) : field.2.depth ≤ depthFields fields := by
  induction fields with
  | nil => cases member
  | cons other rest ih =>
    rw [depthFields]
    rcases List.mem_cons.mp member with rfl | later
    · exact Nat.le_max_left _ _
    · exact (ih later).trans (Nat.le_max_right _ _)

mutual

/-- The data with each number as it is read back, none if one of them is too large then. -/
def echo? : Data → Option Data
  | .num n => n.echo?.map .num
  | .arr items => (echoItems? items).map .arr
  | .obj fields => (echoFields? fields).map .obj
  | v => some v

def echoItems? : List Data → Option (List Data)
  | [] => some []
  | v :: rest =>
    match echo? v, echoItems? rest with
    | some x, some xs => some (x :: xs)
    | _, _ => none

def echoFields? : List (String × Data) → Option (List (String × Data))
  | [] => some []
  | (name, v) :: rest =>
    match echo? v, echoFields? rest with
    | some x, some xs => some ((name, x) :: xs)
    | _, _ => none

end

mutual

/-- The numbers that stand somewhere in data. -/
def numbers : Data → List Number
  | .num n => [n]
  | .arr items => numbersOfItems items
  | .obj fields => numbersOfFields fields
  | _ => []

def numbersOfItems : List Data → List Number
  | [] => []
  | v :: rest => numbers v ++ numbersOfItems rest

def numbersOfFields : List (String × Data) → List Number
  | [] => []
  | (_, v) :: rest => numbers v ++ numbersOfFields rest

end

mutual

/-- Data is its own echo exactly if each of its numbers is. -/
theorem echo?_eq_self_iff (v : Data) :
    v.echo? = some v ↔ ∀ n ∈ v.numbers, n.echo? = some n := by
  cases v with
  | num n => simp [echo?, numbers]
  | arr items =>
    rw [numbers, ← echoItems?_eq_self_iff items]
    simp [echo?]
  | obj fields =>
    rw [numbers, ← echoFields?_eq_self_iff fields]
    simp [echo?]
  | _ => simp [echo?, numbers]
termination_by structural v

theorem echoItems?_eq_self_iff (items : List Data) :
    echoItems? items = some items ↔ ∀ n ∈ numbersOfItems items, n.echo? = some n := by
  cases items with
  | nil => simp [echoItems?, numbersOfItems]
  | cons v rest =>
    rw [numbersOfItems, List.forall_mem_append, ← echo?_eq_self_iff v,
      ← echoItems?_eq_self_iff rest, echoItems?]
    cases echo? v <;> cases echoItems? rest <;> simp
termination_by structural items

theorem echoFields?_eq_self_iff (fields : List (String × Data)) :
    echoFields? fields = some fields ↔ ∀ n ∈ numbersOfFields fields, n.echo? = some n := by
  cases fields with
  | nil => simp [echoFields?, numbersOfFields]
  | cons field rest =>
    obtain ⟨name, v⟩ := field
    rw [numbersOfFields, List.forall_mem_append, ← echo?_eq_self_iff v,
      ← echoFields?_eq_self_iff rest, echoFields?]
    cases echo? v <;> cases echoFields? rest <;> simp
termination_by structural fields

end

end Data

namespace Source

mutual

/-- What is read for the text of data. -/
def echo : Data → Source
  | .null => .null
  | .bool b => .bool b
  | .num n => Reader.numeric n.echo?
  | .str s => .str s
  | .arr items => .arr (echoItems items) none
  | .obj fields => .obj (echoFields fields) none

def echoItems : List Data → List Source
  | [] => []
  | v :: rest => echo v :: echoItems rest

def echoFields : List (String × Data) → List (String × Source)
  | [] => []
  | (name, v) :: rest => (name, echo v) :: echoFields rest

end

mutual

theorem echo_eq_ofData (v : Data) {w : Data} (found : v.echo? = some w) : echo v = ofData w := by
  cases v with
  | num n =>
    obtain ⟨m, is, rfl⟩ := Option.map_eq_some_iff.mp found
    rw [echo, is]
    rfl
  | arr items =>
    obtain ⟨xs, is, rfl⟩ := Option.map_eq_some_iff.mp found
    rw [echo, echoItems_eq_ofItems items is]
    rfl
  | obj fields =>
    obtain ⟨xs, is, rfl⟩ := Option.map_eq_some_iff.mp found
    rw [echo, echoFields_eq_ofFields fields is]
    rfl
  | _ =>
    cases found
    rfl
termination_by structural v

theorem echoItems_eq_ofItems (items : List Data) {xs : List Data}
    (found : Data.echoItems? items = some xs) : echoItems items = ofItems xs := by
  cases items with
  | nil =>
    cases found
    rfl
  | cons v rest =>
    rw [Data.echoItems?] at found
    split at found
    · rename_i x xs first later
      cases found
      rw [echoItems, ofItems, echo_eq_ofData v first, echoItems_eq_ofItems rest later]
    · cases found
termination_by structural items

theorem echoFields_eq_ofFields (fields : List (String × Data)) {xs : List (String × Data)}
    (found : Data.echoFields? fields = some xs) : echoFields fields = ofFields xs := by
  cases fields with
  | nil =>
    cases found
    rfl
  | cons field rest =>
    rw [Data.echoFields?] at found
    split at found
    · rename_i x xs first later
      cases found
      rw [echoFields, ofFields, echo_eq_ofData field.2 first, echoFields_eq_ofFields rest later]
    · cases found
termination_by structural fields

end

mutual

/-- Only data whose numbers are all held is decoded. -/
theorem echo?_of_data (v : Data) {w : Data} (decoded : Decode.data (echo v) = .ok w) :
    ∃ x, v.echo? = some x := by
  cases v with
  | num n =>
    cases is : n.echo? with
    | none =>
      rw [echo, is] at decoded
      cases decoded
    | some m => exact ⟨.num m, by rw [Data.echo?, is]; rfl⟩
  | arr items =>
    simp only [echo, Decode.data] at decoded
    split at decoded
    · cases decoded
    · rename_i xs is
      obtain ⟨ys, found⟩ := echoItems?_of_dataItems items is
      exact ⟨.arr ys, by rw [Data.echo?, found]; rfl⟩
  | obj fields =>
    simp only [echo, Decode.data] at decoded
    split at decoded
    · cases decoded
    · rename_i xs is
      obtain ⟨ys, found⟩ := echoFields?_of_dataFields fields is
      exact ⟨.obj ys, by rw [Data.echo?, found]; rfl⟩
  | _ => exact ⟨_, rfl⟩
termination_by structural v

theorem echoItems?_of_dataItems (items : List Data) {xs : List Data}
    (decoded : Decode.dataItems (echoItems items) = .ok xs) :
    ∃ ys, Data.echoItems? items = some ys := by
  cases items with
  | nil => exact ⟨[], rfl⟩
  | cons v rest =>
    simp only [echoItems, Decode.dataItems] at decoded
    split at decoded
    · cases decoded
    · rename_i x first
      split at decoded
      · cases decoded
      · rename_i xs later
        obtain ⟨y, found⟩ := echo?_of_data v first
        obtain ⟨ys, founds⟩ := echoItems?_of_dataItems rest later
        exact ⟨y :: ys, by rw [Data.echoItems?, found, founds]⟩
termination_by structural items

theorem echoFields?_of_dataFields (fields : List (String × Data)) {xs : List (String × Data)}
    (decoded : Decode.dataFields (echoFields fields) = .ok xs) :
    ∃ ys, Data.echoFields? fields = some ys := by
  cases fields with
  | nil => exact ⟨[], rfl⟩
  | cons field rest =>
    simp only [echoFields, Decode.dataFields] at decoded
    split at decoded
    · cases decoded
    · rename_i x first
      split at decoded
      · cases decoded
      · rename_i xs later
        obtain ⟨y, found⟩ := echo?_of_data field.2 first
        obtain ⟨ys, founds⟩ := echoFields?_of_dataFields rest later
        exact ⟨(field.1, y) :: ys, by rw [Data.echoFields?, found, founds]⟩
termination_by structural fields

end

theorem names_echoFields? {fields xs : List (String × Data)}
    (found : Data.echoFields? fields = some xs) : Fields.names xs = Fields.names fields := by
  induction fields generalizing xs with
  | nil =>
    cases found
    rfl
  | cons field rest ih =>
    rw [Data.echoFields?] at found
    split at found
    · rename_i x xs first later
      cases found
      exact congrArg (field.1 :: ·) (ih later)
    · cases found

mutual

/-- The names of objects are read as they were written. -/
theorem sorted_echo? (v : Data) {w : Data} (sorted : v.Sorted) (found : v.echo? = some w) :
    w.Sorted := by
  cases v with
  | num n =>
    obtain ⟨m, is, rfl⟩ := Option.map_eq_some_iff.mp found
    trivial
  | arr items =>
    obtain ⟨xs, is, rfl⟩ := Option.map_eq_some_iff.mp found
    exact sorted_echoItems? items sorted is
  | obj fields =>
    obtain ⟨xs, is, rfl⟩ := Option.map_eq_some_iff.mp found
    refine ⟨?_, sorted_echoFields? fields sorted.2 is⟩
    have names : (Fields.names fields).Pairwise (· < ·) := List.pairwise_map.mpr sorted.1
    rw [← names_echoFields? is] at names
    exact List.pairwise_map.mp names
  | _ =>
    cases found
    exact sorted
termination_by structural v

theorem sorted_echoItems? (items : List Data) {xs : List Data} (sorted : Data.SortedItems items)
    (found : Data.echoItems? items = some xs) : Data.SortedItems xs := by
  cases items with
  | nil =>
    cases found
    trivial
  | cons v rest =>
    rw [Data.echoItems?] at found
    split at found
    · rename_i x xs first later
      cases found
      exact ⟨sorted_echo? v sorted.1 first, sorted_echoItems? rest sorted.2 later⟩
    · cases found
termination_by structural items

theorem sorted_echoFields? (fields : List (String × Data)) {xs : List (String × Data)}
    (sorted : Data.SortedFields fields) (found : Data.echoFields? fields = some xs) :
    Data.SortedFields xs := by
  cases fields with
  | nil =>
    cases found
    trivial
  | cons field rest =>
    rw [Data.echoFields?] at found
    split at found
    · rename_i x xs first later
      cases found
      exact ⟨sorted_echo? field.2 sorted.1 first, sorted_echoFields? rest sorted.2 later⟩
    · cases found
termination_by structural fields

end

/-- Of the text of data in order the data is decoded with its numbers as they are read. -/
theorem data_echo_eq_ok_iff {v w : Data} (sorted : v.Sorted) :
    Decode.data (echo v) = .ok w ↔ v.echo? = some w := by
  have decodes : ∀ x, v.echo? = some x → Decode.data (echo v) = .ok x := by
    intro x found
    rw [echo_eq_ofData v found, Decode.data_ofData x (sorted_echo? v sorted found)]
  refine ⟨fun decoded => ?_, decodes w⟩
  obtain ⟨x, found⟩ := echo?_of_data v decoded
  rw [decodes x found] at decoded
  rw [found, Except.ok.inj decoded]

end Source

namespace Decode

open Source

section Checks

/-- Every field that a record knows passes its check if the record is read. -/
theorem check_of_recordFields {specs : List FieldSpec} {seen : List String}
    {fields known : List (String × Source)} (read : recordFields specs seen fields = .ok known)
    {name : String} {s : Source} (member : (name, s) ∈ fields) {spec : FieldSpec}
    (find : specs.find? (·.name == name) = some spec) : spec.check s = .ok () := by
  induction fields generalizing seen known with
  | nil => cases member
  | cons field rest ih =>
    obtain ⟨other, v⟩ := field
    rw [recordFields] at read
    rcases List.mem_cons.mp member with here | later
    · cases here
      rw [find] at read
      dsimp only at read
      split at read
      · cases read
      · split at read
        · cases read
        · assumption
    · split at read
      · split at read
        · cases read
        · exact ih read later
      · split at read
        · cases read
        · split at read
          · cases read
          · split at read
            · cases read
            · rename_i more
              exact ih more later

theorem check_of_record {type : String} {specs : List FieldSpec} {needed : String → Bool}
    {fields known : List (String × Source)} (stop : Option TextFault)
    (read : record type specs needed (.obj fields stop) = .ok known)
    {name : String} {s : Source} (member : (name, s) ∈ fields) {spec : FieldSpec}
    (find : specs.find? (·.name == name) = some spec) : spec.check s = .ok () := by
  simp only [record, Source.untagged] at read
  split at read
  · cases read
  · rename_i known' checked
    exact check_of_recordFields checked member find

theorem decoded_of_check {α : Type} {name : String} {decode : Decoder α} {s : Source}
    (passes : (FieldSpec.of name decode).check s = .ok ()) : ∃ x, decode s = .ok x := by
  cases decoded : decode s with
  | error e =>
    rw [FieldSpec.of] at passes
    dsimp only at passes
    rw [decoded] at passes
    cases passes
  | ok x => exact ⟨x, rfl⟩

theorem mapFields_data (fields : List (String × Source)) :
    mapFields data fields = dataFields fields := by
  induction fields with
  | nil => rfl
  | cons field rest ih =>
    rw [mapFields, dataFields, ih]
    cases data field.2 with
    | error e => rfl
    | ok x => cases dataFields rest <;> rfl

/-- What is decoded as fields of data is decoded as data. -/
theorem data_of_map_data {fields : List (String × Source)} {stop : Option TextFault}
    {xs : Fields Data} (read : map data (.obj fields stop) = .ok xs) :
    data (.obj fields stop) = .ok (.obj xs) := by
  simp only [map, Source.untagged, mapFields_data] at read
  rw [data]
  split at read
  · cases read
  · rename_i ys is
    rw [is]
    dsimp only
    split at read
    · cases read
    · cases read
      rfl

end Checks

end Decode

end DurableFlow
