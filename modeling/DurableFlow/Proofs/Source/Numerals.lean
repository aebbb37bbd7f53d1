import DurableFlow.Source.Reader
import Mathlib.Data.List.Basic
import Mathlib.Data.Nat.Digits.Defs
import Mathlib.Data.String.Basic

/-!
# Numbers in compact text

A number is read up to the first character that cannot belong to it, so what stands behind it
makes no difference. An integer that data holds comes back as it was. Of a float only so much is
said that some number is read for it, or that what is read is too large to be held: which one it
is depends on the float alone.
-/

namespace DurableFlow

namespace Source

namespace Reader

section Reading

/-- What stands behind a number cannot belong to it. -/
def Delimited (rest : List Char) : Prop :=
  ∀ c ∈ rest.head?, c.isDigit = false ∧ c ≠ '.' ∧ c ≠ 'e' ∧ c ≠ 'E'

/-- Some digits. -/
structure Digits (cs : List Char) : Prop where
  nonempty : cs ≠ []
  all : ∀ c ∈ cs, c.isDigit = true

/-- A number that is read, none if it is too large to be held. -/
def numeric : Option Number → Source
  | some n => .num n
  | none => .huge

/-- Some text is read as one number, whatever stands behind it. -/
def ReadsNumber (part : List Char → Part Source) (cs : List Char) : Prop :=
  ∃ n, ∀ rest, Delimited rest → part (cs ++ rest) = .ok (numeric n, rest)

variable {cs ds rest : List Char}

theorem span_digits (all : ∀ c ∈ ds, c.isDigit = true)
    (ends : ∀ c ∈ rest.head?, c.isDigit = false) :
    (ds ++ rest).takeWhile Char.isDigit = ds ∧ (ds ++ rest).dropWhile Char.isDigit = rest := by
  rw [List.takeWhile_append_of_pos all, List.dropWhile_append_of_pos all]
  cases rest with
  | nil => simp
  | cons c rest =>
    have stops : c.isDigit = false := ends c rfl
    simp [stops]

/-- Of a run of digits some are taken in, which does not depend on what stands behind it. -/
theorem significandDigits_append (all : ∀ c ∈ ds, c.isDigit = true) (significand taken : Nat) :
    ∃ significand' taken' left, (∀ c ∈ left, c.isDigit = true) ∧
      ∀ rest : List Char, (∀ c ∈ rest.head?, c.isDigit = false) →
        significandDigits significand taken (ds ++ rest) =
          (significand', taken', left ++ rest) := by
  induction ds generalizing significand taken with
  | nil =>
    refine ⟨significand, taken, [], nofun, fun rest ends => ?_⟩
    cases rest with
    | nil => rfl
    | cons c rest =>
      have stops : c.isDigit = false := ends c rfl
      simp [significandDigits, stops]
  | cons d ds ih =>
    obtain ⟨digit, later⟩ := List.forall_mem_cons.mp all
    by_cases fits : significand * 10 + digitValue d < 2 ^ (64 : Nat)
    · obtain ⟨significand', taken', left, lefts, reads⟩ :=
        ih later (significand * 10 + digitValue d) (taken + 1)
      refine ⟨significand', taken', left, lefts, fun rest ends => ?_⟩
      rw [List.cons_append, significandDigits, if_pos ⟨digit, fits⟩, reads rest ends]
    · refine ⟨significand, taken, d :: ds, all, fun rest ends => ?_⟩
      rw [List.cons_append, significandDigits, if_neg fun both => fits both.2]

theorem exists_float (negative : Bool) (significand : Nat) (scale : Int) :
    ∃ n, float negative significand scale = numeric n := by
  unfold float
  split
  · exact ⟨some _, rfl⟩
  · exact ⟨none, rfl⟩

/-- The number that an exponent of some size makes of a significand. -/
theorem exists_scaled (negative : Bool) (significand : Nat) (scale : Int) (down : Bool)
    (size : Nat) : ∃ n, ∀ rest : List Char,
      (if size < 2 ^ (31 : Nat) then
        (.ok (float negative significand (if down then scale - size else scale + size), rest) :
          Part Source)
      else if significand ≠ 0 ∧ !down then .ok (.huge, rest)
      else .ok (.num (.float (.zero negative)), rest)) = .ok (numeric n, rest) := by
  by_cases small : size < 2 ^ (31 : Nat)
  · obtain ⟨n, is⟩ :=
      exists_float negative significand (if down then scale - size else scale + size)
    exact ⟨n, fun rest => by rw [if_pos small, is]⟩
  · by_cases beyond : significand ≠ 0 ∧ !down
    · exact ⟨none, fun rest => by rw [if_neg small, if_pos beyond, numeric]⟩
    · exact ⟨some _, fun rest => by rw [if_neg small, if_neg beyond, numeric]⟩

/-- The marks that may stand before an exponent. -/
def marks : List (List Char × Bool) := [([], false), (['+'], false), (['-'], true)]

theorem readsNumber_exponent (negative : Bool) (significand : Nat) (scale : Int)
    {mark : List Char} {down : Bool} (known : (mark, down) ∈ marks) (digits : Digits ds) :
    ReadsNumber (exponent negative significand scale) (mark ++ ds) := by
  obtain ⟨c, ds, rfl⟩ := List.exists_cons_of_ne_nil digits.nonempty
  have digit : c.isDigit = true := digits.all c List.mem_cons_self
  have unmarked : c ≠ '+' ∧ c ≠ '-' := by
    constructor <;> (rintro rfl; cases digit)
  obtain ⟨n, scaled⟩ := exists_scaled negative significand scale down
    ((c :: ds).foldl (fun n d => n * 10 + digitValue d) 0)
  refine ⟨n, fun rest delimited => ?_⟩
  obtain ⟨taken, dropped⟩ := span_digits digits.all fun c first => (delimited c first).1
  have parts : exponent negative significand scale (mark ++ (c :: ds) ++ rest) =
      if c.isDigit then
        let size := ((c :: ds ++ rest).takeWhile Char.isDigit).foldl
          (fun n d => n * 10 + digitValue d) 0
        let left := (c :: ds ++ rest).dropWhile Char.isDigit
        if size < 2 ^ (31 : Nat) then
          .ok (float negative significand (if down then scale - size else scale + size), left)
        else if significand ≠ 0 ∧ !down then .ok (.huge, left)
        else .ok (.num (.float (.zero negative)), left)
      else .error .malformed := by
    simp only [marks, List.mem_cons, List.not_mem_nil, or_false, Prod.mk.injEq] at known
    obtain ⟨rfl, rfl⟩ | ⟨rfl, rfl⟩ | ⟨rfl, rfl⟩ := known
    · rw [exponent.eq_def]
      split
      rename_i down' cs' h
      split at h
      · simp_all
      · simp_all
      · cases h
        rfl
    · rfl
    · rfl
  rw [parts, if_pos digit]
  simp only [taken, dropped, scaled]

/-- What may follow the whole part of a number, or its fraction. -/
inductive Ending : List Char → Prop
  | nothing : Ending []
  | exponent {letter : Char} {mark ds : List Char} {down : Bool} :
    letter = 'e' ∨ letter = 'E' → (mark, down) ∈ marks → Digits ds → Ending (letter :: (mark ++ ds))

theorem readsNumber_afterDigits (negative : Bool) (significand : Nat) (scale : Int)
    (ending : Ending cs) :
    ReadsNumber (afterDigits negative significand scale) cs := by
  cases ending with
  | nothing =>
    obtain ⟨n, is⟩ := exists_float negative significand scale
    refine ⟨n, fun rest delimited => ?_⟩
    rw [← is, List.nil_append, afterDigits.eq_def]
    split
    · exact absurd rfl (delimited 'e' rfl).2.2.1
    · exact absurd rfl (delimited 'E' rfl).2.2.2
    · rfl
  | @exponent letter mark ds down known marked digits =>
    obtain ⟨n, reads⟩ := readsNumber_exponent negative significand scale marked digits
    refine ⟨n, fun rest delimited => ?_⟩
    rw [← reads rest delimited]
    obtain rfl | rfl := known <;> rfl

theorem ends_of_ending (ending : Ending cs) (delimited : Delimited rest) :
    ∀ c ∈ (cs ++ rest).head?, c.isDigit = false := by
  cases ending with
  | nothing => exact fun c first => (delimited c first).1
  | exponent known =>
    rintro c ⟨⟩
    obtain rfl | rfl := known <;> rfl

theorem readsNumber_fraction (negative : Bool) (significand : Nat) (scale : Int)
    (digits : Digits ds) (ending : Ending cs) :
    ReadsNumber (fraction negative significand scale) (ds ++ cs) := by
  obtain ⟨significand', taken, left, lefts, reads⟩ :=
    significandDigits_append digits.all significand 0
  obtain ⟨n, after⟩ := readsNumber_afterDigits negative significand' (scale - taken) ending
  refine ⟨n, fun rest delimited => ?_⟩
  have ends := ends_of_ending ending delimited
  obtain ⟨c, ds, rfl⟩ := List.exists_cons_of_ne_nil digits.nonempty
  have digit : c.isDigit = true := digits.all c List.mem_cons_self
  have dropped := (span_digits lefts ends).2
  have whole := reads (cs ++ rest) ends
  rw [List.append_assoc, fraction.eq_def, List.cons_append]
  simp only [digit, if_true]
  rw [← List.cons_append, whole]
  simp only [dropped, after rest delimited]

/-- What may follow the whole part of a number. -/
inductive Following : List Char → Prop
  | ending {cs : List Char} : Ending cs → Following cs
  | fraction {ds cs : List Char} : Digits ds → Ending cs → Following ('.' :: (ds ++ cs))

theorem ends_of_following (following : Following cs) (delimited : Delimited rest) :
    ∀ c ∈ (cs ++ rest).head?, c.isDigit = false := by
  cases following with
  | ending ending => exact ends_of_ending ending delimited
  | fraction => rintro c ⟨⟩; rfl

/-- The number whose whole part fits into a significand. -/
def fitting (negative : Bool) (significand : Nat) (cs : List Char) : Part Source :=
  match cs with
  | '.' :: rest => fraction negative significand 0 rest
  | 'e' :: rest => exponent negative significand 0 rest
  | 'E' :: rest => exponent negative significand 0 rest
  | _ =>
    if !negative then .ok (.num (.int significand), cs)
    else if significand = 0 ∨ significand > 2 ^ (63 : Nat) then
      .ok (.num (.float (Binary64.ofInt significand).neg), cs)
    else .ok (.num (.int (-(significand : Int))), cs)

/-- The number whose whole part has more digits than its significand. -/
def exceeding (negative : Bool) (significand : Nat) (more : Nat) (cs : List Char) : Part Source :=
  match cs with
  | '.' :: rest => fraction negative significand more rest
  | rest => afterDigits negative significand more rest

theorem fitting_delimited (negative : Bool) (significand : Nat) (delimited : Delimited rest) :
    fitting negative significand rest =
      if !negative then .ok (.num (.int significand), rest)
      else if significand = 0 ∨ significand > 2 ^ (63 : Nat) then
        .ok (.num (.float (Binary64.ofInt significand).neg), rest)
      else .ok (.num (.int (-(significand : Int))), rest) := by
  unfold fitting
  split
  · exact absurd rfl (delimited '.' rfl).2.1
  · exact absurd rfl (delimited 'e' rfl).2.2.1
  · exact absurd rfl (delimited 'E' rfl).2.2.2
  · rfl

theorem readsNumber_fitting (negative : Bool) (significand : Nat) (following : Following cs) :
    ReadsNumber (fitting negative significand) cs := by
  cases following with
  | fraction digits ending => exact readsNumber_fraction negative significand _ digits ending
  | ending ending =>
    cases ending with
    | nothing =>
      obtain ⟨n, is⟩ : ∃ n, (if !negative then .num (.int significand)
          else if significand = 0 ∨ significand > 2 ^ (63 : Nat) then
            .num (.float (Binary64.ofInt significand).neg)
          else .num (.int (-(significand : Int)))) = numeric n := by
        split
        · exact ⟨some _, rfl⟩
        · split <;> exact ⟨some _, rfl⟩
      refine ⟨n, fun rest delimited => ?_⟩
      rw [List.nil_append, fitting_delimited negative significand delimited, ← is]
      split
      · rfl
      · split <;> rfl
    | exponent known marked digits =>
      obtain ⟨n, reads⟩ := readsNumber_exponent negative significand 0 marked digits
      refine ⟨n, fun rest delimited => ?_⟩
      rw [← reads rest delimited]
      obtain rfl | rfl := known <;> rfl

theorem readsNumber_exceeding (negative : Bool) (significand more : Nat)
    (following : Following cs) : ReadsNumber (exceeding negative significand more) cs := by
  cases following with
  | fraction digits ending => exact readsNumber_fraction negative significand _ digits ending
  | ending ending =>
    obtain ⟨n, reads⟩ := readsNumber_afterDigits negative significand more ending
    refine ⟨n, fun rest delimited => ?_⟩
    rw [← reads rest delimited]
    cases ending with
    | nothing =>
      unfold exceeding
      split
      · rename_i h
        rw [List.nil_append] at h
        subst h
        exact absurd rfl (delimited '.' rfl).2.1
      · rfl
    | exponent known => obtain rfl | rfl := known <;> rfl

/-- The whole part of a number has no zero before other digits. -/
def Whole (cs : List Char) : Prop :=
  cs = ['0'] ∨ Digits cs ∧ cs.head? ≠ some '0'

theorem number_zero (negative : Bool) {tail : List Char}
    (ends : ∀ c ∈ tail.head?, c.isDigit = false) :
    number negative ('0' :: tail) = fitting negative 0 tail := by
  cases tail with
  | nil => rfl
  | cons c tail =>
    have stops : c.isDigit = false := ends c rfl
    have parts : number negative ('0' :: c :: tail) =
      if c.isDigit then .error .malformed else fitting negative 0 (c :: tail) := rfl
    rw [parts, stops]
    rfl

theorem number_digits (negative : Bool) {significand taken : Nat} {left tail : List Char}
    (digits : Digits ds)
    (positive : ds.head? ≠ some '0') (ends : ∀ c ∈ tail.head?, c.isDigit = false)
    (lefts : ∀ c ∈ left, c.isDigit = true)
    (reads : significandDigits 0 0 (ds ++ tail) = (significand, taken, left ++ tail)) :
    number negative (ds ++ tail) =
      if left.length = 0 then fitting negative significand tail
      else exceeding negative significand left.length tail := by
  obtain ⟨c, ds, rfl⟩ := List.exists_cons_of_ne_nil digits.nonempty
  have digit : c.isDigit = true := digits.all c List.mem_cons_self
  have other : c ≠ '0' := fun same => positive (congrArg some same)
  obtain ⟨run, dropped⟩ := span_digits lefts ends
  rw [List.cons_append, number, if_pos digit, ← List.cons_append, reads]
  · simp only [run, dropped]
    split
    · rename_i h
      rw [List.length_eq_zero_iff.mp h]
      rfl
    · rfl
  · exact fun h => absurd h other

/-- A number is read as far as it goes. -/
theorem readsNumber_number (negative : Bool) (whole : Whole ds) (following : Following cs) :
    ReadsNumber (number negative) (ds ++ cs) := by
  rcases whole with rfl | ⟨digits, positive⟩
  · obtain ⟨n, reads⟩ := readsNumber_fitting negative 0 following
    refine ⟨n, fun rest delimited => ?_⟩
    rw [← reads rest delimited, List.append_assoc]
    show number negative ('0' :: (cs ++ rest)) = _
    exact number_zero negative (ends_of_following following delimited)
  · obtain ⟨significand, taken, left, lefts, takenWhole⟩ := significandDigits_append digits.all 0 0
    have shape : ∀ rest, Delimited rest → number negative (ds ++ cs ++ rest) =
        if left.length = 0 then fitting negative significand (cs ++ rest)
        else exceeding negative significand left.length (cs ++ rest) := by
      intro rest delimited
      have ends := ends_of_following following delimited
      rw [List.append_assoc]
      exact number_digits negative digits positive ends lefts (takenWhole (cs ++ rest) ends)
    by_cases empty : left.length = 0
    · obtain ⟨n, reads⟩ := readsNumber_fitting negative significand following
      exact ⟨n, fun rest delimited => by
        rw [shape rest delimited, if_pos empty, reads rest delimited]⟩
    · obtain ⟨n, reads⟩ := readsNumber_exceeding negative significand left.length following
      exact ⟨n, fun rest delimited => by
        rw [shape rest delimited, if_neg empty, reads rest delimited]⟩

end Reading

section Writing

theorem head_toDigits {n : Nat} (pos : 0 < n) : (Nat.toDigits 10 n).head? ≠ some '0' := by
  induction n using Nat.strongRecOn with
  | ind n ih =>
    by_cases small : n < 10
    · rw [Nat.toDigits_of_lt_base small]
      have all : ∀ k < 10, 0 < k → [Nat.digitChar k].head? ≠ some '0' := by decide
      exact all n small pos
    · rw [Nat.toDigits_of_base_le (by decide) (by omega),
        List.head?_append_of_ne_nil _ Nat.toDigits_ne_nil]
      exact ih (n / 10) (by omega) (by omega)

theorem digits_toDigits (n : Nat) : Digits (Nat.toDigits 10 n) :=
  ⟨Nat.toDigits_ne_nil, fun _ => Nat.isDigit_of_mem_toDigits (by decide) (by decide)⟩

theorem whole_toDigits (n : Nat) : Whole (Nat.toDigits 10 n) := by
  rcases Nat.eq_zero_or_pos n with rfl | pos
  · exact .inl (Nat.toDigits_zero 10)
  · exact .inr ⟨digits_toDigits n, head_toDigits pos⟩

theorem toList_toString (n : Nat) : (toString n).toList = Nat.toDigits 10 n := by
  rw [Nat.toString_eq_ofList_toDigits, String.toList_ofList]

/-- A significand takes in all digits of a number that fits. -/
theorem significandDigits_all {ds rest : List Char} (all : ∀ c ∈ ds, c.isDigit = true)
    (ends : ∀ c ∈ rest.head?, c.isDigit = false) {significand : Nat} (taken : Nat)
    (fits : Nat.ofDigitChars 10 ds significand < 2 ^ (64 : Nat)) :
    ∃ taken', significandDigits significand taken (ds ++ rest) =
      (Nat.ofDigitChars 10 ds significand, taken', rest) := by
  induction ds generalizing significand taken with
  | nil =>
    refine ⟨taken, ?_⟩
    cases rest with
    | nil => rfl
    | cons c rest =>
      have stops : c.isDigit = false := ends c rfl
      simp [significandDigits, stops]
  | cons d ds ih =>
    obtain ⟨digit, later⟩ := List.forall_mem_cons.mp all
    have same : significand * 10 + digitValue d = 10 * significand + (d.toNat - '0'.toNat) := by
      rw [Nat.mul_comm, digitValue]
    rw [Nat.ofDigitChars_cons, ← same] at fits ⊢
    have least : significand * 10 + digitValue d ≤
        Nat.ofDigitChars 10 ds (significand * 10 + digitValue d) := by
      rw [Nat.ofDigitChars_eq_ofDigitChars_zero]
      exact Nat.le_add_right_of_le (Nat.le_mul_of_pos_left _ (Nat.pow_pos (by decide)))
    obtain ⟨taken', reads⟩ := ih later (taken + 1) fits
    refine ⟨taken', ?_⟩
    rw [List.cons_append, significandDigits, if_pos ⟨digit, Nat.lt_of_le_of_lt least fits⟩, reads]

theorem number_toDigits {n : Nat} (fits : n < 2 ^ (64 : Nat)) (negative : Bool) {rest : List Char}
    (delimited : Delimited rest) :
    number negative (Nat.toDigits 10 n ++ rest) = fitting negative n rest := by
  have ends : ∀ c ∈ rest.head?, c.isDigit = false := fun c first => (delimited c first).1
  rcases Nat.eq_zero_or_pos n with rfl | pos
  · rw [Nat.toDigits_zero]
    exact number_zero negative ends
  · have digits := digits_toDigits n
    have same : Nat.ofDigitChars 10 (Nat.toDigits 10 n) 0 = n := Nat.ofDigitChars_ten_toDigits
    obtain ⟨taken, reads⟩ := significandDigits_all digits.all ends 0 (by rwa [same])
    rw [same, ← List.nil_append rest] at reads
    exact number_digits negative digits (head_toDigits pos) ends (List.forall_mem_nil _) reads

/-- A magnitude is written with a whole part and what follows it. -/
def Unsigned (cs : List Char) : Prop := ∃ ds tail, cs = ds ++ tail ∧ Whole ds ∧ Following tail

theorem unsigned_toDigits (n : Nat) : Unsigned (Nat.toDigits 10 n) :=
  ⟨_, [], (List.append_nil _).symm, whole_toDigits n, .ending .nothing⟩

theorem digits_replicate_append (k : Nat) {ds : List Char} (digits : Digits ds) :
    Digits (List.replicate k '0' ++ ds) where
  nonempty := List.append_ne_nil_of_right_ne_nil _ digits.nonempty
  all c member := by
    rcases List.mem_append.mp member with zero | other
    · rw [List.eq_of_mem_replicate zero]
      rfl
    · exact digits.all c other

theorem following_point {ds : List Char} (digits : Digits ds) : Following ('.' :: ds) := by
  rw [← List.append_nil ds]
  exact .fraction digits .nothing

theorem unsigned_positionalText {n : Nat} {scale : Int} (trimmed : n ≠ 0 ∨ scale = 0) :
    Unsigned (Binary64.positionalText (toString n) scale ".0").toList := by
  have digits := digits_toDigits n
  unfold Binary64.positionalText
  simp only [toList_toString]
  split
  · rename_i whole
    refine ⟨Nat.toDigits 10 n ++ List.replicate scale.toNat '0', ['.', '0'], ?_, ?_, ?_⟩
    · simp only [String.toList_append, toList_toString, String.toList_ofList]
      rfl
    · rcases trimmed with pos | rfl
      · refine .inr ⟨⟨List.append_ne_nil_of_left_ne_nil digits.nonempty _, ?_⟩, ?_⟩
        · intro c member
          rcases List.mem_append.mp member with digit | zero
          · exact digits.all c digit
          · rw [List.eq_of_mem_replicate zero]
            rfl
        · rw [List.head?_append_of_ne_nil _ digits.nonempty]
          exact head_toDigits (Nat.pos_of_ne_zero pos)
      · simpa using whole_toDigits n
    · exact following_point ⟨List.cons_ne_nil _ _, List.forall_mem_singleton.mpr rfl⟩
  · rename_i negative
    split
    · rename_i small
      refine ⟨['0'], '.' :: (List.replicate (-((Nat.toDigits 10 n).length + scale)).toNat '0' ++
        Nat.toDigits 10 n), ?_, .inl rfl, ?_⟩
      · simp only [String.toList_append, toList_toString, String.toList_ofList]
        rfl
      · exact following_point (digits_replicate_append _ digits)
    · rename_i large
      have pos : 0 < n := by
        rcases Nat.eq_zero_or_pos n with rfl | pos
        · rw [Nat.toDigits_zero, List.length_singleton] at large
          omega
        · exact pos
      obtain ⟨point, is⟩ : ∃ k : Nat, ((Nat.toDigits 10 n).length : Int) + scale = k + 1 :=
        ⟨((Nat.toDigits 10 n).length + scale - 1).toNat, by omega⟩
      have inside : point + 1 < (Nat.toDigits 10 n).length := by omega
      simp only [is]
      refine ⟨(Nat.toDigits 10 n).take (point + 1), '.' :: (Nat.toDigits 10 n).drop (point + 1),
        ?_, .inr ⟨⟨?_, ?_⟩, ?_⟩, following_point ⟨?_, ?_⟩⟩
      · simp only [String.toList_append, String.toList_ofList]
        simp
      · simp
      · exact fun c member => digits.all c (List.mem_of_mem_take member)
      · rw [List.head?_take, if_neg (by omega)]
        exact head_toDigits pos
      · exact fun empty => absurd (List.drop_eq_nil_iff.mp empty) (by omega)
      · exact fun c member => digits.all c (List.mem_of_mem_drop member)

theorem whole_singleton {c : Char} (digit : c.isDigit = true) : Whole [c] := by
  by_cases zero : c = '0'
  · exact .inl (by rw [zero])
  · exact .inr ⟨⟨List.cons_ne_nil _ _, List.forall_mem_singleton.mpr digit⟩,
      fun same => zero (Option.some.inj same)⟩

/-- An exponent is written with its sign. -/
theorem ending_exponent (exponent : Int) : Ending
    ('e' :: ((if exponent < 0 then "" else "+").toList ++ (toString exponent).toList)) := by
  cases exponent with
  | ofNat k =>
    have up : ¬ Int.ofNat k < 0 := by simp
    rw [if_neg up]
    show Ending ('e' :: (['+'] ++ (toString k).toList))
    rw [toList_toString]
    exact .exponent (.inl rfl) (by decide : (['+'], false) ∈ marks) (digits_toDigits k)
  | negSucc k =>
    rw [if_pos (Int.negSucc_lt_zero k)]
    have spelled : (toString (Int.negSucc k)).toList = ['-'] ++ Nat.toDigits 10 (k + 1) := by
      rw [← toList_toString]
      show ("-" ++ toString (k + 1)).toList = _
      rw [String.toList_append]
      rfl
    rw [spelled]
    show Ending ('e' :: (['-'] ++ Nat.toDigits 10 (k + 1)))
    exact .exponent (.inl rfl) (by decide : (['-'], true) ∈ marks) (digits_toDigits (k + 1))

theorem unsigned_exponentText (n : Nat) (exponent : Int) :
    Unsigned (Binary64.exponentText (toString n) exponent "+").toList := by
  have digits := digits_toDigits n
  have ending := ending_exponent exponent
  unfold Binary64.exponentText
  simp only [toList_toString, String.toList_append]
  obtain ⟨c, ds, is⟩ := List.exists_cons_of_ne_nil digits.nonempty
  rw [is] at digits ⊢
  have whole := whole_singleton (digits.all c List.mem_cons_self)
  cases ds with
  | nil =>
    refine ⟨[c], _, ?_, whole, .ending ending⟩
    simp only [toList_toString, is]
    simp
  | cons d ds =>
    have behind : Digits (d :: ds) :=
      ⟨List.cons_ne_nil _ _, fun e member => digits.all e (List.mem_cons_of_mem _ member)⟩
    refine ⟨[c], _, ?_, whole, .fraction behind ending⟩
    simp

theorem covers_zero {x : Binary64} (pos : x.mantissa ≠ 0) (scale : Int) :
    x.covers 0 scale = false := by
  obtain ⟨low, least, covers⟩ : ∃ low, 0 < low ∧ ∀ s, x.covers 0 s =
      if x.mantissa % 2 = 0 then
        !Binary64.scaledLt 0 s low (x.exponent - 2) &&
          Binary64.scaledLe 0 s (4 * x.mantissa + 2) (x.exponent - 2)
      else
        !Binary64.scaledLe 0 s low (x.exponent - 2) &&
          Binary64.scaledLt 0 s (4 * x.mantissa + 2) (x.exponent - 2) := by
    refine ⟨_, ?_, fun s => rfl⟩
    split <;> omega
  have below : Binary64.scaledLt 0 scale low (x.exponent - 2) = true := by
    simp only [Binary64.scaledLt, Nat.zero_mul, decide_eq_true_eq]
    exact Nat.mul_pos (Nat.mul_pos least (Nat.pow_pos (by decide))) (Nat.pow_pos (by decide))
  have atMost : Binary64.scaledLe 0 scale low (x.exponent - 2) = true := by
    simp only [Binary64.scaledLe, Nat.zero_mul, decide_eq_true_eq]
    exact Nat.zero_le _
  rw [covers, below, atMost]
  split <;> rfl

theorem ne_zero_of_onGrid {x : Binary64} (pos : x.mantissa ≠ 0) {scale : Int} {d : Nat}
    (found : x.onGrid scale = some d) : d ≠ 0 := by
  suffices covered : x.covers d scale = true by
    rintro rfl
    rw [covers_zero pos] at covered
    cases covered
  simp only [Binary64.onGrid] at found
  split at found
  · rename_i first second
    split at found <;> (cases found; assumption)
  all_goals cases found
  all_goals assumption

theorem firstGrid_ne_zero {x : Binary64} (pos : x.mantissa ≠ 0) (left : Nat) (scale : Int) :
    (x.firstGrid scale left).digits ≠ 0 := by
  induction left generalizing scale with
  | zero => exact pos
  | succ left ih =>
    unfold Binary64.firstGrid
    split
    · rename_i d found
      exact ne_zero_of_onGrid pos found
    · exact ih (scale - 1)

theorem trim_ne_zero {d : Decimal} (pos : d.digits ≠ 0) (fuel : Nat) :
    (d.trim fuel).digits ≠ 0 := by
  induction fuel generalizing d with
  | zero => exact pos
  | succ fuel ih =>
    unfold Decimal.trim
    split
    · refine ih ?_
      show d.digits / 10 ≠ 0
      omega
    · exact pos

/-- Only zero is written with the digit zero alone, and that without a scale. -/
theorem shortest_trimmed (x : Binary64) : x.shortest.digits ≠ 0 ∨ x.shortest.scale = 0 := by
  unfold Binary64.shortest
  split
  · exact .inr rfl
  · rename_i pos
    exact .inl (trim_ne_zero (firstGrid_ne_zero pos 18 _) 400)

/-- A number is written as its magnitude, behind a sign if it is negative. -/
theorem toString_shape (n : Number) : ∃ cs, Unsigned cs ∧
    (n.toString.toList = cs ∨ n.toString.toList = '-' :: cs) := by
  cases n with
  | int i =>
    cases i with
    | ofNat k => exact ⟨_, unsigned_toDigits k, .inl (toList_toString k)⟩
    | negSucc k =>
      refine ⟨_, unsigned_toDigits (k + 1), .inr ?_⟩
      show ("-" ++ toString (k + 1)).toList = _
      rw [String.toList_append, toList_toString]
      rfl
  | float x =>
    obtain ⟨body, unsigned, text⟩ : ∃ body : String, Unsigned body.toList ∧
        (Number.float x).toString = if x.negative then "-" ++ body else body := by
      refine ⟨_, ?_, rfl⟩
      show Unsigned (if _ then _ else _ : String).toList
      split
      · exact unsigned_positionalText (shortest_trimmed x)
      · exact unsigned_exponentText _ _
    refine ⟨_, unsigned, ?_⟩
    rw [text]
    split
    · right
      rw [String.toList_append]
      rfl
    · left
      rfl

theorem Whole.head {ds : List Char} (whole : Whole ds) :
    ∃ c cs, ds = c :: cs ∧ c.isDigit = true := by
  rcases whole with rfl | ⟨digits, -⟩
  · exact ⟨'0', [], rfl, rfl⟩
  · obtain ⟨c, cs, rfl⟩ := List.exists_cons_of_ne_nil digits.nonempty
    exact ⟨c, cs, rfl, digits.all c List.mem_cons_self⟩

theorem skipBlanks_visible {c : Char} (visible : isBlank c = false) (cs : List Char) :
    skipBlanks (c :: cs) = c :: cs :=
  List.dropWhile_cons_of_neg (by simp [visible])

theorem not_isBlank_of_isDigit {c : Char} (digit : c.isDigit = true) : isBlank c = false := by
  cases blank : isBlank c with
  | false => rfl
  | true =>
    simp only [isBlank, Bool.or_eq_true, beq_iff_eq] at blank
    obtain ((rfl | rfl) | rfl) | rfl := blank <;> cases digit

/-- Where a digit stands, a number is read. -/
theorem value_digit {c : Char} (digit : c.isDigit = true) (fuel depth : Nat) (cs : List Char) :
    value (fuel + 1) depth (c :: cs) = ofPart (number false (c :: cs)) := by
  rw [value, skipBlanks_visible (not_isBlank_of_isDigit digit)]
  split
  case h_9 =>
    rename_i h
    cases h
    rw [if_pos digit]
  all_goals
    rename_i h
    cases h
  all_goals cases digit

theorem exists_value_toString (n : Number) : ∃ m, ∀ fuel depth rest, Delimited rest →
    value (fuel + 1) depth (n.toString.toList ++ rest) = (numeric m, some rest) := by
  obtain ⟨_, ⟨ds, tail, rfl, whole, following⟩, unsigned | signed⟩ := toString_shape n
  · obtain ⟨m, reads⟩ := readsNumber_number false whole following
    refine ⟨m, fun fuel depth rest delimited => ?_⟩
    obtain ⟨c, cs, is, digit⟩ := whole.head
    have read := reads rest delimited
    rw [unsigned]
    subst is
    rw [List.cons_append, List.cons_append] at read ⊢
    rw [value_digit digit, read, ofPart]
  · obtain ⟨m, reads⟩ := readsNumber_number true whole following
    refine ⟨m, fun fuel depth rest delimited => ?_⟩
    rw [signed]
    show ofPart (number true (ds ++ tail ++ rest)) = _
    rw [reads rest delimited, ofPart]

end Writing

end Reader

end Source

/-- The number that is read for the text of a number, none if it is too large to be held. -/
def Number.echo? (n : Number) : Option Number :=
  match (Source.read n.toString).1 with
  | .num m => some m
  | _ => none

namespace Source

namespace Reader

variable {rest : List Char}

theorem delimited_nil : Delimited [] := nofun

theorem value_toString (n : Number) (fuel depth : Nat) (delimited : Delimited rest) :
    value (fuel + 1) depth (n.toString.toList ++ rest) = (numeric n.echo?, some rest) := by
  obtain ⟨m, reads⟩ := exists_value_toString n
  have whole := reads (2 * n.toString.toList.length + 1) maxDepth [] delimited_nil
  rw [List.append_nil] at whole
  have same : n.echo? = m := by
    simp only [Number.echo?, read, whole]
    cases m <;> rfl
  rw [reads fuel depth rest delimited, same]

end Reader

end Source

open Source.Reader in
/-- Integers that data holds are read as they were written. -/
theorem Number.echo?_int {i : Int} (held : (Number.int i).InRange) :
    (Number.int i).echo? = some (.int i) := by
  suffices reads : Source.Reader.value 1 1 ((Number.int i).toString.toList ++ []) =
      (.num (.int i), some []) by
    rw [value_toString _ 0 1 delimited_nil] at reads
    cases found : (Number.int i).echo? with
    | none =>
      rw [found] at reads
      cases reads
    | some m =>
      rw [found] at reads
      cases reads
      rfl
  obtain ⟨low, high⟩ := held
  rw [Number.minInt] at low
  rw [Number.intBound] at high
  cases i with
  | ofNat k =>
    have fits : k < 2 ^ (64 : Nat) := by
      rw [Int.ofNat_eq_natCast] at high
      omega
    have whole := number_toDigits fits false delimited_nil
    obtain ⟨c, cs, is⟩ := List.exists_cons_of_ne_nil (Nat.toDigits_ne_nil (n := k) (b := 10))
    have digit : c.isDigit = true :=
      (digits_toDigits k).all c (by rw [is]; exact List.mem_cons_self)
    show Source.Reader.value 1 1 ((toString k).toList ++ []) = _
    rw [List.append_nil, is] at whole
    rw [List.append_nil, toList_toString, is, value_digit digit, whole]
    rfl
  | negSucc k =>
    have fits : k + 1 < 2 ^ (64 : Nat) := by omega
    have small : ¬ (k + 1 = 0 ∨ k + 1 > 2 ^ (63 : Nat)) := by omega
    have whole := number_toDigits fits true delimited_nil
    have text : (Number.int (Int.negSucc k)).toString.toList = '-' :: Nat.toDigits 10 (k + 1) := by
      show ("-" ++ toString (k + 1)).toList = _
      rw [String.toList_append, toList_toString]
      rfl
    rw [fitting_delimited _ _ delimited_nil, if_neg (by decide), if_neg small] at whole
    rw [text]
    show ofPart (number true (Nat.toDigits 10 (k + 1) ++ [])) = _
    rw [whole]
    rfl

end DurableFlow
