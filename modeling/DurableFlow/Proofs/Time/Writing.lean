import DurableFlow.Proofs.Data.Except
import DurableFlow.Proofs.Expr.Lexing
import DurableFlow.Proofs.Time.Calendar
import DurableFlow.Time.Rfc3339
import Mathlib.Data.Nat.Digits.Defs
import Mathlib.Data.String.Basic

/-!
# The text of instants

The parts of an instant are written with fixed numbers of digits. So the text of an instant is
read back as the instant, and as long as its year has four digits, texts follow each other as
their instants do, whatever number of fraction digits they have.
-/

namespace DurableFlow

section Digits

/-- The last decimal digits of a number, a fixed count of them. -/
def fixedDigits : Nat → Nat → List Char
  | 0, _ => []
  | width + 1, n => fixedDigits width (n / 10) ++ [Nat.digitChar (n % 10)]

theorem length_fixedDigits (width n : Nat) : (fixedDigits width n).length = width := by
  induction width generalizing n with
  | zero => rfl
  | succ width ih => rw [fixedDigits, List.length_append, ih, List.length_singleton]

theorem isDigit_digitChar {n : Nat} (small : n < 10) : (Nat.digitChar n).isDigit = true := by
  have all : ∀ k < 10, (Nat.digitChar k).isDigit = true := by decide
  exact all n small

theorem isDigit_of_mem_fixedDigits {width n : Nat} {c : Char} (member : c ∈ fixedDigits width n) :
    c.isDigit = true := by
  induction width generalizing n with
  | zero => cases member
  | succ width ih =>
    rcases List.mem_append.mp member with before | last
    · exact ih before
    · rw [List.mem_singleton.mp last]
      exact isDigit_digitChar (Nat.mod_lt _ (by decide))

theorem ofDigitChars_fixedDigits (width n : Nat) :
    Nat.ofDigitChars 10 (fixedDigits width n) 0 = n % 10 ^ width := by
  induction width generalizing n with
  | zero => simp [fixedDigits, Nat.mod_one]
  | succ width ih =>
    rw [fixedDigits, Nat.ofDigitChars_append, ih,
      Nat.ofDigitChars_cons_digitChar_of_lt_ten (Nat.mod_lt _ (by decide)), Nat.ofDigitChars_nil,
      Nat.pow_succ, Nat.mul_comm (10 ^ width), Nat.mod_mul, Nat.add_comm]

theorem fixedDigits_zero (width : Nat) : fixedDigits width 0 = List.replicate width '0' := by
  induction width with
  | zero => rfl
  | succ width ih =>
    rw [fixedDigits, Nat.zero_div, ih, List.replicate_succ']
    rfl

/-- A number that is filled up with zeros has a fixed count of digits. -/
theorem toList_padded {width n : Nat} (pos : 0 < width) (small : n < 10 ^ width) :
    (Instant.padded width n).toList = fixedDigits width n := by
  have filled : (Instant.padded width n).toList =
      List.replicate (width - (Nat.toDigits 10 n).length) '0' ++ Nat.toDigits 10 n := by
    rw [Instant.padded, String.toList_append, String.toList_ofList, Nat.toString_eq_ofList_toDigits,
      String.toList_ofList, ← String.length_toList, String.toList_ofList]
  rw [filled]
  clear filled
  induction width generalizing n with
  | zero => exact absurd pos (Nat.lt_irrefl 0)
  | succ width ih =>
    by_cases short : n < 10
    · rw [Nat.toDigits_of_lt_base short, fixedDigits, Nat.div_eq_of_lt short, fixedDigits_zero,
        Nat.mod_eq_of_lt short]
      rfl
    · have long : 10 ≤ n := Nat.le_of_not_lt short
      have width_pos : 0 < width := by
        rcases Nat.eq_zero_or_pos width with rfl | pos
        · exact absurd small short
        · exact pos
      rw [Nat.toDigits_of_base_le (by decide) long, fixedDigits,
        ← ih width_pos (Nat.div_lt_of_lt_mul (by rwa [Nat.pow_succ, Nat.mul_comm] at small)),
        List.length_append, List.length_singleton, Nat.add_sub_add_right, List.append_assoc]

theorem digitChar_order {i j : Nat} (small : i < 10) (small' : j < 10) :
    (Nat.digitChar i < Nat.digitChar j ↔ i < j) ∧ (Nat.digitChar i = Nat.digitChar j ↔ i = j) := by
  have all : ∀ i < 10, ∀ j < 10, (Nat.digitChar i < Nat.digitChar j ↔ i < j) ∧
      (Nat.digitChar i = Nat.digitChar j ↔ i = j) := by decide
  exact all i small j small'

/-- Fixed counts of digits are in the order of what they count, and what stands behind them
decides between equals. -/
theorem fixedDigits_append_lt {width m n : Nat} (small : m < 10 ^ width) (small' : n < 10 ^ width)
    {rest rest' : List Char} : fixedDigits width m ++ rest < fixedDigits width n ++ rest' ↔
      m < n ∨ m = n ∧ rest < rest' := by
  induction width generalizing m n rest rest' with
  | zero =>
    obtain rfl : m = 0 := Nat.lt_one_iff.mp small
    obtain rfl : n = 0 := Nat.lt_one_iff.mp small'
    simp [fixedDigits]
  | succ width ih =>
    have order := digitChar_order (Nat.mod_lt m (show 0 < 10 by decide))
      (Nat.mod_lt n (show 0 < 10 by decide))
    rw [Nat.pow_succ, Nat.mul_comm] at small small'
    rw [fixedDigits, fixedDigits, List.append_assoc, List.append_assoc,
      ih (Nat.div_lt_of_lt_mul small) (Nat.div_lt_of_lt_mul small'), List.singleton_append,
      List.singleton_append, List.cons_lt_cons_iff, order.1, order.2]
    by_cases less : rest < rest'
    · simp only [less, and_true]
      omega
    · simp only [less, and_false, or_false]
      omega

theorem fixedDigits_add (width more n : Nat) : fixedDigits (width + more) n =
    fixedDigits width (n / 10 ^ more) ++ fixedDigits more n := by
  induction more generalizing n with
  | zero => rw [Nat.add_zero, Nat.pow_zero, Nat.div_one, fixedDigits, List.append_nil]
  | succ more ih =>
    rw [← Nat.add_assoc, fixedDigits, ih, fixedDigits, List.append_assoc, Nat.div_div_eq_div_mul,
      Nat.pow_succ, Nat.mul_comm 10]

/-- Digits follow every mark that may stand where they end. -/
theorem lt_fixedDigits_append {width n : Nat} (pos : 0 < width) {mark : Char} (before : mark < '0')
    (rest rest' : List Char) : mark :: rest < fixedDigits width n ++ rest' := by
  obtain ⟨c, cs, is⟩ := List.exists_cons_of_length_pos
    (show 0 < (fixedDigits width n).length by rwa [length_fixedDigits])
  have digit : c.isDigit = true := by
    have member : c ∈ fixedDigits width n := by rw [is]; exact List.mem_cons_self
    exact isDigit_of_mem_fixedDigits member
  have least : '0' ≤ c := by
    rw [Char.isDigit, Bool.and_eq_true] at digit
    exact of_decide_eq_true digit.1
  rw [is, List.cons_append, List.cons_lt_cons_iff]
  exact .inl (lt_of_lt_of_le before least)

/-- The groups of three digits that a fraction has: the rest of it is zero, and not more of it. -/
structure Groups (nano count : Nat) : Prop where
  positive : 1 ≤ count
  few : count ≤ 3
  rest : nano % 10 ^ (9 - 3 * count) = 0
  needed : ∀ fewer < count, 1 ≤ fewer → nano % 10 ^ (9 - 3 * fewer) ≠ 0

/-- The digits of the groups of a fraction. -/
def groupDigits (nano count : Nat) : List Char :=
  fixedDigits (3 * count) (nano / 10 ^ (9 - 3 * count))

theorem div_pow_lt {nano : Nat} (small : nano < 10 ^ (9 : Nat)) {count : Nat} (few : count ≤ 3) :
    nano / 10 ^ (9 - 3 * count) < 10 ^ (3 * count) := by
  refine Nat.div_lt_of_lt_mul ?_
  rwa [← Nat.pow_add, show 9 - 3 * count + 3 * count = 9 by omega]

/-- Of two fractions the one with fewer groups is compared with the first groups of the other. -/
theorem groupDigits_split {nano count more : Nat} (fewer : count ≤ more) (few : more ≤ 3) :
    groupDigits nano more = groupDigits nano count ++
      fixedDigits (3 * (more - count)) (nano / 10 ^ (9 - 3 * more)) := by
  have whole := fixedDigits_add (3 * count) (3 * (more - count)) (nano / 10 ^ (9 - 3 * more))
  rw [Nat.div_div_eq_div_mul, ← Nat.pow_add,
    show 9 - 3 * more + 3 * (more - count) = 9 - 3 * count by omega,
    show 3 * count + 3 * (more - count) = 3 * more by omega] at whole
  exact whole

theorem lt_of_div_le {m n b : Nat} (whole : m % b = 0) (broken : n % b ≠ 0) :
    m / b < n / b ∨ m / b = n / b ↔ m < n := by
  have left := Nat.div_add_mod m b
  have right := Nat.div_add_mod n b
  rw [← Nat.le_iff_lt_or_eq]
  constructor
  · intro order
    have more := Nat.mul_le_mul_left b order
    omega
  · intro less
    exact Nat.div_le_div_right (Nat.le_of_lt less)

theorem div_lt_iff {m n b : Nat} (pos : 0 < b) (whole : n % b = 0) : m / b < n / b ↔ m < n := by
  rw [Nat.div_lt_iff_lt_mul pos, Nat.div_mul_cancel (Nat.dvd_of_mod_eq_zero whole)]

/-- Fractions with all the groups they need are in the order of their texts. -/
theorem groupDigits_lt_iff {m n count count' : Nat} (small : m < 10 ^ (9 : Nat))
    (small' : n < 10 ^ (9 : Nat)) (groups : Groups m count) (groups' : Groups n count')
    {mark : Char} (before : mark < '0') (rest : List Char) :
    groupDigits m count ++ mark :: rest < groupDigits n count' ++ mark :: rest ↔ m < n := by
  rcases Nat.lt_trichotomy count count' with fewer | rfl | more
  · have behind := lt_fixedDigits_append (show 0 < 3 * (count' - count) by omega)
      (n := n / 10 ^ (9 - 3 * count')) before rest (mark :: rest)
    rw [groupDigits_split (Nat.le_of_lt fewer) groups'.few, List.append_assoc, groupDigits,
      groupDigits, fixedDigits_append_lt (div_pow_lt small groups.few)
        (div_pow_lt small' groups.few)]
    simp only [behind, and_true]
    exact lt_of_div_le groups.rest (groups'.needed count fewer groups.positive)
  · rw [groupDigits, groupDigits, fixedDigits_append_lt (div_pow_lt small groups.few)
      (div_pow_lt small' groups.few), iff_false_intro (List.lt_irrefl (mark :: rest)), and_false,
      or_false]
    exact div_lt_iff (Nat.pow_pos (by decide)) groups'.rest
  · have behind := lt_fixedDigits_append (show 0 < 3 * (count - count') by omega)
      (n := m / 10 ^ (9 - 3 * count)) before rest (mark :: rest)
    rw [groupDigits_split (Nat.le_of_lt more) groups.few, List.append_assoc, groupDigits,
      groupDigits, fixedDigits_append_lt (div_pow_lt small groups'.few)
        (div_pow_lt small' groups'.few), iff_false_intro (List.lt_asymm behind), and_false,
      or_false]
    exact div_lt_iff (Nat.pow_pos (by decide)) groups'.rest


end Digits

namespace Instant

namespace Reader

section Parts

variable {width n least most : Nat} {rest : List Char}

theorem exists_fixedDigits_cons (pos : 0 < width) (n : Nat) :
    ∃ c cs, fixedDigits width n = c :: cs ∧ c.isDigit = true := by
  obtain ⟨c, cs, is⟩ := List.exists_cons_of_length_pos
    (show 0 < (fixedDigits width n).length by rwa [length_fixedDigits])
  exact ⟨c, cs, is, isDigit_of_mem_fixedDigits (by rw [is]; exact List.mem_cons_self)⟩

theorem skipBlanks_fixedDigits (pos : 0 < width) (n : Nat) (rest : List Char) :
    skipBlanks (fixedDigits width n ++ rest) = fixedDigits width n ++ rest := by
  obtain ⟨c, cs, is, digit⟩ := exists_fixedDigits_cons pos n
  have visible := (Expr.Lexer.apart_of_isDigit digit).2.1
  rw [is, List.cons_append]
  exact List.dropWhile_cons_of_neg (by rw [visible]; decide)

/-- A fixed count of digits is read as the number, if the reader takes as many or the digits end
there. -/
theorem number_fixedDigits (pos : 0 < width) (small : n < 10 ^ width) (held : n ≤ maxNumber)
    (takes : width = most ∨ width ≤ most ∧ ∀ c ∈ rest.head?, c.isDigit = false) :
    number 1 most (fixedDigits width n ++ rest) = .ok (n, rest) := by
  have run : ((fixedDigits width n ++ rest).take most).takeWhile Char.isDigit =
      fixedDigits width n := by
    have all : ∀ c ∈ fixedDigits width n, c.isDigit = true :=
      fun c => isDigit_of_mem_fixedDigits
    rcases takes with rfl | ⟨enough, ends⟩
    · rw [List.take_append_of_le_length (by rw [length_fixedDigits]),
        List.take_of_length_le (by rw [length_fixedDigits])]
      exact List.takeWhile_eq_self_iff.mpr all
    · rw [List.take_append, List.take_of_length_le (by rwa [length_fixedDigits]),
        List.takeWhile_append_of_pos all, length_fixedDigits]
      cases rest with
      | nil => simp
      | cons c rest =>
        have stops : c.isDigit = false := ends c rfl
        cases most - width <;> simp [stops]
  have long : ¬ (String.ofList (fixedDigits width n ++ rest)).utf8ByteSize < 1 := by
    obtain ⟨c, cs, is, -⟩ := exists_fixedDigits_cons pos n
    intro short
    have empty := String.utf8ByteSize_eq_zero_iff.mp (Nat.lt_one_iff.mp short)
    rw [is] at empty
    exact absurd (congrArg String.toList empty) (by simp)
  have value : (fixedDigits width n).foldl (fun n d => n * 10 + (d.toNat - '0'.toNat)) 0 = n := by
    rw [show (fun n (d : Char) => n * 10 + (d.toNat - '0'.toNat)) =
      fun n (d : Char) => n * 10 + (d.toNat - 48) from rfl, Expr.Lexer.foldl_digits,
      ofDigitChars_fixedDigits, Nat.mod_eq_of_lt small]
  simp only [number, if_neg long, run, length_fixedDigits, value]
  rw [if_neg (by omega), if_neg (by omega), List.drop_append_of_le_length
    (by rw [length_fixedDigits]), List.drop_of_length_le (by rw [length_fixedDigits]),
    List.nil_append]

/-- Two digits are read as a part that lies within its bounds. -/
theorem lenientPart_fixedDigits {low high : Nat} (least : low ≤ n) (most : n ≤ high)
    (two : high < 100) : lenientPart low high (fixedDigits 2 n ++ rest) = .ok (n, rest) := by
  rw [lenientPart, skipBlanks_fixedDigits (by decide), number_fixedDigits (by decide)
    (Nat.lt_of_le_of_lt most two) (most.trans (by unfold maxNumber; omega)) (.inl rfl)]
  show (do bounded low high n; _) = _
  rw [bounded, if_pos ⟨least, most⟩]
  rfl

/-- A number with more digits than it is filled up to keeps all of them. -/
theorem toList_padded_four (small : n < 10 ^ (6 : Nat)) :
    ∃ width, 4 ≤ width ∧ width ≤ 6 ∧ n < 10 ^ width ∧
      (padded 4 n).toList = fixedDigits width n := by
  have wider : ∀ width, 10 ^ width ≤ n → padded width n = padded (width + 1) n := by
    intro width many
    have long : width + 1 ≤ (toString n).length := by
      have more : ¬ (Nat.toDigits 10 n).length ≤ width := by
        rcases Nat.eq_zero_or_pos width with rfl | pos
        · exact Nat.not_le_of_lt (Nat.length_toDigits_pos)
        · rw [Nat.length_toDigits_le_iff (by decide) pos]
          exact Nat.not_lt_of_le many
      rw [Nat.toString_eq_ofList_toDigits, ← String.length_toList, String.toList_ofList]
      omega
    simp only [padded, Nat.sub_eq_zero_of_le long,
      Nat.sub_eq_zero_of_le (Nat.le_of_succ_le long)]
  by_cases four : n < 10 ^ (4 : Nat)
  · exact ⟨4, by decide, by decide, four, toList_padded (by decide) four⟩
  rw [wider 4 (Nat.le_of_not_lt four)]
  by_cases five : n < 10 ^ (5 : Nat)
  · exact ⟨5, by decide, by decide, five, toList_padded (by decide) five⟩
  rw [wider 5 (Nat.le_of_not_lt five)]
  exact ⟨6, by decide, by decide, small, toList_padded (by decide) small⟩

theorem lenientYear_digit {c : Char} (digit : c.isDigit = true) (cs : List Char) :
    lenientYear (c :: cs) =
      number 1 4 (c :: cs) >>= fun part => lenientYear.year part.1 part.2 := by
  have visible := (Expr.Lexer.apart_of_isDigit digit).2.1
  have there : skipBlanks (c :: cs) = c :: cs :=
    List.dropWhile_cons_of_neg (by rw [visible]; decide)
  unfold lenientYear
  rw [there]
  split
  · rename_i h
    cases h
    cases digit
  · rename_i h
    cases h
    cases digit
  · rfl

theorem lenientYear_sign {sign : Char} (known : sign = '-' ∨ sign = '+') (cs : List Char) :
    lenientYear (sign :: cs) = number 1 (cs.length + 1) cs >>= fun part =>
      lenientYear.year (if sign = '-' then -(part.1 : Int) else part.1) part.2 := by
  have there : skipBlanks (sign :: cs) = sign :: cs := by
    refine List.dropWhile_cons_of_neg ?_
    rcases known with rfl | rfl <;> decide +kernel
  unfold lenientYear
  rw [there]
  rcases known with rfl | rfl <;> rfl

theorem year_eq {year : Int} (least : CivilDate.minYear ≤ year) (most : year ≤ CivilDate.maxYear)
    (rest : List Char) : lenientYear.year year rest = .ok (year, rest) := by
  unfold CivilDate.minYear at least
  unfold CivilDate.maxYear at most
  exact if_pos ⟨by omega, by omega⟩

theorem lenientYear_yearText {year : Int} (least : CivilDate.minYear ≤ year)
    (most : year ≤ CivilDate.maxYear) (rest : List Char) :
    lenientYear ((yearText year).toList ++ '-' :: rest) = .ok (year, '-' :: rest) := by
  have named := year_eq least most ('-' :: rest)
  unfold CivilDate.minYear at least
  unfold CivilDate.maxYear at most
  unfold yearText
  split
  · rename_i four
    have small : year.toNat < 10 ^ (4 : Nat) := by omega
    have number : number 1 4 (fixedDigits 4 year.toNat ++ '-' :: rest) =
        .ok (year.toNat, '-' :: rest) :=
      number_fixedDigits (by decide) small (by unfold maxNumber; omega) (.inl rfl)
    obtain ⟨c, cs, is, digit⟩ := exists_fixedDigits_cons (show 0 < 4 by decide) year.toNat
    rw [toList_padded (by decide) small]
    rw [is, List.cons_append] at number ⊢
    rw [lenientYear_digit digit, number, ok_bind, Int.toNat_of_nonneg four.1]
    exact named
  · rename_i beyond
    obtain ⟨width, wide, most, small, is⟩ :=
      toList_padded_four (show year.natAbs < 10 ^ (6 : Nat) by omega)
    have number : number 1 ((fixedDigits width year.natAbs ++ '-' :: rest).length + 1)
        (fixedDigits width year.natAbs ++ '-' :: rest) = .ok (year.natAbs, '-' :: rest) :=
      number_fixedDigits (by omega) small (by unfold maxNumber; omega)
        (.inr ⟨by rw [List.length_append, length_fixedDigits]; omega, by rintro c ⟨⟩; decide⟩)
    by_cases negative : year < 0
    · rw [if_pos negative, String.toList_append, is]
      show lenientYear ('-' :: (fixedDigits width year.natAbs ++ '-' :: rest)) = _
      rw [lenientYear_sign (.inl rfl), number, ok_bind, if_pos rfl,
        show -(year.natAbs : Int) = year by omega]
      exact named
    · rw [if_neg negative, String.toList_append, is]
      show lenientYear ('+' :: (fixedDigits width year.natAbs ++ '-' :: rest)) = _
      rw [lenientYear_sign (.inr rfl), number, ok_bind, if_neg (by decide),
        show (year.natAbs : Int) = year by omega]
      exact named

theorem char_skipBlanks {c : Char} (visible : Text.isBlank c = false) (rest : List Char) :
    char c (skipBlanks (c :: rest)) = .ok rest := by
  have there : skipBlanks (c :: rest) = c :: rest :=
    List.dropWhile_cons_of_neg (by rw [visible]; decide)
  rw [there]
  exact if_pos rfl

/-- The fraction of a second as it is written. -/
def fractionDigits (nano : Nat) : List Char :=
  if nano = 0 then []
  else if nano % 10 ^ (6 : Nat) = 0 then '.' :: fixedDigits 3 (nano / 10 ^ (6 : Nat))
  else if nano % 10 ^ (3 : Nat) = 0 then '.' :: fixedDigits 6 (nano / 10 ^ (3 : Nat))
  else '.' :: fixedDigits 9 nano

theorem toList_fractionText {nano : Nat} (small : nano < 10 ^ (9 : Nat)) :
    (fractionText nano).toList = fractionDigits nano := by
  unfold fractionText fractionDigits
  split
  · rfl
  · split
    · rw [String.toList_append, toList_padded (by decide) (by omega)]
      rfl
    · split
      · rw [String.toList_append, toList_padded (by decide) (by omega)]
        rfl
      · rw [String.toList_append, toList_padded (by decide) small]
        rfl

theorem fraction_fixedDigits (pos : 0 < width) (short : width ≤ 9) (small : n < 10 ^ width)
    (ends : ∀ c ∈ rest.head?, c.isDigit = false) :
    fraction (fixedDigits width n ++ rest) = .ok (n * 10 ^ (9 - width), rest) := by
  have held : n ≤ maxNumber := by
    have power : 10 ^ width ≤ 10 ^ (9 : Nat) := Nat.pow_le_pow_right (by decide) short
    unfold maxNumber
    omega
  have dropped : rest.dropWhile Char.isDigit = rest := by
    cases rest with
    | nil => rfl
    | cons c rest => exact List.dropWhile_cons_of_neg (by rw [ends c rfl]; decide)
  rw [fraction, number_fixedDigits pos small held (.inr ⟨short, ends⟩), ok_bind]
  simp only [dropped, List.length_append, length_fixedDigits, Nat.add_sub_cancel]

theorem fraction?_fractionDigits {nano : Nat} (small : nano < 10 ^ (9 : Nat)) :
    fraction? (fractionDigits nano ++ ['Z']) = .ok (nano, ['Z']) := by
  have ends : ∀ c ∈ ['Z'].head?, c.isDigit = false := by rintro c ⟨⟩; decide
  unfold fractionDigits
  split
  · rename_i zero
    rw [zero]
    rfl
  · split
    · rename_i thousandths
      show fraction (fixedDigits 3 (nano / 10 ^ (6 : Nat)) ++ ['Z']) = _
      rw [fraction_fixedDigits (by decide) (by decide) (by omega) ends]
      congr 2
      omega
    · split
      · show fraction (fixedDigits 6 (nano / 10 ^ (3 : Nat)) ++ ['Z']) = _
        rw [fraction_fixedDigits (by decide) (by decide) (by omega) ends]
        congr 2
        omega
      · show fraction (fixedDigits 9 nano ++ ['Z']) = _
        rw [fraction_fixedDigits (by decide) (by decide) small ends]
        congr 2
        omega

end Parts

end Reader

/-- An instant that a clock can show or a text can say: a second of the calendar, with a part of a
second behind it. At the end of a minute it may be a leap second. -/
structure Dated (t : Instant) : Prop where
  second : inCalendar t.second = true
  nano : t.nano < 10 ^ (9 : Nat) ∨ t.nano < 2 * 10 ^ (9 : Nat) ∧ t.second % 60 = 59

variable {t u : Instant}

/-- The date of an instant. -/
def date (t : Instant) : CivilDate := CivilDate.ofDays (t.second / secondsPerDay)

/-- The second of its day. -/
def clock (t : Instant) : Nat := (t.second % secondsPerDay).toNat

/-- The second of its minute, sixty in a leap second. -/
def tick (t : Instant) : Nat := t.clock % 60 + t.nano / 10 ^ (9 : Nat)

theorem clock_lt (t : Instant) : t.clock < 86400 := by
  unfold clock secondsPerDay
  omega

theorem minSecond_eq : minSecond = -8334601228800 := by decide

theorem maxSecond_eq : maxSecond = 8210266876799 := by decide

/-- An instant has a date of the calendar. -/
theorem Dated.valid_date (dated : t.Dated) : t.date.Valid := by
  have inside := dated.second
  simp only [inCalendar, Bool.and_eq_true, decide_eq_true_eq, minSecond_eq, maxSecond_eq] at inside
  have first : CivilDate.toDays ⟨CivilDate.minYear, 1, 1⟩ = -96465292 := by decide
  have last : CivilDate.toDays ⟨CivilDate.maxYear, 12, 31⟩ = 95026236 := by decide
  refine CivilDate.valid_ofDays ?_ ?_
  · rw [first, secondsPerDay]
    omega
  · rw [last, secondsPerDay]
    omega

theorem Dated.day_le (dated : t.Dated) : t.date.day ≤ 31 := by
  refine dated.valid_date.2.2.2.2.2.trans ?_
  unfold CivilDate.daysInMonth
  split
  · split <;> decide
  all_goals decide

theorem Dated.tick_le (dated : t.Dated) : t.tick ≤ 60 := by
  have nano := dated.nano
  unfold tick clock secondsPerDay
  omega

/-- The characters that an instant is written with up to its fraction. -/
def stamp (t : Instant) (rest : List Char) : List Char :=
  '-' :: (fixedDigits 2 t.date.month ++ '-' :: (fixedDigits 2 t.date.day ++
    'T' :: (fixedDigits 2 (t.clock / 3600) ++ ':' :: (fixedDigits 2 (t.clock / 60 % 60) ++
      ':' :: (fixedDigits 2 t.tick ++ (Reader.fractionDigits (t.nano % 10 ^ (9 : Nat)) ++ rest))))))

theorem Dated.toList_localText (dated : t.Dated) (rest : List Char) :
    t.localText.toList ++ rest = (yearText t.date.year).toList ++ t.stamp rest := by
  have day := dated.day_le
  have month := dated.valid_date.2.2.2.1
  have days : t.second.fdiv secondsPerDay = t.second / secondsPerDay :=
    Int.fdiv_eq_ediv_of_nonneg _ (by decide)
  have clock : (t.second - t.second / secondsPerDay * secondsPerDay).toNat = t.clock := by
    unfold Instant.clock
    congr 1
    have := Int.mul_ediv_add_emod t.second secondsPerDay
    rw [Int.mul_comm] at this
    omega
  have tick := dated.tick_le
  have below := t.clock_lt
  rw [date] at month day
  have short : (CivilDate.ofDays (t.second / secondsPerDay)).day < 10 ^ (2 : Nat) := by omega
  have months : (CivilDate.ofDays (t.second / secondsPerDay)).month < 10 ^ (2 : Nat) := by omega
  have hours : t.clock / 3600 < 10 ^ (2 : Nat) := by omega
  have minutes : t.clock / 60 % 60 < 10 ^ (2 : Nat) := by omega
  have ticks : t.tick < 10 ^ (2 : Nat) := by omega
  rw [Instant.tick] at ticks
  have dash : "-".toList = ['-'] := rfl
  have mark : "T".toList = ['T'] := rfl
  have colon : ":".toList = [':'] := rfl
  simp only [localText, stamp, date, Instant.tick, days, clock, String.toList_append,
    List.append_assoc, toList_padded (by decide) months, toList_padded (by decide) short,
    toList_padded (by decide) hours, toList_padded (by decide) minutes,
    toList_padded (by decide) ticks,
    Reader.toList_fractionText (Nat.mod_lt t.nano (show 0 < 10 ^ (9 : Nat) by decide)), dash, mark,
    colon, List.nil_append, List.cons_append]

/-- The date and time of an instant are read as they are written. -/
theorem Dated.readLocal (dated : t.Dated) :
    readLocal ((yearText t.date.year).toList ++ t.stamp ['Z']) =
      .ok (⟨t.date.year, t.date.month, t.date.day, t.clock / 3600, t.clock / 60 % 60, t.tick,
        t.nano % 10 ^ (9 : Nat), 0⟩, ['Z']) := by
  obtain ⟨least, most, month, month', day, day'⟩ := dated.valid_date
  have days := dated.day_le
  have below := t.clock_lt
  have dash : Text.isBlank '-' = false := by decide +kernel
  have colon : Text.isBlank ':' = false := by decide +kernel
  have between : ∀ rest, Reader.betweenDateAndTime ('T' :: rest) = .ok rest := fun _ => rfl
  have hours : t.clock / 3600 ≤ 23 := by omega
  have minutes : t.clock / 60 % 60 ≤ 59 := by omega
  have fraction :=
    Reader.fraction?_fractionDigits (Nat.mod_lt t.nano (show 0 < 10 ^ (9 : Nat) by decide))
  simp only [Instant.readLocal, readDate, stamp, Reader.lenientYear_yearText least most, ok_bind,
    Reader.char_skipBlanks dash, Reader.char_skipBlanks colon, between,
    Reader.lenientPart_fixedDigits month month' (by decide),
    Reader.lenientPart_fixedDigits day days (by decide),
    Reader.lenientPart_fixedDigits (Nat.zero_le _) hours (by decide),
    Reader.lenientPart_fixedDigits (Nat.zero_le _) minutes (by decide),
    Reader.lenientPart_fixedDigits (Nat.zero_le _) dated.tick_le (by decide), fraction]

/-- The second of the minute and the fraction say whether it is a leap second. -/
theorem Dated.leap (dated : t.Dated) :
    (if t.tick = 60 then (59, t.nano % 10 ^ (9 : Nat) + 10 ^ (9 : Nat))
      else (t.tick, t.nano % 10 ^ (9 : Nat))) = (t.clock % 60, t.nano) := by
  rcases dated.nano with small | ⟨small, last⟩
  · have vanishes : t.nano / 10 ^ (9 : Nat) = 0 := by omega
    have other : t.tick ≠ 60 := by
      unfold tick
      omega
    rw [if_neg other, tick, vanishes, Nat.add_zero, Nat.mod_eq_of_lt small]
  · have minute : t.clock % 60 = 59 := by
      unfold clock secondsPerDay
      omega
    by_cases leap : t.nano < 10 ^ (9 : Nat)
    · have vanishes : t.nano / 10 ^ (9 : Nat) = 0 := by omega
      have tick : t.tick = 59 := by rw [tick, vanishes, minute]
      rw [tick, if_neg (by decide), minute, Nat.mod_eq_of_lt leap]
    · have one : t.nano / 10 ^ (9 : Nat) = 1 := by omega
      have tick : t.tick = 60 := by rw [tick, one, minute]
      rw [tick, if_pos rfl, minute]
      congr 1
      omega

/-- The parts of an instant name the instant. -/
theorem Dated.resolve (dated : t.Dated) : Reader.Parts.resolve ⟨t.date.year, t.date.month,
    t.date.day, t.clock / 3600, t.clock / 60 % 60, t.tick, t.nano % 10 ^ (9 : Nat), 0⟩ = .ok t := by
  have valid : CivilDate.Valid ⟨t.date.year, t.date.month, t.date.day⟩ := dated.valid_date
  have days : CivilDate.toDays ⟨t.date.year, t.date.month, t.date.day⟩ =
      t.second / secondsPerDay := CivilDate.toDays_ofDays _
  have clock : t.clock / 3600 * 3600 + t.clock / 60 % 60 * 60 + t.clock % 60 = t.clock := by omega
  have second : t.second / secondsPerDay * secondsPerDay + (t.clock : Int) - 0 = t.second := by
    unfold Instant.clock secondsPerDay
    omega
  have inside := dated.second
  simp only [Reader.Parts.resolve, not_not.mpr valid, if_false, Int.natAbs_zero, dated.leap, days,
    clock, second, inside]
  rfl

/-- An instant is read back from its text. -/
theorem Dated.parse_zuluText (dated : t.Dated) : parse t.zuluText = .ok t := by
  have text : t.zuluText.toList = (yearText t.date.year).toList ++ t.stamp ['Z'] := by
    rw [zuluText, String.toList_append]
    exact dated.toList_localText ['Z']
  have offset : Reader.lenientOffset (Reader.skipBlanks ['Z']) = .ok (0, []) := by decide +kernel
  have whole : parseWithOffset t.zuluText = .ok (t, 0) := by
    have blank : (Reader.skipBlanks []).isEmpty = true := rfl
    simp only [parseWithOffset, text, dated.readLocal, ok_bind, offset, blank, if_true,
      dated.resolve]
  rw [parse, whole]

section Order

theorem exists_groups {nano : Nat} (pos : nano ≠ 0) : ∃ count, Groups nano count ∧
    Reader.fractionDigits nano = '.' :: groupDigits nano count := by
  unfold Reader.fractionDigits
  rw [if_neg pos]
  split
  · rename_i whole
    exact ⟨1, ⟨by decide, by decide, whole, by omega⟩, rfl⟩
  · rename_i thousandths
    split
    · rename_i whole
      refine ⟨2, ⟨by decide, by decide, whole, fun fewer less positive => ?_⟩, rfl⟩
      obtain rfl : fewer = 1 := by omega
      exact thousandths
    · rename_i millionths
      refine ⟨3, ⟨by decide, by decide, Nat.mod_one nano, fun fewer less positive => ?_⟩, ?_⟩
      · obtain rfl | rfl : fewer = 1 ∨ fewer = 2 := by omega
        · exact thousandths
        · exact millionths
      · rw [groupDigits, Nat.pow_zero, Nat.div_one]

/-- Texts of fractions follow each other as the fractions do, if the same offset stands behind
both. -/
theorem fractionDigits_lt_iff {m n : Nat} (small : m < 10 ^ (9 : Nat)) (small' : n < 10 ^ (9 : Nat))
    (rest : List Char) :
    Reader.fractionDigits m ++ '+' :: rest < Reader.fractionDigits n ++ '+' :: rest ↔ m < n := by
  have nothing : Reader.fractionDigits 0 = [] := rfl
  have plus : '+' < '.' := by decide
  rcases Nat.eq_zero_or_pos m with rfl | pos <;> rcases Nat.eq_zero_or_pos n with rfl | pos'
  · exact iff_of_false (List.lt_irrefl _) (Nat.lt_irrefl 0)
  · obtain ⟨count, -, is⟩ := exists_groups (Nat.ne_of_gt pos')
    rw [nothing, is, List.nil_append, List.cons_append, List.cons_lt_cons_iff]
    exact iff_of_true (.inl plus) pos'
  · obtain ⟨count, -, is⟩ := exists_groups (Nat.ne_of_gt pos)
    rw [nothing, is, List.nil_append, List.cons_append]
    refine iff_of_false (List.lt_asymm ?_) (Nat.not_lt_zero m)
    rw [List.cons_lt_cons_iff]
    exact .inl plus
  · obtain ⟨count, groups, is⟩ := exists_groups (Nat.ne_of_gt pos)
    obtain ⟨count', groups', is'⟩ := exists_groups (Nat.ne_of_gt pos')
    have tail := groupDigits_lt_iff small small' groups groups' (show '+' < '0' by decide) rest
    rw [is, is', List.cons_append, List.cons_append, List.cons_lt_cons_iff, tail]
    simp

/-- An instant of a year with four digits. -/
structure Current (t : Instant) : Prop extends t.Dated where
  least : 0 ≤ t.date.year
  most : t.date.year ≤ 9999

theorem cons_lt_cons_self (c : Char) (l l' : List Char) : c :: l < c :: l' ↔ l < l' := by
  rw [List.cons_lt_cons_iff]
  simp

/-- Up to the fraction, texts are compared part by part. -/
theorem stamp_lt_iff (dated : t.Dated) (dated' : u.Dated) (rest : List Char) :
    t.stamp ('+' :: rest) < u.stamp ('+' :: rest) ↔
      t.date.month < u.date.month ∨ t.date.month = u.date.month ∧ (t.date.day < u.date.day ∨
      t.date.day = u.date.day ∧ (t.clock / 3600 < u.clock / 3600 ∨
      t.clock / 3600 = u.clock / 3600 ∧ (t.clock / 60 % 60 < u.clock / 60 % 60 ∨
      t.clock / 60 % 60 = u.clock / 60 % 60 ∧ (t.tick < u.tick ∨
      t.tick = u.tick ∧ t.nano % 10 ^ (9 : Nat) < u.nano % 10 ^ (9 : Nat))))) := by
  have bounds : ∀ v : Instant, v.Dated →
      v.date.month < 10 ^ (2 : Nat) ∧ v.date.day < 10 ^ (2 : Nat) ∧
      v.clock / 3600 < 10 ^ (2 : Nat) ∧ v.clock / 60 % 60 < 10 ^ (2 : Nat) ∧
      v.tick < 10 ^ (2 : Nat) ∧ v.nano % 10 ^ (9 : Nat) < 10 ^ (9 : Nat) := by
    intro v shown
    have month := (shown.valid_date).2.2.2.1
    have day := shown.day_le
    have below := v.clock_lt
    have tick := shown.tick_le
    exact ⟨by omega, by omega, by omega, by omega, by omega, Nat.mod_lt _ (by decide)⟩
  obtain ⟨month, day, hour, minute, tick, nano⟩ := bounds t dated
  obtain ⟨month', day', hour', minute', tick', nano'⟩ := bounds u dated'
  rw [stamp, stamp, cons_lt_cons_self, fixedDigits_append_lt month month', cons_lt_cons_self,
    fixedDigits_append_lt day day', cons_lt_cons_self, fixedDigits_append_lt hour hour',
    cons_lt_cons_self, fixedDigits_append_lt minute minute', cons_lt_cons_self,
    fixedDigits_append_lt tick tick', fractionDigits_lt_iff nano nano']

/-- Within a day, the parts of a time follow each other as the times do. -/
theorem clock_lt_iff (dated : t.Dated) (dated' : u.Dated) :
    (t.clock / 3600 < u.clock / 3600 ∨
      t.clock / 3600 = u.clock / 3600 ∧ (t.clock / 60 % 60 < u.clock / 60 % 60 ∨
      t.clock / 60 % 60 = u.clock / 60 % 60 ∧ (t.tick < u.tick ∨
      t.tick = u.tick ∧ t.nano % 10 ^ (9 : Nat) < u.nano % 10 ^ (9 : Nat)))) ↔
    t.clock < u.clock ∨ t.clock = u.clock ∧ t.nano < u.nano := by
  have leap : ∀ v : Instant, v.Dated →
      v.nano / 10 ^ (9 : Nat) = 0 ∨ v.nano / 10 ^ (9 : Nat) = 1 ∧ v.clock % 60 = 59 := by
    intro v shown
    have nano := shown.nano
    unfold clock secondsPerDay
    omega
  have left := leap t dated
  have right := leap u dated'
  unfold tick
  omega

/-- Texts follow each other as the instants do. -/
theorem Current.offsetText_lt_iff (current : t.Current) (current' : u.Current) :
    t.offsetText < u.offsetText ↔ t.before u = true := by
  have text : ∀ v : Instant, v.Current → v.offsetText.toList =
      fixedDigits 4 v.date.year.toNat ++ v.stamp ['+', '0', '0', ':', '0', '0'] := by
    intro v shown
    have least := shown.least
    have most := shown.most
    rw [offsetText, String.toList_append]
    refine (shown.toDated.toList_localText _).trans ?_
    rw [yearText, if_pos ⟨least, most⟩, toList_padded (by decide) (by omega)]
    rfl
  have year : ∀ v : Instant, v.Current → v.date.year.toNat < 10 ^ (4 : Nat) := by
    intro v shown
    have most := shown.most
    omega
  have dates : t.date.Before u.date ↔ t.second / secondsPerDay < u.second / secondsPerDay :=
    CivilDate.ofDays_before_iff _ _
  have same : t.date = u.date ↔ t.second / secondsPerDay = u.second / secondsPerDay :=
    ⟨fun is => by
      have days := congrArg CivilDate.toDays is
      rwa [date, date, CivilDate.toDays_ofDays, CivilDate.toDays_ofDays] at days,
      fun is => by rw [date, date, is]⟩
  have least := current.least
  have least' := current'.least
  have whole : ∀ v : Instant, v.second = 86400 * (v.second / secondsPerDay) + v.clock := by
    intro v
    unfold clock secondsPerDay
    omega
  have left := whole t
  have right := whole u
  have below := t.clock_lt
  have below' := u.clock_lt
  rw [String.lt_iff_toList_lt, text t current, text u current',
    fixedDigits_append_lt (year t current) (year u current'),
    stamp_lt_iff current.toDated current'.toDated, clock_lt_iff current.toDated current'.toDated]
  simp only [before, Bool.or_eq_true, Bool.and_eq_true, decide_eq_true_eq, beq_iff_eq]
  clear text year whole
  generalize t.second / secondsPerDay = days at *
  generalize u.second / secondsPerDay = days' at *
  generalize t.clock = clock at *
  generalize u.clock = clock' at *
  generalize t.date = d at *
  generalize u.date = d' at *
  obtain ⟨y, m, d⟩ := d
  obtain ⟨y', m', d'⟩ := d'
  rw [CivilDate.mk.injEq] at same
  rw [CivilDate.Before] at dates
  dsimp only at *
  omega

end Order

end Instant

end DurableFlow
