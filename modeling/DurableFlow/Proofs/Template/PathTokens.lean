import DurableFlow.Proofs.Expr.Lexing
import DurableFlow.Proofs.Template.PlainPath

/-!
# The tokens of plain paths

The language of expressions cuts a plain path into the tokens of its steps: a point and a word, or
a number in brackets. It has fewer characters than plain paths have. A name may have characters
that belong to no word of an expression, such as marks and joiners, and digits may be those of
another script; a path is cut off at the first such character (`tokens_text_error`), and without
one it is cut into its steps (`tokens_text`).
-/

namespace DurableFlow

namespace Text

/-- Every range of one table lies before or behind every range of another. -/
def apart (ranges others : Array (Nat × Nat)) : Bool :=
  ranges.toList.all fun r => others.toList.all fun s => Nat.blt r.2 s.1 || Nat.blt s.2 r.1

theorem not_within_of_apart {ranges others : Array (Nat × Nat)} (h : apart ranges others = true)
    {n : Nat} (inside : within ranges n = true) : within others n = false := by
  rw [within_eq_any, List.any_eq_true] at inside
  obtain ⟨r, listed, bounds⟩ := inside
  rw [within_eq_any, List.any_eq_false]
  intro s listed'
  have disjoint := List.all_eq_true.mp (List.all_eq_true.mp h r listed) s listed'
  simp only [Nat.blt_eq, Bool.or_eq_true, Bool.and_eq_true, decide_eq_true_eq] at bounds disjoint ⊢
  omega

/-- Digits are no letters, whatever their script is. -/
theorem isAlphabetic_of_isDecimalDigit {c : Char} (h : isDecimalDigit c = true)
    (foreign : c.isDigit = false) : isAlphabetic c = false := by
  have disjoint : apart digitRanges alphabeticRanges = true := by decide +kernel
  unfold isDecimalDigit at h
  unfold isAlphabetic
  split at h
  · rw [foreign] at h
    cases h
  · rename_i outside
    rw [if_neg outside]
    exact not_within_of_apart disjoint h

end Text

namespace Template

open DurableFlow.Expr Expr.Lexer Expr.Writing Placeholder

section Characters

/-- A character of plain names starts no token if it is neither a digit nor the start of a
word. -/
theorem next_unexpected {c : Char} (part : isPart c = true) (digit : c.isDigit = false)
    (start : isWordStart c = false) (cs : List Char) : next c cs = .error (.unexpected c) := by
  unfold next
  split
  case h_13 =>
    have unquoted : ¬ (c = '"' ∨ c = '\'') := by
      rintro (rfl | rfl) <;> exact absurd part (by decide)
    rw [if_neg unquoted, if_neg (by rw [digit]; decide), if_neg (by rw [start]; decide)]
  all_goals exact absurd part (by decide)

theorem isPart_of_isDecimalDigit {c : Char} (h : Text.isDecimalDigit c = true) :
    isPart c = true := by
  unfold Text.isDecimalDigit at h
  unfold isPart Text.isWord
  split at h
  · rename_i ascii
    have whole : c.isAlphanum = true := by rw [Char.isAlphanum, h, Bool.or_true]
    simp [ascii, whole]
  · rename_i outside
    simp [outside, h]

theorem isWordPart_of_isDigit {c : Char} (h : c.isDigit = true) : isWordPart c = true :=
  isWordPart_of_isNamePart (by simp [isNamePart, Char.isAlphanum, h])

theorem isWordPart_of_isWordStart {c : Char} (h : isWordStart c = true) :
    isWordPart c = true := by
  simp only [isWordStart, isWordPart, Text.isAlphanumeric, Bool.or_eq_true] at h ⊢
  tauto

/-- Of the characters of plain names, those that belong to no word start no token. -/
theorem next_foreign {c : Char} (part : isPart c = true) (foreign : isWordPart c = false)
    (cs : List Char) : next c cs = .error (.unexpected c) := by
  refine next_unexpected part ?_ ?_ cs <;> by_contra other
  · rw [isWordPart_of_isDigit (Bool.not_eq_false _ ▸ other)] at foreign
    cases foreign
  · rw [isWordPart_of_isWordStart (Bool.not_eq_false _ ▸ other)] at foreign
    cases foreign

/-- Of the decimal digits, those of other scripts start no token. -/
theorem next_foreignDigit {c : Char} (decimal : Text.isDecimalDigit c = true)
    (foreign : c.isDigit = false) (cs : List Char) : next c cs = .error (.unexpected c) := by
  refine next_unexpected (isPart_of_isDecimalDigit decimal) foreign ?_ cs
  have letter := Text.isAlphabetic_of_isDecimalDigit decimal foreign
  simp only [isWordStart, letter, Bool.false_or, Bool.or_eq_false_iff, beq_eq_false_iff_ne]
  constructor <;> rintro rfl <;> exact absurd decimal (by decide)

/-- What numbers have besides digits is no digit of any script. -/
theorem isNumberPart_of_isDecimalDigit {c : Char} (decimal : Text.isDecimalDigit c = true) :
    isNumberPart c = c.isDigit := by
  have others : (c == '.') = false ∧ (c == '_') = false := by
    constructor <;> rw [beq_eq_false_iff_ne] <;> rintro rfl <;> exact absurd decimal (by decide)
  rw [isNumberPart, others.1, others.2, Bool.or_false, Bool.or_false]

/-- A run of characters ends at the first one that is of another kind. -/
theorem span_of_foreign {p : Char → Bool} {cs : List Char} (foreign : ∃ c ∈ cs, p c = false)
    (rest : List Char) : ∃ c more, c ∈ cs ∧ p c = false ∧ (cs ++ rest).dropWhile p = c :: more ∧
      ∀ d ∈ (cs ++ rest).takeWhile p, d ∈ cs := by
  induction cs with
  | nil =>
    obtain ⟨c, member, -⟩ := foreign
    cases member
  | cons first cs ih =>
    cases own : p first with
    | false =>
      refine ⟨first, cs ++ rest, List.mem_cons_self, own, ?_, ?_⟩
      · rw [List.cons_append, List.dropWhile_cons_of_neg (by rw [own]; decide)]
      · rw [List.cons_append, List.takeWhile_cons_of_neg (by rw [own]; decide)]
        exact List.forall_mem_nil _
    | true =>
      obtain ⟨c, member, other⟩ := foreign
      have later : c ∈ cs := (List.mem_cons.mp member).resolve_left
        (by rintro rfl; rw [own] at other; cases other)
      obtain ⟨d, more, member, other, dropped, taken⟩ := ih ⟨c, later, other⟩
      refine ⟨d, more, List.mem_cons_of_mem _ member, other, ?_, ?_⟩
      · rw [List.cons_append, List.dropWhile_cons_of_pos own, dropped]
      · rw [List.cons_append, List.takeWhile_cons_of_pos own]
        intro e within
        rcases List.mem_cons.mp within with rfl | within
        · exact List.mem_cons_self
        · exact List.mem_cons_of_mem _ (taken e within)

end Characters

section Runs

variable {c : Char} {cs rest : List Char}

/-- A token is cut off and then those of what follows it. -/
theorem run_token {token : Token} (visible : Text.isBlank c = false)
    (first : next c cs = .ok (token, rest)) (fuel position : Nat) :
    ∃ after, Lexer.run (fuel + 1) position (c :: cs) =
      (Lexer.run fuel after rest).map (token :: ·) := by
  have here : (c :: cs).dropWhile Text.isBlank = c :: cs :=
    List.dropWhile_cons_of_neg (by rw [visible]; decide)
  refine ⟨position + 1 + (cs.length - rest.length), ?_⟩
  simp only [Lexer.run, here, first, Nat.sub_self, Nat.add_zero]
  split <;> rename_i later <;> rw [later] <;> rfl

/-- Where no token starts, cutting ends. -/
theorem run_unexpected (part : isPart c = true) (first : next c cs = .error (.unexpected c))
    (fuel position : Nat) :
    ∃ position', Lexer.run (fuel + 1) position (c :: cs) = .error (position', .unexpected c) := by
  have visible : Text.isBlank c = false := by
    by_contra blank
    rw [isPart_of_isBlank (Bool.not_eq_false _ ▸ blank)] at part
    cases part
  have here : (c :: cs).dropWhile Text.isBlank = c :: cs :=
    List.dropWhile_cons_of_neg (by rw [visible]; decide)
  exact ⟨position, by simp only [Lexer.run, here, first, Nat.sub_self, Nat.add_zero]⟩

theorem map_map_cons {tokens : Except ε (List α)} (a : α) (before : List α) :
    (tokens.map (before ++ ·)).map (a :: ·) = tokens.map (a :: before ++ ·) := by
  cases tokens <;> rfl

theorem isBlank_of_isPart (part : isPart c = true) : Text.isBlank c = false := by
  by_contra blank
  rw [isPart_of_isBlank (Bool.not_eq_false _ ▸ blank)] at part
  cases part

/-- A name whose characters all belong to words is one word. -/
theorem run_name {letters : List Char} (plain : IsPlainName letters)
    (legible : ∀ c ∈ letters, isWordPart c = true)
    (ends : ∀ c ∈ rest.head?, isWordPart c = false) (fuel position : Nat) :
    ∃ after, Lexer.run (fuel + 1) position (letters ++ rest) =
      (Lexer.run fuel after rest).map (wordToken (String.ofList letters) :: ·) := by
  obtain ⟨c, cs, rfl, start, -⟩ := plain
  obtain ⟨taken, dropped⟩ := takeWhile_of_ends
    (fun d member => legible d (List.mem_cons_of_mem c member)) ends
  rw [List.cons_append]
  refine run_token (isBlank_of_isPart (isPart_of_isStart start)) ?_ fuel position
  rw [next_word start, taken, dropped]

/-- A name is cut off before the first of its characters that belongs to no word. -/
theorem run_name_error {letters : List Char} (plain : IsPlainName letters)
    (foreign : ∃ c ∈ letters, isWordPart c = false) (rest : List Char) {fuel : Nat}
    (enough : letters.length ≤ fuel + 1) (position : Nat) :
    ∃ position' c, Lexer.run (fuel + 1) position (letters ++ rest) =
      .error (position', .unexpected c) := by
  obtain ⟨c, cs, rfl, start, part⟩ := plain
  obtain ⟨d, member, other⟩ := foreign
  have own : isWordPart c = true := isWordPart_of_isWordStart (isWordStart_of_isNameStart start)
  have later : d ∈ cs := (List.mem_cons.mp member).resolve_left
    (by rintro rfl; rw [own] at other; cases other)
  obtain ⟨e, more, member, other, dropped, -⟩ := span_of_foreign ⟨d, later, other⟩ rest
  have first : next c (cs ++ rest) = .ok (_, e :: more) :=
    (next_word start (cs ++ rest)).trans (by rw [dropped])
  obtain ⟨after, run⟩ :=
    run_token (isBlank_of_isPart (isPart_of_isStart start)) first fuel position
  have := List.length_pos_of_mem later
  obtain ⟨fuel, rfl⟩ : ∃ n, fuel = n + 1 :=
    ⟨fuel - 1, by simp only [List.length_cons] at enough; omega⟩
  obtain ⟨position', stopped⟩ :=
    run_unexpected (part e member) (next_foreign (part e member) other more) fuel after
  exact ⟨position', e, by rw [List.cons_append, run, stopped]; rfl⟩

/-- Digits that are all digits of numbers are one number. -/
theorem run_digits {digits : List Char} (nonempty : digits ≠ [])
    (legible : ∀ c ∈ digits, c.isDigit = true)
    (ends : ∀ c ∈ rest.head?, isNumberPart c = false) (fuel position : Nat) :
    ∃ after, Lexer.run (fuel + 1) position (digits ++ rest) = (Lexer.run fuel after rest).map
      (.number (Binary64.ofDecimal false (Nat.ofDigitChars 10 digits 0) 0) :: ·) := by
  obtain ⟨c, cs, rfl⟩ := List.exists_cons_of_ne_nil nonempty
  have own : c.isDigit = true := legible c List.mem_cons_self
  obtain ⟨taken, dropped⟩ := takeWhile_of_ends (p := isNumberPart)
    (fun d member => isNumberPart_of_isDigit (legible d (List.mem_cons_of_mem c member))) ends
  rw [List.cons_append]
  refine run_token (apart_of_isDigit own).2.1 ?_ fuel position
  rw [next_digit own, taken, dropped, numberToken_digits legible]
  rfl

/-- Digits are cut off before the first of them that is of another script. -/
theorem run_digits_error {digits : List Char}
    (decimal : ∀ c ∈ digits, Text.isDecimalDigit c = true)
    (foreign : ∃ c ∈ digits, c.isDigit = false) (rest : List Char) {fuel : Nat}
    (enough : digits.length ≤ fuel + 1) (position : Nat) :
    ∃ position' c, Lexer.run (fuel + 1) position (digits ++ rest) =
      .error (position', .unexpected c) := by
  obtain ⟨d, member, other⟩ := foreign
  obtain ⟨c, cs, rfl⟩ := List.exists_cons_of_ne_nil (List.ne_nil_of_mem member)
  have decimal' : ∀ e ∈ cs, Text.isDecimalDigit e = true :=
    fun e member => decimal e (List.mem_cons_of_mem c member)
  cases own : c.isDigit with
  | false =>
    have first := decimal c List.mem_cons_self
    obtain ⟨position', stopped⟩ := run_unexpected (isPart_of_isDecimalDigit first)
      (next_foreignDigit first own (cs ++ rest)) fuel position
    exact ⟨position', c, stopped⟩
  | true =>
    have later : d ∈ cs := (List.mem_cons.mp member).resolve_left
      (by rintro rfl; rw [own] at other; cases other)
    have unnumbered : isNumberPart d = false :=
      (isNumberPart_of_isDecimalDigit (decimal' d later)).trans other
    obtain ⟨e, more, member, other, dropped, taken⟩ :=
      span_of_foreign ⟨d, later, unnumbered⟩ rest
    have numeric : ∀ f ∈ c :: (cs ++ rest).takeWhile isNumberPart, f.isDigit = true := by
      refine List.forall_mem_cons.mpr ⟨own, fun f within => ?_⟩
      rw [← isNumberPart_of_isDecimalDigit (decimal' f (taken f within))]
      exact List.mem_takeWhile_imp within
    obtain ⟨token, first⟩ : ∃ token, next c (cs ++ rest) = .ok (token, e :: more) := by
      rw [next_digit own, dropped, numberToken_digits numeric]
      exact ⟨_, rfl⟩
    obtain ⟨after, run⟩ := run_token (apart_of_isDigit own).2.1 first fuel position
    have := List.length_pos_of_mem later
    obtain ⟨fuel, rfl⟩ : ∃ n, fuel = n + 1 :=
      ⟨fuel - 1, by simp only [List.length_cons] at enough; omega⟩
    have classed := decimal' e member
    have foreign := (isNumberPart_of_isDecimalDigit classed).symm.trans other
    obtain ⟨position', stopped⟩ := run_unexpected (isPart_of_isDecimalDigit classed)
      (next_foreignDigit classed foreign more) fuel after
    exact ⟨position', e, by rw [List.cons_append, run, stopped]; rfl⟩

end Runs

namespace Hop

/-- The tokens of a step, where it can be cut into any. -/
def tokens : Hop → List Token
  | name letters => [.dot, wordToken (String.ofList letters)]
  | position digits =>
    [.openBracket, .number (Binary64.ofDecimal false (Nat.ofDigitChars 10 digits 0) 0),
      .closeBracket]

/-- Expressions have words of the characters of the name, or numbers of the digits. -/
def IsLegible : Hop → Prop
  | name letters => ∀ c ∈ letters, isWordPart c = true
  | position digits => ∀ c ∈ digits, c.isDigit = true

variable {hop : Hop}

theorem IsPlain.length_tokens_le (plain : hop.IsPlain) :
    hop.tokens.length ≤ hop.spelled.length := by
  cases hop with
  | name letters =>
    obtain ⟨c, cs, rfl, -, -⟩ := plain
    simp [tokens, spelled]
  | position digits =>
    have := List.length_pos_iff.mpr plain.1
    simp only [tokens, spelled, List.length_append, List.length_cons, List.length_nil]
    omega

/-- What a word is followed by in a path belongs to no word. -/
theorem endsWord_hops (hops : List Hop) :
    ∀ c ∈ (hops.flatMap spelled).head?, isWordPart c = false := by
  cases hops with
  | nil => exact nofun
  | cons hop more => cases hop <;> rintro _ ⟨⟩ <;> decide

theorem run_point (rest : List Char) (fuel position : Nat) :
    ∃ after, Lexer.run (fuel + 1) position ('.' :: rest) =
      (Lexer.run fuel after rest).map (.dot :: ·) :=
  run_token (by decide +kernel) rfl fuel position

theorem run_open (rest : List Char) (fuel position : Nat) :
    ∃ after, Lexer.run (fuel + 1) position ('[' :: rest) =
      (Lexer.run fuel after rest).map (.openBracket :: ·) :=
  run_token (by decide +kernel) rfl fuel position

theorem run_close (rest : List Char) (fuel position : Nat) :
    ∃ after, Lexer.run (fuel + 1) position (']' :: rest) =
      (Lexer.run fuel after rest).map (.closeBracket :: ·) :=
  run_token (by decide +kernel) rfl fuel position

theorem IsPlain.run (plain : hop.IsPlain) (legible : hop.IsLegible) {rest : List Char}
    (ends : ∀ c ∈ rest.head?, isWordPart c = false) (fuel position : Nat) :
    ∃ after, Lexer.run (fuel + hop.tokens.length) position (hop.spelled ++ rest) =
      (Lexer.run fuel after rest).map (hop.tokens ++ ·) := by
  cases hop with
  | name letters =>
    obtain ⟨after, point⟩ := run_point (letters ++ rest) (fuel + 1) position
    obtain ⟨after', word⟩ := run_name plain legible ends fuel after
    refine ⟨after', ?_⟩
    rw [spelled, List.cons_append, tokens, List.length_cons, List.length_singleton]
    rw [point, word]
    exact map_map_cons _ [_]
  | position digits =>
    have ends' : ∀ c ∈ (']' :: rest).head?, isNumberPart c = false := by
      rintro _ ⟨⟩
      decide
    obtain ⟨after, opens⟩ := run_open (digits ++ ']' :: rest) (fuel + 2) position
    obtain ⟨after', number⟩ := run_digits plain.1 legible ends' (fuel + 1) after
    obtain ⟨after'', close⟩ := run_close rest fuel after'
    refine ⟨after'', ?_⟩
    have front : (Hop.position digits).spelled ++ rest = '[' :: (digits ++ ']' :: rest) := by
      simp [spelled]
    show Lexer.run (fuel + 3) position _ = _
    rw [front, opens, number, close]
    exact (congrArg _ (map_map_cons _ [_])).trans (map_map_cons _ [_, _])

theorem IsPlain.run_error (plain : hop.IsPlain) (illegible : ¬ hop.IsLegible)
    (rest : List Char) {fuel : Nat} (enough : hop.spelled.length ≤ fuel) (position : Nat) :
    ∃ position' c, Lexer.run fuel position (hop.spelled ++ rest) =
      .error (position', .unexpected c) := by
  cases hop with
  | name letters =>
    simp only [IsLegible, not_forall, Bool.not_eq_true] at illegible
    obtain ⟨c, member, foreign⟩ := illegible
    have := List.length_pos_of_mem member
    simp only [spelled, List.length_cons] at enough
    obtain ⟨fuel, rfl⟩ : ∃ n, fuel = n + 2 := ⟨fuel - 2, by omega⟩
    obtain ⟨after, point⟩ := run_point (letters ++ rest) (fuel + 1) position
    have enough' : letters.length ≤ fuel + 1 := by omega
    obtain ⟨position', d, stopped⟩ :=
      run_name_error plain ⟨c, member, foreign⟩ rest enough' after
    exact ⟨position', d, by rw [spelled, List.cons_append, point, stopped]; rfl⟩
  | position digits =>
    simp only [IsLegible, not_forall, Bool.not_eq_true] at illegible
    obtain ⟨c, member, foreign⟩ := illegible
    have := List.length_pos_of_mem member
    simp only [spelled, List.length_append, List.length_cons] at enough
    obtain ⟨fuel, rfl⟩ : ∃ n, fuel = n + 2 := ⟨fuel - 2, by omega⟩
    obtain ⟨after, opens⟩ := run_open (digits ++ ']' :: rest) (fuel + 1) position
    have enough' : digits.length ≤ fuel + 1 := by omega
    obtain ⟨position', d, stopped⟩ :=
      run_digits_error plain.2 ⟨c, member, foreign⟩ (']' :: rest) enough' after
    have front : (Hop.position digits).spelled ++ rest = '[' :: (digits ++ ']' :: rest) := by
      simp [spelled]
    exact ⟨position', d, by rw [front, opens, stopped]; rfl⟩

variable {hops : List Hop}

/-- The steps are cut into their tokens one after the other. -/
theorem run_hops (plain : ∀ hop ∈ hops, hop.IsPlain) (legible : ∀ hop ∈ hops, hop.IsLegible)
    {fuel : Nat} (enough : (hops.flatMap spelled).length < fuel) (position : Nat) :
    Lexer.run fuel position (hops.flatMap spelled) = .ok (hops.flatMap tokens ++ [.finish]) := by
  induction hops generalizing fuel position with
  | nil =>
    obtain ⟨fuel, rfl⟩ : ∃ n, fuel = n + 1 := ⟨fuel - 1, by omega⟩
    exact run_blank rfl
  | cons hop more ih =>
    obtain ⟨own, others⟩ := List.forall_mem_cons.mp plain
    obtain ⟨own', others'⟩ := List.forall_mem_cons.mp legible
    have := own.length_tokens_le
    simp only [List.flatMap_cons, List.length_append] at enough
    obtain ⟨fuel, rfl⟩ : ∃ n, fuel = n + hop.tokens.length := ⟨fuel - hop.tokens.length, by omega⟩
    obtain ⟨after, first⟩ := own.run own' (endsWord_hops more) fuel position
    rw [List.flatMap_cons, first, ih others others' (by omega), List.flatMap_cons,
      List.append_assoc]
    rfl

/-- One illegible step is enough for the steps to be cut off. -/
theorem run_hops_error (plain : ∀ hop ∈ hops, hop.IsPlain)
    (illegible : ∃ hop ∈ hops, ¬ hop.IsLegible) {fuel : Nat}
    (enough : (hops.flatMap spelled).length < fuel) (position : Nat) :
    ∃ position' c, Lexer.run fuel position (hops.flatMap spelled) =
      .error (position', .unexpected c) := by
  induction hops generalizing fuel position with
  | nil =>
    obtain ⟨hop, member, -⟩ := illegible
    cases member
  | cons hop more ih =>
    obtain ⟨own, others⟩ := List.forall_mem_cons.mp plain
    simp only [List.flatMap_cons, List.length_append] at enough ⊢
    by_cases own' : hop.IsLegible
    · have later : ∃ hop ∈ more, ¬ hop.IsLegible := by
        obtain ⟨bad, member, foreign⟩ := illegible
        refine ⟨bad, (List.mem_cons.mp member).resolve_left ?_, foreign⟩
        rintro rfl
        exact foreign own'
      have := own.length_tokens_le
      obtain ⟨fuel, rfl⟩ : ∃ n, fuel = n + hop.tokens.length :=
        ⟨fuel - hop.tokens.length, by omega⟩
      obtain ⟨after, first⟩ := own.run own' (endsWord_hops more) fuel position
      have enough' : (more.flatMap spelled).length < fuel := by omega
      obtain ⟨position', c, stopped⟩ := ih others later enough' after
      exact ⟨position', c, by rw [first, stopped]; rfl⟩
    · exact own.run_error own' _ (by omega) position

end Hop

namespace PlainPath

variable {path : PlainPath}

/-- The tokens of a path, where it can be cut into any. -/
def tokens (path : PlainPath) : List Token :=
  wordToken (String.ofList path.head) :: path.hops.flatMap Hop.tokens

structure IsLegible (path : PlainPath) : Prop where
  head : ∀ c ∈ path.head, isWordPart c = true
  hops : ∀ hop ∈ path.hops, hop.IsLegible

theorem tokens_text_eq_run (path : PlainPath) :
    Expr.tokens path.text = Lexer.run (path.spelled.length + 1) 0 path.spelled := by
  rw [Expr.tokens, text, String.length_ofList, String.toList_ofList]

/-- The name that a path begins with has a character. -/
theorem IsPlain.length_lt (plain : path.IsPlain) :
    path.head.length ≤ path.spelled.length ∧
      (path.hops.flatMap Hop.spelled).length < path.spelled.length := by
  obtain ⟨c, cs, shape, -, -⟩ := plain.head
  rw [spelled, shape, List.length_append, List.length_cons]
  omega

theorem tokens_text (plain : path.IsPlain) (legible : path.IsLegible) :
    Expr.tokens path.text = .ok (path.tokens ++ [.finish]) := by
  obtain ⟨after, word⟩ := run_name plain.head legible.head (Hop.endsWord_hops path.hops)
    path.spelled.length 0
  rw [tokens_text_eq_run]
  refine word.trans ?_
  rw [Hop.run_hops plain.hops legible.hops plain.length_lt.2]
  rfl

theorem tokens_text_error (plain : path.IsPlain) (illegible : ¬ path.IsLegible) :
    ∃ position c, Expr.tokens path.text = .error (position, .unexpected c) := by
  rw [tokens_text_eq_run]
  by_cases head : ∀ c ∈ path.head, isWordPart c = true
  · have later : ∃ hop ∈ path.hops, ¬ hop.IsLegible := by
      by_contra unbroken
      simp only [not_exists, not_and, not_not] at unbroken
      exact illegible ⟨head, unbroken⟩
    obtain ⟨after, word⟩ := run_name plain.head head (Hop.endsWord_hops path.hops)
      path.spelled.length 0
    obtain ⟨position, c, stopped⟩ := Hop.run_hops_error plain.hops later plain.length_lt.2 after
    exact ⟨position, c, word.trans (by rw [stopped]; rfl)⟩
  · simp only [not_forall, Bool.not_eq_true] at head
    obtain ⟨c, member, foreign⟩ := head
    exact run_name_error plain.head ⟨c, member, foreign⟩ _
      (Nat.le_succ_of_le plain.length_lt.1) 0

end PlainPath

end Template

end DurableFlow
