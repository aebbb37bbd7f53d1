import DurableFlow.Proofs.Expr.Writing
import DurableFlow.Proofs.Number.Exact
import Mathlib.Data.List.Forall2
import Mathlib.Data.List.TakeWhile

/-!
# Reading words

Each of the words that expressions are written with is read as one token. White space ends every
word but a text in quotes, which ends at its closing quote; so the words of a text are read one
after the other, whatever white space there is between them.
-/

namespace DurableFlow

namespace Text

/-- The code points of ranges, one by one. -/
def points (ranges : Array (Nat × Nat)) : List Nat :=
  ranges.toList.flatMap fun range => List.range' range.1 (range.2 + 1 - range.1)

theorem within_eq_any (ranges : Array (Nat × Nat)) (n : Nat) :
    within ranges n = ranges.toList.any fun range => range.1 ≤ n && n ≤ range.2 :=
  Array.any_toList.symm

theorem mem_points {ranges : Array (Nat × Nat)} {n : Nat} (h : within ranges n = true) :
    n ∈ points ranges := by
  rw [within_eq_any, List.any_eq_true] at h
  obtain ⟨range, listed, inside⟩ := h
  simp only [Bool.and_eq_true, decide_eq_true_eq] at inside
  refine List.mem_flatMap.mpr ⟨range, listed, ?_⟩
  rw [List.mem_range'_1]
  omega

/-- White space belongs to no word and to no number. -/
theorem apart_of_isBlank {b : Char} (h : isBlank b = true) :
    Expr.Lexer.isWordPart b = false ∧ Expr.Lexer.isNumberPart b = false ∧ b ≠ '=' := by
  have all : ∀ n ∈ points blankRanges, Expr.Lexer.isWordPart (Char.ofNat n) = false ∧
      Expr.Lexer.isNumberPart (Char.ofNat n) = false ∧ Char.ofNat n ≠ '=' := by
    -- The tables are gone through as lists, which need no look-up by index.
    simp only [Expr.Lexer.isWordPart, isAlphanumeric, isAlphabetic, isNumeric, within_eq_any]
    decide +kernel
  have this := all b.toNat (mem_points h)
  rwa [Char.ofNat_toNat] at this

end Text

namespace Expr

open Lexer Writing

namespace Lexer

/-- Nothing follows, or white space does. -/
def Parted (rest : List Char) : Prop := ∀ b ∈ rest.head?, Text.isBlank b = true

theorem parted_nil : Parted [] := nofun

theorem parted_cons {b : Char} {rest : List Char} (h : Text.isBlank b = true) :
    Parted (b :: rest) := by
  rintro _ ⟨⟩
  exact h

/-- Characters that are one token wherever white space or nothing follows them. -/
def Reads (word : List Char) (token : Token) : Prop :=
  ∃ c cs, word = c :: cs ∧ Text.isBlank c = false ∧
    ∀ rest, Parted rest → next c (cs ++ rest) = .ok (token, rest)

/-- A run of characters of one kind ends where white space follows. -/
theorem span_parted {p : Char → Bool} (apart : ∀ b, Text.isBlank b = true → p b = false)
    {cs rest : List Char} (all : ∀ c ∈ cs, p c = true) (parted : Parted rest) :
    (cs ++ rest).takeWhile p = cs ∧ (cs ++ rest).dropWhile p = rest := by
  rw [List.takeWhile_append_of_pos all, List.dropWhile_append_of_pos all]
  cases rest with
  | nil => simp
  | cons b rest =>
    have stops : p b = false := apart b (parted b rfl)
    simp [stops]

/-- Digits start no name, are no white space and separate nothing. -/
theorem apart_of_isDigit {c : Char} (h : c.isDigit = true) :
    isNameStart c = false ∧ Text.isBlank c = false ∧ (c != '_') = true := by
  have all : ∀ n < 58, 48 ≤ n → isNameStart (Char.ofNat n) = false ∧
      Text.isBlank (Char.ofNat n) = false ∧ (Char.ofNat n != '_') = true := by
    decide +kernel
  simp only [Char.isDigit, Bool.and_eq_true, decide_eq_true_eq, UInt32.le_iff_toNat_le,
    ge_iff_le] at h
  have this := all c.toNat (Nat.lt_succ_of_le h.2) h.1
  rwa [Char.ofNat_toNat] at this

theorem isNumberPart_of_isDigit {c : Char} (h : c.isDigit = true) : isNumberPart c = true := by
  rw [isNumberPart, h, Bool.true_or, Bool.true_or]

section Names

theorem isAscii_of_isAlphanum {c : Char} (h : c.isAlphanum = true) : Text.isAscii c = true := by
  delta Char.isAlphanum Char.isAlpha Char.isUpper Char.isLower Char.isDigit at h
  simp only [Bool.or_eq_true, Bool.and_eq_true, decide_eq_true_eq, UInt32.le_iff_toNat_le,
    Char.reduceVal, UInt32.reduceToNat, ge_iff_le] at h
  simp only [Text.isAscii, Char.toNat, decide_eq_true_eq]
  omega

theorem isWordPart_of_isNamePart {c : Char} (h : isNamePart c = true) : isWordPart c = true := by
  simp only [isNamePart, Bool.or_eq_true] at h
  obtain (letter | low) | dollar := h
  · have ascii := isAscii_of_isAlphanum letter
    rw [Char.isAlphanum] at letter
    simp [isWordPart, Text.isAlphanumeric, Text.isAlphabetic, Text.isNumeric, ascii, letter]
  · simp [isWordPart, low]
  · simp [isWordPart, dollar]

theorem isWordStart_of_isNameStart {c : Char} (h : isNameStart c = true) :
    isWordStart c = true := by
  simp only [isNameStart, Bool.or_eq_true] at h
  obtain (letter | low) | dollar := h
  · have ascii : Text.isAscii c = true :=
      isAscii_of_isAlphanum (by rw [Char.isAlphanum, letter, Bool.true_or])
    simp [isWordStart, Text.isAlphabetic, ascii, letter]
  · simp [isWordStart, low]
  · simp [isWordStart, dollar]

theorem isNamePart_of_isNameStart {c : Char} (h : isNameStart c = true) : isNamePart c = true := by
  simp only [isNameStart, isNamePart, Char.isAlphanum, Bool.or_eq_true] at h ⊢
  tauto

theorem wordToken_of_not_mem {s : String} (free : s ∉ keywords) : wordToken s = .identifier s := by
  unfold wordToken
  split <;> first | rfl | exact absurd (by decide) free

/-- The longest run of letters is one word. -/
theorem next_word {c : Char} (start : isNameStart c = true) (cs : List Char) :
    next c cs = .ok (wordToken (String.ofList (c :: cs.takeWhile isWordPart)),
      cs.dropWhile isWordPart) := by
  unfold next
  split
  case h_13 =>
    have unquoted : ¬ (c = '"' ∨ c = '\'') := by
      rintro (rfl | rfl) <;> cases start
    have letter : ¬ c.isDigit = true := by
      intro digit
      rw [(apart_of_isDigit digit).1] at start
      cases start
    rw [if_neg unquoted, if_neg letter, if_pos (isWordStart_of_isNameStart start)]
  all_goals cases start

/-- A run of letters is one word. -/
theorem reads_word {c : Char} {cs : List Char} (start : isNameStart c = true)
    (part : ∀ d ∈ cs, isNamePart d = true) :
    Reads (c :: cs) (wordToken (String.ofList (c :: cs))) := by
  have blank : Text.isBlank c = false := by
    cases blank : Text.isBlank c with
    | false => rfl
    | true =>
      have whole := isWordPart_of_isNamePart (isNamePart_of_isNameStart start)
      rw [(Text.apart_of_isBlank blank).1] at whole
      cases whole
  refine ⟨c, cs, rfl, blank, fun rest parted => ?_⟩
  obtain ⟨taken, dropped⟩ := span_parted (fun b h => (Text.apart_of_isBlank h).1)
    (fun d member => isWordPart_of_isNamePart (part d member)) parted
  rw [next_word start, taken, dropped]

theorem reads_name {s : String} (h : IsName s) : Reads s.toList (.identifier s) := by
  obtain ⟨c, cs, shape, start, part⟩ := h.shape
  have word := reads_word start part
  rwa [← shape, String.ofList_toList, wordToken_of_not_mem h.free] at word

end Names

section Texts

theorem eq_of_mem_quotes {quote : Char} (known : quote ∈ quotes) : quote = '"' ∨ quote = '\'' := by
  simpa [quotes] using known

/-- Up to its closing quote a text is read back as it was. -/
theorem quoted_escaped {quote : Char} (known : quote ∈ quotes) (cs rest : List Char) :
    quoted quote (escaped quote cs ++ quote :: rest) = some (cs, rest) := by
  have plain : quote ≠ '\\' ∧ quote ≠ 'n' ∧ quote ≠ 't' := by
    obtain rfl | rfl := eq_of_mem_quotes known <;> decide
  induction cs with
  | nil =>
    show quoted quote (quote :: rest) = _
    rw [quoted]
    · rw [if_pos rfl]
    · exact fun h => absurd h plain.1
    · exact fun c cs h => absurd h plain.1
  | cons c cs ih =>
    by_cases special : c = '\\' ∨ c = quote
    · have kept : (if c = 'n' then '\n' else if c = 't' then '\t' else c) = c := by
        rcases special with rfl | rfl
        · rfl
        · rw [if_neg plain.2.1, if_neg plain.2.2]
      rw [escaped, List.flatMap_cons, if_pos special]
      show quoted quote ('\\' :: c :: (escaped quote cs ++ quote :: rest)) = _
      rw [quoted, ih]
      simp only [kept, Option.map_some]
    · obtain ⟨unescaped, inside⟩ := not_or.mp special
      rw [escaped, List.flatMap_cons, if_neg special]
      show quoted quote (c :: (escaped quote cs ++ quote :: rest)) = _
      rw [quoted, ih]
      · rw [if_neg inside, Option.map_some]
      · exact fun h => absurd h unescaped
      · exact fun c' cs' h => absurd h unescaped

theorem reads_quotation {quote : Char} (known : quote ∈ quotes) (s : String) :
    Reads (quotation quote s) (.text s) := by
  have either := eq_of_mem_quotes known
  have visible : Text.isBlank quote = false := by
    obtain rfl | rfl := either <;> decide +kernel
  refine ⟨quote, _, rfl, visible, fun rest _ => ?_⟩
  have inner : quoted quote (escaped quote s.toList ++ [quote] ++ rest) =
      some (s.toList, rest) := by
    rw [List.append_assoc]
    exact quoted_escaped known s.toList rest
  unfold next
  split
  case h_13 =>
    rw [if_pos either, inner]
    simp only [String.ofList_toList]
  all_goals cases either <;> contradiction

end Texts

section Numbers

theorem foldl_digits (cs : List Char) (n : Nat) :
    cs.foldl (fun n d => n * 10 + (d.toNat - 48)) n = Nat.ofDigitChars 10 cs n := by
  have step : (fun n (d : Char) => n * 10 + (d.toNat - 48)) =
      fun n (d : Char) => 10 * n + (d.toNat - '0'.toNat) := by
    funext n d
    rw [Nat.mul_comm]
    rfl
  rw [step, Nat.ofDigitChars]

theorem isDigit_of_mem_digits {n : Nat} {c : Char} (h : c ∈ digits n) : c.isDigit = true :=
  Nat.isDigit_of_mem_toDigits (by decide) (by decide) h

/-- Digits without a point are read as the decimal that they are, whatever they begin with. -/
theorem numberToken_digits {cs : List Char} (all : ∀ c ∈ cs, c.isDigit = true) :
    numberToken cs =
      .ok (.number (Binary64.ofDecimal false (Nat.ofDigitChars 10 cs 0) 0)) := by
  have kept : cs.filter (· != '_') = cs :=
    List.filter_eq_self.mpr fun c member => (apart_of_isDigit (all c member)).2.2
  have taken : cs.takeWhile Char.isDigit = cs := List.takeWhile_eq_self_iff.mpr all
  have dropped : cs.dropWhile Char.isDigit = [] := List.dropWhile_eq_nil_iff.mpr all
  simp only [numberToken, kept, readNumber, taken, dropped, foldl_digits]

/-- The longest run of characters of numbers is one number. -/
theorem next_digit {c : Char} (digit : c.isDigit = true) (cs : List Char) :
    next c cs = (numberToken (c :: cs.takeWhile isNumberPart)).map
      fun token => (token, cs.dropWhile isNumberPart) := by
  unfold next
  split
  case h_13 =>
    have unquoted : ¬ (c = '"' ∨ c = '\'') := by
      rintro (rfl | rfl) <;> cases digit
    rw [if_neg unquoted, if_pos digit]
    cases numberToken (c :: cs.takeWhile isNumberPart) <;> rfl
  all_goals cases digit

/-- A decimal of at most 53 bits is read as what it says. -/
theorem reads_digits {n : Nat} (small : n < 2 ^ (53 : Nat)) :
    ∃ x, x.toInt? = some (n : Int) ∧ Reads (digits n) (.number (some x)) := by
  obtain ⟨x, decimal, whole⟩ := Binary64.ofDecimal_nat small
  refine ⟨x, whole, ?_⟩
  obtain ⟨c, cs, shape⟩ := List.exists_cons_of_ne_nil (Nat.toDigits_ne_nil (n := n) (b := 10))
  have all : ∀ d ∈ c :: cs, d.isDigit = true := by
    rw [← shape]
    exact fun d => isDigit_of_mem_digits
  have number : numberToken (c :: cs) = .ok (.number (some x)) := by
    rw [numberToken_digits all, ← shape, Nat.ofDigitChars_toDigits (by decide) (by decide), decimal]
  have digit : c.isDigit = true := all c List.mem_cons_self
  refine ⟨c, cs, shape, (apart_of_isDigit digit).2.1, fun rest parted => ?_⟩
  obtain ⟨taken, dropped⟩ := span_parted (fun b h => (Text.apart_of_isBlank h).2.1)
    (fun d member => isNumberPart_of_isDigit (all d (List.mem_cons_of_mem _ member))) parted
  rw [next_digit digit, taken, number, dropped]
  rfl

end Numbers

section Signs

theorem oneOrTwo_same (c : Char) (two one : Token) (rest : List Char) :
    oneOrTwo c two one (c :: rest) = (two, rest) := if_pos rfl

theorem oneOrTwo_parted {two one : Token} {rest : List Char} (parted : Parted rest) :
    oneOrTwo '=' two one rest = (one, rest) := by
  cases rest with
  | nil => rfl
  | cons b rest =>
    rw [oneOrTwo, if_neg (Text.apart_of_isBlank (parted b rfl)).2.2]

/-- The tokens that are no words, with their characters. -/
def symbols : List (List Char × Token) :=
  [(['('], .openParen), ([')'], .closeParen), (['['], .openBracket), ([']'], .closeBracket),
    (['.'], .dot), (['-'], .minus), (['!'], .not), (['!', '='], .notEq), (['<'], .lt),
    (['<', '='], .ltEq), (['>'], .gt), (['>', '='], .gtEq), (['=', '='], .eq),
    (['&', '&'], .and), (['|', '|'], .or)]

theorem reads_symbol {word : List Char} {token : Token} (h : (word, token) ∈ symbols) :
    Reads word token := by
  simp only [symbols, List.mem_cons, List.not_mem_nil, Prod.mk.injEq] at h
  repeat' obtain ⟨rfl, rfl⟩ | h := h
  all_goals
    refine ⟨_, _, rfl, by decide +kernel, fun rest parted => ?_⟩
    simp [next, doubled, oneOrTwo_same, oneOrTwo_parted parted]

theorem reads_keyword {s : String} (h : s ∈ keywords) : Reads s.toList (wordToken s) := by
  have shape : ∃ c cs, s.toList = c :: cs ∧ isNameStart c = true ∧
      ∀ d ∈ cs, isNamePart d = true := by
    simp only [keywords, List.mem_cons, List.not_mem_nil, or_false] at h
    repeat' obtain rfl | h := h
    all_goals exact ⟨_, _, rfl, by decide, List.all_eq_true.mp (by decide)⟩
  obtain ⟨c, cs, shape, start, part⟩ := shape
  have word := reads_word start part
  rwa [← shape, String.ofList_toList] at word

/-- The token of an operator. -/
def sign : BinaryOp → Token
  | .and => .and
  | .or => .or
  | .eq => .eq
  | .notEq => .notEq
  | .lt => .lt
  | .ltEq => .ltEq
  | .gt => .gt
  | .gtEq => .gtEq
  | .isIn => .isIn

/-- Every spelling of an operator is read as the operator. -/
theorem reads_spelling {op : BinaryOp} {spelling : String} (known : spelling ∈ spellings op) :
    Reads spelling.toList (sign op) := by
  have fixed : (spelling.toList, sign op) ∈ symbols ∨
      spelling ∈ keywords ∧ wordToken spelling = sign op := by
    revert known spelling
    cases op <;> decide
  rcases fixed with symbol | ⟨keyword, same⟩
  · exact reads_symbol symbol
  · rw [← same]
    exact reads_keyword keyword

theorem reads_negation {spelling : String} (known : spelling ∈ negations) :
    Reads spelling.toList .not := by
  have fixed : (spelling.toList, Token.not) ∈ symbols ∨
      spelling ∈ keywords ∧ wordToken spelling = .not := by
    revert known spelling
    decide
  rcases fixed with symbol | ⟨keyword, same⟩
  · exact reads_symbol symbol
  · rw [← same]
    exact reads_keyword keyword

end Signs

section Rows

/-- A word is read as its token, and then what follows it is read. -/
theorem run_word {word rest cs : List Char} {token : Token} {tokens : List Token} {fuel : Nat}
    (reads : Reads word token) (parted : Parted rest)
    (here : cs.dropWhile Text.isBlank = word ++ rest)
    (later : ∀ position, run fuel position rest = .ok tokens) (position : Nat) :
    run (fuel + 1) position cs = .ok (token :: tokens) := by
  obtain ⟨c, cs', rfl, -, first⟩ := reads
  simp only [run, here, List.cons_append, first rest parted, later]

theorem dropWhile_word {word : List Char} {token : Token} (reads : Reads word token)
    (rest : List Char) :
    (word ++ rest).dropWhile Text.isBlank = word ++ rest := by
  obtain ⟨c, cs, rfl, visible, -⟩ := reads
  rw [List.cons_append, List.dropWhile_cons_of_neg (by rw [visible]; decide)]

theorem run_blank {fuel position : Nat} {cs : List Char} (h : cs.dropWhile Text.isBlank = []) :
    run fuel position cs = .ok [.finish] := by
  cases fuel with
  | zero => rfl
  | succ fuel => simp only [run, h]

/-- Words with white space between them are read one after the other. -/
theorem run_spaced {words : List (List Char)} {text : List Char} (spaced : Spaced words text)
    {tokens : List Token} (reads : List.Forall₂ Reads words tokens) {fuel : Nat}
    (enough : text.length < fuel) {cs : List Char}
    (here : cs.dropWhile Text.isBlank = text.dropWhile Text.isBlank) (position : Nat) :
    run fuel position cs = .ok (tokens ++ [.finish]) := by
  induction spaced generalizing tokens fuel cs position with
  | none blank =>
    cases reads
    exact run_blank (here.trans (List.dropWhile_eq_nil_iff.mpr blank))
  | last gap word blank =>
    obtain _ | ⟨first, ⟨⟩⟩ := reads
    obtain ⟨fuel, rfl⟩ : ∃ n, fuel = n + 1 := ⟨fuel - 1, by omega⟩
    refine run_word first parted_nil ?_ (fun position => run_blank rfl) position
    rw [here, List.dropWhile_append_of_pos blank, List.append_nil]
    simpa using dropWhile_word first []
  | @more text words gap word b blank between rest ih =>
    obtain _ | ⟨first, later⟩ := reads
    have behind : (b :: text).dropWhile Text.isBlank = text.dropWhile Text.isBlank :=
      List.dropWhile_cons_of_pos between
    obtain ⟨fuel, rfl⟩ : ∃ n, fuel = n + 1 := ⟨fuel - 1, by omega⟩
    simp only [List.length_append, List.length_cons] at enough
    refine run_word first (parted_cons between) ?_ (ih later (by omega) behind) position
    rw [here, List.append_assoc, List.dropWhile_append_of_pos blank, dropWhile_word first]

end Rows

end Lexer

/-- A text is cut into the tokens that its words are read as. -/
theorem tokens_spaced {words : List (List Char)} {text : String}
    (spaced : Spaced words text.toList) {tokens : List Token}
    (reads : List.Forall₂ Reads words tokens) : Expr.tokens text = .ok (tokens ++ [.finish]) :=
  run_spaced spaced reads (by rw [String.length_toList]; omega) rfl 0

end Expr

end DurableFlow
