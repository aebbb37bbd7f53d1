import DurableFlow.Proofs.Expr.Lexing
import DurableFlow.Proofs.Expr.Parsing

/-!
# What is written is read back

The words of an expression are read as tokens from which the grammar derives the expression, by
induction on how it is written: each way of writing it is a rule of the grammar. As the parser
finds what the grammar derives, every text of an expression is read back as that expression.
-/

namespace DurableFlow

namespace Expr

open Lexer

namespace Grammar

/-- One more operand of `||`. -/
def Disjuncts.snoc : Disjuncts → Conjunction → Disjuncts
  | .none, c => .then c .none
  | .then next more, c => .then next (more.snoc c)

/-- One more operand of `&&`. -/
def Conjuncts.snoc : Conjuncts → Comparison → Conjuncts
  | .none, c => .then c .none
  | .then next more, c => .then next (more.snoc c)

theorem Disjuncts.tokens_snoc (ds : Disjuncts) (c : Conjunction) :
    (ds.snoc c).tokens = ds.tokens ++ .or :: c.tokens := by
  cases ds with
  | none => simp [Disjuncts.snoc, Disjuncts.tokens]
  | «then» next more => simp [Disjuncts.snoc, Disjuncts.tokens, more.tokens_snoc c]
termination_by structural ds

theorem Disjuncts.onto_snoc (ds : Disjuncts) (c : Conjunction) (left : Expr) :
    (ds.snoc c).onto left = .binary (ds.onto left) .or c.expr := by
  cases ds with
  | none => rfl
  | «then» next more => exact more.onto_snoc c _
termination_by structural ds

theorem Conjuncts.tokens_snoc (cs : Conjuncts) (c : Comparison) :
    (cs.snoc c).tokens = cs.tokens ++ .and :: c.tokens := by
  cases cs with
  | none => simp [Conjuncts.snoc, Conjuncts.tokens]
  | «then» next more => simp [Conjuncts.snoc, Conjuncts.tokens, more.tokens_snoc c]
termination_by structural cs

theorem Conjuncts.onto_snoc (cs : Conjuncts) (c : Comparison) (left : Expr) :
    (cs.snoc c).onto left = .binary (cs.onto left) .and c.expr := by
  cases cs with
  | none => rfl
  | «then» next more => exact more.onto_snoc c _
termination_by structural cs

/-- A form that binds with some strength derives an expression from tokens. -/
def Forms : Nat → Expr → List Token → Prop
  | 0, e, tokens => ∃ d : Disjunction, d.expr = e ∧ d.tokens = tokens
  | 1, e, tokens => ∃ c : Conjunction, c.expr = e ∧ c.tokens = tokens
  | 2, e, tokens => ∃ c : Comparison, c.expr = e ∧ c.tokens = tokens
  | 3, e, tokens => ∃ u : Unary, u.expr = e ∧ u.tokens = tokens
  | _, e, tokens => ∃ p : Primary, p.expr = e ∧ p.tokens = tokens

variable {e left right : Expr} {tokens tokens' : List Token}

/-- Every form is the simplest case of the next looser one. -/
theorem Forms.loose {level : Nat} (h : Forms (level + 1) e tokens) : Forms level e tokens := by
  match level, h with
  | 0, ⟨c, means, derives⟩ =>
    exact ⟨.of c .none, means, by simpa [Disjunction.tokens, Disjuncts.tokens] using derives⟩
  | 1, ⟨c, means, derives⟩ =>
    exact ⟨.of c .none, means, by simpa [Conjunction.tokens, Conjuncts.tokens] using derives⟩
  | 2, ⟨u, means, derives⟩ => exact ⟨.operand u, means, derives⟩
  | 3, ⟨p, means, derives⟩ => exact ⟨.primary p, means, derives⟩
  | _ + 4, h => exact h

theorem Forms.group (h : Forms 0 e tokens) :
    Forms 4 e (.openParen :: (tokens ++ [.closeParen])) := by
  obtain ⟨d, rfl, rfl⟩ := h
  exact ⟨.group d, rfl, rfl⟩

theorem Forms.not (h : Forms 3 e tokens) : Forms 3 (.not e) (.not :: tokens) := by
  obtain ⟨u, rfl, rfl⟩ := h
  exact ⟨.not u, rfl, rfl⟩

theorem Forms.negate (h : Forms 3 e tokens) : Forms 3 (.negate e) (.minus :: tokens) := by
  obtain ⟨u, rfl, rfl⟩ := h
  exact ⟨.minus u, rfl, rfl⟩

theorem Forms.or (first : Forms 0 left tokens) (second : Forms 1 right tokens') :
    Forms 0 (.binary left .or right) (tokens ++ .or :: tokens') := by
  obtain ⟨⟨c, more⟩, rfl, rfl⟩ := first
  obtain ⟨c', rfl, rfl⟩ := second
  refine ⟨.of c (more.snoc c'), more.onto_snoc c' _, ?_⟩
  rw [Disjunction.tokens, Disjunction.tokens, more.tokens_snoc, List.append_assoc]

theorem Forms.and (first : Forms 1 left tokens) (second : Forms 2 right tokens') :
    Forms 1 (.binary left .and right) (tokens ++ .and :: tokens') := by
  obtain ⟨⟨c, more⟩, rfl, rfl⟩ := first
  obtain ⟨c', rfl, rfl⟩ := second
  refine ⟨.of c (more.snoc c'), more.onto_snoc c' _, ?_⟩
  rw [Conjunction.tokens, Conjunction.tokens, more.tokens_snoc, List.append_assoc]

theorem Forms.compare (c : Comparator) (first : Forms 3 left tokens)
    (second : Forms 3 right tokens') :
    Forms 2 (.binary left c.op right) (tokens ++ c.token :: tokens') := by
  obtain ⟨u, rfl, rfl⟩ := first
  obtain ⟨u', rfl, rfl⟩ := second
  exact ⟨.compare u c u', rfl, rfl⟩

/-- An operator between operands that bind as tightly as they have to. -/
theorem Forms.binary (op : BinaryOp) (first : Forms (Writing.before op) left tokens)
    (second : Forms (Writing.behind op) right tokens') :
    Forms (Writing.strength op) (.binary left op right) (tokens ++ sign op :: tokens') :=
  match op, first, second with
  | .or, first, second => .or first second
  | .and, first, second => .and first second
  | .eq, first, second => .compare .eq first second
  | .notEq, first, second => .compare .notEq first second
  | .lt, first, second => .compare .lt first second
  | .ltEq, first, second => .compare .ltEq first second
  | .gt, first, second => .compare .gt first second
  | .gtEq, first, second => .compare .gtEq first second
  | .isIn, first, second => .compare .isIn first second

end Grammar

namespace Writing

open Grammar

theorem reads_steps {steps : List Segment} {words : List (List Char)} (h : Steps steps words) :
    ∃ suffixes : List Suffix, suffixes.map Suffix.segment = steps ∧
      List.Forall₂ Reads words (suffixes.flatMap Suffix.tokens) := by
  have opened : Reads ['['] .openBracket := reads_symbol (by decide)
  have closed : Reads [']'] .closeBracket := reads_symbol (by decide)
  induction h with
  | none => exact ⟨[], rfl, .nil⟩
  | key name quote known more ih =>
    obtain ⟨suffixes, rfl, reads⟩ := ih
    exact ⟨.key name :: suffixes, rfl,
      .cons opened (.cons (reads_quotation known name) (.cons closed reads))⟩
  | property named more ih =>
    obtain ⟨suffixes, rfl, reads⟩ := ih
    exact ⟨.property _ :: suffixes, rfl,
      .cons (reads_symbol (by decide)) (.cons (reads_name named) reads)⟩
  | @index rest words n small more ih =>
    obtain ⟨suffixes, rfl, reads⟩ := ih
    obtain ⟨x, whole, number⟩ := reads_digits small
    have held : min n (2 ^ (64 : Nat) - 1) = n := by omega
    refine ⟨.index x n whole :: suffixes, ?_, .cons opened (.cons number (.cons closed reads))⟩
    rw [List.map_cons, Suffix.segment, held]

/-- The words of an expression are read as tokens from which it is derived. -/
theorem reads_words {level : Nat} {e : Expr} {words : List (List Char)} (h : Words level e words) :
    ∃ tokens, List.Forall₂ Reads words tokens ∧ Forms level e tokens := by
  induction h with
  | null => exact ⟨_, .cons (reads_keyword (by decide)) .nil, .literal .null, rfl, rfl⟩
  | bool b =>
    cases b with
    | false => exact ⟨_, .cons (reads_keyword (by decide)) .nil, .literal .no, rfl, rfl⟩
    | true => exact ⟨_, .cons (reads_keyword (by decide)) .nil, .literal .yes, rfl, rfl⟩
  | text s quote known =>
    exact ⟨_, .cons (reads_quotation known s) .nil, .literal (.text s), rfl, rfl⟩
  | @integer n small =>
    obtain ⟨x, whole, number⟩ := reads_digits small
    exact ⟨_, .cons number .nil, .literal (.integer x n whole (by omega)), rfl, rfl⟩
  | path named steps =>
    obtain ⟨suffixes, rfl, reads⟩ := reads_steps steps
    exact ⟨_, .cons (reads_name named) reads, .path _ suffixes, rfl, rfl⟩
  | group inner ih =>
    obtain ⟨tokens, reads, forms⟩ := ih
    have opened : Reads ['('] .openParen := reads_symbol (by decide)
    have closed : Reads [')'] .closeParen := reads_symbol (by decide)
    exact ⟨_, .cons opened (List.rel_append reads (.cons closed .nil)), forms.group⟩
  | not spelling known operand ih =>
    obtain ⟨tokens, reads, forms⟩ := ih
    exact ⟨_, .cons (reads_negation known) reads, forms.not⟩
  | negate operand ih =>
    obtain ⟨tokens, reads, forms⟩ := ih
    exact ⟨_, .cons (reads_symbol (by decide)) reads, forms.negate⟩
  | binary op spelling known first second ihFirst ihSecond =>
    obtain ⟨tokens, reads, forms⟩ := ihFirst
    obtain ⟨tokens', reads', forms'⟩ := ihSecond
    exact ⟨_, List.rel_append reads (.cons (reads_spelling known) reads'), .binary op forms forms'⟩
  | loose tight ih =>
    obtain ⟨tokens, reads, forms⟩ := ih
    exact ⟨tokens, reads, forms.loose⟩

theorem parse_eq_of_written {e : Expr} {text : String} (h : Written e text) :
    Expr.parse text = .ok e := by
  obtain ⟨words, written, spaced⟩ := h
  obtain ⟨tokens, reads, d, rfl, rfl⟩ := reads_words written
  rw [Expr.parse, tokens_spaced spaced reads]
  exact d.parse_tokens

/-- The expressions of null, truth values, texts, integers, paths, signs and operators are those
that have a text. Every text of one, whichever quotes, parentheses and white space it is written
with, is read back as the expression, and so its value over any scope is that of the expression. -/
theorem reads_back :
    (∀ e : Expr, e.Writable ↔ ∃ text, Written e text) ∧
    ∀ (e : Expr) (text : String), Written e text →
      Expr.parse text = .ok e ∧ ∀ scope, Expr.evaluate text scope = e.eval scope := by
  refine ⟨fun e => ⟨exists_written, fun ⟨text, words, written, _⟩ => written.writable⟩,
    fun e text written => ?_⟩
  have parsed := parse_eq_of_written written
  refine ⟨parsed, fun scope => ?_⟩
  rw [Expr.evaluate, parsed]
  rfl

theorem reads_back_negated :
    Written (.not (.binary (.path "a" [.index 2]) .or (.literal (.str "it's"))))
        "not ( a [ 2 ]\tor 'it\\'s' )" ∧
      Expr.parse "not ( a [ 2 ]\tor 'it\\'s' )" =
        .ok (.not (.binary (.path "a" [.index 2]) .or (.literal (.str "it's")))) := by
  have head : IsName "a" := ⟨⟨'a', [], rfl, by decide, nofun⟩, by decide⟩
  have text : Words 4 (.literal (.str "it's")) [quotation '\'' "it's"] := .text _ _ (by decide)
  have path : Words 4 (.path "a" [.index 2]) ["a".toList, ['['], digits 2, [']']] :=
    .path head (.index (by decide) .none)
  have words : Words 0
      (.not (.binary (.path "a" [.index 2]) .or (.literal (.str "it's"))))
      ["not".toList, ['('], "a".toList, ['['], digits 2, [']'], "or".toList,
        quotation '\'' "it's", [')']] :=
    (Words.not "not" (by decide) (Words.group (.binary .or "or" (by decide)
      (path.mono (by decide)) (text.mono (by decide)))).loose).mono (by decide)
  have blank : Text.isBlank ' ' = true ∧ Text.isBlank '\t' = true := by decide +kernel
  have written : Written (.not (.binary (.path "a" [.index 2]) .or (.literal (.str "it's"))))
      "not ( a [ 2 ]\tor 'it\\'s' )" := by
    refine ⟨_, words, ?_⟩
    exact .more [] _ ' ' nofun blank.1 (.more [] _ ' ' nofun blank.1 (.more [] _ ' ' nofun blank.1
      (.more [] _ ' ' nofun blank.1 (.more [] _ ' ' nofun blank.1 (.more [] _ '\t' nofun blank.2
        (.more [] _ ' ' nofun blank.1 (.more [] _ ' ' nofun blank.1
          (.last [] _ nofun))))))))
  exact ⟨written, (reads_back.2 _ _ written).1⟩

end Writing

end Expr

end DurableFlow
