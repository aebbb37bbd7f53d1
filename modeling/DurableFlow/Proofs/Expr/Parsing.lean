import DurableFlow.Proofs.Data.Except
import DurableFlow.Proofs.Expr.Grammar

/-!
# Parsing is deriving

The parser finds the tree of whatever the grammar derives, and what it finds is derived.

That it finds a tree is an induction on the tree: a rule is parsed up to the first token that
does not go on with it, so it is enough that such a token follows. The steps that the parser may
take, eight for each token, suffice, as there are fewer rules than that between a token and
the next one. That what it finds is derived is an induction on its steps.
-/

namespace DurableFlow

namespace Expr

open DurableFlow.Expr.Parser

namespace Grammar

section Leaves

theorem comparison?_token (c : Comparator) : comparison? c.token = some c.op := by
  cases c <;> rfl

theorem exists_comparator {token : Token} {op : BinaryOp} (h : comparison? token = some op) :
    ∃ c : Comparator, c.token = token ∧ c.op = op := by
  cases token with
  | eq => exact ⟨.eq, rfl, Option.some.inj h⟩
  | notEq => exact ⟨.notEq, rfl, Option.some.inj h⟩
  | lt => exact ⟨.lt, rfl, Option.some.inj h⟩
  | ltEq => exact ⟨.ltEq, rfl, Option.some.inj h⟩
  | gt => exact ⟨.gt, rfl, Option.some.inj h⟩
  | gtEq => exact ⟨.gtEq, rfl, Option.some.inj h⟩
  | isIn => exact ⟨.isIn, rfl, Option.some.inj h⟩
  | _ => cases h

theorem comparison?_of_closes {rest : List Token} (closed : Closes 1 rest) :
    comparison? (peek rest) = none := by
  cases compared : comparison? (peek rest) with
  | none => rfl
  | some op =>
    obtain ⟨c, token, -⟩ := exists_comparator compared
    rw [Closes, ← token, c.binds_token] at closed
    exact absurd closed (by decide)

theorem literal?_token (l : Literal) : literal? l.token = some l.data := by
  cases l with
  | integer x i whole small =>
    simp only [Literal.token, Literal.data, literal?, numberLiteral, whole, if_pos small]
  | float x other =>
    simp only [Literal.token, Literal.data, literal?, numberLiteral]
    cases whole : x.toInt? with
    | none => rfl
    | some i => simp only [if_neg (Nat.not_lt.mpr (other i whole))]
  | _ => rfl

theorem exists_literal {token : Token} {value : Data} (h : literal? token = some value) :
    ∃ l : Literal, l.token = token ∧ l.data = value := by
  cases token with
  | yes => exact ⟨.yes, rfl, Option.some.inj h⟩
  | no => exact ⟨.no, rfl, Option.some.inj h⟩
  | null => exact ⟨.null, rfl, Option.some.inj h⟩
  | text s => exact ⟨.text s, rfl, Option.some.inj h⟩
  | number x? =>
    cases x? with
    | none => exact ⟨.beyond, rfl, Option.some.inj h⟩
    | some x =>
      simp only [literal?, numberLiteral, Option.some.injEq] at h
      split at h
      · rename_i i whole
        split at h
        · rename_i small
          exact ⟨.integer x i whole small, rfl, h⟩
        · rename_i large
          refine ⟨.float x fun j wholeJ => ?_, rfl, h⟩
          obtain rfl : i = j := Option.some.inj (whole.symm.trans wholeJ)
          exact Nat.not_lt.mp large
      · rename_i fraction
        exact ⟨.float x fun j whole => absurd (fraction.symm.trans whole) nofun, rfl, h⟩
  | _ => cases h

theorem indexOf?_of_toInt? {x : Binary64} {position : Nat}
    (whole : x.toInt? = some (position : Int)) :
    indexOf? (some x) = some (min position (2 ^ (64 : Nat) - 1)) := by
  simp only [indexOf?, whole, if_pos (Int.natCast_nonneg position), Int.toNat_natCast]

/-- What may stand in brackets is a step of a path. -/
theorem exists_bracketed {token : Token} {segment : Segment}
    (h : bracketed? token = some segment) :
    ∃ suffix : Suffix, suffix.tokens = [.openBracket, token, .closeBracket] ∧
      suffix.segment = segment := by
  cases token with
  | text key => exact ⟨.key key, rfl, Option.some.inj h⟩
  | number x? =>
    cases x? with
    | none => simp [bracketed?, indexOf?] at h
    | some x =>
      simp only [bracketed?, indexOf?] at h
      split at h
      · rename_i i whole
        split at h
        · rename_i positive
          have position : ((i.toNat : Nat) : Int) = i := Int.toNat_of_nonneg positive
          exact ⟨.index x i.toNat (whole.trans (by rw [position])), rfl, Option.some.inj h⟩
        · cases h
      · cases h
  | _ => cases h

end Leaves

section Complete

/-- A path is parsed up to the first token that does not go on with it. -/
theorem segments_complete (suffixes : List Suffix) {rest : List Token} (closed : Closes 0 rest) :
    segments (suffixes.flatMap Suffix.tokens ++ rest) =
      .ok (suffixes.map Suffix.segment, rest) := by
  induction suffixes with
  | nil =>
    show segments rest = .ok ([], rest)
    unfold segments
    split
    · exact absurd closed (by decide : ¬ 0 < 0)
    · exact absurd closed (by decide : ¬ 0 < 0)
    · rfl
  | cons suffix more ih =>
    rw [List.flatMap_cons, List.append_assoc]
    cases suffix with
    | property name =>
      simp only [Suffix.tokens, List.cons_append, List.nil_append]
      rw [segments, ih]
      rfl
    | index x position whole =>
      simp only [Suffix.tokens, List.cons_append, List.nil_append]
      simp only [segments, bracketed?, indexOf?_of_toInt? whole, Option.map_some]
      rw [ih]
      rfl
    | key name =>
      simp only [Suffix.tokens, List.cons_append, List.nil_append]
      simp only [segments, bracketed?]
      rw [ih]
      rfl

theorem Primary.tokens_pos (p : Primary) : 0 < p.tokens.length := by
  cases p <;> simp [Primary.tokens]

theorem Unary.tokens_pos (u : Unary) : 0 < u.tokens.length := by
  cases u with
  | primary p => exact p.tokens_pos
  | _ => simp [Unary.tokens]

theorem Comparison.tokens_pos (c : Comparison) : 0 < c.tokens.length := by
  cases c with
  | operand u => exact u.tokens_pos
  | compare left op right =>
    simp only [Comparison.tokens, List.length_append, List.length_cons]
    omega

theorem Conjunction.tokens_pos (c : Conjunction) : 0 < c.tokens.length := by
  obtain ⟨first, more⟩ := c
  have := first.tokens_pos
  simp only [Conjunction.tokens, List.length_append]
  omega

mutual

/-- The parser finds every disjunction that is followed by a token which does not go on with it. -/
theorem Disjunction.parseOr_tokens (d : Disjunction) {rest : List Token} (closed : Closes 3 rest)
    {fuel : Nat} (enough : 8 * d.tokens.length ≤ fuel + 3) :
    parseOr fuel (d.tokens ++ rest) = .ok (d.expr, rest) := by
  obtain ⟨first, more⟩ := d
  have := first.tokens_pos
  simp only [Disjunction.tokens, List.length_append] at enough ⊢
  obtain ⟨fuel, rfl⟩ : ∃ n, fuel = n + 1 := ⟨fuel - 1, by omega⟩
  rw [parseOr, List.append_assoc, first.parseAnd_tokens (more.closes closed) (by omega), ok_bind]
  exact more.moreOr_tokens _ closed (by omega)
termination_by structural d

theorem Disjuncts.moreOr_tokens (ds : Disjuncts) (left : Expr) {rest : List Token}
    (closed : Closes 3 rest) {fuel : Nat} (enough : 8 * ds.tokens.length + 1 ≤ fuel) :
    moreOr fuel left (ds.tokens ++ rest) = .ok (ds.onto left, rest) := by
  obtain ⟨fuel, rfl⟩ : ∃ n, fuel = n + 1 := ⟨fuel - 1, by omega⟩
  cases ds with
  | none =>
    show moreOr (fuel + 1) left rest = .ok (left, rest)
    rw [moreOr]
    rintro tokens rfl
    exact absurd closed (by decide : ¬ 3 < 3)
  | «then» next more =>
    simp only [Disjuncts.tokens, List.cons_append, List.length_cons, List.length_append,
      List.append_assoc] at enough ⊢
    rw [moreOr, next.parseAnd_tokens (more.closes closed) (by omega), ok_bind]
    exact more.moreOr_tokens _ closed (by omega)
termination_by structural ds

theorem Conjunction.parseAnd_tokens (c : Conjunction) {rest : List Token} (closed : Closes 2 rest)
    {fuel : Nat} (enough : 8 * c.tokens.length ≤ fuel + 4) :
    parseAnd fuel (c.tokens ++ rest) = .ok (c.expr, rest) := by
  obtain ⟨first, more⟩ := c
  have := first.tokens_pos
  simp only [Conjunction.tokens, List.length_append] at enough ⊢
  obtain ⟨fuel, rfl⟩ : ∃ n, fuel = n + 1 := ⟨fuel - 1, by omega⟩
  rw [parseAnd, List.append_assoc, first.parseComparison_tokens (more.closes closed) (by omega),
    ok_bind]
  exact more.moreAnd_tokens _ closed (by omega)
termination_by structural c

theorem Conjuncts.moreAnd_tokens (cs : Conjuncts) (left : Expr) {rest : List Token}
    (closed : Closes 2 rest) {fuel : Nat} (enough : 8 * cs.tokens.length + 1 ≤ fuel) :
    moreAnd fuel left (cs.tokens ++ rest) = .ok (cs.onto left, rest) := by
  obtain ⟨fuel, rfl⟩ : ∃ n, fuel = n + 1 := ⟨fuel - 1, by omega⟩
  cases cs with
  | none =>
    show moreAnd (fuel + 1) left rest = .ok (left, rest)
    rw [moreAnd]
    rintro tokens rfl
    exact absurd closed (by decide : ¬ 2 < 2)
  | «then» next more =>
    simp only [Conjuncts.tokens, List.cons_append, List.length_cons, List.length_append,
      List.append_assoc] at enough ⊢
    rw [moreAnd, next.parseComparison_tokens (more.closes closed) (by omega), ok_bind]
    exact more.moreAnd_tokens _ closed (by omega)
termination_by structural cs

theorem Comparison.parseComparison_tokens (c : Comparison) {rest : List Token}
    (closed : Closes 1 rest) {fuel : Nat} (enough : 8 * c.tokens.length ≤ fuel + 5) :
    parseComparison fuel (c.tokens ++ rest) = .ok (c.expr, rest) := by
  have := c.tokens_pos
  obtain ⟨fuel, rfl⟩ : ∃ n, fuel = n + 1 := ⟨fuel - 1, by omega⟩
  cases c with
  | operand u =>
    simp only [Comparison.tokens] at enough ⊢
    rw [parseComparison, u.parseUnary_tokens (closed.mono (by decide)) (by omega), ok_bind]
    simp only [comparison?_of_closes closed]
    rfl
  | compare left op right =>
    simp only [Comparison.tokens, List.length_append, List.length_cons, List.append_assoc,
      List.cons_append] at enough ⊢
    have after : Closes 0 (op.token :: (right.tokens ++ rest)) := by
      rw [closes_cons, op.binds_token]
      decide
    rw [parseComparison, left.parseUnary_tokens after (by omega), ok_bind]
    simp only [peek, Parser.drop, List.tail_cons, comparison?_token]
    rw [right.parseUnary_tokens (closed.mono (by decide)) (by omega)]
    rfl
termination_by structural c

theorem Unary.parseUnary_tokens (u : Unary) {rest : List Token} (closed : Closes 0 rest)
    {fuel : Nat} (enough : 8 * u.tokens.length ≤ fuel + 6) :
    parseUnary fuel (u.tokens ++ rest) = .ok (u.expr, rest) := by
  have := u.tokens_pos
  obtain ⟨fuel, rfl⟩ : ∃ n, fuel = n + 1 := ⟨fuel - 1, by omega⟩
  cases u with
  | not v =>
    simp only [Unary.tokens, List.length_cons, List.cons_append] at enough ⊢
    rw [parseUnary, v.parseUnary_tokens closed (by omega)]
    rfl
  | minus v =>
    simp only [Unary.tokens, List.length_cons, List.cons_append] at enough ⊢
    rw [parseUnary, v.parseUnary_tokens closed (by omega)]
    rfl
  | primary p =>
    simp only [Unary.tokens] at enough ⊢
    rw [parseUnary]
    · exact p.parsePrimary_tokens closed (by omega)
    · exact fun tokens => (p.tokens_ne rest tokens).1
    · exact fun tokens => (p.tokens_ne rest tokens).2
termination_by structural u

theorem Primary.parsePrimary_tokens (p : Primary) {rest : List Token} (closed : Closes 0 rest)
    {fuel : Nat} (enough : 8 * p.tokens.length ≤ fuel + 7) :
    parsePrimary fuel (p.tokens ++ rest) = .ok (p.expr, rest) := by
  have := p.tokens_pos
  obtain ⟨fuel, rfl⟩ : ∃ n, fuel = n + 1 := ⟨fuel - 1, by omega⟩
  cases p with
  | literal l =>
    have known := literal?_token l
    simp only [Primary.tokens, List.cons_append, List.nil_append, Primary.expr]
    rw [parsePrimary]
    · rw [known]
    · rintro opened
      cases l <;> cases opened
    · rintro name named
      cases l <;> cases named
  | group d =>
    simp only [Primary.tokens, List.length_cons, List.length_append, List.length_nil,
      List.cons_append, List.append_assoc, List.nil_append] at enough ⊢
    rw [parsePrimary, d.parseOr_tokens (closes_closeParen rest) (by omega)]
    rfl
  | path head suffixes =>
    simp only [Primary.tokens, List.cons_append]
    rw [parsePrimary, segments_complete suffixes closed]
    rfl
termination_by structural p

end

end Complete

section Sound

/-- What is taken for the steps of a path is derived. -/
theorem segments_sound {tokens rest : List Token} {steps : List Segment}
    (h : segments tokens = .ok (steps, rest)) :
    ∃ suffixes : List Suffix, suffixes.map Suffix.segment = steps ∧
      suffixes.flatMap Suffix.tokens ++ rest = tokens := by
  induction tokens using segments.induct generalizing steps with
  | case1 name tokens ih =>
    rw [segments] at h
    obtain ⟨⟨more, _⟩, read, same⟩ := bind_eq_ok_iff.mp h
    cases same
    obtain ⟨suffixes, rfl, rfl⟩ := ih read
    exact ⟨.property name :: suffixes, rfl, rfl⟩
  | case2 tokens other =>
    rw [segments] at h
    · cases h
    · exact other
  | case3 token tokens outside =>
    rw [segments, outside] at h
    cases h
  | case4 token segment inside tokens ih =>
    simp only [segments, inside] at h
    obtain ⟨⟨more, _⟩, read, same⟩ := bind_eq_ok_iff.mp h
    cases same
    obtain ⟨suffix, spelled, rfl⟩ := exists_bracketed inside
    obtain ⟨suffixes, rfl, rfl⟩ := ih read
    exact ⟨suffix :: suffixes, rfl, by rw [List.flatMap_cons, spelled]; rfl⟩
  | case5 token segment inside tokens unclosed =>
    rw [segments, inside] at h
    dsimp only at h
    split at h
    · exact absurd rfl (unclosed _)
    · cases h
  | case6 => cases h
  | case7 tokens noPoint noBracket =>
    rw [segments] at h
    · cases h
      exact ⟨[], rfl, rfl⟩
    · exact noPoint
    · exact noBracket

mutual

/-- Whatever the parser takes for a disjunction is one, and it leaves what follows. -/
theorem parseOr_sound {fuel : Nat} {tokens rest : List Token} {e : Expr}
    (h : parseOr fuel tokens = .ok (e, rest)) :
    ∃ d : Disjunction, d.expr = e ∧ d.tokens ++ rest = tokens := by
  cases fuel with
  | zero => cases h
  | succ fuel =>
    rw [parseOr] at h
    obtain ⟨⟨left, between⟩, read, further⟩ := bind_eq_ok_iff.mp h
    obtain ⟨first, rfl, rfl⟩ := parseAnd_sound read
    obtain ⟨more, rfl, rfl⟩ := moreOr_sound further
    exact ⟨.of first more, rfl, by simp [Disjunction.tokens]⟩

theorem moreOr_sound {fuel : Nat} {left : Expr} {tokens rest : List Token} {e : Expr}
    (h : moreOr fuel left tokens = .ok (e, rest)) :
    ∃ ds : Disjuncts, ds.onto left = e ∧ ds.tokens ++ rest = tokens := by
  cases fuel with
  | zero => cases h
  | succ fuel =>
    rw [moreOr.eq_def] at h
    dsimp only at h
    split at h
    · obtain ⟨⟨right, between⟩, read, further⟩ := bind_eq_ok_iff.mp h
      obtain ⟨next, rfl, rfl⟩ := parseAnd_sound read
      obtain ⟨more, rfl, rfl⟩ := moreOr_sound further
      exact ⟨.then next more, rfl, by simp [Disjuncts.tokens]⟩
    · cases h
      exact ⟨.none, rfl, rfl⟩

theorem parseAnd_sound {fuel : Nat} {tokens rest : List Token} {e : Expr}
    (h : parseAnd fuel tokens = .ok (e, rest)) :
    ∃ c : Conjunction, c.expr = e ∧ c.tokens ++ rest = tokens := by
  cases fuel with
  | zero => cases h
  | succ fuel =>
    rw [parseAnd] at h
    obtain ⟨⟨left, between⟩, read, further⟩ := bind_eq_ok_iff.mp h
    obtain ⟨first, rfl, rfl⟩ := parseComparison_sound read
    obtain ⟨more, rfl, rfl⟩ := moreAnd_sound further
    exact ⟨.of first more, rfl, by simp [Conjunction.tokens]⟩

theorem moreAnd_sound {fuel : Nat} {left : Expr} {tokens rest : List Token} {e : Expr}
    (h : moreAnd fuel left tokens = .ok (e, rest)) :
    ∃ cs : Conjuncts, cs.onto left = e ∧ cs.tokens ++ rest = tokens := by
  cases fuel with
  | zero => cases h
  | succ fuel =>
    rw [moreAnd.eq_def] at h
    dsimp only at h
    split at h
    · obtain ⟨⟨right, between⟩, read, further⟩ := bind_eq_ok_iff.mp h
      obtain ⟨next, rfl, rfl⟩ := parseComparison_sound read
      obtain ⟨more, rfl, rfl⟩ := moreAnd_sound further
      exact ⟨.then next more, rfl, by simp [Conjuncts.tokens]⟩
    · cases h
      exact ⟨.none, rfl, rfl⟩

theorem parseComparison_sound {fuel : Nat} {tokens rest : List Token} {e : Expr}
    (h : parseComparison fuel tokens = .ok (e, rest)) :
    ∃ c : Comparison, c.expr = e ∧ c.tokens ++ rest = tokens := by
  cases fuel with
  | zero => cases h
  | succ fuel =>
    rw [parseComparison] at h
    obtain ⟨⟨value, between⟩, read, further⟩ := bind_eq_ok_iff.mp h
    obtain ⟨left, rfl, rfl⟩ := parseUnary_sound read
    dsimp only at further
    split at further
    · rename_i op compared
      obtain ⟨⟨right, after⟩, read, same⟩ := bind_eq_ok_iff.mp further
      cases same
      obtain ⟨comparator, token, rfl⟩ := exists_comparator compared
      obtain ⟨right, rfl, taken⟩ := parseUnary_sound read
      cases between with
      | nil => cases comparator <;> cases token
      | cons first others =>
        obtain rfl : comparator.token = first := token
        cases taken
        exact ⟨.compare left comparator right, rfl, by simp [Comparison.tokens]⟩
    · cases further
      exact ⟨.operand left, rfl, rfl⟩

theorem parseUnary_sound {fuel : Nat} {tokens rest : List Token} {e : Expr}
    (h : parseUnary fuel tokens = .ok (e, rest)) :
    ∃ u : Unary, u.expr = e ∧ u.tokens ++ rest = tokens := by
  cases fuel with
  | zero => cases h
  | succ fuel =>
    rw [parseUnary.eq_def] at h
    dsimp only at h
    split at h
    · obtain ⟨⟨operand, _⟩, read, same⟩ := bind_eq_ok_iff.mp h
      cases same
      obtain ⟨u, rfl, rfl⟩ := parseUnary_sound read
      exact ⟨.not u, rfl, rfl⟩
    · obtain ⟨⟨operand, _⟩, read, same⟩ := bind_eq_ok_iff.mp h
      cases same
      obtain ⟨u, rfl, rfl⟩ := parseUnary_sound read
      exact ⟨.minus u, rfl, rfl⟩
    · obtain ⟨p, rfl, rfl⟩ := parsePrimary_sound h
      exact ⟨.primary p, rfl, rfl⟩

theorem parsePrimary_sound {fuel : Nat} {tokens rest : List Token} {e : Expr}
    (h : parsePrimary fuel tokens = .ok (e, rest)) :
    ∃ p : Primary, p.expr = e ∧ p.tokens ++ rest = tokens := by
  cases fuel with
  | zero => cases h
  | succ fuel =>
    rw [parsePrimary.eq_def] at h
    dsimp only at h
    split at h
    · obtain ⟨⟨inner, between⟩, read, closing⟩ := bind_eq_ok_iff.mp h
      obtain ⟨d, rfl, rfl⟩ := parseOr_sound read
      dsimp only at closing
      split at closing
      · cases closing
        exact ⟨.group d, rfl, by simp [Primary.tokens]⟩
      · cases closing
    · rename_i name tokens
      obtain ⟨⟨steps, _⟩, read, same⟩ := bind_eq_ok_iff.mp h
      cases same
      obtain ⟨suffixes, rfl, rfl⟩ := segments_sound read
      exact ⟨.path name suffixes, rfl, rfl⟩
    · split at h
      · rename_i known
        cases h
        obtain ⟨l, rfl, rfl⟩ := exists_literal known
        exact ⟨.literal l, rfl, rfl⟩
      · cases h
    · cases h

end

end Sound

section Whole

theorem Suffix.finish_not_mem (suffix : Suffix) : Token.finish ∉ suffix.tokens := by
  cases suffix <;> simp [Suffix.tokens]

mutual

/-- No tree derives the token for the end. -/
theorem Disjunction.finish_not_mem (d : Disjunction) : Token.finish ∉ d.tokens := by
  obtain ⟨first, more⟩ := d
  simp [Disjunction.tokens, first.finish_not_mem, more.finish_not_mem]
termination_by structural d

theorem Disjuncts.finish_not_mem (ds : Disjuncts) : Token.finish ∉ ds.tokens := by
  cases ds with
  | none => simp [Disjuncts.tokens]
  | «then» next more => simp [Disjuncts.tokens, next.finish_not_mem, more.finish_not_mem]
termination_by structural ds

theorem Conjunction.finish_not_mem (c : Conjunction) : Token.finish ∉ c.tokens := by
  obtain ⟨first, more⟩ := c
  simp [Conjunction.tokens, first.finish_not_mem, more.finish_not_mem]
termination_by structural c

theorem Conjuncts.finish_not_mem (cs : Conjuncts) : Token.finish ∉ cs.tokens := by
  cases cs with
  | none => simp [Conjuncts.tokens]
  | «then» next more => simp [Conjuncts.tokens, next.finish_not_mem, more.finish_not_mem]
termination_by structural cs

theorem Comparison.finish_not_mem (c : Comparison) : Token.finish ∉ c.tokens := by
  cases c with
  | operand u => exact u.finish_not_mem
  | compare left op right =>
    have other : Token.finish ≠ op.token := by cases op <;> simp [Comparator.token]
    simp [Comparison.tokens, left.finish_not_mem, right.finish_not_mem, other]
termination_by structural c

theorem Unary.finish_not_mem (u : Unary) : Token.finish ∉ u.tokens := by
  cases u with
  | not v => simp [Unary.tokens, v.finish_not_mem]
  | minus v => simp [Unary.tokens, v.finish_not_mem]
  | primary p => exact p.finish_not_mem
termination_by structural u

theorem Primary.finish_not_mem (p : Primary) : Token.finish ∉ p.tokens := by
  cases p with
  | literal l => cases l <;> simp [Primary.tokens, Literal.token]
  | group d => simp [Primary.tokens, d.finish_not_mem]
  | path head suffixes => simp [Primary.tokens, Suffix.finish_not_mem]
termination_by structural p

end

/-- Tokens with the one for the end behind them, which stands nowhere else. -/
def Sealed (tokens : List Token) : Prop :=
  ∃ body, .finish ∉ body ∧ tokens = body ++ [.finish]

/-- A derivation of a whole list of tokens. -/
def Derives (tokens : List Token) (d : Disjunction) : Prop := d.tokens ++ [.finish] = tokens

theorem Sealed.cons {token : Token} {tokens : List Token} (h : Sealed tokens)
    (other : token ≠ .finish) : Sealed (token :: tokens) := by
  obtain ⟨body, absent, rfl⟩ := h
  exact ⟨token :: body, by simp [absent, Ne.symm other], rfl⟩

/-- What is left of sealed tokens behind a derivation is sealed as well. -/
theorem Sealed.rest {tokens rest : List Token} (h : Sealed tokens) {d : Disjunction}
    (derived : d.tokens ++ rest = tokens) : Sealed rest := by
  obtain ⟨body, absent, rfl⟩ := h
  rcases List.append_eq_append_iff.mp derived with ⟨left, rfl, rfl⟩ | ⟨left, taken, ended⟩
  · exact ⟨left, fun member => absent (List.mem_append_right _ member), rfl⟩
  · cases left with
    | nil => exact ⟨[], by simp, by simpa using ended.symm⟩
    | cons first others =>
      -- The derivation would have taken the token for the end.
      have first : first = .finish := by simp at ended; exact ended.1.symm
      refine absurd ?_ d.finish_not_mem
      rw [taken, first]
      simp

/-- Sealed tokens that begin with the end have nothing else. -/
theorem Sealed.eq_of_peek {tokens : List Token} (h : Sealed tokens)
    (ended : peek tokens = .finish) :
    tokens = [.finish] := by
  obtain ⟨body, absent, rfl⟩ := h
  cases body with
  | nil => rfl
  | cons first others =>
    refine absurd ?_ absent
    rw [show first = .finish from ended]
    exact List.mem_cons_self

end Whole

end Grammar

namespace Lexer

theorem oneOrTwo_ne_finish {second : Char} {two one : Token} (left : two ≠ .finish)
    (right : one ≠ .finish) (rest : List Char) : (oneOrTwo second two one rest).1 ≠ .finish := by
  unfold oneOrTwo
  repeat' split
  all_goals assumption

theorem doubled_ne_finish {c : Char} {token found : Token} {cs rest : List Char}
    (other : token ≠ .finish) (h : doubled c token cs = .ok (found, rest)) : found ≠ .finish := by
  unfold doubled at h
  repeat' split at h
  all_goals cases h
  exact other

theorem wordToken_ne_finish (w : String) : wordToken w ≠ .finish := by
  unfold wordToken
  split <;> simp

theorem numberToken_ne_finish {run : List Char} {token : Token} (h : numberToken run = .ok token) :
    token ≠ .finish := by
  unfold numberToken at h
  dsimp only at h
  split at h <;> cases h
  simp

/-- No character starts the token for the end. -/
theorem next_ne_finish {c : Char} {cs rest : List Char} {token : Token}
    (h : next c cs = .ok (token, rest)) : token ≠ .finish := by
  unfold next at h
  split at h
  case h_7 | h_8 | h_9 =>
    have first : _ = token := congrArg Prod.fst (Except.ok.inj h)
    rw [← first]
    exact oneOrTwo_ne_finish (by simp) (by simp) cs
  case h_10 | h_11 | h_12 => exact doubled_ne_finish (by simp) h
  case h_13 =>
    split at h
    · split at h <;> cases h
      simp
    · split at h
      · split at h
        · rename_i token number
          cases h
          exact numberToken_ne_finish number
        · cases h
      · split at h <;> cases h
        exact wordToken_ne_finish _
  all_goals
    cases h
    simp

theorem run_sealed {fuel position : Nat} {cs : List Char} {tokens : List Token}
    (h : run fuel position cs = .ok tokens) : Grammar.Sealed tokens := by
  have ended : Grammar.Sealed [.finish] := ⟨[], by simp, rfl⟩
  induction fuel generalizing position cs tokens with
  | zero =>
    cases h
    exact ended
  | succ fuel ih =>
    rw [run] at h
    split at h
    · cases h
      exact ended
    · split at h
      · cases h
      · rename_i token rest first
        split at h <;> cases h
        rename_i tokens later
        exact (ih later).cons (next_ne_finish first)

end Lexer

namespace Grammar

/-- The parser finds every disjunction that is all there is. -/
theorem Disjunction.parse_tokens (d : Disjunction) :
    Parser.parse (d.tokens ++ [.finish]) = .ok d.expr := by
  have enough : 8 * d.tokens.length ≤ 8 * (d.tokens ++ [Token.finish]).length + 8 + 3 := by
    simp only [List.length_append, List.length_cons, List.length_nil]
    omega
  have all : parseAll (d.tokens ++ [.finish]) = .ok d.expr := by
    rw [parseAll, d.parseOr_tokens closes_finish enough]
    rfl
  rw [Parser.parse, all]

/-- What texts are cut into are sealed tokens. Of these the parser makes the expression of their
derivation if they have one, which is the only one then, and it refuses all others. -/
theorem parses_what_is_derived :
    (∀ source tokens, Expr.tokens source = .ok tokens → Sealed tokens) ∧
    ∀ tokens, Sealed tokens →
      (∀ e, Parser.parse tokens = .ok e ↔ ∃ d, Derives tokens d ∧ d.expr = e) ∧
      ((∀ d, ¬ Derives tokens d) → ∃ position wanted found,
        Parser.parse tokens = .error (.unexpected position wanted found)) ∧
      ∀ d d', Derives tokens d → Derives tokens d' → d = d' := by
  refine ⟨fun source tokens cut => Lexer.run_sealed cut, fun tokens whole => ?_⟩
  have derived : ∀ e, Parser.parse tokens = .ok e ↔ ∃ d, Derives tokens d ∧ d.expr = e := by
    intro e
    constructor
    · intro parsed
      have all : parseAll tokens = .ok e := by
        unfold Parser.parse at parsed
        split at parsed <;> cases parsed
        assumption
      obtain ⟨⟨value, rest⟩, read, further⟩ := bind_eq_ok_iff.mp all
      obtain ⟨d, rfl, taken⟩ := parseOr_sound read
      dsimp only at further
      split at further <;> cases further
      rename_i ended
      rw [(whole.rest taken).eq_of_peek ended] at taken
      exact ⟨d, taken, rfl⟩
    · rintro ⟨d, rfl, rfl⟩
      exact d.parse_tokens
  refine ⟨derived, fun underived => ?_, fun d d' first second => ?_⟩
  · cases parsed : Parser.parse tokens with
    | ok e =>
      obtain ⟨d, derives, -⟩ := (derived e).mp parsed
      exact absurd derives (underived d)
    | error fault =>
      unfold Parser.parse at parsed
      split at parsed <;> cases parsed
      exact ⟨_, _, _, rfl⟩
  · exact (d.unique d' closes_finish closes_finish (first.trans second.symm)).1

/-- The tokens of `a || b && !c['k'].d`. -/
def mixed : List Token :=
  [.identifier "a", .or, .identifier "b", .and, .not, .identifier "c", .openBracket,
    .text "k", .closeBracket, .dot, .identifier "d", .finish]

/-- The tokens of `a < b < c`. -/
def chained : List Token :=
  [.identifier "a", .lt, .identifier "b", .lt, .identifier "c", .finish]

theorem parses_what_is_derived_mixed :
    Expr.tokens "a || b && !c['k'].d" = .ok mixed ∧ Sealed mixed ∧
      (∃ d, Derives mixed d ∧ d.expr =
        .binary (.path "a" []) .or (.binary (.path "b" []) .and
          (.not (.path "c" [.key "k", .key "d"]))) ∧ ∀ d', Derives mixed d' → d' = d) ∧
      Sealed chained ∧ ∀ d, ¬ Derives chained d := by
  have seen : (Expr.tokens "a || b && !c['k'].d").toOption = some mixed := by decide +kernel
  have cut : Expr.tokens "a || b && !c['k'].d" = .ok mixed := by
    cases same : Expr.tokens "a || b && !c['k'].d" with
    | error fault => rw [same] at seen; cases seen
    | ok found => rw [same] at seen; rw [Option.some.inj seen]
  have whole : Sealed mixed := parses_what_is_derived.1 _ _ cut
  have whole' : Sealed chained := ⟨chained.dropLast, by decide, rfl⟩
  obtain ⟨parsed, -, unique⟩ := parses_what_is_derived.2 mixed whole
  obtain ⟨d, derives, means⟩ := (parsed _).mp rfl
  refine ⟨cut, whole, ⟨d, derives, means, fun d' other => unique d' d other derives⟩, whole',
    fun d derives => ?_⟩
  have accepted := ((parses_what_is_derived.2 chained whole').1 d.expr).mpr ⟨d, derives, rfl⟩
  cases accepted

end Grammar

end Expr

end DurableFlow
