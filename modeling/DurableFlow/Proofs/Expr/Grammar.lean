import DurableFlow.Expr.Parser

/-!
# The grammar of expressions

The grammar as derivation trees, with one type for each of its rules:

* a disjunction is a conjunction and any number of further ones, each after `||`;
* a conjunction is a comparison and any number of further ones, each after `&&`;
* a comparison is one operand, or two with a comparing operator between them;
* an operand is a primary with any number of `!` and `-` before it;
* a primary is a literal, a disjunction in parentheses, or a path.

A tree says which tokens it derives and which expression it stands for. What a number has to
satisfy at its place is part of the tree, so that there are no other trees than derivations.

No tokens have two derivations. A tree ends where a token stands that does not go on with it:
`Token.binds` says for each token which rules it goes on with, and two trees that derive the
beginnings of one list of tokens, both as far as they can, are the same.
-/

namespace DurableFlow

namespace Expr

/-- The loosest rule that a token goes on with: paths, comparisons, conjunctions and
disjunctions in this order, or none of them. -/
def Token.binds : Token → Nat
  | .dot | .openBracket => 0
  | .eq | .notEq | .lt | .ltEq | .gt | .gtEq | .isIn => 1
  | .and => 2
  | .or => 3
  | _ => 4

namespace Grammar

/-- A literal. A whole number is held as an integer if it has less than 64 bits. -/
inductive Literal where
  | yes
  | no
  | null
  | text (value : String)
  | integer (x : Binary64) (i : Int) (whole : x.toInt? = some i) (small : i.natAbs < 2 ^ (63 : Nat))
  | float (x : Binary64) (other : ∀ i, x.toInt? = some i → 2 ^ (63 : Nat) ≤ i.natAbs)
  /-- A number that is too large to be held. -/
  | beyond

namespace Literal

def token : Literal → Token
  | yes => .yes
  | no => .no
  | null => .null
  | text value => .text value
  | integer x .. => .number (some x)
  | float x _ => .number (some x)
  | beyond => .number none

def data : Literal → Data
  | yes => .bool true
  | no => .bool false
  | null => .null
  | text value => .str value
  | integer _ i .. => .num (.int i)
  | float x _ => .num (.float x)
  | beyond => .null

end Literal

/-- An operator that compares. -/
inductive Comparator where
  | eq
  | notEq
  | lt
  | ltEq
  | gt
  | gtEq
  | isIn

namespace Comparator

def token : Comparator → Token
  | eq => .eq
  | notEq => .notEq
  | lt => .lt
  | ltEq => .ltEq
  | gt => .gt
  | gtEq => .gtEq
  | isIn => .isIn

def op : Comparator → BinaryOp
  | eq => .eq
  | notEq => .notEq
  | lt => .lt
  | ltEq => .ltEq
  | gt => .gt
  | gtEq => .gtEq
  | isIn => .isIn

end Comparator

/-- A step of a path: a name after a point, or a whole number or a text in brackets. -/
inductive Suffix where
  | property (name : String)
  | index (x : Binary64) (position : Nat) (whole : x.toInt? = some (position : Int))
  | key (name : String)

namespace Suffix

def tokens : Suffix → List Token
  | property name => [.dot, .identifier name]
  | index x .. => [.openBracket, .number (some x), .closeBracket]
  | key name => [.openBracket, .text name, .closeBracket]

/-- Positions end where words of 64 bits end. -/
def segment : Suffix → Segment
  | property name => .key name
  | index _ position _ => .index (min position (2 ^ (64 : Nat) - 1))
  | key name => .key name

end Suffix

mutual

inductive Disjunction where
  | of (first : Conjunction) (more : Disjuncts)

/-- Further operands of `||`. -/
inductive Disjuncts where
  | none
  | then (next : Conjunction) (more : Disjuncts)

inductive Conjunction where
  | of (first : Comparison) (more : Conjuncts)

/-- Further operands of `&&`. -/
inductive Conjuncts where
  | none
  | then (next : Comparison) (more : Conjuncts)

inductive Comparison where
  | operand (operand : Unary)
  | compare (left : Unary) (comparator : Comparator) (right : Unary)

inductive Unary where
  | not (operand : Unary)
  | minus (operand : Unary)
  | primary (primary : Primary)

inductive Primary where
  | literal (literal : Literal)
  | group (inner : Disjunction)
  | path (head : String) (suffixes : List Suffix)

end

section Yield

mutual

/-- The tokens that a tree derives. -/
def Disjunction.tokens : Disjunction → List Token
  | .of first more => first.tokens ++ more.tokens

def Disjuncts.tokens : Disjuncts → List Token
  | .none => []
  | .then next more => .or :: (next.tokens ++ more.tokens)

def Conjunction.tokens : Conjunction → List Token
  | .of first more => first.tokens ++ more.tokens

def Conjuncts.tokens : Conjuncts → List Token
  | .none => []
  | .then next more => .and :: (next.tokens ++ more.tokens)

def Comparison.tokens : Comparison → List Token
  | .operand u => u.tokens
  | .compare left comparator right => left.tokens ++ comparator.token :: right.tokens

def Unary.tokens : Unary → List Token
  | .not u => .not :: u.tokens
  | .minus u => .minus :: u.tokens
  | .primary p => p.tokens

def Primary.tokens : Primary → List Token
  | .literal l => [l.token]
  | .group d => .openParen :: (d.tokens ++ [.closeParen])
  | .path head suffixes => .identifier head :: suffixes.flatMap Suffix.tokens

end

mutual

/-- The expression that a tree stands for. Both `||` and `&&` group to the left. -/
def Disjunction.expr : Disjunction → Expr
  | .of first more => more.onto first.expr

def Disjuncts.onto : Disjuncts → Expr → Expr
  | .none, left => left
  | .then next more, left => more.onto (.binary left .or next.expr)

def Conjunction.expr : Conjunction → Expr
  | .of first more => more.onto first.expr

def Conjuncts.onto : Conjuncts → Expr → Expr
  | .none, left => left
  | .then next more, left => more.onto (.binary left .and next.expr)

def Comparison.expr : Comparison → Expr
  | .operand u => u.expr
  | .compare left comparator right => .binary left.expr comparator.op right.expr

def Unary.expr : Unary → Expr
  | .not u => .not u.expr
  | .minus u => .negate u.expr
  | .primary p => p.expr

def Primary.expr : Primary → Expr
  | .literal l => .literal l.data
  | .group d => d.expr
  | .path head suffixes => .path head (suffixes.map Suffix.segment)

end

end Yield

/-- What follows a tree of a rule: it starts with no token that would go on with the tree. -/
def Closes (rule : Nat) (rest : List Token) : Prop := rule < (Parser.peek rest).binds

@[simp] theorem closes_cons {rule : Nat} {token : Token} {rest : List Token} :
    Closes rule (token :: rest) ↔ rule < token.binds := Iff.rfl

theorem Closes.mono {rule tighter : Nat} {rest : List Token} (h : Closes rule rest)
    (le : tighter ≤ rule) : Closes tighter rest := Nat.lt_of_le_of_lt le h

theorem Comparator.binds_token (c : Comparator) : c.token.binds = 1 := by cases c <;> rfl

/-- What follows the operands of a conjunction, followed by `rest`. -/
theorem Conjuncts.closes {rest : List Token} (h : Closes 2 rest) (more : Conjuncts) :
    Closes 1 (more.tokens ++ rest) := by
  cases more with
  | none => exact h.mono (by decide)
  | «then» next more => exact (by decide : 1 < 2)

theorem Disjuncts.closes {rest : List Token} (h : Closes 3 rest) (more : Disjuncts) :
    Closes 2 (more.tokens ++ rest) := by
  cases more with
  | none => exact h.mono (by decide)
  | «then» next more => exact (by decide : 2 < 3)

theorem closes_closeParen (rest : List Token) : Closes 3 (.closeParen :: rest) :=
  (by decide : 3 < 4)

theorem closes_finish : Closes 3 [.finish] := (by decide : 3 < 4)

section Unique

theorem Literal.token_injective {l l' : Literal} (h : l.token = l'.token) : l = l' := by
  cases l with
  | integer x i whole small =>
    cases l' with
    | integer x' i' whole' small' =>
      cases h
      obtain rfl : i = i' := Option.some.inj (whole.symm.trans whole')
      rfl
    | float x' other =>
      cases h
      exact absurd (other i whole) (Nat.not_le.mpr small)
    | _ => cases h
  | float x other =>
    cases l' with
    | integer x' i whole small =>
      cases h
      exact absurd (other i whole) (Nat.not_le.mpr small)
    | float x' other' =>
      cases h
      rfl
    | _ => cases h
  | _ =>
    cases l' <;> cases h
    rfl

theorem Comparator.token_injective {c c' : Comparator} (h : c.token = c'.token) : c = c' := by
  cases c <;> cases c' <;> first | rfl | cases h

/-- Two paths from one place on that both go on as far as they can. -/
theorem suffixes_unique {suffixes suffixes' : List Suffix} {rest rest' : List Token}
    (closed : Closes 0 rest) (closed' : Closes 0 rest')
    (same : suffixes.flatMap Suffix.tokens ++ rest = suffixes'.flatMap Suffix.tokens ++ rest') :
    suffixes = suffixes' ∧ rest = rest' := by
  -- A step begins with a token that no rest begins with.
  have ends : ∀ (suffix : Suffix) (steps : List Suffix) (rest rest' : List Token),
      Closes 0 rest → rest ≠ (suffix :: steps).flatMap Suffix.tokens ++ rest' := by
    rintro suffix steps rest rest' closed rfl
    cases suffix <;> exact absurd closed (by decide : ¬ 0 < 0)
  induction suffixes generalizing suffixes' with
  | nil =>
    cases suffixes' with
    | nil => exact ⟨rfl, same⟩
    | cons suffix steps => exact absurd same (ends suffix steps _ _ closed)
  | cons suffix steps ih =>
    cases suffixes' with
    | nil => exact absurd same.symm (ends suffix steps _ _ closed')
    | cons suffix' steps' =>
      cases suffix <;> cases suffix' <;>
        simp only [List.flatMap_cons, Suffix.tokens, List.cons_append, List.nil_append,
          List.cons.injEq, Token.identifier.injEq, Token.text.injEq, Token.number.injEq,
          Option.some.injEq, reduceCtorEq, true_and, false_and] at same
      case property.property name name' =>
        obtain ⟨rfl, rfl⟩ := ih same.2
        exact ⟨by rw [same.1], rfl⟩
      case index.index x position whole x' position' whole' =>
        obtain ⟨rfl, same⟩ := same
        obtain ⟨rfl, rfl⟩ := ih same
        obtain rfl : position = position' := by
          have : (position : Int) = position' := Option.some.inj (whole.symm.trans whole')
          omega
        exact ⟨rfl, rfl⟩
      case key.key name name' =>
        obtain ⟨rfl, rfl⟩ := ih same.2
        exact ⟨by rw [same.1], rfl⟩

theorem Literal.closes (l : Literal) (rest : List Token) : Closes 3 (l.token :: rest) := by
  cases l <;> exact (by decide : 3 < 4)

/-- A primary starts with no sign. -/
theorem Primary.tokens_ne (p : Primary) (rest tokens : List Token) :
    p.tokens ++ rest ≠ .not :: tokens ∧ p.tokens ++ rest ≠ .minus :: tokens := by
  cases p with
  | literal l => cases l <;> simp [Primary.tokens, Literal.token]
  | group d => simp [Primary.tokens]
  | path head suffixes => simp [Primary.tokens]

mutual

/-- Of two trees that derive the beginnings of the same tokens, both as far as they can, neither
goes further than the other, and both are the same. -/
theorem Disjunction.unique (d d' : Disjunction) {rest rest' : List Token}
    (closed : Closes 3 rest) (closed' : Closes 3 rest')
    (same : d.tokens ++ rest = d'.tokens ++ rest') : d = d' ∧ rest = rest' := by
  obtain ⟨first, more⟩ := d
  obtain ⟨first', more'⟩ := d'
  simp only [Disjunction.tokens, List.append_assoc] at same
  obtain ⟨rfl, later⟩ := first.unique first' (more.closes closed) (more'.closes closed') same
  obtain ⟨rfl, ends⟩ := more.unique more' closed closed' later
  exact ⟨rfl, ends⟩
termination_by structural d

theorem Disjuncts.unique (ds ds' : Disjuncts) {rest rest' : List Token}
    (closed : Closes 3 rest) (closed' : Closes 3 rest')
    (same : ds.tokens ++ rest = ds'.tokens ++ rest') : ds = ds' ∧ rest = rest' := by
  cases ds with
  | none =>
    cases ds' with
    | none => exact ⟨rfl, same⟩
    | «then» next more =>
      obtain rfl : rest = _ := same
      exact absurd closed (by decide : ¬ 3 < 3)
  | «then» next more =>
    cases ds' with
    | none =>
      obtain rfl : _ = rest' := same
      exact absurd closed' (by decide : ¬ 3 < 3)
    | «then» next' more' =>
      simp only [Disjuncts.tokens, List.cons_append, List.append_assoc, List.cons.injEq,
        true_and] at same
      obtain ⟨rfl, later⟩ := next.unique next' (more.closes closed) (more'.closes closed') same
      obtain ⟨rfl, ends⟩ := more.unique more' closed closed' later
      exact ⟨rfl, ends⟩
termination_by structural ds

theorem Conjunction.unique (c c' : Conjunction) {rest rest' : List Token}
    (closed : Closes 2 rest) (closed' : Closes 2 rest')
    (same : c.tokens ++ rest = c'.tokens ++ rest') : c = c' ∧ rest = rest' := by
  obtain ⟨first, more⟩ := c
  obtain ⟨first', more'⟩ := c'
  simp only [Conjunction.tokens, List.append_assoc] at same
  obtain ⟨rfl, later⟩ := first.unique first' (more.closes closed) (more'.closes closed') same
  obtain ⟨rfl, ends⟩ := more.unique more' closed closed' later
  exact ⟨rfl, ends⟩
termination_by structural c

theorem Conjuncts.unique (cs cs' : Conjuncts) {rest rest' : List Token}
    (closed : Closes 2 rest) (closed' : Closes 2 rest')
    (same : cs.tokens ++ rest = cs'.tokens ++ rest') : cs = cs' ∧ rest = rest' := by
  cases cs with
  | none =>
    cases cs' with
    | none => exact ⟨rfl, same⟩
    | «then» next more =>
      obtain rfl : rest = _ := same
      exact absurd closed (by decide : ¬ 2 < 2)
  | «then» next more =>
    cases cs' with
    | none =>
      obtain rfl : _ = rest' := same
      exact absurd closed' (by decide : ¬ 2 < 2)
    | «then» next' more' =>
      simp only [Conjuncts.tokens, List.cons_append, List.append_assoc, List.cons.injEq,
        true_and] at same
      obtain ⟨rfl, later⟩ := next.unique next' (more.closes closed) (more'.closes closed') same
      obtain ⟨rfl, ends⟩ := more.unique more' closed closed' later
      exact ⟨rfl, ends⟩
termination_by structural cs

theorem Comparison.unique (c c' : Comparison) {rest rest' : List Token}
    (closed : Closes 1 rest) (closed' : Closes 1 rest')
    (same : c.tokens ++ rest = c'.tokens ++ rest') : c = c' ∧ rest = rest' := by
  have after : ∀ (op : Comparator) (tokens : List Token), Closes 0 (op.token :: tokens) :=
    fun op tokens => by rw [closes_cons, op.binds_token]; decide
  have stops : ∀ (op : Comparator) (tokens : List Token), ¬ Closes 1 (op.token :: tokens) :=
    fun op tokens => by rw [closes_cons, op.binds_token]; decide
  cases c with
  | operand u =>
    cases c' with
    | operand u' =>
      obtain ⟨rfl, ends⟩ := u.unique u' (closed.mono (by decide)) (closed'.mono (by decide)) same
      exact ⟨rfl, ends⟩
    | compare left op right =>
      simp only [Comparison.tokens, List.append_assoc, List.cons_append] at same
      obtain ⟨-, rfl⟩ := u.unique left (closed.mono (by decide)) (after op _) same
      exact absurd closed (stops op _)
  | compare left op right =>
    simp only [Comparison.tokens, List.append_assoc, List.cons_append] at same
    cases c' with
    | operand u =>
      obtain ⟨-, rfl⟩ := left.unique u (after op _) (closed'.mono (by decide)) same
      exact absurd closed' (stops op _)
    | compare left' op' right' =>
      simp only [Comparison.tokens, List.append_assoc, List.cons_append] at same
      obtain ⟨rfl, later⟩ := left.unique left' (after op _) (after op' _) same
      obtain ⟨ops, operands⟩ := List.cons.inj later
      obtain rfl := Comparator.token_injective ops
      obtain ⟨rfl, ends⟩ :=
        right.unique right' (closed.mono (by decide)) (closed'.mono (by decide)) operands
      exact ⟨rfl, ends⟩
termination_by structural c

theorem Unary.unique (u u' : Unary) {rest rest' : List Token}
    (closed : Closes 0 rest) (closed' : Closes 0 rest')
    (same : u.tokens ++ rest = u'.tokens ++ rest') : u = u' ∧ rest = rest' := by
  cases u with
  | not v =>
    cases u' with
    | not v' =>
      obtain ⟨rfl, ends⟩ := v.unique v' closed closed' (List.cons.inj same).2
      exact ⟨rfl, ends⟩
    | minus v' => cases same
    | primary p => exact absurd same.symm (p.tokens_ne _ _).1
  | minus v =>
    cases u' with
    | not v' => cases same
    | minus v' =>
      obtain ⟨rfl, ends⟩ := v.unique v' closed closed' (List.cons.inj same).2
      exact ⟨rfl, ends⟩
    | primary p => exact absurd same.symm (p.tokens_ne _ _).2
  | primary p =>
    cases u' with
    | not v' => exact absurd same (p.tokens_ne _ _).1
    | minus v' => exact absurd same (p.tokens_ne _ _).2
    | primary p' =>
      obtain ⟨rfl, ends⟩ := p.unique p' closed closed' same
      exact ⟨rfl, ends⟩
termination_by structural u

theorem Primary.unique (p p' : Primary) {rest rest' : List Token}
    (closed : Closes 0 rest) (closed' : Closes 0 rest')
    (same : p.tokens ++ rest = p'.tokens ++ rest') : p = p' ∧ rest = rest' := by
  cases p with
  | literal l =>
    cases p' with
    | literal l' =>
      obtain ⟨tokens, ends⟩ := List.cons.inj same
      obtain rfl := Literal.token_injective tokens
      exact ⟨rfl, ends⟩
    | _ => cases l <;> cases same
  | group d =>
    cases p' with
    | literal l => cases l <;> cases same
    | group d' =>
      simp only [Primary.tokens, List.cons_append, List.append_assoc, List.nil_append,
        List.cons.injEq, true_and] at same
      obtain ⟨rfl, ends⟩ := d.unique d' (closes_closeParen _) (closes_closeParen _) same
      exact ⟨rfl, (List.cons.inj ends).2⟩
    | path head suffixes => cases same
  | path head suffixes =>
    cases p' with
    | literal l => cases l <;> cases same
    | group d => cases same
    | path head' suffixes' =>
      simp only [Primary.tokens, List.cons_append, List.cons.injEq,
        Token.identifier.injEq] at same
      obtain ⟨rfl, steps⟩ := same
      obtain ⟨rfl, ends⟩ := suffixes_unique closed closed' steps
      exact ⟨rfl, ends⟩
termination_by structural p

end

end Unique

end Grammar

end Expr

end DurableFlow
