import DurableFlow.Expr.Eval

/-!
# Writing expressions

What a text of an expression looks like. An expression is written as words, one for each token,
and the words are set with white space between them. How tightly a form binds decides where
parentheses have to stand:

* 0, what `||` joins;
* 1, what `&&` joins;
* 2, a comparison;
* 3, an operand with the signs before it;
* 4, a literal, a path, or anything in parentheses.

A form that binds more tightly than it has to is written as it is, and parentheses may stand around
any expression, whether they are needed or not.
-/

namespace DurableFlow

namespace Expr

namespace Writing

section Words

/-- The characters that texts may be quoted with. -/
def quotes : List Char := ['"', '\'']

/-- Characters with a backslash before each backslash and each quote of the kind around them. -/
def escaped (quote : Char) (cs : List Char) : List Char :=
  cs.flatMap fun c => if c = '\\' ∨ c = quote then ['\\', c] else [c]

/-- A text in quotes. -/
def quotation (quote : Char) (s : String) : List Char :=
  quote :: (escaped quote s.toList ++ [quote])

/-- A number in decimal. -/
def digits (n : Nat) : List Char := Nat.toDigits 10 n

/-- The words that are no names. -/
def keywords : List String := ["true", "false", "null", "in", "and", "or", "not"]

def isNameStart (c : Char) : Bool := c.isAlpha || c == '_' || c == '$'

def isNamePart (c : Char) : Bool := c.isAlphanum || c == '_' || c == '$'

/-- A name of ASCII letters, digits, `_` and `$`. -/
structure IsName (s : String) : Prop where
  shape : ∃ c cs, s.toList = c :: cs ∧ isNameStart c = true ∧ ∀ d ∈ cs, isNamePart d = true
  free : s ∉ keywords

end Words

section Operators

/-- The words for an operator. -/
def spellings : BinaryOp → List String
  | .and => ["&&", "and"]
  | .or => ["||", "or"]
  | .eq => ["=="]
  | .notEq => ["!="]
  | .lt => ["<"]
  | .ltEq => ["<="]
  | .gt => [">"]
  | .gtEq => [">="]
  | .isIn => ["in"]

/-- The words for the negation of truth. -/
def negations : List String := ["!", "not"]

/-- How tightly an operator with its operands binds. -/
def strength : BinaryOp → Nat
  | .or => 0
  | .and => 1
  | _ => 2

/-- How tightly the operand before an operator binds at least. `||` and `&&` group to the left,
and comparisons do not group at all. -/
def before : BinaryOp → Nat
  | .or => 0
  | .and => 1
  | _ => 3

/-- How tightly the operand behind an operator binds at least. -/
def behind : BinaryOp → Nat
  | .or => 1
  | .and => 2
  | _ => 3

end Operators

/-- The words for the further steps of a path: keys in brackets and quotes or, if they are names,
behind a point, and positions in brackets. -/
inductive Steps : List Segment → List (List Char) → Prop where
  | none : Steps [] []
  | key {rest words} (name : String) (quote : Char) (known : quote ∈ quotes)
      (more : Steps rest words) :
      Steps (.key name :: rest) (['['] :: quotation quote name :: [']'] :: words)
  | property {rest words} {name : String} (named : IsName name) (more : Steps rest words) :
      Steps (.key name :: rest) (['.'] :: name.toList :: words)
  | index {rest words} {n : Nat} (small : n < 2 ^ (53 : Nat)) (more : Steps rest words) :
      Steps (.index n :: rest) (['['] :: digits n :: [']'] :: words)

/-- The words for an expression, in a place where it has to bind with some strength. -/
inductive Words : Nat → Expr → List (List Char) → Prop where
  | null : Words 4 (.literal .null) ["null".toList]
  | bool (b : Bool) : Words 4 (.literal (.bool b)) [(toString b).toList]
  | text (s : String) (quote : Char) (known : quote ∈ quotes) :
      Words 4 (.literal (.str s)) [quotation quote s]
  | integer {n : Nat} (small : n < 2 ^ (53 : Nat)) : Words 4 (.literal (.num (.int n))) [digits n]
  | path {head : String} {rest words} (named : IsName head) (steps : Steps rest words) :
      Words 4 (.path head rest) (head.toList :: words)
  | group {e words} (inner : Words 0 e words) : Words 4 e (['('] :: (words ++ [[')']]))
  | not {e words} (spelling : String) (known : spelling ∈ negations)
      (operand : Words 3 e words) : Words 3 (.not e) (spelling.toList :: words)
  | negate {e words} (operand : Words 3 e words) : Words 3 (.negate e) (['-'] :: words)
  | binary {left right words words'} (op : BinaryOp) (spelling : String)
      (known : spelling ∈ spellings op) (first : Words (before op) left words)
      (second : Words (behind op) right words') :
      Words (strength op) (.binary left op right) (words ++ spelling.toList :: words')
  | loose {level e words} (tight : Words (level + 1) e words) : Words level e words

/-- Words in a row with white space before, between and after them, of which only that between
two words has to be there. -/
inductive Spaced : List (List Char) → List Char → Prop where
  | none {gap : List Char} (blank : ∀ c ∈ gap, Text.isBlank c = true) : Spaced [] gap
  | last (gap word : List Char) (blank : ∀ c ∈ gap, Text.isBlank c = true) :
      Spaced [word] (gap ++ word)
  | more {text : List Char} {words : List (List Char)} (gap word : List Char) (b : Char)
      (blank : ∀ c ∈ gap, Text.isBlank c = true) (between : Text.isBlank b = true)
      (rest : Spaced words text) : Spaced (word :: words) (gap ++ word ++ b :: text)

/-- A text of an expression. -/
def Written (e : Expr) (text : String) : Prop :=
  ∃ words, Words 0 e words ∧ Spaced words text.toList

end Writing

section Writable

/-- Literals that have a text: no fractions, no numbers that only a sign could write, and none that
a float could not hold. -/
def Plain : Data → Prop
  | .null => True
  | .bool _ => True
  | .str _ => True
  | .num (.int i) => 0 ≤ i ∧ i < 2 ^ (53 : Nat)
  | _ => False

/-- Steps that have a text. -/
def Near : Segment → Prop
  | .key _ => True
  | .index n => n < 2 ^ (53 : Nat)

/-- The expressions that have a text. -/
def Writable : Expr → Prop
  | .literal value => Plain value
  | .path head rest => Writing.IsName head ∧ ∀ step ∈ rest, Near step
  | .not operand => operand.Writable
  | .negate operand => operand.Writable
  | .binary left _ right => left.Writable ∧ right.Writable

end Writable

namespace Writing

theorem Words.mono {level level' : Nat} {e : Expr} {words : List (List Char)}
    (h : Words level e words) (le : level' ≤ level) : Words level' e words := by
  induction le with
  | refl => exact h
  | step le ih => exact ih h.loose

/-- Whatever is written somewhere is written anywhere in parentheses. -/
theorem Words.parenthesized {level : Nat} {e : Expr} {words : List (List Char)}
    (h : Words level e words) : Words 4 e (['('] :: (words ++ [[')']])) :=
  .group (h.mono level.zero_le)

theorem exists_steps {steps : List Segment} (near : ∀ step ∈ steps, Near step) :
    ∃ words, Steps steps words := by
  induction steps with
  | nil => exact ⟨[], .none⟩
  | cons step rest ih =>
    obtain ⟨words, more⟩ := ih fun s member => near s (List.mem_cons_of_mem _ member)
    cases step with
    | key name => exact ⟨_, .key name '"' List.mem_cons_self more⟩
    | index n => exact ⟨_, .index (near _ List.mem_cons_self) more⟩

/-- With parentheses around every operand that has some operator, there are words for everything. -/
theorem exists_words {e : Expr} (h : e.Writable) : ∃ words, Words 4 e words := by
  induction e with
  | literal value =>
    cases value with
    | null => exact ⟨_, .null⟩
    | bool b => exact ⟨_, .bool b⟩
    | str s => exact ⟨_, .text s '"' List.mem_cons_self⟩
    | num x =>
      cases x with
      | int i =>
        obtain ⟨positive, small⟩ : 0 ≤ i ∧ i < 2 ^ (53 : Nat) := h
        obtain ⟨n, rfl⟩ := Int.eq_ofNat_of_zero_le positive
        exact ⟨_, .integer (n := n) (by omega)⟩
      | float x => exact h.elim
    | arr items => exact h.elim
    | obj fields => exact h.elim
  | path head rest =>
    obtain ⟨words, steps⟩ := exists_steps h.2
    exact ⟨_, .path h.1 steps⟩
  | not operand ih =>
    obtain ⟨words, inner⟩ := ih h
    exact ⟨_, (Words.not "!" List.mem_cons_self (inner.mono (by decide))).parenthesized⟩
  | negate operand ih =>
    obtain ⟨words, inner⟩ := ih h
    exact ⟨_, (Words.negate (inner.mono (by decide))).parenthesized⟩
  | binary left op right ihLeft ihRight =>
    obtain ⟨words, first⟩ := ihLeft h.1
    obtain ⟨words', second⟩ := ihRight h.2
    obtain ⟨spelling, known⟩ : ∃ spelling, spelling ∈ spellings op := by
      cases op <;> exact ⟨_, List.mem_cons_self⟩
    have binds : before op ≤ 4 ∧ behind op ≤ 4 := by cases op <;> decide
    exact ⟨_, (Words.binary op spelling known (first.mono binds.1)
      (second.mono binds.2)).parenthesized⟩

theorem exists_spaced (words : List (List Char)) : ∃ text, Spaced words text := by
  induction words with
  | nil => exact ⟨[], .none nofun⟩
  | cons word words ih =>
    obtain ⟨text, rest⟩ := ih
    exact ⟨_, .more [] word ' ' nofun (by decide +kernel) rest⟩

/-- Every expression of the kind has a text. -/
theorem exists_written {e : Expr} (h : e.Writable) : ∃ text, Written e text := by
  obtain ⟨words, tight⟩ := exists_words h
  obtain ⟨text, spaced⟩ := exists_spaced words
  exact ⟨String.ofList text, words, tight.mono (by decide), by rwa [String.toList_ofList]⟩

theorem Steps.near {steps : List Segment} {words : List (List Char)} (h : Steps steps words) :
    ∀ step ∈ steps, Near step := by
  induction h with
  | none => exact nofun
  | key name quote known more ih => exact List.forall_mem_cons.mpr ⟨trivial, ih⟩
  | property named more ih => exact List.forall_mem_cons.mpr ⟨trivial, ih⟩
  | index small more ih => exact List.forall_mem_cons.mpr ⟨small, ih⟩

theorem Words.writable {level : Nat} {e : Expr} {words : List (List Char)}
    (h : Words level e words) : e.Writable := by
  induction h with
  | null => exact trivial
  | bool b => exact trivial
  | text s quote known => exact trivial
  | integer small => exact ⟨Int.natCast_nonneg _, by omega⟩
  | path named steps => exact ⟨named, steps.near⟩
  | group inner ih => exact ih
  | not spelling known operand ih => exact ih
  | negate operand ih => exact ih
  | binary op spelling known first second ihFirst ihSecond => exact ⟨ihFirst, ihSecond⟩
  | loose tight ih => exact ih

end Writing

end Expr

end DurableFlow
