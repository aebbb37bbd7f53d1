import DurableFlow.Expr.Basic

/-!
# Parsing expressions

From the loosest to the tightest: `||`, `&&`, one comparison, `!` and `-`, then
literals, paths and groups in parentheses. `||` and `&&` group to the left, and
comparisons do not chain.
-/

namespace DurableFlow

namespace Expr

namespace Parser

/-- What stops a parser: what it looked for, what it found, and the tokens after that. -/
structure Fault where
  wanted : Wanted
  found : Token
  rest : List Token

/-- The first token, the end being repeated for ever. -/
def peek : List Token → Token
  | token :: _ => token
  | [] => .finish

/-- The tokens after the first. -/
def drop (tokens : List Token) : List Token := tokens.tail

/-- Give up at the first token, which is not taken. -/
def refuse (wanted : Wanted) (tokens : List Token) : Except Fault α :=
  .error ⟨wanted, peek tokens, tokens⟩

/-- Give up at the first token, having taken it. -/
def refuseTaken (wanted : Wanted) (tokens : List Token) : Except Fault α :=
  .error ⟨wanted, peek tokens, drop tokens⟩

/-- Whole numbers below `2 ^ 63` are integers, and one too large to be held is null. -/
def numberLiteral : Option Binary64 → Data
  | none => .null
  | some x =>
    match x.toInt? with
    | some i => if i.natAbs < 2 ^ (63 : Nat) then .num (.int i) else .num (.float x)
    | none => .num (.float x)

/-- The position that a number in brackets stands for. -/
def indexOf? : Option Binary64 → Option Nat
  | none => none
  | some x =>
    match x.toInt? with
    | some i => if 0 ≤ i then some (min i.toNat (2 ^ (64 : Nat) - 1)) else none
    | none => none

/-- The comparison that a token stands for. -/
def comparison? : Token → Option BinaryOp
  | .eq => some .eq
  | .notEq => some .notEq
  | .lt => some .lt
  | .ltEq => some .ltEq
  | .gt => some .gt
  | .gtEq => some .gtEq
  | .isIn => some .isIn
  | _ => none

/-- The literal that a token stands for. -/
def literal? : Token → Option Data
  | .yes => some (.bool true)
  | .no => some (.bool false)
  | .null => some .null
  | .text s => some (.str s)
  | .number value => some (numberLiteral value)
  | _ => none

/-- The step that a token in brackets stands for. -/
def bracketed? : Token → Option Segment
  | .number value => (indexOf? value).map .index
  | .text key => some (.key key)
  | _ => none

/-- The further steps of a path. -/
def segments : List Token → Except Fault (List Segment × List Token)
  | .dot :: tokens =>
    match tokens with
    | .identifier name :: tokens => do
      let (rest, tokens) ← segments tokens
      .ok (.key name :: rest, tokens)
    | _ => refuseTaken .propertyName tokens
  | .openBracket :: tokens =>
    match tokens with
    | token :: tokens' =>
      match bracketed? token with
      | none => refuseTaken .indexOrKey tokens
      | some segment =>
        match tokens' with
        | .closeBracket :: tokens => do
          let (rest, tokens) ← segments tokens
          .ok (segment :: rest, tokens)
        | _ => refuseTaken .closeBracket tokens'
    | [] => refuseTaken .indexOrKey []
  | tokens => .ok ([], tokens)

mutual

/-- Operands of `||`. -/
def parseOr (fuel : Nat) (tokens : List Token) : Except Fault (Expr × List Token) :=
  match fuel with
  | 0 => refuse .value tokens
  | fuel + 1 => do
    let (left, tokens) ← parseAnd fuel tokens
    moreOr fuel left tokens

/-- Further operands of `||` after those in `left`. -/
def moreOr (fuel : Nat) (left : Expr) (tokens : List Token) :
    Except Fault (Expr × List Token) :=
  match fuel with
  | 0 => refuse .value tokens
  | fuel + 1 =>
    match tokens with
    | .or :: tokens => do
      let (right, tokens) ← parseAnd fuel tokens
      moreOr fuel (.binary left .or right) tokens
    | tokens => .ok (left, tokens)

/-- Operands of `&&`. -/
def parseAnd (fuel : Nat) (tokens : List Token) : Except Fault (Expr × List Token) :=
  match fuel with
  | 0 => refuse .value tokens
  | fuel + 1 => do
    let (left, tokens) ← parseComparison fuel tokens
    moreAnd fuel left tokens

/-- Further operands of `&&` after those in `left`. -/
def moreAnd (fuel : Nat) (left : Expr) (tokens : List Token) :
    Except Fault (Expr × List Token) :=
  match fuel with
  | 0 => refuse .value tokens
  | fuel + 1 =>
    match tokens with
    | .and :: tokens => do
      let (right, tokens) ← parseComparison fuel tokens
      moreAnd fuel (.binary left .and right) tokens
    | tokens => .ok (left, tokens)

/-- One operand, or two with a comparison between them. -/
def parseComparison (fuel : Nat) (tokens : List Token) : Except Fault (Expr × List Token) :=
  match fuel with
  | 0 => refuse .value tokens
  | fuel + 1 => do
    let (left, tokens) ← parseUnary fuel tokens
    match comparison? (peek tokens) with
    | some op => do
      let (right, tokens) ← parseUnary fuel (drop tokens)
      .ok (.binary left op right, tokens)
    | none => .ok (left, tokens)

/-- An operand with any number of `!` and `-` before it. -/
def parseUnary (fuel : Nat) (tokens : List Token) : Except Fault (Expr × List Token) :=
  match fuel with
  | 0 => refuse .value tokens
  | fuel + 1 =>
    match tokens with
    | .not :: tokens => do
      let (operand, tokens) ← parseUnary fuel tokens
      .ok (.not operand, tokens)
    | .minus :: tokens => do
      let (operand, tokens) ← parseUnary fuel tokens
      .ok (.negate operand, tokens)
    | tokens => parsePrimary fuel tokens

/-- A literal, a path or a group. -/
def parsePrimary (fuel : Nat) (tokens : List Token) : Except Fault (Expr × List Token) :=
  match fuel with
  | 0 => refuse .value tokens
  | fuel + 1 =>
    match tokens with
    | .openParen :: tokens => do
      let (inner, tokens) ← parseOr fuel tokens
      match tokens with
      | .closeParen :: tokens => .ok (inner, tokens)
      | tokens => refuseTaken .closeParen tokens
    | .identifier name :: tokens => do
      let (rest, tokens) ← segments tokens
      .ok (.path name rest, tokens)
    | token :: tokens' =>
      match literal? token with
      | some value => .ok (.literal value, tokens')
      | none => refuseTaken .value tokens
    | [] => refuseTaken .value []

end

/-- A whole expression: nothing but the end follows it. -/
def parseAll (tokens : List Token) : Except Fault Expr := do
  let (e, tokens) ← parseOr (8 * tokens.length + 8) tokens
  match peek tokens with
  | .finish => .ok e
  | _ => refuse .finish tokens

/-- The expression of a list of tokens. -/
def parse (tokens : List Token) : Except ExprError Expr :=
  match parseAll tokens with
  | .ok e => .ok e
  | .error fault =>
    .error (.unexpected (tokens.length - fault.rest.length) fault.wanted fault.found)

end Parser

/-- Read an expression. -/
def parse (source : String) : Except ExprError Expr :=
  match tokens source with
  | .error (position, fault) => .error (.lexical position fault)
  | .ok tokens => Parser.parse tokens

end Expr

end DurableFlow
