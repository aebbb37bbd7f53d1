import DurableFlow.Number.Decimal
import DurableFlow.Text.Letters
import DurableFlow.Text.Shown

/-!
# Tokens of expressions

An expression is cut into tokens from the left, each as long as it can be, with white
space between them; the cut ends with a token for the end. Operators have a symbol
and some of them a word as well, which are the same token.
-/

namespace DurableFlow

namespace Expr

/-- The smallest part of an expression that has a meaning. -/
inductive Token where
  | identifier (name : String)
  | text (value : String)
  /-- A number; none when it is too large to be held. -/
  | number (value : Option Binary64)
  | yes
  | no
  | null
  | isIn
  | dot
  | openBracket
  | closeBracket
  | openParen
  | closeParen
  | not
  | minus
  | and
  | or
  | eq
  | notEq
  | lt
  | ltEq
  | gt
  | gtEq
  | finish
deriving DecidableEq, Repr

namespace Token

/-- In messages a number keeps a point, and has an exponent from `10 ^ 16` on and
below `10 ^ -4`. -/
def numberLayout : Binary64.Layout := ⟨some (-4, 16), ".0", ""⟩

def shownNumber : Option Binary64 → String
  | some x => x.text numberLayout
  | none => "inf"

/-- A token as messages show it. -/
def shown : Token → String
  | identifier name => "Identifier(" ++ Text.shown name ++ ")"
  | text value => "String(" ++ Text.shown value ++ ")"
  | number value => "Number(" ++ shownNumber value ++ ")"
  | yes => "True"
  | no => "False"
  | null => "Null"
  | isIn => "In"
  | dot => "Dot"
  | openBracket => "OpenBracket"
  | closeBracket => "CloseBracket"
  | openParen => "OpenParen"
  | closeParen => "CloseParen"
  | not => "Not"
  | minus => "Minus"
  | and => "And"
  | or => "Or"
  | eq => "Eq"
  | notEq => "NotEq"
  | lt => "Lt"
  | ltEq => "LtEq"
  | gt => "Gt"
  | gtEq => "GtEq"
  | finish => "Eof"

end Token

/-- What keeps a text from being cut into tokens. -/
inductive LexFault where
  | unexpected (c : Char)
  /-- An operator that only exists doubled stands alone. -/
  | undoubled (c : Char)
  | unterminated
  | badNumber (digits : String)
deriving DecidableEq, Repr

namespace LexFault

def message : LexFault → String
  | unexpected c => "unexpected character '" ++ c.toString ++ "'"
  | undoubled c => "expected '" ++ c.toString ++ c.toString ++ "'"
  | unterminated => "unterminated string literal"
  | badNumber digits => "invalid number '" ++ digits ++ "'"

end LexFault

namespace Lexer

def isWordStart (c : Char) : Bool := Text.isAlphabetic c || c == '_' || c == '$'

def isWordPart (c : Char) : Bool := Text.isAlphanumeric c || c == '_' || c == '$'

def isNumberPart (c : Char) : Bool := c.isDigit || c == '.' || c == '_'

/-- The token of a word: a keyword or a name. -/
def wordToken (w : String) : Token :=
  match w with
  | "true" => .yes
  | "false" => .no
  | "null" => .null
  | "in" => .isIn
  | "and" => .and
  | "or" => .or
  | "not" => .not
  | _ => .identifier w

/-- The number that digits with at most one point among them stand for. -/
def readNumber (cs : List Char) : Option (Option Binary64) :=
  let whole := cs.takeWhile Char.isDigit
  let digits (ds : List Char) : Nat := ds.foldl (fun n d => n * 10 + (d.toNat - 48)) 0
  match cs.dropWhile Char.isDigit with
  | [] => some (Binary64.ofDecimal false (digits whole) 0)
  | _ :: frac =>
    if frac.all Char.isDigit then
      some (Binary64.ofDecimal false (digits (whole ++ frac)) (-(frac.length : Int)))
    else none

/-- The token of a run of number characters, whose underscores only separate. -/
def numberToken (run : List Char) : Except LexFault Token :=
  let cs := run.filter (· != '_')
  match readNumber cs with
  | some value => .ok (.number value)
  | none => .error (.badNumber (String.ofList cs))

/-- The characters up to the closing quote and what follows it. A backslash takes the
next character as it is, apart from the two letters for a line end and a tab. -/
def quoted (quote : Char) : List Char → Option (List Char × List Char)
  | [] => none
  | ['\\'] => none
  | '\\' :: c :: rest =>
    let c := if c = 'n' then '\n' else if c = 't' then '\t' else c
    (quoted quote rest).map fun (text, rest) => (c :: text, rest)
  | c :: rest =>
    if c = quote then some ([], rest)
    else (quoted quote rest).map fun (text, rest) => (c :: text, rest)

/-- A token that one character makes, or two if the second is there as well. -/
def oneOrTwo (second : Char) (two one : Token) (rest : List Char) : Token × List Char :=
  match rest with
  | c :: rest' => if c = second then (two, rest') else (one, rest)
  | [] => (one, [])

/-- A token that a doubled character makes. -/
def doubled (c : Char) (token : Token) (rest : List Char) :
    Except LexFault (Token × List Char) :=
  match rest with
  | d :: rest => if d = c then .ok (token, rest) else .error (.undoubled c)
  | [] => .error (.undoubled c)

/-- The token at the start of a text that begins with the character `c`. -/
def next (c : Char) (rest : List Char) : Except LexFault (Token × List Char) :=
  match c with
  | '.' => .ok (.dot, rest)
  | '[' => .ok (.openBracket, rest)
  | ']' => .ok (.closeBracket, rest)
  | '(' => .ok (.openParen, rest)
  | ')' => .ok (.closeParen, rest)
  | '-' => .ok (.minus, rest)
  | '!' => .ok (oneOrTwo '=' .notEq .not rest)
  | '<' => .ok (oneOrTwo '=' .ltEq .lt rest)
  | '>' => .ok (oneOrTwo '=' .gtEq .gt rest)
  | '=' => doubled '=' .eq rest
  | '&' => doubled '&' .and rest
  | '|' => doubled '|' .or rest
  | c =>
    if c = '"' ∨ c = '\'' then
      match quoted c rest with
      | some (text, rest) => .ok (.text (String.ofList text), rest)
      | none => .error .unterminated
    else if c.isDigit then
      match numberToken (c :: rest.takeWhile isNumberPart) with
      | .ok token => .ok (token, rest.dropWhile isNumberPart)
      | .error fault => .error fault
    else if isWordStart c then
      .ok (wordToken (String.ofList (c :: rest.takeWhile isWordPart)),
        rest.dropWhile isWordPart)
    else .error (.unexpected c)

/-- The tokens of the rest of a text; `position` counts the characters before it. -/
def run (fuel : Nat) (position : Nat) (cs : List Char) :
    Except (Nat × LexFault) (List Token) :=
  match fuel with
  | 0 => .ok [.finish]
  | fuel + 1 =>
    let here := cs.dropWhile Text.isBlank
    let position := position + (cs.length - here.length)
    match here with
    | [] => .ok [.finish]
    | c :: rest =>
      match next c rest with
      | .error fault => .error (position, fault)
      | .ok (token, rest') =>
        match run fuel (position + 1 + (rest.length - rest'.length)) rest' with
        | .error e => .error e
        | .ok tokens => .ok (token :: tokens)

end Lexer

/-- The tokens of a text, or the position of the character where no token starts. -/
def tokens (source : String) : Except (Nat × LexFault) (List Token) :=
  Lexer.run (source.length + 1) 0 source.toList

end Expr

end DurableFlow
