/-!
# A place in a text

Indentation carries meaning in YAML, so a cursor knows its line and its column besides
what is left of the text.
-/

namespace DurableFlow

namespace Yaml

/-- The characters that a text may contain. -/
def isAllowed (c : Char) : Bool :=
  let n := c.toNat
  n == 9 || n == 10 || n == 13 || (32 ≤ n && n ≤ 126) || n == 0x85 ||
    (0xA0 ≤ n && n != 0xFFFE && n != 0xFFFF)

def isBreak (c : Char) : Bool :=
  c == '\n' || c == '\r' || c.toNat == 0x85 || c.toNat == 0x2028 || c.toNat == 0x2029

def isSpace (c : Char) : Bool := c == ' ' || c == '\t'

/-- The characters of anchors, handles and names of directives. -/
def isWordChar (c : Char) : Bool := c.isAlphanum || c == '_' || c == '-'

/-- A place in a text. -/
structure Cursor where
  rest : List Char
  index : Nat := 0
  line : Nat := 0
  column : Nat := 0
deriving Repr

namespace Cursor

def char? (c : Cursor) : Option Char := c.rest.head?

/-- The character some places ahead. -/
def ahead? (c : Cursor) (n : Nat) : Option Char := c.rest[n]?

def sees (c : Cursor) (wanted : Char) : Bool := c.char? == some wanted

def seesAhead (c : Cursor) (n : Nat) (wanted : Char) : Bool := c.ahead? n == some wanted

def atEnd (c : Cursor) : Bool := c.rest.isEmpty

def atBreak (c : Cursor) : Bool := c.char?.any isBreak

def atSpace (c : Cursor) : Bool := c.char?.any isSpace

/-- Whether the line is over. -/
def atLineEnd (c : Cursor) : Bool := c.atEnd || c.atBreak

/-- Whether no word goes on some places ahead. -/
def endsWordAt (c : Cursor) (n : Nat) : Bool :=
  match c.ahead? n with
  | none => true
  | some ch => isSpace ch || isBreak ch

/-- Behind some characters of the line. -/
def skip (c : Cursor) (n : Nat) : Cursor :=
  { c with rest := c.rest.drop n, index := c.index + n, column := c.column + n }

/-- The characters of the line that satisfy a condition, and the place behind them. -/
def span (p : Char → Bool) (c : Cursor) : List Char × Cursor :=
  let taken := c.rest.takeWhile p
  (taken, c.skip taken.length)

def skipSpaces (c : Cursor) : Cursor := (c.span isSpace).2

/-- Behind the rest of the line. -/
def skipLine (c : Cursor) : Cursor := (c.span fun ch => !isBreak ch).2

/-- The start of the next line, and what the line break between counts as. -/
def nextLine (c : Cursor) : List Char × Cursor :=
  let down (text : List Char) (n : Nat) : List Char × Cursor :=
    (text, { c with rest := c.rest.drop n, index := c.index + n, line := c.line + 1, column := 0 })
  match c.rest with
  | '\r' :: '\n' :: _ => down ['\n'] 2
  | ch :: _ =>
    if ch.toNat == 0x2028 || ch.toNat == 0x2029 then down [ch] 1
    else if isBreak ch then down ['\n'] 1
    else ([], c)
  | [] => ([], c)

/-- Behind a comment, if there is one. -/
def skipComment (c : Cursor) : Cursor := if c.sees '#' then c.skipLine else c

/-- Whether a line starts here with a mark of three characters. -/
def atMark (mark : List Char) (c : Cursor) : Bool :=
  c.column == 0 && mark.isPrefixOf c.rest && c.endsWordAt 3

/-- Whether a document starts or ends here. -/
def atDocumentMark (c : Cursor) : Bool :=
  c.atMark ['-', '-', '-'] || c.atMark ['.', '.', '.']

end Cursor

end Yaml

end DurableFlow
