import DurableFlow.Yaml.Cursor

/-!
# Scalars

The texts of plain, quoted and block scalars. Blanks and line breaks within a scalar are
folded: a single line break between words counts as a space, several count as one less.
-/

namespace DurableFlow

namespace Yaml

/-- What lies between two words of a scalar. -/
structure Gap where
  /-- Blanks before the first line break. -/
  blanks : List Char := []
  /-- The first line break. -/
  first : List Char := []
  /-- The other line breaks. -/
  others : List Char := []
  hasBreak : Bool := false

namespace Gap

def isEmpty (gap : Gap) : Bool := gap.blanks.isEmpty && !gap.hasBreak

/-- Blanks at the start of a line do not count. -/
def blank (gap : Gap) (c : Char) : Gap :=
  if gap.hasBreak then gap else { gap with blanks := gap.blanks ++ [c] }

def lineBreak (gap : Gap) (text : List Char) : Gap :=
  if gap.hasBreak then { gap with others := gap.others ++ text }
  else { first := text, hasBreak := true }

/-- A gap that starts with an escaped line break. -/
def escaped : Gap := { hasBreak := true }

/-- What a gap counts as. -/
def text (gap : Gap) : List Char :=
  if gap.hasBreak then
    if gap.first = ['\n'] then (if gap.others.isEmpty then [' '] else gap.others)
    else gap.first ++ gap.others
  else gap.blanks

end Gap

/-- Whether a plain scalar ends before the next character. -/
def endsPlain (inFlow : Bool) (c : Cursor) : Bool :=
  (c.sees ':' && c.endsWordAt 1) ||
    (inFlow && c.char?.any fun ch => ch ∈ [',', '[', ']', '{', '}'])

/-- A colon that neither ends a plain scalar nor belongs to it. -/
def misplacedColon (inFlow : Bool) (c : Cursor) : Bool :=
  inFlow && c.sees ':' && (c.ahead? 1).any fun ch => ch ∈ [',', '?', '[', ']', '{', '}']

/-- A plain scalar: its text in reverse, the gap behind it, and the place behind that. Its
further lines have to be indented by `indent`, unless it stands in a flow collection. -/
def plain (fuel : Nat) (inFlow : Bool) (indent : Int) (done : List Char) (gap : Gap)
    (c : Cursor) : Option (List Char × Gap × Cursor) :=
  match fuel with
  | 0 => none
  | fuel + 1 =>
    match c.char? with
    | none => some (done, gap, c)
    | some ch =>
      if isSpace ch then
        if gap.hasBreak && c.column < indent && ch == '\t' then none
        else plain fuel inFlow indent done (gap.blank ch) (c.skip 1)
      else if isBreak ch then
        let (text, c) := c.nextLine
        plain fuel inFlow indent done (gap.lineBreak text) c
      else if !gap.isEmpty && ((!inFlow && c.column < indent) || c.atDocumentMark || ch == '#') then
        some (done, gap, c)
      else if misplacedColon inFlow c then none
      else if endsPlain inFlow c then some (done, gap, c)
      else plain fuel inFlow indent (ch :: (gap.text.reverse ++ done)) {} (c.skip 1)

/-- A hexadecimal number of a given count of digits. -/
def hexNumber? (digits : List Char) (count : Nat) : Option Nat :=
  if digits.length = count then
    digits.foldlM (fun n c =>
      if c.isDigit then some (n * 16 + (c.toNat - 48))
      else if 'a' ≤ c ∧ c ≤ 'f' then some (n * 16 + (c.toNat - 87))
      else if 'A' ≤ c ∧ c ≤ 'F' then some (n * 16 + (c.toNat - 55))
      else none) 0
  else none

/-- The characters that are escaped by a letter. -/
def letterEscapes : List (Char × Nat) :=
  [('0', 0), ('a', 7), ('b', 8), ('t', 9), ('\t', 9), ('n', 10), ('v', 11), ('f', 12),
    ('r', 13), ('e', 27), (' ', 32), ('"', 34), ('/', 47), ('\\', 92), ('N', 0x85),
    ('_', 0xA0), ('L', 0x2028), ('P', 0x2029)]

/-- The escapes that are followed by the digits of a code point. -/
def numberEscapes : List (Char × Nat) := [('x', 2), ('u', 4), ('U', 8)]

/-- The character that an escape behind a backslash stands for, and the length of the escape. -/
def escape? (cs : List Char) : Option (Char × Nat) :=
  match cs with
  | [] => none
  | c :: rest =>
    match letterEscapes.lookup c with
    | some n => some (Char.ofNat n, 1)
    | none =>
      match numberEscapes.lookup c with
      | none => none
      | some count =>
        match hexNumber? (rest.take count) count with
        | none => none
        | some n => if n.isValidChar then some (Char.ofNat n, count + 1) else none

/-- A quoted scalar behind its opening quote: its text in reverse, and the place behind the
closing quote. -/
def quoted (fuel : Nat) (single : Bool) (done : List Char) (gap : Gap) (c : Cursor) :
    Option (List Char × Cursor) :=
  match fuel with
  | 0 => none
  | fuel + 1 =>
    match c.char? with
    | none => none
    | some ch =>
      if isSpace ch then quoted fuel single done (gap.blank ch) (c.skip 1)
      else if isBreak ch then
        let (text, c) := c.nextLine
        quoted fuel single done (gap.lineBreak text) c
      else if c.atDocumentMark then none
      else
        let done := gap.text.reverse ++ done
        if single then
          if ch == '\'' then
            if c.seesAhead 1 '\'' then quoted fuel single ('\'' :: done) {} (c.skip 2)
            else some (done, c.skip 1)
          else quoted fuel single (ch :: done) {} (c.skip 1)
        else if ch == '"' then some (done, c.skip 1)
        else if ch == '\\' then
          if (c.ahead? 1).any isBreak then
            quoted fuel single done .escaped (c.skip 1).nextLine.2
          else
            match escape? (c.rest.drop 1) with
            | none => none
            | some (escaped, length) =>
              quoted fuel single (escaped :: done) {} (c.skip (length + 1))
        else quoted fuel single (ch :: done) {} (c.skip 1)

/-- What becomes of the line breaks at the end of a block scalar. -/
inductive Chomping where
  | strip
  | clip
  | keep
deriving DecidableEq, Repr

/-- The header of a block scalar: what becomes of its end, and by how much it is indented. -/
def blockHeader (c : Cursor) : Option (Chomping × Nat × Cursor) :=
  let chomping? (c : Cursor) : Option Chomping :=
    if c.sees '+' then some .keep else if c.sees '-' then some .strip else none
  let increment? (c : Cursor) : Option Nat :=
    c.char?.bind fun ch => if ch.isDigit then some (ch.toNat - 48) else none
  match chomping? c with
  | some chomping =>
    let c := c.skip 1
    match increment? c with
    | some 0 => none
    | some n => some (chomping, n, c.skip 1)
    | none => some (chomping, 0, c)
  | none =>
    match increment? c with
    | some 0 => none
    | some n =>
      let c := c.skip 1
      match chomping? c with
      | some chomping => some (chomping, n, c.skip 1)
      | none => some (.clip, n, c)
    | none => some (.clip, 0, c)

/-- Empty lines and the indentation behind them: the line breaks, the deepest column, and
the place reached. An indentation of zero is not known yet. -/
def blockBreaks (fuel : Nat) (indent deepest : Nat) (breaks : List Char) (c : Cursor) :
    Option (List Char × Nat × Cursor) :=
  match fuel with
  | 0 => none
  | fuel + 1 =>
    let isShallow (c : Cursor) : Bool := indent == 0 || c.column < indent
    if isShallow c && c.sees ' ' then blockBreaks fuel indent deepest breaks (c.skip 1)
    else
      let deepest := max deepest c.column
      if isShallow c && c.sees '\t' then none
      else if c.atBreak then
        let (text, c) := c.nextLine
        blockBreaks fuel indent deepest (breaks ++ text) c
      else some (breaks, deepest, c)

/-- The lines of a block scalar: its text, the line break behind the last line, the line
breaks behind that, and the place reached. -/
def blockLines (fuel : Nat) (literal : Bool) (indent : Nat) (done lastBreak breaks : List Char)
    (wasBlank : Bool) (c : Cursor) : Option (List Char × List Char × List Char × Cursor) :=
  match fuel with
  | 0 => none
  | fuel + 1 =>
    if c.column == indent && !c.atEnd then
      let isBlank := c.atSpace
      let joint :=
        if !literal && lastBreak.head? == some '\n' && !wasBlank && !isBlank then
          if breaks.isEmpty then [' '] else []
        else lastBreak
      let (line, c) := c.span fun ch => !isBreak ch
      let done := done ++ joint ++ breaks ++ line
      let (lastBreak, c) := c.nextLine
      match blockBreaks (c.rest.length + 1) indent 0 [] c with
      | none => none
      | some (breaks, _, c) => blockLines fuel literal indent done lastBreak breaks isBlank c
    else some (done, lastBreak, breaks, c)

/-- A block scalar behind its indicator, within a block that is indented by `outer`. -/
def block (literal : Bool) (outer : Int) (c : Cursor) : Option (List Char × Cursor) :=
  match blockHeader c with
  | none => none
  | some (chomping, increment, c) =>
    let c := c.skipSpaces.skipComment
    if !c.atLineEnd then none
    else
      let c := c.nextLine.2
      let known := if increment = 0 then 0 else (max outer 0).toNat + increment
      match blockBreaks (c.rest.length + 1) known 0 [] c with
      | none => none
      | some (breaks, deepest, c) =>
        let indent :=
          if known = 0 then max deepest (max (outer + 1) 1).toNat else known
        match blockLines (c.rest.length + 1) literal indent [] [] breaks false c with
        | none => none
        | some (text, lastBreak, breaks, c) =>
          match chomping with
          | .strip => some (text, c)
          | .clip => some (text ++ lastBreak, c)
          | .keep => some (text ++ lastBreak ++ breaks, c)

end Yaml

end DurableFlow
