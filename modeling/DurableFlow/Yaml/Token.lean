import DurableFlow.Yaml.Scalar

/-!
# Tokens

The tokens of a text, with tokens for the structure that indentation gives. Whether
something is the key of a mapping shows only at the colon behind it; the places where a
key may have started are remembered, and a token is put there once the colon is met.
-/

namespace DurableFlow

namespace Yaml

inductive Token where
  | version (major minor : Nat)
  | tagPrefix (handle expansion : String)
  | documentStart
  | documentEnd
  | blockSequence
  | blockMapping
  | blockEnd
  | openSequence
  | closeSequence
  | openMapping
  | closeMapping
  /-- The dash before an item. -/
  | item
  /-- The comma of a flow collection. -/
  | comma
  | key
  | value
  | aliased (name : String)
  | anchor (name : String)
  | tag (handle suffix : String)
  | scalar (text : String) (isPlain : Bool)
deriving DecidableEq, Repr

/-- A place where a key may have started. -/
structure KeyPlace where
  /-- The count of tokens before it. -/
  position : Nat
  index : Nat
  line : Nat
  column : Nat
  /-- Nothing but a key can stand there. -/
  isRequired : Bool
deriving Repr

/-- The state of reading tokens. -/
structure Tokens where
  cursor : Cursor
  tokens : Array Token := #[]
  /-- The column of the block that is open, -1 outside of all. -/
  indent : Int := -1
  /-- The columns of the blocks around it. -/
  outer : List Int := []
  /-- Where a key may have started in each flow collection that is open, the innermost
  first, and last where one may have started outside of them. -/
  places : List (Option KeyPlace) := [none]
  allowsKey : Bool := true

namespace Tokens

def inFlow (s : Tokens) : Bool := 1 < s.places.length

def push (s : Tokens) (token : Token) : Tokens := { s with tokens := s.tokens.push token }

def moved (s : Tokens) (n : Nat) : Tokens := { s with cursor := s.cursor.skip n }

/-- Behind blanks, comments and line breaks. Outside of flow collections a key may start
on a new line, and no tab may stand before it. -/
def skipToToken (fuel : Nat) (s : Tokens) : Tokens :=
  match fuel with
  | 0 => s
  | fuel + 1 =>
    let c := s.cursor
    if c.index == 0 && c.sees (Char.ofNat 0xFEFF) then skipToToken fuel (s.moved 1)
    else if c.sees ' ' || (c.sees '\t' && (s.inFlow || !s.allowsKey)) then
      skipToToken fuel (s.moved 1)
    else
      let c := c.skipComment
      if c.atBreak then
        skipToToken fuel
          { s with cursor := c.nextLine.2, allowsKey := s.allowsKey || !s.inFlow }
      else { s with cursor := c }

/-- Forget the places that are too far back for a key to have started there. -/
def forgetStale (s : Tokens) : Option Tokens := do
  let places ← s.places.mapM fun place =>
    match place with
    | none => some none
    | some p =>
      if p.line < s.cursor.line || p.index + 1024 < s.cursor.index then
        if p.isRequired then none else some none
      else some (some p)
  some { s with places }

/-- Forget the innermost place where a key may have started. -/
def dropPlace (s : Tokens) : Option Tokens :=
  match s.places with
  | some p :: rest => if p.isRequired then none else some { s with places := none :: rest }
  | _ => some s

/-- Remember that a key may start here. -/
def savePlace (s : Tokens) : Option Tokens :=
  if s.allowsKey then do
    let s ← s.dropPlace
    let place : KeyPlace :=
      { position := s.tokens.size
        index := s.cursor.index
        line := s.cursor.line
        column := s.cursor.column
        isRequired := !s.inFlow && s.indent == s.cursor.column }
    some { s with places := some place :: s.places.drop 1 }
  else some s

/-- Open a block at a column that is deeper than the open block, with its token at a
position among the tokens. -/
def openBlock (s : Tokens) (column position : Nat) (token : Token) : Tokens :=
  if !s.inFlow && s.indent < column then
    { s with
      indent := column
      outer := s.indent :: s.outer
      tokens := (s.tokens.take position ++ #[token]) ++ s.tokens.drop position }
  else s

/-- Close blocks. -/
def closeAll (s : Tokens) (column : Int) : List Int → Tokens
  | [] => s
  | outer :: rest =>
    if column < s.indent then
      closeAll { s with indent := outer, outer := rest, tokens := s.tokens.push .blockEnd }
        column rest
    else s

/-- Close all blocks that are deeper than a column. -/
def closeBlocks (s : Tokens) (column : Int) : Tokens :=
  if s.inFlow then s else s.closeAll column s.outer

/-- A mark at the start of a line. -/
def mark (s : Tokens) (token : Token) : Option Tokens := do
  let s ← (s.closeBlocks (-1)).dropPlace
  some ({ s with allowsKey := false }.moved 3 |>.push token)

/-- A number of a version. -/
def number? (c : Cursor) : Option (Nat × Cursor) :=
  let (digits, c) := c.span Char.isDigit
  if digits.isEmpty || 9 < digits.length then none
  else some (digits.foldl (fun n d => n * 10 + (d.toNat - 48)) 0, c)

/-- A handle of tags: its text, and whether it ends with an exclamation mark of its own. -/
def handle? (c : Cursor) : Option (List Char × Bool × Cursor) :=
  if c.sees '!' then
    let (word, c) := (c.skip 1).span isWordChar
    if c.sees '!' then some ('!' :: word ++ ['!'], true, c.skip 1)
    else some ('!' :: word, false, c)
  else none

/-- An escaped octet. -/
def octet? (cs : List Char) : Option Nat :=
  match cs with
  | '%' :: rest => hexNumber? (rest.take 2) 2
  | _ => none

/-- The octets that follow the first one of an escaped character. -/
def trailing? : Nat → List Char → Option (List Nat)
  | 0, _ => some []
  | n + 1, cs =>
    match octet? cs with
    | some o =>
      if o / 64 = 2 then (trailing? n (cs.drop 3)).map (o :: ·) else none
    | none => none

/-- The octets of an escaped character. -/
def escapedOctets? (cs : List Char) : Option (List Nat) :=
  match octet? cs with
  | none => none
  | some o =>
    if o < 0x80 then some [o]
    else if o / 32 = 6 then (trailing? 1 (cs.drop 3)).map (o :: ·)
    else if o / 16 = 14 then (trailing? 2 (cs.drop 3)).map (o :: ·)
    else if o / 8 = 30 then (trailing? 3 (cs.drop 3)).map (o :: ·)
    else none

/-- The characters of tags besides word characters and escapes. -/
def isTagChar (verbatim : Bool) (c : Char) : Bool :=
  isWordChar c ||
    c ∈ [';', '/', '?', ':', '@', '&', '=', '+', '$', '.', '!', '~', '*', '\'', '(', ')'] ||
    (verbatim && c ∈ [',', '[', ']'])

/-- The characters of a tag, with its escapes resolved. -/
def tagText (fuel : Nat) (verbatim : Bool) (done : List Char) (c : Cursor) :
    Option (List Char × Cursor) :=
  match fuel with
  | 0 => none
  | fuel + 1 =>
    match c.char? with
    | none => some (done, c)
    | some ch =>
      if ch == '%' then
        match escapedOctets? c.rest with
        | none => none
        | some octets =>
          let bytes : ByteArray := ⟨(octets.map Nat.toUInt8).toArray⟩
          let text := ((String.fromUTF8? bytes).getD "\x00").toList
          tagText fuel verbatim (done ++ text) (c.skip (3 * octets.length))
      else if isTagChar verbatim ch then tagText fuel verbatim (done ++ [ch]) (c.skip 1)
      else some (done, c)

/-- The characters of a tag behind what is known of it; there has to be one. -/
def tagUri (verbatim : Bool) (head : List Char) (c : Cursor) : Option (List Char × Cursor) :=
  match tagText (c.rest.length + 1) verbatim (head.drop 1) c with
  | none => none
  | some (text, after) =>
    if head.isEmpty && after.index == c.index then none else some (text, after)

/-- The value of a directive that gives a handle its meaning. -/
def tagDirective (c : Cursor) : Option (Token × Cursor) := do
  let (handle, isClosed, c) ← handle? c.skipSpaces
  if !isClosed && handle != ['!'] then none
  else if !c.atSpace then none
  else
    let (expansion, c) ← tagUri true [] c.skipSpaces
    if c.endsWordAt 0 then some (.tagPrefix (String.ofList handle) (String.ofList expansion), c)
    else none

/-- The value of a directive that names a version. -/
def versionDirective (c : Cursor) : Option (Token × Cursor) := do
  let (major, c) ← number? c.skipSpaces
  if c.sees '.' then
    let (minor, c) ← number? (c.skip 1)
    some (.version major minor, c)
  else none

/-- A directive. -/
def directive (s : Tokens) : Option Tokens := do
  let s ← (s.closeBlocks (-1)).dropPlace
  let (name, c) := (s.cursor.skip 1).span isWordChar
  if name.isEmpty || !c.endsWordAt 0 then none
  else
    let (token, c) ←
      if name = "YAML".toList then versionDirective c
      else if name = "TAG".toList then tagDirective c
      else none
    let c := c.skipSpaces.skipComment
    if !c.atLineEnd then none
    else some ({ s with allowsKey := false, cursor := c.nextLine.2 }.push token)

/-- Open a flow collection. -/
def openFlow (s : Tokens) (token : Token) : Option Tokens := do
  let s ← s.savePlace
  some ({ s with places := none :: s.places, allowsKey := true }.moved 1 |>.push token)

/-- Close a flow collection. -/
def closeFlow (s : Tokens) (token : Token) : Option Tokens := do
  let s ← s.dropPlace
  let places := if s.inFlow then s.places.drop 1 else s.places
  some ({ s with places, allowsKey := false }.moved 1 |>.push token)

def comma (s : Tokens) : Option Tokens := do
  let s ← s.dropPlace
  some ({ s with allowsKey := true }.moved 1 |>.push .comma)

/-- The dash before an item, which opens a block if it stands deeper than the open one. -/
def item (s : Tokens) : Option Tokens := do
  if !s.inFlow && !s.allowsKey then none
  else
    let s ← (s.openBlock s.cursor.column s.tokens.size .blockSequence).dropPlace
    some ({ s with allowsKey := true }.moved 1 |>.push .item)

/-- The mark of a key. -/
def key (s : Tokens) : Option Tokens := do
  if !s.inFlow && !s.allowsKey then none
  else
    let s ← (s.openBlock s.cursor.column s.tokens.size .blockMapping).dropPlace
    some ({ s with allowsKey := !s.inFlow }.moved 1 |>.push .key)

/-- The mark of a value. If a key may have started before it, it did. -/
def value (s : Tokens) : Option Tokens :=
  match s.places with
  | some p :: rest =>
    let s :=
      { s with
        places := none :: rest
        tokens := (s.tokens.take p.position ++ #[Token.key]) ++ s.tokens.drop p.position }
    let s := s.openBlock p.column p.position .blockMapping
    some ({ s with allowsKey := false }.moved 1 |>.push .value)
  | _ =>
    if !s.inFlow && !s.allowsKey then none
    else
      let s := s.openBlock s.cursor.column s.tokens.size .blockMapping
      some ({ s with allowsKey := !s.inFlow }.moved 1 |>.push .value)

/-- What may stand behind the name of an anchor. -/
def endsAnchor (c : Cursor) : Bool :=
  c.endsWordAt 0 || c.char?.any fun ch => ch ∈ ['?', ':', ',', ']', '}', '%', '@', '\x60']

/-- An anchor or an alias. -/
def anchor (s : Tokens) (token : String → Token) : Option Tokens := do
  let s ← s.savePlace
  let (name, c) := (s.cursor.skip 1).span isWordChar
  if name.isEmpty || !endsAnchor c then none
  else some ({ s with allowsKey := false, cursor := c }.push (token (String.ofList name)))

/-- The handle and the suffix of a tag. -/
def tagParts (c : Cursor) : Option (List Char × List Char × Cursor) :=
  if c.seesAhead 1 '<' then
    match tagUri true [] (c.skip 2) with
    | some (suffix, c) => if c.sees '>' then some ([], suffix, c.skip 1) else none
    | none => none
  else
    match handle? c with
    | none => none
    | some (handle, true, c) => (tagUri false [] c).map fun (suffix, c) => (handle, suffix, c)
    | some (handle, false, c) =>
      (tagUri false handle c).map fun (suffix, c) =>
        if suffix.isEmpty then ([], ['!'], c) else (['!'], suffix, c)

def tag (s : Tokens) : Option Tokens := do
  let s ← s.savePlace
  let (handle, suffix, c) ← tagParts s.cursor
  if c.endsWordAt 0 || (s.inFlow && c.sees ',') then
    some ({ s with allowsKey := false, cursor := c }.push
      (.tag (String.ofList handle) (String.ofList suffix)))
  else none

def blockScalar (s : Tokens) (literal : Bool) : Option Tokens := do
  let s ← s.dropPlace
  let (text, cursor) ← block literal s.indent (s.cursor.skip 1)
  some ({ s with allowsKey := true, cursor }.push (.scalar (String.ofList text) false))

def quotedScalar (s : Tokens) (single : Bool) : Option Tokens := do
  let s ← s.savePlace
  let c := s.cursor.skip 1
  let (text, cursor) ← quoted (c.rest.length + 1) single [] {} c
  some ({ s with allowsKey := false, cursor }.push (.scalar (String.ofList text.reverse) false))

def plainScalar (s : Tokens) : Option Tokens := do
  let s ← s.savePlace
  let c := s.cursor
  let (text, gap, cursor) ← plain (c.rest.length + 1) s.inFlow (s.indent + 1) [] {} c
  some ({ s with allowsKey := gap.hasBreak, cursor }.push
    (.scalar (String.ofList text.reverse) true))

/-- The characters that a plain scalar does not start with. -/
def indicators : List Char :=
  ['-', '?', ':', ',', '[', ']', '{', '}', '#', '&', '*', '!', '|', '>', '\'', '"', '%', '@',
    '\x60']

/-- Whether a plain scalar may start with a character. -/
def startsPlain (s : Tokens) (ch : Char) : Bool :=
  let c := s.cursor
  (!isSpace ch && !isBreak ch && ch ∉ indicators) ||
    (ch == '-' && !(c.ahead? 1).any isSpace) ||
    (!s.inFlow && (ch == '?' || ch == ':') && !c.endsWordAt 1)

/-- The next token that starts with a character, and the tokens that come with it. -/
def nextToken (s : Tokens) (ch : Char) : Option Tokens :=
  let c := s.cursor
  if c.column == 0 && ch == '%' then s.directive
  else if c.atMark ['-', '-', '-'] then s.mark .documentStart
  else if c.atMark ['.', '.', '.'] then s.mark .documentEnd
  else if ch == '[' then s.openFlow .openSequence
  else if ch == '{' then s.openFlow .openMapping
  else if ch == ']' then s.closeFlow .closeSequence
  else if ch == '}' then s.closeFlow .closeMapping
  else if ch == ',' then s.comma
  else if ch == '-' && c.endsWordAt 1 then s.item
  else if ch == '?' && (s.inFlow || c.endsWordAt 1) then s.key
  else if ch == ':' && (s.inFlow || c.endsWordAt 1) then s.value
  else if ch == '*' then s.anchor .aliased
  else if ch == '&' then s.anchor .anchor
  else if ch == '!' then s.tag
  else if ch == '|' && !s.inFlow then s.blockScalar true
  else if ch == '>' && !s.inFlow then s.blockScalar false
  else if ch == '\'' then s.quotedScalar true
  else if ch == '"' then s.quotedScalar false
  else if s.startsPlain ch then s.plainScalar
  else none

/-- All tokens from here on. -/
def scan (fuel : Nat) (s : Tokens) : Option (Array Token) :=
  match fuel with
  | 0 => none
  | fuel + 1 => do
    let s := s.skipToToken (s.cursor.rest.length + 1)
    let s ← s.forgetStale
    let s := s.closeBlocks s.cursor.column
    match s.cursor.char? with
    | none =>
      let s ← (s.closeBlocks (-1)).dropPlace
      some s.tokens
    | some ch => scan fuel (← s.nextToken ch)

end Tokens

/-- The tokens of a text, if it has the form of one. -/
def tokens? (text : String) : Option (Array Token) :=
  let cs := text.toList
  let cs := match cs with | '\uFEFF' :: rest => rest | _ => cs
  if cs.all isAllowed then Tokens.scan (cs.length + 1) { cursor := { rest := cs } } else none

end Yaml

end DurableFlow
