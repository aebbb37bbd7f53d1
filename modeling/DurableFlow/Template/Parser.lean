import DurableFlow.Template.Basic
import DurableFlow.Text.Letters

/-!
# Reading templates

An ordered choice decides everywhere: the first form that fits a place is taken, and
what follows has to fit what it leaves. Blanks may stand between the parts of a tag,
but not within a name, a path or a literal. A dash inside a tag's mark takes away the
white space of the text next to it.
-/

namespace DurableFlow

namespace Template

namespace Parser

/-- A reader gives what it read and the text after it, or nothing if it does not fit. -/
abbrev Reader (α : Type) := List Char → Option (α × List Char)

def isSpace (c : Char) : Bool := c == ' ' || c == '\t' || c == '\r' || c == '\n'

def spaces (cs : List Char) : List Char := cs.dropWhile isSpace

/-- The given characters, exactly. -/
def exact (letters : List Char) (cs : List Char) : Option (List Char) :=
  match letters, cs with
  | [], cs => some cs
  | _ :: _, [] => none
  | l :: letters, c :: cs => if l = c then exact letters cs else none

/-- A word or a mark. -/
def lit (word : String) (cs : List Char) : Option (List Char) := exact word.toList cs

/-- A word or a mark after blanks. -/
def mark (word : String) (cs : List Char) : Option (List Char) := lit word (spaces cs)

/-- The first of some readers that fits. -/
def firstOf (readers : List (Reader α)) (cs : List Char) : Option (α × List Char) :=
  readers.findSome? fun read => read cs

/-- As many as there are of what a reader reads, each after blanks. -/
def many (limit : Nat) (read : Reader α) (cs : List Char) : List α × List Char :=
  match limit with
  | 0 => ([], cs)
  | limit + 1 =>
    match read (spaces cs) with
    | some (x, rest) =>
      let (xs, rest) := many limit read rest
      (x :: xs, rest)
    | none => ([], cs)

/-- A list with commas between its items. -/
def commaList (read : Reader α) (cs : List Char) : Option (List α × List Char) := do
  let (x, cs) ← read (spaces cs)
  let (xs, cs) := many cs.length (fun cs => do read (spaces (← lit "," cs))) cs
  some (x :: xs, cs)

def optionalMark (word : String) (cs : List Char) : Bool × List Char :=
  match mark word cs with
  | some rest => (true, rest)
  | none => (false, cs)

/-! ## Names and literals -/

def isNameStart (c : Char) : Bool := c.isAlpha || c == '_'

def isNamePart (c : Char) : Bool := c.isAlphanum || c == '_'

def name (cs : List Char) : Option (String × List Char) :=
  match cs with
  | c :: rest =>
    if isNameStart c then
      some (String.ofList (c :: rest.takeWhile isNamePart), rest.dropWhile isNamePart)
    else none
  | [] => none

/-- The digits of an integer: a lone zero, or digits that do not start with one. -/
def wholeDigits (cs : List Char) : Option (List Char × List Char) :=
  match cs with
  | '0' :: rest => some (['0'], rest)
  | c :: _ =>
    if c.isDigit then some (cs.takeWhile Char.isDigit, cs.dropWhile Char.isDigit) else none
  | [] => none

def natOf (digits : List Char) : Nat := digits.foldl (fun n d => n * 10 + (d.toNat - 48)) 0

def minus (cs : List Char) : Bool × List Char :=
  match cs with
  | '-' :: rest => (true, rest)
  | _ => (false, cs)

/-- The text of an integer. -/
def intText (cs : List Char) : Option (List Char × List Char) := do
  let (negative, rest) := minus cs
  let (digits, rest) ← wholeDigits rest
  some (if negative then '-' :: digits else digits, rest)

def intValue (text : List Char) : Int :=
  match text with
  | '-' :: digits => -(natOf digits : Int)
  | digits => natOf digits

def floatLiteral (cs : List Char) : Option (Value × List Char) := do
  let (negative, rest) := minus cs
  let (whole, rest) ← wholeDigits rest
  let rest ← lit "." rest
  let frac := rest.takeWhile Char.isDigit
  if frac.isEmpty then none
  else
    let x ← Binary64.ofDecimal negative (natOf (whole ++ frac)) (-(frac.length : Int))
    some (.float x, rest.dropWhile Char.isDigit)

/-- An integer of 64 bits. -/
def intLiteral (cs : List Char) : Option (Value × List Char) := do
  let (text, rest) ← intText cs
  let i := intValue text
  if -(2 ^ (63 : Nat)) ≤ i ∧ i < 2 ^ (63 : Nat) then some (.int i, rest) else none

/-- A text between two quotes of one kind, which cannot stand in it. -/
def quotedText (cs : List Char) : Option (String × List Char) :=
  match cs with
  | q :: rest =>
    if q = '"' ∨ q = '\'' ∨ q = '\x60' then
      let text := rest.takeWhile (· != q)
      match rest.dropWhile (· != q) with
      | _ :: rest => some (String.ofList text, rest)
      | [] => none
    else none
  | [] => none

def textLiteral (cs : List Char) : Option (Value × List Char) := do
  let (text, rest) ← quotedText cs
  some (.text text, rest)

def boolLiteral (cs : List Char) : Option (Value × List Char) :=
  firstOf [
    fun cs => (lit "true" cs).map fun rest => (.bool true, rest),
    fun cs => (lit "false" cs).map fun rest => (.bool false, rest),
    fun cs => (lit "True" cs).map fun rest => (.bool true, rest),
    fun cs => (lit "False" cs).map fun rest => (.bool false, rest)] cs

/-- The steps of a path after its root. -/
def pathParts (fuel : Nat) (cs : List Char) : List PathPart × List Char :=
  match fuel with
  | 0 => ([], cs)
  | fuel + 1 =>
    let further (part : PathPart) (rest : List Char) : List PathPart × List Char :=
      let (parts, rest) := pathParts fuel rest
      (part :: parts, rest)
    match cs with
    | '.' :: rest =>
      let word := rest.takeWhile isNamePart
      if word.isEmpty then ([], cs)
      else further (.key (String.ofList word)) (rest.dropWhile isNamePart)
    | '[' :: rest =>
      let inner : Option (PathPart × List Char) :=
        match intText rest with
        | some (text, rest) => some (.key (String.ofList text), rest)
        | none =>
          match quotedText rest with
          | some (text, rest) => some (.key text, rest)
          | none =>
            match name rest with
            | some (root, rest) =>
              let (parts, rest) := pathParts fuel rest
              some (.sub root parts, rest)
            | none => none
      match inner with
      | some (part, ']' :: rest) => further part rest
      | _ => ([], cs)
    | _ => ([], cs)

def path (cs : List Char) : Option (Path × List Char) := do
  let (root, rest) ← name cs
  let (parts, rest) := pathParts cs.length rest
  some (⟨root, parts⟩, rest)

def pathValue (cs : List Char) : Option (Value × List Char) := do
  let (p, rest) ← path cs
  some (.path p, rest)

/-! ## Operators -/

/-- An operator that is a word, which a blank has to follow. -/
def wordOp (word : String) (cs : List Char) : Option (List Char) := do
  match ← lit word cs with
  | c :: rest => if isSpace c then some rest else none
  | [] => none

def mathOp (cs : List Char) : Option (MathOp × List Char) :=
  match cs with
  | '+' :: rest => some (.add, rest)
  | '-' :: rest => some (.sub, rest)
  | '*' :: rest => some (.mul, rest)
  | '/' :: rest => some (.div, rest)
  | '%' :: rest => some (.rem, rest)
  | _ => none

def comparisonOp (cs : List Char) : Option (LogicOp × List Char) :=
  match cs with
  | '<' :: '=' :: rest => some (.ltEq, rest)
  | '>' :: '=' :: rest => some (.gtEq, rest)
  | '<' :: rest => some (.lt, rest)
  | '>' :: rest => some (.gt, rest)
  | '=' :: '=' :: rest => some (.eq, rest)
  | '!' :: '=' :: rest => some (.notEq, rest)
  | _ => none

def logicOp (cs : List Char) : Option (LogicOp × List Char) :=
  match wordOp "or" cs with
  | some rest => some (.or, rest)
  | none => (wordOp "and" cs).map fun rest => (.and, rest)

/-- Combine operands from the left, those of the operators in `tight` first. -/
def combineTight (tight : ω → Bool) (join : α → ω → α → α) (first : α) :
    List (ω × α) → α × List (ω × α)
  | [] => (first, [])
  | (op, x) :: rest =>
    if tight op then combineTight tight join (join first op x) rest
    else
      let (x, rest) := combineTight tight join x rest
      (first, (op, x) :: rest)

/-- Combine operands in two levels of precedence. -/
def combine (tight : ω → Bool) (join : α → ω → α → α) (first : α) (rest : List (ω × α)) : α :=
  let (first, rest) := combineTight tight join first rest
  rest.foldl (fun left (op, right) => join left op right) first

def isTightMath : MathOp → Bool
  | .mul => true
  | .div => true
  | .rem => true
  | _ => false

def isTightComparison : LogicOp → Bool
  | .eq => false
  | .notEq => false
  | _ => true

def isTightLogic : LogicOp → Bool
  | .and => true
  | _ => false

def joinMath (left : Term) (op : MathOp) (right : Term) : Term :=
  (Value.math left op right).term

def joinLogic (left : Term) (op : LogicOp) (right : Term) : Term :=
  (Value.logic left op right).term

/-- Operators with the operand after each. -/
def operations (op : Reader ω) (operand : Reader α) (cs : List Char) :
    List (ω × α) × List Char :=
  many cs.length (fun cs => do
    let (o, cs) ← op cs
    let (x, cs) ← operand (spaces cs)
    some ((o, x), cs)) cs

/-! ## Expressions -/

/-- The last binding of each name. -/
def lastOfEach (bindings : List (String × α)) : List (String × α) :=
  bindings.foldl (fun kept binding => kept.filter (·.1 != binding.1) ++ [binding]) []

mutual

/-- Choices between `or` and `and`. -/
def logicExpr (fuel : Nat) (cs : List Char) : Option (Term × List Char) :=
  match fuel with
  | 0 => none
  | fuel + 1 => do
    let (first, cs) ← logicVal fuel (spaces cs)
    let (rest, cs) := operations logicOp (fun cs => logicVal fuel cs) cs
    some (combine isTightLogic joinLogic first rest, cs)

/-- A membership, a comparison or a group, negated or not. -/
def logicVal (fuel : Nat) (cs : List Char) : Option (Term × List Char) :=
  match fuel with
  | 0 => none
  | fuel + 1 =>
    let (negated, cs) :=
      match wordOp "not" cs with
      | some rest => (true, spaces rest)
      | none => (false, cs)
    let term : Option (Term × List Char) :=
      match membership fuel cs with
      | some r => some r
      | none =>
        match comparison fuel cs with
        | some r => some r
        | none => do
          let cs ← lit "(" cs
          let (inner, cs) ← logicExpr fuel cs
          let cs ← mark ")" cs
          some (inner, cs)
    term.map fun (t, cs) => (.mk t.value t.filters negated, cs)

/-- Whether a value is in a container. -/
def membership (fuel : Nat) (cs : List Char) : Option (Term × List Char) :=
  match fuel with
  | 0 => none
  | fuel + 1 => do
    let (left, cs) ← firstOf
      [fun cs => filteredText fuel cs, fun cs => filteredBasic fuel cs] cs
    let (negated, cs) :=
      match wordOp "not" (spaces cs) with
      | some rest => (true, rest)
      | none => (false, cs)
    let cs ← mark "in" cs
    let (right, cs) ← firstOf
      [fun cs => filteredText fuel cs, fun cs => filteredArray fuel cs,
        fun cs => filteredBasic fuel cs] (spaces cs)
    some ((Value.isIn left negated right).term, cs)

/-- Values with comparisons between them. -/
def comparison (fuel : Nat) (cs : List Char) : Option (Term × List Char) :=
  match fuel with
  | 0 => none
  | fuel + 1 => do
    let operand : Reader Term := fun cs => firstOf
      [fun cs => filteredText fuel cs, fun cs => comparisonVal fuel cs] cs
    let (first, cs) ← operand cs
    let (rest, cs) := operations comparisonOp operand cs
    some (combine isTightComparison joinLogic first rest, cs)

/-- Filtered values with arithmetic between them. -/
def comparisonVal (fuel : Nat) (cs : List Char) : Option (Term × List Char) :=
  match fuel with
  | 0 => none
  | fuel + 1 => do
    let (first, cs) ← filteredBasic fuel cs
    let (rest, cs) := operations mathOp (fun cs => filteredBasic fuel cs) cs
    some (combine isTightMath joinMath first rest, cs)

/-- A value with filters. -/
def filteredBasic (fuel : Nat) (cs : List Char) : Option (Term × List Char) :=
  match fuel with
  | 0 => none
  | fuel + 1 => do
    let (term, cs) ← basic fuel cs
    let (filters, cs) := many cs.length (fun cs => filter fuel cs) cs
    some (.mk term.value (term.filters ++ filters) term.negated, cs)

/-- A text or a concatenation with filters. -/
def filteredText (fuel : Nat) (cs : List Char) : Option (Term × List Char) :=
  match fuel with
  | 0 => none
  | fuel + 1 => do
    let (value, cs) ← firstOf [fun cs => concatenation fuel cs, textLiteral] cs
    let (filters, cs) := many cs.length (fun cs => filter fuel cs) cs
    some (.mk value filters false, cs)

/-- An array with filters. -/
def filteredArray (fuel : Nat) (cs : List Char) : Option (Term × List Char) :=
  match fuel with
  | 0 => none
  | fuel + 1 => do
    let cs ← lit "[" cs
    let (items, cs) :=
      match commaList (fun cs => logicExpr fuel cs) cs with
      | some (items, cs) => (items, cs)
      | none => ([], cs)
    let (_, cs) := optionalMark "," cs
    let cs ← mark "]" cs
    let (filters, cs) := many cs.length (fun cs => filter fuel cs) cs
    some (.mk (.array items) filters false, cs)

/-- Values with arithmetic between them. -/
def basic (fuel : Nat) (cs : List Char) : Option (Term × List Char) :=
  match fuel with
  | 0 => none
  | fuel + 1 => do
    let operand : Reader Term := fun cs => firstOf [
      fun cs => do
        let cs ← lit "(" cs
        let (inner, cs) ← basic fuel (spaces cs)
        let cs ← mark ")" cs
        some (inner, cs),
      fun cs => (basicVal fuel cs).map fun (v, cs) => (v.term, cs)] cs
    let (first, cs) ← operand cs
    let (rest, cs) := operations mathOp operand cs
    some (combine isTightMath joinMath first rest, cs)

/-- A literal, a test, a call or a path. -/
def basicVal (fuel : Nat) (cs : List Char) : Option (Value × List Char) :=
  match fuel with
  | 0 => none
  | fuel + 1 =>
    firstOf [boolLiteral, fun cs => test fuel cs, fun cs => call fuel cs, pathValue,
      floatLiteral, intLiteral] cs

/-- A question about what a path leads to. -/
def test (fuel : Nat) (cs : List Char) : Option (Value × List Char) :=
  match fuel with
  | 0 => none
  | fuel + 1 => do
    let (p, cs) ← path cs
    let cs ← mark "is" cs
    let cs := spaces cs
    let positive (cs : List Char) : Option ((String × List Term) × List Char) := do
      let (n, cs) ← name (spaces cs)
      let args : Option (List Term × List Char) := do
        let cs ← mark "(" cs
        let (args, cs) ← commaList (fun cs => firstOf
          [fun cs => logicExpr fuel cs, fun cs => filteredArray fuel cs] cs) cs
        let cs ← mark ")" cs
        some (args, cs)
      match args with
      | some (args, cs) => some ((n, args), cs)
      | none => some ((n, []), cs)
    match (lit "not" cs).bind positive with
    | some ((n, args), cs) => some (.test p true n args, cs)
    | none => do
      let ((n, args), cs) ← positive cs
      some (.test p false n args, cs)

/-- Named arguments within parentheses. Of several with one name the last one counts. -/
def arguments (fuel : Nat) (cs : List Char) : Option (List (String × Term) × List Char) :=
  match fuel with
  | 0 => none
  | fuel + 1 => do
    let cs ← mark "(" cs
    let argument : Reader (String × Term) := fun cs => do
      let (n, cs) ← name cs
      let cs ← mark "=" cs
      let (v, cs) ← firstOf
        [fun cs => logicExpr fuel cs, fun cs => filteredArray fuel cs] (spaces cs)
      some ((n, v), cs)
    let (args, cs) :=
      match commaList argument cs with
      | some (args, cs) => (lastOfEach args, (optionalMark "," cs).2)
      | none => ([], cs)
    let cs ← mark ")" cs
    some (args, cs)

/-- A call of a function. -/
def call (fuel : Nat) (cs : List Char) : Option (Value × List Char) :=
  match fuel with
  | 0 => none
  | fuel + 1 => do
    let (n, cs) ← name cs
    let (args, cs) ← arguments fuel cs
    some (.call n args, cs)

/-- Values joined to one text. -/
def concatenation (fuel : Nat) (cs : List Char) : Option (Value × List Char) :=
  match fuel with
  | 0 => none
  | fuel + 1 => do
    let operand : Reader Value := fun cs => firstOf
      [fun cs => call fuel cs, floatLiteral, intLiteral, textLiteral, pathValue] cs
    let (first, cs) ← operand cs
    let (rest, cs) := many cs.length (fun cs => do operand (spaces (← lit "~" cs))) cs
    if rest.isEmpty then none else some (.concat (first :: rest), cs)

/-- A filter after its bar. -/
def filter (fuel : Nat) (cs : List Char) :
    Option ((String × List (String × Term)) × List Char) :=
  match fuel with
  | 0 => none
  | fuel + 1 => do
    let cs ← lit "|" cs
    let (n, cs) ← name (spaces cs)
    match arguments fuel cs with
    | some (args, cs) => some ((n, args), cs)
    | none => some ((n, []), cs)

end

/-! ## Tags -/

/-- The mark that opens a tag, with its dash. -/
def opening (word : String) (cs : List Char) : Option (List Char) :=
  match lit (word ++ "-") cs with
  | some rest => some rest
  | none => lit word cs

/-- The mark that closes a tag after blanks; whether it has a dash. -/
def closing (word : String) (cs : List Char) : Option (Bool × List Char) :=
  let cs := spaces cs
  match lit ("-" ++ word) cs with
  | some rest => some (true, rest)
  | none => (lit word cs).map fun rest => (false, rest)

def outputStart : String := "\x7b\x7b"

def outputEnd : String := "\x7d\x7d"

def tagStart : String := "\x7b%"

def tagEnd : String := "%\x7d"

def commentStart : String := "\x7b#"

def commentEnd : String := "#\x7d"

/-- Whether a tag of any kind starts here, and whether it takes away white space before it. -/
def startsTag (cs : List Char) : Option Bool :=
  match cs with
  | '\x7b' :: c :: rest =>
    if c = '\x7b' ∨ c = '%' ∨ c = '#' then
      match rest with
      | '-' :: _ => some true
      | _ => some false
    else none
  | _ => none

/-- The text up to the next tag. -/
def plainText (fuel : Nat) (done : List Char) (cs : List Char) : List Char × List Char :=
  match fuel with
  | 0 => (done.reverse, cs)
  | fuel + 1 =>
    match cs with
    | [] => (done.reverse, [])
    | c :: rest =>
      match startsTag cs with
      | some _ => (done.reverse, cs)
      | none => plainText fuel (c :: done) rest

def trimStart (cs : List Char) : List Char := cs.dropWhile Text.isBlank

def trimEnd (cs : List Char) : List Char := (cs.reverse.dropWhile Text.isBlank).reverse

def trimIf (left right : Bool) (cs : List Char) : List Char :=
  let cs := if left then trimStart cs else cs
  if right then trimEnd cs else cs

/-- A tag made of words alone. -/
def wordTag (words : List String) (cs : List Char) : Option (Bool × List Char) := do
  let cs ← opening tagStart cs
  let cs ← words.foldlM (fun cs word => mark word cs) cs
  closing tagEnd cs

/-- A comment; whether it takes away white space after it. -/
def comment (fuel : Nat) (cs : List Char) : Option (Bool × List Char) :=
  match fuel with
  | 0 => none
  | fuel + 1 =>
    match cs with
    | [] => none
    | _ :: rest =>
      match lit ("-" ++ commentEnd) cs with
      | some rest => some (true, rest)
      | none =>
        match lit commentEnd cs with
        | some rest => some (false, rest)
        | none => comment fuel rest

/-- The text up to the end of a raw section: the text, whether the end takes away white
space before and after it, and what follows. -/
def rawText (fuel : Nat) (done : List Char) (cs : List Char) :
    Option (List Char × Bool × Bool × List Char) :=
  match fuel with
  | 0 => none
  | fuel + 1 =>
    match wordTag ["endraw"] cs with
    | some (right, rest) =>
      some (done.reverse, (lit (tagStart ++ "-") cs).isSome, right, rest)
    | none =>
      match cs with
      | [] => none
      | c :: rest => rawText fuel (c :: done) rest

/-- Text that is a part unless there is none. -/
def text (cs : List Char) : List Part :=
  if cs.isEmpty then [] else [.text (String.ofList cs)]

/-- An assignment after its word. -/
def assignment (size : Nat) (everywhere : Bool) (cs : List Char) :
    Option (List Part × Bool × List Char) := do
  let (n, cs) ← name (spaces cs)
  let cs ← mark "=" cs
  let (term, cs) ← firstOf
    [fun cs => logicExpr size cs, fun cs => filteredArray size cs] (spaces cs)
  let (trim, cs) ← closing tagEnd cs
  some ([.assign n everywhere term], trim, cs)

/-- An inclusion after its word. -/
def inclusion (cs : List Char) : Option (List Part × Bool × List Char) := do
  let texts : Reader Unit := fun cs => do
    let cs ← lit "[" cs
    let (_, cs) := (commaList quotedText cs).getD ([], cs)
    let (_, cs) := optionalMark "," cs
    let cs ← mark "]" cs
    some ((), cs)
  let (_, cs) ← firstOf [fun cs => (quotedText cs).map fun (_, cs) => ((), cs), texts] (spaces cs)
  let (optional, cs) := optionalMark "ignore missing" cs
  let (trim, cs) ← closing tagEnd cs
  some ([.included optional], trim, cs)

mutual

/-- The parts up to the end or to a tag that ends or divides a section. `trim` tells
whether the tag before takes away white space, `inLoop` whether the section is a loop's. -/
def parts (fuel : Nat) (inLoop trim : Bool) (cs : List Char) :
    Option (List Part × List Char) :=
  match fuel with
  | 0 => none
  | fuel + 1 =>
    let (plain, cs) := plainText (cs.length + 1) [] cs
    let before := text (trimIf trim ((startsTag cs).getD false) plain)
    match cs with
    | [] => some (before, [])
    | _ =>
      match part fuel inLoop cs with
      | some (here, trim, cs) => do
        let (after, cs) ← parts fuel inLoop trim cs
        some (before ++ here ++ after, cs)
      | none => some (before, cs)

/-- A tag with the section that belongs to it, and whether white space after it is taken away. -/
def part (fuel : Nat) (inLoop : Bool) (cs : List Char) :
    Option (List Part × Bool × List Char) :=
  match fuel with
  | 0 => none
  | fuel + 1 =>
    let size := 8 * cs.length + 16
    match opening outputStart cs with
    | some cs => do
      let (term, cs) ← firstOf
        [fun cs => logicExpr size cs, fun cs => filteredArray size cs] (spaces cs)
      let (trim, cs) ← closing outputEnd cs
      some ([.output term], trim, cs)
    | none =>
      match opening commentStart cs with
      | some cs => do
        let (trim, cs) ← comment (cs.length + 1) cs
        some ([], trim, cs)
      | none => do
        let inner ← opening tagStart cs
        let (word, cs) ← name (spaces inner)
        match word with
        | "raw" => do
          let (trimLeft, cs) ← closing tagEnd cs
          let (raw, trimRight, trim, cs) ← rawText (cs.length + 1) [] cs
          some (text (trimIf trimLeft trimRight raw), trim, cs)
        | "set" => assignment size false cs
        | "set_global" => assignment size true cs
        | "include" => inclusion cs
        | "if" => do
          let (condition, cs) ← logicExpr size cs
          let (trim, cs) ← closing tagEnd cs
          let (body, cs) ← parts fuel inLoop trim cs
          branches fuel inLoop [(condition, body)] cs
        | "for" => do
          let (first, cs) ← name (spaces cs)
          let (key, item, cs) ←
            match mark "," cs with
            | some cs => do
              let (item, cs) ← name (spaces cs)
              some (some first, item, cs)
            | none => some (none, first, cs)
          let cs ← mark "in" cs
          let (container, cs) ← firstOf
            [fun cs => filteredBasic size cs, fun cs => filteredArray size cs,
              fun cs => filteredText size cs] (spaces cs)
          let (trim, cs) ← closing tagEnd cs
          let (body, cs) ← parts fuel true trim cs
          match wordTag ["else"] cs with
          | some (trim, cs) => do
            let (otherwise, cs) ← parts fuel inLoop trim cs
            let (trim, cs) ← wordTag ["endfor"] cs
            some ([.loop key item container body otherwise], trim, cs)
          | none => do
            let (trim, cs) ← wordTag ["endfor"] cs
            some ([.loop key item container body []], trim, cs)
        | "filter" => do
          let (n, cs) ← name (spaces cs)
          let (args, cs) := (arguments size cs).getD ([], cs)
          let (trim, cs) ← closing tagEnd cs
          let (body, cs) ← parts fuel inLoop trim cs
          let (trim, cs) ← wordTag ["endfilter"] cs
          some ([.filtered n args body], trim, cs)
        | "break" => do
          let (trim, cs) ← closing tagEnd cs
          if inLoop then some ([.stop], trim, cs) else none
        | "continue" => do
          let (trim, cs) ← closing tagEnd cs
          if inLoop then some ([.skip], trim, cs) else none
        | _ => none

/-- The further branches of a choice after those in `done`. -/
def branches (fuel : Nat) (inLoop : Bool) (done : List (Term × List Part)) (cs : List Char) :
    Option (List Part × Bool × List Char) :=
  match fuel with
  | 0 => none
  | fuel + 1 => do
    let inner ← opening tagStart cs
    let (word, cs) ← name (spaces inner)
    match word with
    | "elif" => do
      let (condition, cs) ← logicExpr (8 * cs.length + 16) cs
      let (trim, cs) ← closing tagEnd cs
      let (body, cs) ← parts fuel inLoop trim cs
      branches fuel inLoop (done ++ [(condition, body)]) cs
    | "else" => do
      let (trim, cs) ← closing tagEnd cs
      let (body, cs) ← parts fuel inLoop trim cs
      let (trim, cs) ← wordTag ["endif"] cs
      some ([.choice done body], trim, cs)
    | "endif" => do
      let (trim, cs) ← closing tagEnd cs
      some ([.choice done []], trim, cs)
    | _ => none

end

end Parser

/-- Read a template. -/
def parse (source : String) : Except Fault (List Part) :=
  let cs := source.toList
  match Parser.parts (3 * cs.length + 3) false false cs with
  | some (parts, []) => .ok parts
  | _ => .error .unreadable

end Template

end DurableFlow
