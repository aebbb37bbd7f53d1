import DurableFlow.Data.Compact
import DurableFlow.Source.Decode
import DurableFlow.Template.Basic
import DurableFlow.Text.Case
import DurableFlow.Time.Layout

/-!
# Filters and tests of templates

A filter changes a value, a test asks about one. Both fail on values of a type that
they have no use for.
-/

namespace DurableFlow

namespace Template

/-- Floats are filled in without an exponent, whole ones without a point. -/
def floatLayout : Binary64.Layout := ⟨none, "", ""⟩

def numberText : Number → String
  | .int i => toString i
  | .float x => x.text floatLayout

mutual

/-- The text that a value is filled in with. -/
def fillText : Data → String
  | .null => ""
  | .bool b => if b then "true" else "false"
  | .num n => numberText n
  | .str s => s
  | .arr items => "[" ++ ", ".intercalate (fillTexts items) ++ "]"
  | .obj _ => "[object]"

def fillTexts : List Data → List String
  | [] => []
  | v :: rest => fillText v :: fillTexts rest

end

/-- Whether a value counts as true in a template. -/
def truthy : Data → Bool
  | .null => false
  | .bool b => b
  | .num (.int i) => i != 0
  | .num (.float x) => !x.isZero
  | .str s => !s.isEmpty
  | .arr items => !items.isEmpty
  | .obj fields => !fields.isEmpty

/-- An item of an array or a field of an object by its name. -/
def member? (v : Data) (name : String) : Option Data :=
  match v with
  | .obj fields => Fields.get? fields name
  | .arr items =>
    let cs := name.toList
    if cs.isEmpty || !cs.all Char.isDigit || (cs.length > 1 && cs.head? == some '0') then none
    else items[cs.foldl (fun n d => n * 10 + (d.toNat - 48)) 0]?
  | _ => none

/-- What the names lead to, one after another. -/
def members? (v : Data) (names : List String) : Option Data := names.foldlM member? v

/-- The names between the points of an attribute. -/
def memberNames (member : String) : List String := member.splitOn "."

/-- A float as data; one that is not finite is null. -/
def ofFloat? (x : Option Binary64) : Data :=
  match x with
  | some x => .num (.float x)
  | none => .null

namespace Filter

/-- The value of an argument. -/
abbrev Args := List (String × Data)

def textArg (args : Args) (name : String) (missing : Option String) : Option String :=
  match args.lookup name with
  | some v => v.text?
  | none => missing

def intArg (args : Args) (name : String) (missing : Option Int) : Option Int :=
  match args.lookup name with
  | some (.num n) => n.toInt64?
  | some _ => none
  | none => missing

/-- An argument whose fraction does not count. -/
def positionArg (args : Args) (name : String) (missing : Int) : Option Int :=
  match args.lookup name with
  | some (.num n) => some n.toBinary64.truncate
  | some _ => none
  | none => some missing

def boolArg (args : Args) (name : String) (missing : Bool) : Option Bool :=
  match args.lookup name with
  | some v => v.bool?
  | none => some missing

/-- Take a text away from the start as often as it stands there. -/
def dropStart (fuel : Nat) (part cs : List Char) : List Char :=
  match fuel with
  | 0 => cs
  | fuel + 1 =>
    if part.isEmpty then cs
    else if part.isPrefixOf cs then dropStart fuel part (cs.drop part.length) else cs

/-- A text in which breaks of lines and tabs may be spelled with a backslash. -/
def breaks (s : String) : String := (s.replace "\\n" "\n").replace "\\t" "\t"

/-- Replace a text wherever it stands, from the left. -/
def replaceAll (fuel : Nat) (part replacement cs : List Char) : List Char :=
  match fuel with
  | 0 => cs
  | fuel + 1 =>
    if part.isEmpty then
      match cs with
      | [] => replacement
      | c :: rest => replacement ++ c :: replaceAll fuel part replacement rest
    else
      match cs with
      | [] => []
      | c :: rest =>
        if part.isPrefixOf cs then
          replacement ++ replaceAll fuel part replacement (cs.drop part.length)
        else c :: replaceAll fuel part replacement rest

/-- The words between white space. -/
def words (cs : List Char) : List String :=
  let (done, word) := cs.foldl (fun (done, word) c =>
    if Text.isBlank c then (if word.isEmpty then (done, []) else (word.reverse :: done, []))
    else (done, c :: word)) (([] : List (List Char)), ([] : List Char))
  ((if word.isEmpty then done else word.reverse :: done).reverse).map String.ofList

/-- The first character in upper case and the rest in lower case. -/
def capitalize (s : String) : String :=
  match s.toList with
  | [] => ""
  | c :: rest => String.ofList (Text.upperChar c) ++ Text.lower (String.ofList rest)

/-- Every word capitalized; an apostrophe belongs to its word. -/
def title (inWord : Bool) (cs : List Char) : List Char :=
  match cs with
  | [] => []
  | c :: rest =>
    if Text.isWord c ∨ (inWord ∧ c = '\'') then
      (if inWord then Text.lowerChar c else Text.upperChar c) ++ title true rest
    else c :: title false rest

/-- What follows the first place where a text stands. -/
def after? (part : List Char) (cs : List Char) : Option (List Char) :=
  match cs with
  | [] => if part.isEmpty then some [] else none
  | c :: rest =>
    if part.isPrefixOf (c :: rest) then some ((c :: rest).drop part.length) else after? part rest

/-- What follows a tag or a comment, if the text starts with one. -/
def afterTag? (cs : List Char) : Option (List Char) :=
  let comment : Option (List Char) :=
    if "<!--".toList.isPrefixOf cs then
      let line := (cs.drop 4).takeWhile (· != '\n')
      (after? "-->".toList line).map fun rest => rest ++ (cs.drop 4).dropWhile (· != '\n')
    else none
  match comment, cs with
  | some rest, _ => some rest
  | none, '<' :: rest => after? ['>'] rest
  | none, _ => none

/-- Text without the tags between angle brackets. -/
def stripTags (fuel : Nat) (cs : List Char) : List Char :=
  match fuel, cs with
  | 0, cs => cs
  | _, [] => []
  | fuel + 1, c :: rest =>
    match afterTag? (c :: rest) with
    | some rest => stripTags fuel rest
    | none => c :: stripTags fuel rest

/-- Text without the white space between tags. -/
def spaceless (fuel : Nat) (cs : List Char) : List Char :=
  match fuel, cs with
  | 0, cs => cs
  | _, [] => []
  | fuel + 1, c :: rest =>
    let further := rest.dropWhile Text.isBlank
    if c = '>' ∧ further.head? = some '<' then '>' :: spaceless fuel further
    else c :: spaceless fuel rest

/-- A text as part of an address: small letters and digits, all else between them one dash. -/
def slug (s : String) : String :=
  let out := s.foldl (fun (out : List Char) c =>
    if c.isAlphanum then c.toLower :: out
    else if out.isEmpty || out.head? == some '-' then out
    else '-' :: out) []
  String.ofList (if out.head? == some '-' then out.drop 1 else out).reverse

/-- The characters that have a meaning in a markup escaped. -/
def escapeMarkup (s : String) : String :=
  s.foldl (fun out c => out ++
    match c with
    | '&' => "&amp;"
    | '<' => "&lt;"
    | '>' => "&gt;"
    | '"' => "&quot;"
    | '\'' => "&apos;"
    | c => c.toString) ""

/-- The marks of a hypertext escaped. -/
def escapeMarks (s : String) : String :=
  s.foldl (fun out c => out ++
    match c with
    | '&' => "&amp;"
    | '<' => "&lt;"
    | '>' => "&gt;"
    | '"' => "&quot;"
    | '\'' => "&#x27;"
    | '/' => "&#x2F;"
    | c => c.toString) ""

/-- Each byte that may not stand in an address as it is, as its hexadecimal code. -/
def encodeAddress (safe : Char → Bool) (s : String) : String :=
  s.foldl (fun out c =>
    if c.toNat < 128 ∧ (c.isAlphanum ∨ safe c) then out.push c
    else c.toString.toUTF8.foldl (fun out b =>
      out ++ "%" ++ String.ofList
        [(Nat.digitChar (b.toNat / 16)).toUpper, (Nat.digitChar (b.toNat % 16)).toUpper]) out) ""

/-- An integer of a base, signed or not. -/
def parseInt (base : Nat) (s : String) : Option Int :=
  let digits (cs : List Char) : Option Nat :=
    if cs.isEmpty then none
    else cs.foldlM (fun n c => (Source.Word.digit? base c).map (n * base + ·)) 0
  let value : Option Int :=
    match s.toList with
    | '-' :: cs => (digits cs).map fun n => -(n : Int)
    | '+' :: cs => (digits cs).map fun n => (n : Int)
    | cs => (digits cs).map fun n => (n : Int)
  value.filter fun i => -(2 ^ (63 : Nat)) ≤ i ∧ i < 2 ^ (63 : Nat)

/-- A float in decimal notation, signed or not. -/
def parseFloat (s : String) : Option Binary64 :=
  let (negative, cs) :=
    match s.toList with
    | '-' :: cs => (true, cs)
    | '+' :: cs => (false, cs)
    | cs => (false, cs)
  match Source.Word.decimal? cs with
  | some (digits, scale) => Binary64.ofDecimal negative digits scale
  | none => none

/-- An integer within 64 bits, the nearest end for one beyond them. -/
def clamp (i : Int) : Int := max (-(2 ^ (63 : Nat))) (min (2 ^ (63 : Nat) - 1) i)

/-- A sign and thousands of thousands of bytes. -/
def padded (width : Nat) (s : String) : String :=
  String.ofList (List.replicate (width - s.length) ' ') ++ s

/-- A number rounded at a decimal place, by one of three rules. -/
def round (method : String) (precision : Int) (x : Binary64) : Option Binary64 := do
  let scale ← Binary64.ofDecimal false 1 precision
  let scaled ← if precision = 0 then some x else x.mul scale
  let whole ←
    match method with
    | "common" => some scaled.round
    | "ceil" => some scaled.ceil
    | "floor" => some scaled.floor
    | _ => none
  let rounded : Binary64 := .ofInt whole
  let rounded := if whole = 0 then .zero x.negative else rounded
  if precision = 0 then some rounded else rounded.div scale

/-- The values that an order exists for, smaller ones first. -/
def sortKeyLe (a b : Data) : Bool :=
  match a, b with
  | .num a, .num b => a.toBinary64.compare b.toBinary64 != .gt
  | .str a, .str b => a ≤ b
  | .bool a, .bool b => !a || b
  | .arr a, .arr b => a.length ≤ b.length
  | _, _ => true

/-- Whether all values are of one type that an order exists for. -/
def sortable (keys : List Data) : Bool :=
  keys.all (fun k => match k with | .num _ => true | _ => false) ||
    keys.all (fun k => match k with | .str _ => true | _ => false) ||
    keys.all (fun k => match k with | .bool _ => true | _ => false) ||
    keys.all (fun k => match k with | .arr _ => true | _ => false)

/-- The items in the order of a key. -/
def sort (member : String) (items : List Data) : Option Data := do
  let keys ← items.mapM fun item =>
    if member.isEmpty then some item else members? item (memberNames member)
  if sortable keys then
    let sorted := (keys.zip items).mergeSort fun a b => sortKeyLe a.1 b.1
    some (.arr (sorted.map (·.2)))
  else none

/-- What tells items apart, by their type; none for a type whose items cannot be told apart. -/
def uniqueKey (caseSensitive : Bool) (v : Data) : Option (Nat × Data) :=
  match v with
  | .bool _ => some (0, v)
  | .num (.int _) => some (1, v)
  | .num (.float _) => some (2, v)
  | .str s => some (3, .str (if caseSensitive then s else Text.lower s))
  | _ => none

/-- The items without those that equal an earlier one. An item without the member drops
out, and all others have to be of the type of the first. -/
def unique (caseSensitive : Bool) (member : String) (items : List Data) : Option Data :=
  let keyed := items.map fun item =>
    (if member.isEmpty then some item else members? item (memberNames member), item)
  match keyed with
  | [] => some (.arr [])
  | (none, _) :: _ => none
  | (some first, _) :: _ => do
    let (kind, _) ← uniqueKey caseSensitive first
    let kept ← keyed.foldlM (fun (kept : List (Data × Data)) (key, item) =>
      match key with
      | none => some kept
      | some key => do
        let (k, key) ← uniqueKey caseSensitive key
        if k ≠ kind then none
        else if kept.any fun other => other.1.same key then some kept
        else some (kept ++ [(key, item)])) []
    some (.arr (kept.map (·.2)))

/-- The items between two positions, which may count from the end. -/
def slice (start stop : Int) (items : List Data) : List Data :=
  let size : Int := items.length
  let position (i : Int) : Int := if i < 0 then size + i else i
  let lower := (max 0 (position start)).toNat
  let upTo := (max 0 (min size (position stop))).toNat
  (items.take upTo).drop lower

/-- The blanks at the start of a line. -/
def margin (level : Nat) : String := String.ofList (List.replicate (2 * level) ' ')

mutual

/-- Data on several lines, two blanks for each level. -/
def pretty (level : Nat) : Data → String
  | .arr [] => "[]"
  | .obj [] => "\x7b\x7d"
  | .arr items =>
    "[\n" ++ ",\n".intercalate (prettyItems (level + 1) items) ++ "\n" ++ margin level ++ "]"
  | .obj fields =>
    "\x7b\n" ++ ",\n".intercalate (prettyFields (level + 1) fields) ++ "\n" ++ margin level ++
      "\x7d"
  | v => v.compact

def prettyItems (level : Nat) : List Data → List String
  | [] => []
  | v :: rest => (margin level ++ pretty level v) :: prettyItems level rest

def prettyFields (level : Nat) : List (String × Data) → List String
  | [] => []
  | (name, v) :: rest =>
    (margin level ++ Data.quoted name ++ ": " ++ pretty level v) :: prettyFields level rest

end

/-- A text without white space at its start or its end. -/
def trimStart (s : String) : String := String.ofList (s.toList.dropWhile Text.isBlank)

def trimEnd (s : String) : String :=
  String.ofList (s.toList.reverse.dropWhile Text.isBlank).reverse

/-- The filters of texts. -/
def ofText (name : String) (args : Args) (s : String) : Option Data :=
  match name with
  | "upper" => some (.str (Text.upper s))
  | "lower" => some (.str (Text.lower s))
  | "trim" => some (.str (Text.trim s))
  | "trim_start" => some (.str (trimStart s))
  | "trim_end" => some (.str (trimEnd s))
  | "trim_start_matches" => do
    let pat ← textArg args "pat" none
    some (.str (String.ofList (dropStart (s.length + 1) pat.toList s.toList)))
  | "trim_end_matches" => do
    let pat ← textArg args "pat" none
    some (.str (String.ofList
      (dropStart (s.length + 1) pat.toList.reverse s.toList.reverse).reverse))
  | "truncate" => do
    let size ← intArg args "length" (some 255)
    let ending ← textArg args "end" (some "\u2026")
    if size < 0 then none
    else if s.length ≤ size.toNat then some (.str s)
    else some (.str (String.ofList (s.toList.take size.toNat) ++ ending))
  | "wordcount" => some (.nat (words s.toList).length)
  | "replace" => do
    let part ← textArg args "from" none
    let replacement ← textArg args "to" none
    some (.str (String.ofList
      (replaceAll (s.length + 1) part.toList replacement.toList s.toList)))
  | "capitalize" => some (.str (capitalize s))
  | "title" => some (.str (String.ofList (title false s.toList)))
  | "striptags" => some (.str (String.ofList (stripTags (s.length + 1) s.toList)))
  | "addslashes" =>
    some (.str (s.foldl (fun out c =>
      if c = '\\' ∨ c = '"' ∨ c = '\'' then (out.push '\\').push c else out.push c) ""))
  | "linebreaksbr" =>
    some (.str (((s.replace "\r\n" "<br>").replace "\n" "<br>")))
  | "spaceless" => some (.str (String.ofList (spaceless (s.length + 1) s.toList)))
  | "slugify" => some (.str (slug s))
  | "escape" => some (.str (escapeMarks s))
  | "escape_xml" => some (.str (escapeMarkup s))
  | "urlencode" => some (.str (encodeAddress (fun c => c ∈ ['-', '_', '.', '~', '/', '%']) s))
  | "urlencode_strict" => some (.str (encodeAddress (fun _ => false) s))
  | "split" => do
    let pat := breaks (← textArg args "pat" none)
    if pat.isEmpty then
      some (.texts ("" :: s.toList.map Char.toString ++ [""]))
    else some (.texts (s.splitOn pat))
  | "indent" => do
    let lead ← textArg args "prefix" (some "    ")
    let first ← boolArg args "first" false
    let blank ← boolArg args "blank" false
    let lines := s.splitOn "\n"
    let lines := if lines.getLast? == some "" then lines.dropLast else lines
    let lines := lines.map fun line => (line.dropSuffix "\r").toString
    let indented := lines.mapIdx fun i line =>
      if (i = 0 && !first) || ((Text.trim line).isEmpty && !blank && i != 0) then line
      else lead ++ line
    some (.str ("\n".intercalate indented))
  | _ => none

/-- The filters of arrays that pick and group items by what an attribute of them is. -/
def ofAttribute (name : String) (args : Args) (items : List Data) : Option Data :=
  match name with
  | "map" => do
    let member ← textArg args "attribute" none
    some (.arr ((items.filterMap fun item => members? item (memberNames member)).filter
      fun v => !v.isNull))
  | "filter" => do
    let member ← textArg args "attribute" none
    let wanted := (args.lookup "value").getD .null
    some (.arr (items.filter fun item =>
      let v := (members? item (memberNames member)).getD .null
      if wanted.isNull then !v.isNull else v.same wanted))
  | "group_by" => do
    let member ← textArg args "attribute" none
    let groups := items.foldl (fun (groups : Fields (List Data)) item =>
      match members? item (memberNames member) with
      | some .null => groups
      | some key =>
        let key := match key with | .str s => s | v => v.compact
        Fields.insert groups key ((Fields.get? groups key).getD [] ++ [item])
      | none => groups) []
    some (.obj (Fields.mapValues .arr groups))
  | _ => none

/-- The filters of arrays. -/
def ofArray (name : String) (args : Args) (items : List Data) : Option Data :=
  match name with
  | "first" => some (items.head?.getD (.str ""))
  | "last" => some (items.getLast?.getD (.str ""))
  | "nth" =>
    if items.isEmpty then some (.str "")
    else do
      let n ← intArg args "n" none
      if n < 0 then none else some ((items[n.toNat]?).getD (.str ""))
  | "join" => do
    let sep ← textArg args "sep" (some "")
    some (.str ((breaks sep).intercalate (items.map fillText)))
  | "sort" => do
    let member ← textArg args "attribute" (some "")
    if items.isEmpty then some (.arr []) else sort member items
  | "unique" => do
    let caseSensitive ← boolArg args "case_sensitive" false
    let member ← textArg args "attribute" (some "")
    unique caseSensitive member items
  | "slice" => do
    let start ← positionArg args "start" 0
    let stop ← positionArg args "end" items.length
    some (.arr (slice start stop items))
  | "map" | "filter" => if items.isEmpty then some (.arr []) else ofAttribute name args items
  | "group_by" => if items.isEmpty then some (.obj []) else ofAttribute name args items
  | _ => none

/-- The filters of numbers. -/
def ofNumber (name : String) (args : Args) (n : Number) : Option Data :=
  match name with
  | "abs" =>
    match n with
    | .int i => some (.num (.int i.natAbs))
    | .float x => some (.num (.float x.abs))
  | "pluralize" => do
    let singular ← textArg args "singular" (some "")
    let plural ← textArg args "plural" (some "s")
    some (.str (if n.toBinary64.abs.same (.ofInt 1) then singular else plural))
  | "round" => do
    let method ← textArg args "method" (some "common")
    let precision ← intArg args "precision" (some 0)
    some (.num (.float (← round method precision n.toBinary64)))
  | "filesizeformat" => none
  | _ => none

/-- A date that a value stands for: seconds since 1970, a date alone, or a date and time with
an offset or without one. -/
def dateOf (v : Data) : Option Layout.Shown :=
  match v with
  | .num n =>
    (n.toInt64?.filter Instant.inCalendar).map fun second => ⟨⟨second, 0⟩, none⟩
  | .str s =>
    if s.contains 'T' then
      match Instant.parseWithOffset s with
      | .ok (t, offset) => some ⟨t, some offset⟩
      | .error _ => (Instant.parseLocal s).toOption.map fun t => ⟨t, none⟩
    else (Instant.parseDate s).toOption.map fun t => ⟨t, none⟩
  | _ => none

/-- A value as a date in a layout. The only zone that is known by name is universal time. -/
def date (args : Args) (v : Data) : Option Data := do
  let layout ← textArg args "format" (some "%Y-%m-%d")
  let zone ← textArg args "timezone" (some "")
  let shown ← dateOf v
  let shown ←
    if zone.isEmpty then some shown
    else if zone = "UTC" then some { shown with offset := some 0 }
    else none
  let text ← shown.text? layout
  some (.str text)

/-- A value that went through a filter. -/
def apply (name : String) (args : Args) (v : Data) : Option Data :=
  match name with
  | "as_str" => some (.str (fillText v))
  | "date" => date args v
  | "json_encode" => do
    let onLines ← boolArg args "pretty" false
    some (.str (if onLines then pretty 0 v else v.compact))
  | "length" =>
    match v with
    | .arr items => some (.nat items.length)
    | .obj fields => some (.nat fields.length)
    | .str s => some (.nat s.length)
    | _ => none
  | "reverse" =>
    match v with
    | .arr items => some (.arr items.reverse)
    | .str s => some (.str (String.ofList s.toList.reverse))
    | _ => none
  | "concat" => do
    let items ← v.items?
    let more ← args.lookup "with"
    match more with
    | .arr more => some (.arr (items ++ more))
    | more => some (.arr (items ++ [more]))
  | "get" => do
    let fields ← v.fields?
    let key ← textArg args "key" none
    match Fields.get? fields key with
    | some v => some v
    | none => args.lookup "default"
  | "int" => do
    let missing ← intArg args "default" (some 0)
    let base ← intArg args "base" (some 10)
    match v with
    | .str s =>
      let s := Text.trim s
      let mark := if base = 2 then "0b" else if base = 8 then "0o"
        else if base = 16 then "0x" else ""
      let s := String.ofList (dropStart (s.length + 1) mark.toList s.toList)
      match parseInt base.toNat s with
      | some i => some (.int i)
      | none =>
        if s.toList.contains '.' then
          match parseFloat s with
          | some x => some (.int (clamp x.truncate))
          | none => some (.int missing)
        else some (.int missing)
    | .num n => some (.int (clamp n.toBinary64.truncate))
    | _ => none
  | "float" => do
    let missing ←
      match args.lookup "default" with
      | some (.num n) => some n.toBinary64
      | some _ => none
      | none => some (.zero false)
    match v with
    | .str s => some (.num (.float ((parseFloat (Text.trim s)).getD missing)))
    | .num n => some (.num (.float n.toBinary64))
    | _ => none
  | name =>
    match v with
    | .str s => ofText name args s
    | .arr items => ofArray name args items
    | .num n => ofNumber name args n
    | _ => none

end Filter

/-- The most arguments that a test takes. -/
def maxArgs (name : String) : Nat :=
  if name ∈ ["divisibleby", "starting_with", "ending_with", "containing"] then 1 else 0

/-- The answer of a test about a value that is there. -/
def answerAbout (name : String) (args : List Data) (v : Data) : Option Bool :=
  match name, v, args with
  | "string", v, _ => some v.text?.isSome
  | "number", .num _, _ => some true
  | "number", _, _ => some false
  | "object", v, _ => some v.fields?.isSome
  | "iterable", v, _ => some (v.items?.isSome || v.fields?.isSome)
  | "odd", .num n, _ => (n.toBinary64.rem (.ofInt 2)).map fun r => !r.isZero
  | "even", .num n, _ => (n.toBinary64.rem (.ofInt 2)).map Binary64.isZero
  | "divisibleby", .num n, [.num m] =>
    if m.toBinary64.isZero then some false
    else (n.toBinary64.rem m.toBinary64).map Binary64.isZero
  | "starting_with", .str s, [.str p] => some (p.toList.isPrefixOf s.toList)
  | "ending_with", .str s, [.str p] => some (p.toList.isSuffixOf s.toList)
  | "containing", .str s, [.str p] => some (Text.occursIn p s)
  | "containing", .arr items, [x] => some (items.any fun item => item.same x)
  | "containing", .obj fields, [.str name] => some (Fields.contains fields name)
  | _, _, _ => none

/-- The answer of a test about a value, if there is one to ask about. -/
def testAnswer (name : String) (args : List Data) (v : Option Data) : Option Bool :=
  if maxArgs name < args.length then none
  else
    match name, v with
    | "defined", v => some v.isSome
    | "undefined", v => some v.isNone
    | _, none => none
    | name, some v => answerAbout name args v

end Template

end DurableFlow
