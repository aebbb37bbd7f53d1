import DurableFlow.Source.Basic
import DurableFlow.Text.Shown
import DurableFlow.Time.Rfc3339

/-!
# Decoding sources

A decoder turns a source into a value of a type, or says what is wrong with it. A
record is decoded in the order in which its fields stand: a field that is given twice,
that cannot be decoded or that the text breaks off in is reported where it stands, and
only then is a missing field.
-/

namespace DurableFlow

/-- What is wrong with a source. -/
inductive DecodeError where
  /-- The text itself cannot be read. -/
  | text (why : TextFault)
  | missingField (name : String)
  | duplicateField (name : String)
  | unknownVariant (found : String) (known : List String)
  | wrongType (found wanted : String)
  | wrongValue (found wanted : String)
  | wrongLength (found : Nat) (wanted : String)
  /-- None of the forms of a type fits. -/
  | noVariant (type : String)
  | wrongTime (why : TimeFault)
deriving DecidableEq, Repr

namespace DecodeError

/-- The names of variants as a message lists them. -/
def variantList (known : List String) : String :=
  match known with
  | [] => "there are no variants"
  | [a] => "expected " ++ ticked a
  | [a, b] => "expected " ++ ticked a ++ " or " ++ ticked b
  | known => "expected one of " ++ ", ".intercalate (known.map ticked)
where
  ticked (name : String) : String := "\x60" ++ name ++ "\x60"

/-- What a message says about an error of the content. -/
def message : DecodeError → String
  | text .malformed => "malformed text"
  | text .truncated => "truncated text"
  | text .unsuitable => "unsuitable text"
  | missingField name => "missing field " ++ variantList.ticked name
  | duplicateField name => "duplicate field " ++ variantList.ticked name
  | unknownVariant found known =>
    "unknown variant " ++ variantList.ticked found ++ ", " ++ variantList known
  | wrongType found wanted => "invalid type: " ++ found ++ ", expected " ++ wanted
  | wrongValue found wanted => "invalid value: " ++ found ++ ", expected " ++ wanted
  | wrongLength found wanted => "invalid length " ++ toString found ++ ", expected " ++ wanted
  | noVariant type => "data did not match any variant of untagged enum " ++ type
  | wrongTime why => why.message

end DecodeError

/-- Turns a source into a value. -/
abbrev Decoder (α : Type) := Source → Except DecodeError α

namespace Source

/-- The types that an unquoted word may stand for. -/
inductive WordType where
  | null
  | bool (value : Bool)
  | num (value : Number)
  /-- An integer that is too large to be held. -/
  | huge
  | text

namespace Word

def isNull (w : String) : Bool := w ∈ ["null", "Null", "NULL", "~"]

def bool? (w : String) : Option Bool :=
  if w ∈ ["true", "True", "TRUE"] then some true
  else if w ∈ ["false", "False", "FALSE"] then some false
  else none

/-- A digit of a base up to 16. -/
def digit? (base : Nat) (c : Char) : Option Nat :=
  let n :=
    if c.isDigit then some (c.toNat - 48)
    else if 'a' ≤ c ∧ c ≤ 'f' then some (c.toNat - 87)
    else if 'A' ≤ c ∧ c ≤ 'F' then some (c.toNat - 55)
    else none
  n.filter (· < base)

/-- Digits of a base, at least one. -/
def digits? (base : Nat) (cs : List Char) : Option Nat :=
  if cs.isEmpty then none
  else cs.foldlM (fun n c => (digit? base c).map (n * base + ·)) 0

/-- Digits with the mark of their base before them. -/
def based? (cs : List Char) : Option Nat :=
  match cs with
  | '0' :: 'x' :: rest => digits? 16 rest
  | '0' :: 'o' :: rest => digits? 8 rest
  | '0' :: 'b' :: rest => digits? 2 rest
  | _ => none

/-- A run of digits after a zero is no number. -/
def leadingZero (cs : List Char) : Bool :=
  match cs with
  | '0' :: rest@(_ :: _) => rest.all Char.isDigit
  | _ => false

def dropSign (cs : List Char) : List Char :=
  match cs with
  | '+' :: rest => rest
  | '-' :: rest => rest
  | _ => cs

/-- An integer without a sign. -/
def nat? (w : String) : Option Nat :=
  let cs := w.toList
  let cs := match cs with | '+' :: rest => rest | _ => cs
  match based? cs with
  | some n => some n
  | none => if leadingZero (dropSign cs) then none else digits? 10 cs

/-- An integer after a minus sign. -/
def negative? (w : String) : Option Int :=
  match w.toList with
  | '-' :: cs =>
    let n :=
      match based? cs with
      | some n => some n
      | none => if leadingZero cs then none else digits? 10 cs
    n.map fun n => -(n : Int)
  | _ => none

/-- The integer that a word stands for, if the word is not too long for one. -/
def int? (w : String) : Option Int :=
  match nat? w with
  | some n => if n < 2 ^ (128 : Nat) then some n else none
  | none => (negative? w).filter fun i => -(2 ^ (127 : Nat)) ≤ i

/-- Digits, a point and an exponent in one of the forms that a float may have. -/
def decimal? (cs : List Char) : Option (Nat × Int) :=
  let whole := cs.takeWhile Char.isDigit
  let rest := cs.dropWhile Char.isDigit
  let (frac, rest) :=
    match rest with
    | '.' :: rest => (rest.takeWhile Char.isDigit, rest.dropWhile Char.isDigit)
    | _ => ([], rest)
  if whole.isEmpty && frac.isEmpty then none
  else
    let value := (whole ++ frac).foldl (fun n d => n * 10 + (d.toNat - 48)) 0
    let finish (e : Int) := some (value, e - frac.length)
    match rest with
    | [] => finish 0
    | c :: rest =>
      if c = 'e' ∨ c = 'E' then
        match rest with
        | '-' :: rest => (digits? 10 rest).bind fun e => finish (-(min e 100000 : Nat))
        | '+' :: rest => (digits? 10 rest).bind fun e => finish (min e 100000 : Nat)
        | rest => (digits? 10 rest).bind fun e => finish (min e 100000 : Nat)
      else none

/-- The float that a word stands for; a word for no finite float stands for nothing. -/
def float? (w : String) : Option (Option Binary64) :=
  let cs := w.toList
  let unsigned := match cs with | '+' :: rest => rest | _ => cs
  if String.ofList unsigned ∈ [".inf", ".Inf", ".INF"] ∨ w ∈ ["-.inf", "-.Inf", "-.INF"] ∨
      w ∈ [".nan", ".NaN", ".NAN"] then
    some none
  else
    let (negative, cs) :=
      match unsigned with
      | '-' :: rest => (true, rest)
      | cs => (false, cs)
    match cs with
    | c :: _ =>
      if c = '+' ∨ (unsigned.length < w.length ∧ negative) then none
      else
        match decimal? cs with
        | some (digits, scale) => (Binary64.ofDecimal negative digits scale).map some
        | none => none
    | [] => none

/-- What an unquoted word is when nobody asks for a type. -/
def type (w : String) : WordType :=
  if w.isEmpty ∨ isNull w then .null
  else
    match bool? w with
    | some b => .bool b
    | none =>
      match int? w with
      | some i => if Number.InRange (.int i) then .num (.int i) else .huge
      | none =>
        let cs := w.toList
        if leadingZero (dropSign cs) then .text
        else
          match float? w with
          | some (some x) => .num (.float x)
          | some none => .null
          | none => .text

end Word

mutual

/-- Settle the types that are still open. -/
def settled : Source → Source
  | .plain w =>
    match Word.type w with
    | .null => .null
    | .bool b => .bool b
    | .num n => .num n
    | .huge => .huge
    | .text => .str w
  | .typed _ v => v
  | .arr items stop => .arr (settledItems items) stop
  | .obj fields stop => .obj (settledFields fields) stop
  | v => v

def settledItems : List Source → List Source
  | [] => []
  | v :: rest => settled v :: settledItems rest

def settledFields : List (String × Source) → List (String × Source)
  | [] => []
  | (name, v) :: rest => (name, settled v) :: settledFields rest

end

/-- How a message calls a number. -/
def describeNumber : Number → String
  | .int i => "integer " ++ DecodeError.variantList.ticked (toString i)
  | .float x => "floating point " ++ DecodeError.variantList.ticked (Number.float x).toString

/-- How a message calls a value. -/
def describe : Source → String
  | .null => "null"
  | .bool b => "boolean " ++ DecodeError.variantList.ticked (if b then "true" else "false")
  | .num n => describeNumber n
  | .str s => "string " ++ Text.shown s
  | .plain w => "string " ++ Text.shown w
  | .typed w _ => "string " ++ Text.shown w
  | .arr .. => "sequence"
  | .obj .. => "map"
  | .tagged _ => "enum"
  | .huge => "number"
  | .broken _ => "nothing"

/-- A value of another type than the one wanted, unless the text breaks off in it. -/
def mismatch (wanted : String) (v : Source) : DecodeError :=
  match v with
  | .broken why => .text why
  | .huge => .text .malformed
  | v => .wrongType v.describe wanted

/-- A value without the tag that marks it. -/
def untagged : Source → Source
  | .tagged v => v
  | v => v

/-- Null and the unquoted words for it stand for nothing. -/
def isAbsent : Source → Bool
  | .null => true
  | .typed _ .null => true
  | .plain w => w.isEmpty || Word.isNull w
  | _ => false

end Source

namespace Decode

open Source

/-- A text. Any unquoted word is one. -/
def string (v : Source) : Except DecodeError String :=
  match v.untagged with
  | .str s => .ok s
  | .plain w => .ok w
  | .typed w _ => .ok w
  | v => .error (v.mismatch "a string")

def bool : Decoder Bool
  | .bool b => .ok b
  | .plain w =>
    match Word.bool? w with
    | some b => .ok b
    | none => .error (Source.mismatch "a boolean" (.plain w))
  | v => .error (v.mismatch "a boolean")

/-- An integer within bounds, called by the name of its type. -/
def integer (low high : Int) (type : String) (v : Source) : Except DecodeError Int :=
  match v.settled with
  | .num (.int i) =>
    if low ≤ i ∧ i < high then .ok i
    else .error (.wrongValue (describeNumber (.int i)) type)
  | v => .error (v.mismatch type)

/-- A natural number of 64 bits. -/
def nat64 (v : Source) : Except DecodeError Nat :=
  (integer 0 (2 ^ (64 : Nat)) "u64" v).map Int.toNat

/-- A natural number of 32 bits. -/
def nat32 (v : Source) : Except DecodeError Nat :=
  (integer 0 (2 ^ (32 : Nat)) "u32" v).map Int.toNat

/-- An integer of 64 bits. -/
def int64 (v : Source) : Except DecodeError Int :=
  integer (-(2 ^ (63 : Nat))) (2 ^ (63 : Nat)) "i64" v

/-- A value that may be null. -/
def option (decode : Decoder α) (v : Source) : Except DecodeError (Option α) :=
  if v.isAbsent then .ok none else (decode v).map some

/-- The items of an array one after another. -/
def listItems (decode : Decoder α) : List Source → Except DecodeError (List α)
  | [] => .ok []
  | v :: rest =>
    match decode v with
    | .error e => .error e
    | .ok x =>
      match listItems decode rest with
      | .error e => .error e
      | .ok xs => .ok (x :: xs)

/-- What is met behind the last item or field. -/
def stopError (stop : Option TextFault) : Except DecodeError Unit :=
  match stop with
  | some why => .error (.text why)
  | none => .ok ()

/-- An array. An empty word stands for the empty one. -/
def list (decode : Decoder α) (v : Source) : Except DecodeError (List α) :=
  match v.untagged with
  | .arr items stop =>
    match listItems decode items with
    | .error e => .error e
    | .ok xs =>
      match stopError stop with
      | .error e => .error e
      | .ok () => .ok xs
  | .plain "" => .ok []
  | v => .error (v.mismatch "a sequence")

/-- The fields of an object one after another. -/
def mapFields (decode : Decoder α) :
    List (String × Source) → Except DecodeError (List (String × α))
  | [] => .ok []
  | (name, v) :: rest =>
    match decode v with
    | .error e => .error e
    | .ok x =>
      match mapFields decode rest with
      | .error e => .error e
      | .ok xs => .ok ((name, x) :: xs)

/-- An object with values of one type; of two fields with one name the later wins. -/
def map (decode : Decoder α) (v : Source) : Except DecodeError (Fields α) :=
  match v.untagged with
  | .obj fields stop =>
    match mapFields decode fields with
    | .error e => .error e
    | .ok xs =>
      match stopError stop with
      | .error e => .error e
      | .ok () => .ok (Fields.ofList xs)
  | .plain "" => .ok []
  | v => .error (v.mismatch "a map")

mutual

/-- Any data. -/
def data : Source → Except DecodeError Data
  | .null => .ok .null
  | .bool b => .ok (.bool b)
  | .num n => .ok (.num n)
  | .huge => .error (.text .malformed)
  | .str s => .ok (.str s)
  | .plain w =>
    match Word.type w with
    | .null => .ok .null
    | .bool b => .ok (.bool b)
    | .num n => .ok (.num n)
    | .huge => .error (.text .malformed)
    | .text => .ok (.str w)
  | .typed _ v => data v
  | .tagged _ => .error (.wrongType "enum" "any valid JSON value")
  | .arr items stop =>
    match dataItems items with
    | .error e => .error e
    | .ok xs =>
      match stopError stop with
      | .error e => .error e
      | .ok () => .ok (.arr xs)
  | .obj fields stop =>
    match dataFields fields with
    | .error e => .error e
    | .ok xs =>
      match stopError stop with
      | .error e => .error e
      | .ok () => .ok (.obj (Fields.ofList xs))
  | .broken why => .error (.text why)

def dataItems : List Source → Except DecodeError (List Data)
  | [] => .ok []
  | v :: rest =>
    match data v with
    | .error e => .error e
    | .ok x =>
      match dataItems rest with
      | .error e => .error e
      | .ok xs => .ok (x :: xs)

def dataFields : List (String × Source) → Except DecodeError (List (String × Data))
  | [] => .ok []
  | (name, v) :: rest =>
    match data v with
    | .error e => .error e
    | .ok x =>
      match dataFields rest with
      | .error e => .error e
      | .ok xs => .ok ((name, x) :: xs)

end

/-- An instant in the lenient form. -/
def instant (v : Source) : Except DecodeError Instant :=
  match v with
  | .str s => (Instant.parse s).mapError .wrongTime
  | .plain w => (Instant.parse w).mapError .wrongTime
  | v => .error (v.mismatch "an RFC 3339 formatted date and time string")

/-- Whether anything in a source that nobody asks for stops the reading of it. -/
def skip : Source → Except DecodeError Unit
  | .arr items stop => do skipItems items; skipStop stop
  | .obj fields stop => do skipFields fields; skipStop stop
  | .tagged v => skip v
  | .broken why => skipStop (some why)
  | _ => .ok ()
where
  skipStop : Option TextFault → Except DecodeError Unit
    | some .unsuitable => .ok ()
    | stop => stopError stop
  skipItems : List Source → Except DecodeError Unit
    | [] => .ok ()
    | v :: rest => do skip v; skipItems rest
  skipFields : List (String × Source) → Except DecodeError Unit
    | [] => .ok ()
    | (_, v) :: rest => do skip v; skipFields rest

/-- A field of a record: its name and what its value has to pass. -/
structure FieldSpec where
  name : String
  check : Source → Except DecodeError Unit

/-- A field whose value has to be decoded. -/
def FieldSpec.of (name : String) (decode : Decoder α) : FieldSpec :=
  ⟨name, fun v => (decode v).map fun _ => ()⟩

/-- The known fields of a record in the order of the text, each checked where it stands. -/
def recordFields (specs : List FieldSpec) (seen : List String) :
    List (String × Source) → Except DecodeError (List (String × Source))
  | [] => .ok []
  | (name, v) :: rest =>
    match specs.find? (·.name == name) with
    | none =>
      match skip v with
      | .error e => .error e
      | .ok () => recordFields specs seen rest
    | some spec =>
      if name ∈ seen then .error (.duplicateField name)
      else
        match spec.check v with
        | .error e => .error e
        | .ok () =>
          match recordFields specs (name :: seen) rest with
          | .error e => .error e
          | .ok fields => .ok ((name, v) :: fields)

/-- The fields of a record that is given as an array: its items in the order of the specs. -/
def positionalFields (specs : List FieldSpec) (items : List Source) :
    Except DecodeError (List (String × Source)) :=
  match specs, items with
  | [], _ => .ok []
  | _, [] => .ok []
  | spec :: specs, v :: items =>
    match spec.check v with
    | .error e => .error e
    | .ok () =>
      match positionalFields specs items with
      | .error e => .error e
      | .ok fields => .ok ((spec.name, v) :: fields)

/-- The fields of a record, which is an object or an array of all its fields in order.
`needed` tells the fields without which an array is too short. -/
def record (type : String) (specs : List FieldSpec) (needed : String → Bool) (v : Source) :
    Except DecodeError (List (String × Source)) :=
  match v.untagged with
  | .obj fields stop =>
    match recordFields specs [] fields with
    | .error e => .error e
    | .ok known =>
      match stopError stop with
      | .error e => .error e
      | .ok () => .ok known
  | .arr items stop =>
    match positionalFields specs items with
    | .error e => .error e
    | .ok known =>
      match (specs.drop items.length).findIdx? fun spec => needed spec.name with
      | some i =>
        match stopError stop with
        | .error e => .error e
        | .ok () =>
          .error (.wrongLength (items.length + i)
            ("struct " ++ type ++ " with " ++ toString specs.length ++
              (if specs.length = 1 then " element" else " elements")))
      | none =>
        if specs.length < items.length then .error (.text .malformed)
        else
          match stopError stop with
          | .error e => .error e
          | .ok () => .ok known
  | .plain "" => .ok []
  | v => .error (v.mismatch ("struct " ++ type))

/-- A field that has to be there. -/
def required (fields : List (String × Source)) (name : String) (decode : Decoder α) :
    Except DecodeError α :=
  match fields.lookup name with
  | some v => decode v
  | none => .error (.missingField name)

/-- A field that may be missing. -/
def optional (fields : List (String × Source)) (name : String) (decode : Decoder α) :
    Except DecodeError (Option α) :=
  match fields.lookup name with
  | some v => option decode v
  | none => .ok none

/-- A field with a value that it has when it is missing. -/
def defaulted (fields : List (String × Source)) (name : String) (decode : Decoder α)
    (missing : α) : Except DecodeError α :=
  match fields.lookup name with
  | some v => decode v
  | none => .ok missing

end Decode

end DurableFlow
