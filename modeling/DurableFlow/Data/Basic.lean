import DurableFlow.Data.Fields
import DurableFlow.Number.Basic

/-!
# Structured data

The values that workflows pass around: configuration, variables, outputs and
payloads are all of this one type.
-/

namespace DurableFlow

/-- A value that workflows pass around. -/
inductive Data where
  | null
  | bool (value : Bool)
  | num (value : Number)
  | str (value : String)
  | arr (items : List Data)
  | obj (fields : List (String × Data))
deriving Repr

namespace Data

instance : Inhabited Data := ⟨.null⟩

mutual

/-- Values are compared part by part. -/
def decEq : (a b : Data) → Decidable (a = b)
  | .null, .null => isTrue rfl
  | .bool x, .bool y => if h : x = y then isTrue (by rw [h]) else isFalse (by simp [h])
  | .num x, .num y => if h : x = y then isTrue (by rw [h]) else isFalse (by simp [h])
  | .str x, .str y => if h : x = y then isTrue (by rw [h]) else isFalse (by simp [h])
  | .arr x, .arr y =>
    match decEqItems x y with
    | isTrue h => isTrue (by rw [h])
    | isFalse h => isFalse (by simp [h])
  | .obj x, .obj y =>
    match decEqFields x y with
    | isTrue h => isTrue (by rw [h])
    | isFalse h => isFalse (by simp [h])
  | .null, .bool _ => isFalse nofun
  | .null, .num _ => isFalse nofun
  | .null, .str _ => isFalse nofun
  | .null, .arr _ => isFalse nofun
  | .null, .obj _ => isFalse nofun
  | .bool _, .null => isFalse nofun
  | .bool _, .num _ => isFalse nofun
  | .bool _, .str _ => isFalse nofun
  | .bool _, .arr _ => isFalse nofun
  | .bool _, .obj _ => isFalse nofun
  | .num _, .null => isFalse nofun
  | .num _, .bool _ => isFalse nofun
  | .num _, .str _ => isFalse nofun
  | .num _, .arr _ => isFalse nofun
  | .num _, .obj _ => isFalse nofun
  | .str _, .null => isFalse nofun
  | .str _, .bool _ => isFalse nofun
  | .str _, .num _ => isFalse nofun
  | .str _, .arr _ => isFalse nofun
  | .str _, .obj _ => isFalse nofun
  | .arr _, .null => isFalse nofun
  | .arr _, .bool _ => isFalse nofun
  | .arr _, .num _ => isFalse nofun
  | .arr _, .str _ => isFalse nofun
  | .arr _, .obj _ => isFalse nofun
  | .obj _, .null => isFalse nofun
  | .obj _, .bool _ => isFalse nofun
  | .obj _, .num _ => isFalse nofun
  | .obj _, .str _ => isFalse nofun
  | .obj _, .arr _ => isFalse nofun

def decEqItems : (a b : List Data) → Decidable (a = b)
  | [], [] => isTrue rfl
  | x :: xs, y :: ys =>
    match decEq x y, decEqItems xs ys with
    | isTrue h, isTrue hs => isTrue (by rw [h, hs])
    | isFalse h, _ => isFalse (by simp [h])
    | _, isFalse h => isFalse (by simp [h])
  | [], _ :: _ => isFalse nofun
  | _ :: _, [] => isFalse nofun

def decEqFields : (a b : List (String × Data)) → Decidable (a = b)
  | [], [] => isTrue rfl
  | (m, x) :: xs, (n, y) :: ys =>
    if hn : m = n then
      match decEq x y, decEqFields xs ys with
      | isTrue h, isTrue hs => isTrue (by rw [hn, h, hs])
      | isFalse h, _ => isFalse (by simp [h])
      | _, isFalse h => isFalse (by simp [h])
    else isFalse (by simp [hn])
  | [], _ :: _ => isFalse nofun
  | _ :: _, [] => isFalse nofun

end

instance : DecidableEq Data := decEq

mutual

/-- Equality of data, floats being equal by value. -/
def same : Data → Data → Bool
  | .null, .null => true
  | .bool x, .bool y => x == y
  | .num x, .num y => x.same y
  | .str x, .str y => x == y
  | .arr x, .arr y => sameItems x y
  | .obj x, .obj y => sameFields x y
  | _, _ => false

def sameItems : List Data → List Data → Bool
  | [], [] => true
  | x :: xs, y :: ys => same x y && sameItems xs ys
  | _, _ => false

def sameFields : List (String × Data) → List (String × Data) → Bool
  | [], [] => true
  | (m, x) :: xs, (n, y) :: ys => m == n && same x y && sameFields xs ys
  | _, _ => false

end

/-- An integer as data. -/
def int (i : Int) : Data := .num (.ofInt i)

/-- A count as data. -/
def nat (n : Nat) : Data := .num (.ofInt n)

/-- A list of texts as data. -/
def texts (items : List String) : Data := .arr (items.map .str)

/-- An absent value is written as null. -/
def ofOption : Option Data → Data
  | some v => v
  | none => .null

/-- An object from pairs, a later pair winning. -/
def ofPairs (pairs : List (String × Data)) : Data := .obj (Fields.ofList pairs)

/-- The fields of an object. -/
def fields? : Data → Option (Fields Data)
  | .obj fields => some fields
  | _ => none

/-- The fields of an object; nothing else has any. -/
def fields (v : Data) : Fields Data := v.fields?.getD []

/-- The items of an array. -/
def items? : Data → Option (List Data)
  | .arr items => some items
  | _ => none

/-- The text of a string. -/
def text? : Data → Option String
  | .str s => some s
  | _ => none

def bool? : Data → Option Bool
  | .bool b => some b
  | _ => none

def isNull : Data → Bool
  | .null => true
  | _ => false

/-- The value of a field of an object. -/
def field? (v : Data) (name : String) : Option Data := Fields.get? v.fields name

/-- The value of a field, null when there is none. -/
def field (v : Data) (name : String) : Data := (v.field? name).getD .null

/-- The item of an array at a position. -/
def item? (v : Data) (index : Nat) : Option Data := v.items?.bind (·[index]?)

end Data

namespace Exchange

/-- A field that is left out when there is no value for it. -/
def ifSome (name : String) (value : Option Data) : List (String × Data) :=
  match value with
  | some v => [(name, v)]
  | none => []

/-- A field with a text that may be absent. -/
def textIfSome (name : String) (value : Option String) : List (String × Data) :=
  ifSome name (value.map .str)

end Exchange

end DurableFlow
