import DurableFlow.Data.Basic

/-!
# Values as they stand in a text

A `Source` keeps what plain data forgets: fields in the order of the text with their
repetitions, scalars whose type is still open, and the place where reading had to
stop. Whoever decodes it meets faults of the text and faults of the content in the
order in which they stand.
-/

namespace DurableFlow

/-- Why a text could not be read on. -/
inductive TextFault where
  /-- The text breaks the rules of its notation. -/
  | malformed
  /-- The text ends where something has to follow. -/
  | truncated
  /-- What stands in the text cannot be taken for any value, which matters to those alone
  who ask for it. -/
  | unsuitable
deriving DecidableEq, Repr

/-- A value as it stands in a text. -/
inductive Source where
  | null
  | bool (value : Bool)
  | num (value : Number)
  /-- A number that is too large to be held. -/
  | huge
  | str (value : String)
  /-- An unquoted word, whose type is what the reader of it asks for. -/
  | plain (word : String)
  /-- An unquoted word whose type is given with it. -/
  | typed (word : String) (value : Source)
  /-- A value marked with a tag that no type here goes by. -/
  | tagged (value : Source)
  | arr (items : List Source) (stop : Option TextFault)
  | obj (fields : List (String × Source)) (stop : Option TextFault)
  /-- The text cannot be read from here on. -/
  | broken (why : TextFault)
deriving Repr

namespace Source

instance : Inhabited Source := ⟨.null⟩

mutual

/-- Data as a source: the fields stand in the order of their names. -/
def ofData : Data → Source
  | .null => .null
  | .bool b => .bool b
  | .num n => .num n
  | .str s => .str s
  | .arr items => .arr (ofItems items) none
  | .obj fields => .obj (ofFields fields) none

def ofItems : List Data → List Source
  | [] => []
  | v :: rest => ofData v :: ofItems rest

def ofFields : List (String × Data) → List (String × Source)
  | [] => []
  | (name, v) :: rest => (name, ofData v) :: ofFields rest

end

end Source

end DurableFlow
