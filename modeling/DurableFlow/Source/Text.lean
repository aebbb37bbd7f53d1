import DurableFlow.Data.Compact
import DurableFlow.Source.Decode
import DurableFlow.Source.Reader

/-!
# Decoding texts

A text is decoded as it is read: what is wrong with its content is reported before the
place at which it cannot be read on, if it stands before that place.
-/

namespace DurableFlow

/-- Decode a text that holds one value. -/
def Source.decodeText {α : Type} (decode : Decoder α) (text : String) : Except DecodeError α :=
  let (source, stop) := Source.read text
  match decode source, stop with
  | .error e, _ => .error e
  | .ok _, some why => .error (.text why)
  | .ok value, none => .ok value

/-- The value that is read back once this one has been written as a text. A float of many
digits may come back as one of its neighbours, and data that is nested too deeply does not
come back at all. -/
def Data.reread (v : Data) : Except DecodeError Data := Source.decodeText Decode.data v.compact

end DurableFlow
