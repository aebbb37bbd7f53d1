import DurableFlow.Data.Compact
import DurableFlow.Source.Reader
import Mathlib.Data.String.Basic

/-!
# The text that data is kept as

Strings are written and texts are read one character at a time, so both are best looked at
as lists of characters.
-/

namespace DurableFlow

/-- Characters that need no escape are put behind what has been written, as they are. -/
theorem Data.foldl_escape_of_plain {cs : List Char}
    (plain : ∀ c ∈ cs, escape c = c.toString) (out : String) :
    cs.foldl (fun out c => out ++ escape c) out = out ++ String.ofList cs := by
  induction cs generalizing out with
  | nil => simp
  | cons c cs ih =>
    have rest : ∀ c ∈ cs, escape c = c.toString :=
      fun c member => plain c (List.mem_cons_of_mem _ member)
    rw [List.foldl_cons, ih rest, plain c List.mem_cons_self, ← String.toList_inj]
    simp [Char.toString]

/-- A string without special characters stands between its quotes as it is. -/
theorem Data.quoted_of_plain {s : String}
    (plain : (s.toList.all fun c => escape c == c.toString) = true) :
    quoted s = "\"" ++ s ++ "\"" := by
  have plain : ∀ c ∈ s.toList, escape c = c.toString := fun c member =>
    eq_of_beq (List.all_eq_true.mp plain c member)
  rw [quoted, String.foldl_eq_foldl_toList, foldl_escape_of_plain plain, String.ofList_toList,
    String.empty_append]

theorem Source.read_eq {text : String} {cs : List Char} (chars : text.toList = cs) :
    Source.read text =
      match Source.Reader.value (2 * cs.length + 2) Source.Reader.maxDepth cs with
      | (v, some rest) =>
        (v, match Source.Reader.skipBlanks rest with
          | [] => none
          | _ :: _ => some .malformed)
      | (v, none) => (v, none) := by
  subst chars
  rfl

end DurableFlow
