import DurableFlow.Id

/-!
# Fresh ids differ

The serial number of a fresh id can be read back from its digits, so two moments never hand
out the same id.
-/

namespace DurableFlow

namespace Id

/-- What a hexadecimal digit counts. -/
def digitValue (c : Char) : Nat := (List.range 16).findIdx fun n => Nat.digitChar n == c

/-- The number that hexadecimal digits spell. -/
def number (digits : List Char) : Nat :=
  digits.foldl (fun sum c => 16 * sum + digitValue c) 0

theorem digitValue_digitChar {n : Nat} (h : n < 16) : digitValue (Nat.digitChar n) = n := by
  have all : ∀ k ∈ List.range 16, digitValue (Nat.digitChar k) = k := by decide
  exact all n (List.mem_range.mpr h)

theorem number_append_digit (digits : List Char) (c : Char) :
    number (digits ++ [c]) = 16 * number digits + digitValue c := by
  simp [number]

theorem number_toDigits (n : Nat) : number (Nat.toDigits 16 n) = n := by
  induction n using Nat.strongRecOn with
  | ind n ih =>
    by_cases small : n < 16
    · rw [Nat.toDigits_of_lt_base small]
      simp [number, digitValue_digitChar small]
    · rw [Nat.toDigits_of_base_le (by decide) (by omega), number_append_digit,
        ih (n / 16) (by omega), digitValue_digitChar (Nat.mod_lt n (by decide))]
      omega

/-- Zeros in front count nothing. -/
theorem number_padded (count : Nat) (digits : List Char) :
    number (List.replicate count '0' ++ digits) = number digits := by
  have zeros : (List.replicate count '0').foldl (fun sum c => 16 * sum + digitValue c) 0 = 0 := by
    induction count with
    | zero => rfl
    | succ count ih => exact ih
  rw [number, List.foldl_append, zeros, number]

theorem number_hex (width n : Nat) : number (hex width n).toList = n := by
  rw [hex, String.toList_ofList, number_padded, number_toDigits]

theorem hex_injective {width m n : Nat} (h : hex width m = hex width n) : m = n := by
  rw [← number_hex width m, h, number_hex]

theorem fresh_injective {m n : Nat} (h : fresh m = fresh n) : m = n :=
  hex_injective ((String.append_right_inj _).mp h)

end Id

end DurableFlow
