import DurableFlow.Data.Compact
import DurableFlow.Source.Reader
import Mathlib.Data.String.Basic

/-!
# Strings in compact text

A string is read back as it was written, and reading stops behind its closing quote.
-/

namespace DurableFlow

namespace Source

namespace Reader

/-- The characters that stand for one within quotes. -/
def spelled (c : Char) : List Char := (Data.escape c).toList

theorem foldl_escape (cs : List Char) (out : String) :
    (cs.foldl (fun out c => out ++ Data.escape c) out).toList =
      out.toList ++ cs.flatMap spelled := by
  induction cs generalizing out with
  | nil => simp
  | cons c cs ih => rw [List.foldl_cons, ih, String.toList_append, List.flatMap_cons,
      List.append_assoc, spelled]

theorem toList_quoted (s : String) :
    (Data.quoted s).toList = '"' :: (s.toList.flatMap spelled ++ ['"']) := by
  rw [Data.quoted, String.toList_append, String.toList_append, String.foldl_eq_foldl_toList,
    foldl_escape]
  rfl

theorem hexValue?_digitChar {n : Nat} (h : n < 16) : hexValue? (Nat.digitChar n) = some n := by
  have all : ∀ k ∈ List.range 16, hexValue? (Nat.digitChar k) = some k := by decide
  exact all n (List.mem_range.mpr h)

/-- A control character is read from its number. -/
theorem codeUnit_control {n : Nat} (h : n < 32) (rest : List Char) :
    codeUnit ('0' :: '0' :: Nat.digitChar (n / 16 % 16) :: Nat.digitChar (n % 16) :: rest) =
      .ok (n, rest) := by
  have high := hexValue?_digitChar (show n / 16 % 16 < 16 by omega)
  have low := hexValue?_digitChar (show n % 16 < 16 by omega)
  have zero : hexValue? '0' = some 0 := by decide
  simp only [codeUnit, zero, high, low]
  have same : ((0 * 16 + 0) * 16 + n / 16 % 16) * 16 + n % 16 = n := by omega
  rw [same]

/-- Whatever a character is spelled as, it is read with one step. -/
theorem string_spelled (fuel : Nat) (done : List Char) (c : Char) (rest : List Char) :
    string (fuel + 1) done (spelled c ++ rest) = string fuel (c :: done) rest := by
  unfold spelled Data.escape
  split
  · rfl
  · rfl
  · rfl
  · rfl
  · rfl
  · rename_i quote back line carriage tab
    split
    · rename_i eight
      have is : c = Char.ofNat 8 := by rw [← eight, Char.ofNat_toNat]
      subst is
      rfl
    · split
      · rename_i _ twelve
        have is : c = Char.ofNat 12 := by rw [← twelve, Char.ofNat_toNat]
        subst is
        rfl
      · split
        · rename_i small
          have whole : ("\\u00" ++ Data.hexByte c.toNat).toList = '\\' :: 'u' :: '0' :: '0' ::
              Nat.digitChar (c.toNat / 16 % 16) :: [Nat.digitChar (c.toNat % 16)] := by
            rw [String.toList_append, Data.hexByte]
            simp
          have own : ¬ (0xDC00 ≤ c.toNat ∧ c.toNat ≤ 0xDFFF) := by omega
          have own' : ¬ (0xD800 ≤ c.toNat ∧ c.toNat ≤ 0xDBFF) := by omega
          rw [whole]
          simp only [List.cons_append, List.nil_append, string, escaped]
          rw [codeUnit_control small]
          simp only [bind, Except.bind, if_neg own, if_neg own', Char.ofNat_toNat]
        · rename_i _ _ large
          have alone : (c.toString).toList = [c] := by simp [Char.toString]
          rw [alone, List.singleton_append, string.eq_def]
          split <;> simp_all

/-- A string is read up to the quote that closes it. -/
theorem string_flatMap {fuel : Nat} (cs : List Char) (enough : cs.length < fuel)
    (done rest : List Char) :
    string fuel done (cs.flatMap spelled ++ '"' :: rest) =
      .ok (String.ofList (done.reverse ++ cs), rest) := by
  induction cs generalizing fuel done with
  | nil =>
    obtain ⟨fuel, rfl⟩ := Nat.exists_eq_add_of_lt enough
    simp [string]
  | cons c cs ih =>
    rw [List.length_cons] at enough
    obtain ⟨fuel, rfl⟩ : ∃ n, fuel = n + 1 := ⟨fuel - 1, by omega⟩
    rw [List.flatMap_cons, List.append_assoc, string_spelled, ih (by omega)]
    simp

theorem length_spelled (c : Char) : 0 < (spelled c).length := by
  rw [List.length_pos_iff]
  intro empty
  have taken := string_spelled 1 [] c ['"']
  rw [empty] at taken
  simp [string] at taken

theorem length_flatMap_spelled (cs : List Char) : cs.length ≤ (cs.flatMap spelled).length := by
  induction cs with
  | nil => exact Nat.le_refl 0
  | cons c cs ih =>
    have one := length_spelled c
    rw [List.flatMap_cons, List.length_append, List.length_cons]
    omega

/-- A string is read back from behind its opening quote. -/
theorem string_quoted (s : String) (rest : List Char) :
    string ((s.toList.flatMap spelled ++ '"' :: rest).length + 1) []
      (s.toList.flatMap spelled ++ '"' :: rest) = .ok (s, rest) := by
  have short := length_flatMap_spelled s.toList
  rw [string_flatMap s.toList (by rw [List.length_append]; omega), List.reverse_nil,
    List.nil_append, String.ofList_toList]

end Reader

end Source

end DurableFlow
