import DurableFlow.Data.Basic
import DurableFlow.Proofs.Number.Rounding

/-!
# Equality by value

Two values may say the same with numbers of different forms. Equality of data tells these
apart at every depth: it is equality by value together with agreement of the forms.
-/

namespace DurableFlow

namespace Number

/-- Both numbers are integers, or both are floats. -/
def SameForm : Number → Number → Prop
  | .int _, .int _ => True
  | .float _, .float _ => True
  | _, _ => False

theorem same_iff {m n : Number} : m.same n = true ↔ m.value = n.value ∧ m.SameForm n := by
  cases m with
  | int i =>
    cases n with
    | int j => simp [same, value, SameForm]
    | float y => simp [same, SameForm]
  | float x =>
    cases n with
    | int j => simp [same, SameForm]
    | float y => simp [same, value, SameForm, Binary64.same_iff]

end Number

namespace Data

mutual

/-- Equality of data with numbers compared by their values, whatever forms they have, at
every depth of arrays and objects. -/
def EqualByValue : Data → Data → Prop
  | .null, .null => True
  | .bool a, .bool b => a = b
  | .num m, .num n => m.value = n.value
  | .str s, .str t => s = t
  | .arr xs, .arr ys => ItemsEqualByValue xs ys
  | .obj xs, .obj ys => FieldsEqualByValue xs ys
  | _, _ => False

def ItemsEqualByValue : List Data → List Data → Prop
  | [], [] => True
  | x :: xs, y :: ys => EqualByValue x y ∧ ItemsEqualByValue xs ys
  | _, _ => False

def FieldsEqualByValue : List (String × Data) → List (String × Data) → Prop
  | [], [] => True
  | (m, x) :: xs, (n, y) :: ys => (m = n ∧ EqualByValue x y) ∧ FieldsEqualByValue xs ys
  | _, _ => False

end

mutual

/-- Where numbers stand at one place of both values, they have one form. -/
def SameForms : Data → Data → Prop
  | .num m, .num n => m.SameForm n
  | .arr xs, .arr ys => ItemsSameForms xs ys
  | .obj xs, .obj ys => FieldsSameForms xs ys
  | _, _ => True

def ItemsSameForms : List Data → List Data → Prop
  | x :: xs, y :: ys => SameForms x y ∧ ItemsSameForms xs ys
  | _, _ => True

def FieldsSameForms : List (String × Data) → List (String × Data) → Prop
  | (_, x) :: xs, (_, y) :: ys => SameForms x y ∧ FieldsSameForms xs ys
  | _, _ => True

end

mutual

/-- Values are the same if they are equal by value and their numbers agree in form. -/
theorem same_iff : (x y : Data) → (x.same y = true ↔ x.EqualByValue y ∧ x.SameForms y)
  | .null, y => by cases y <;> simp [same, EqualByValue, SameForms]
  | .bool _, y => by cases y <;> simp [same, EqualByValue, SameForms]
  | .num _, y => by cases y <;> simp [same, EqualByValue, SameForms, Number.same_iff]
  | .str _, y => by cases y <;> simp [same, EqualByValue, SameForms]
  | .arr xs, y => by
    cases y with
    | arr ys => simpa only [same, EqualByValue, SameForms] using sameItems_iff xs ys
    | _ => simp [same, EqualByValue]
  | .obj xs, y => by
    cases y with
    | obj ys => simpa only [same, EqualByValue, SameForms] using sameFields_iff xs ys
    | _ => simp [same, EqualByValue]

theorem sameItems_iff : (xs ys : List Data) →
    (sameItems xs ys = true ↔ ItemsEqualByValue xs ys ∧ ItemsSameForms xs ys)
  | [], ys => by cases ys <;> simp [sameItems, ItemsEqualByValue, ItemsSameForms]
  | x :: xs, [] => by simp [sameItems, ItemsEqualByValue]
  | x :: xs, y :: ys => by
    have first := same_iff x y
    have rest := sameItems_iff xs ys
    simp only [sameItems, ItemsEqualByValue, ItemsSameForms, Bool.and_eq_true, first, rest]
    tauto

theorem sameFields_iff : (xs ys : List (String × Data)) →
    (sameFields xs ys = true ↔ FieldsEqualByValue xs ys ∧ FieldsSameForms xs ys)
  | [], ys => by cases ys <;> simp [sameFields, FieldsEqualByValue, FieldsSameForms]
  | x :: xs, [] => by simp [sameFields, FieldsEqualByValue]
  | (m, x) :: xs, (n, y) :: ys => by
    have first := same_iff x y
    have rest := sameFields_iff xs ys
    simp only [sameFields, FieldsEqualByValue, FieldsSameForms, Bool.and_eq_true, beq_iff_eq,
      first, rest]
    tauto

end

end Data

end DurableFlow
