import DurableFlow.Procedure.Builtin
import DurableFlow.Proofs.Number.Summing

/-!
# Adding integers

Data holds integers of 64 bits with a sign and those without one. Two integers of the signed
range are added exactly, or the addition is refused because the sum leaves that range. As soon
as one of the two is `2 ^ 63` or more they are added as floats: nothing is refused, the sum is
rounded, and from there on a chain of additions stays among the floats.
-/

namespace DurableFlow

namespace Builtin

variable {moment : Moment} {invocation : Invocation} {input : Data} {a b : Int}

/-- What an addition of two integers replies if no digit is lost. -/
inductive ExactOrRefused (a b : Int) : Reply → Prop
  | exact : ExactOrRefused a b (.output (.obj [("result", .num (.int (a + b)))]))
  | refused :
    ExactOrRefused a b
      (.failed (toString a ++ " + " ++ toString b ++ " overflows a 64-bit integer"))

/-- An input whose operands are two numbers. -/
structure Adds (input : Data) (m n : Number) : Prop where
  left : input.field? "a" = some (.num m)
  right : input.field? "b" = some (.num n)

/-- The input of an addition. -/
def operands (left right : Data) : Data := .obj [("a", left), ("b", right)]

theorem adds_operands (m n : Number) : Adds (operands (.num m) (.num n)) m n := ⟨rfl, rfl⟩

/-- The sum decides on the reply. -/
theorem add_reply {m n : Number} (adds : Adds input m n) :
    add.reply moment invocation input =
      match sum m n with
      | .ok value => .output (.obj [("result", value)])
      | .error text => .failed text := by
  simp only [add, operand, adds.left, adds.right]
  rfl

/-- Integers of the signed range are added exactly, or refused. -/
theorem sum_signed (left : a < 2 ^ (63 : Nat)) (right : b < 2 ^ (63 : Nat)) :
    sum (.int a) (.int b) =
      if -(2 ^ (63 : Nat)) ≤ a + b ∧ a + b < 2 ^ (63 : Nat) then .ok (.num (.int (a + b)))
      else .error (toString a ++ " + " ++ toString b ++ " overflows a 64-bit integer") := by
  simp only [sum, Number.toInt64?, if_pos left, if_pos right]
  split
  · rename_i inside
    rw [Data.int, Number.ofInt, if_pos]
    rw [Number.minInt, Number.intBound]
    omega
  · rfl

/-- An integer from `2 ^ 63` on takes the addition to the floats, where it always has a result. -/
theorem sum_unsigned (held : (Number.int a).InRange) (held' : (Number.int b).InRange)
    (beyond : ¬ (a < 2 ^ (63 : Nat) ∧ b < 2 ^ (63 : Nat))) :
    ∃ x : Binary64, sum (.int a) (.int b) = .ok (.num (.float x)) ∧
      x.IsNearest ((Number.int a).rounded + (Number.int b).rounded) := by
  obtain ⟨x, found, near⟩ := Number.add_near held held'
  refine ⟨x, ?_, near⟩
  unfold sum
  split
  · rename_i both both'
    simp only [Number.toInt64?, Option.ite_none_right_eq_some] at both both'
    exact absurd ⟨both.1, both'.1⟩ beyond
  · rw [found]
    rfl

/-- A float takes the addition to the floats as well. -/
theorem sum_float (x : Binary64) (n : Number) :
    ∃ value, sum (.float x) n = .ok value ∧
      (value = .null ∨ ∃ y : Binary64, value = .num (.float y)) := by
  refine ⟨_, rfl, ?_⟩
  cases (Number.toBinary64 (.float x)).add n.toBinary64 with
  | none => exact .inl rfl
  | some y => exact .inr ⟨y, rfl⟩

/-- The amounts are added one after another, each to the result of the addition before; an
addition that has no output ends the chain. -/
def addInTurn (moment : Moment) (invocation : Invocation) : Data → List Number → Except Reply Data
  | start, [] => .ok start
  | start, amount :: rest =>
    match add.reply moment invocation (operands start (.num amount)) with
    | .output output => addInTurn moment invocation (output.field "result") rest
    | reply => .error reply

/-- A chain goes on with the sum. -/
theorem addInTurn_ok {m n : Number} {value : Data} (is : sum m n = .ok value)
    (rest : List Number) :
    addInTurn moment invocation (.num m) (n :: rest) =
      addInTurn moment invocation value rest := by
  rw [addInTurn, add_reply (adds_operands m n), is]
  rfl

/-- A chain ends with the first refusal. -/
theorem addInTurn_error {m n : Number} {text : String} (is : sum m n = .error text)
    (rest : List Number) :
    addInTurn moment invocation (.num m) (n :: rest) = .error (.failed text) := by
  rw [addInTurn, add_reply (adds_operands m n), is]

/-- Nothing can be added to null. -/
theorem addInTurn_null (amount : Number) (rest : List Number) :
    addInTurn moment invocation .null (amount :: rest) =
      .error (.failed "'a' must be a number, got null") := rfl

/-- A chain that has come to a float never gets back to an integer. -/
theorem addInTurn_float (amounts : List Number) (x : Binary64) {total : Data}
    (ends : addInTurn moment invocation (.num (.float x)) amounts = .ok total) (i : Int) :
    total ≠ .num (.int i) := by
  induction amounts generalizing x with
  | nil =>
    cases ends
    simp
  | cons amount rest ih =>
    obtain ⟨value, is, rfl | ⟨y, rfl⟩⟩ := sum_float x amount
    · rw [addInTurn_ok is] at ends
      cases rest with
      | nil =>
        cases ends
        simp
      | cons next more =>
        rw [addInTurn_null] at ends
        cases ends
    · rw [addInTurn_ok is] at ends
      exact ih y ends

/-- A chain of additions in the signed range gives the sum of all amounts, or one of its
additions is refused. -/
theorem addInTurn_signed (amounts : List Int) (left : a < 2 ^ (63 : Nat))
    (right : ∀ i ∈ amounts, i < 2 ^ (63 : Nat)) :
    addInTurn moment invocation (.num (.int a)) (amounts.map .int) =
        .ok (.num (.int (a + amounts.sum))) ∨
      ∃ c d : Int, addInTurn moment invocation (.num (.int a)) (amounts.map .int) =
        .error (.failed (toString c ++ " + " ++ toString d ++ " overflows a 64-bit integer")) := by
  induction amounts generalizing a with
  | nil => exact .inl (by rw [List.sum_nil, Int.add_zero]; rfl)
  | cons i rest ih =>
    have small : i < 2 ^ (63 : Nat) := right i List.mem_cons_self
    have is := sum_signed left small
    split at is
    · rename_i inside
      rw [List.map_cons, addInTurn_ok is, List.sum_cons, ← Int.add_assoc]
      exact ih inside.2 fun j mem => right j (List.mem_cons_of_mem i mem)
    · exact .inr ⟨a, i, addInTurn_error is _⟩

/-- A chain of at least one addition of integers that comes to its end comes to an integer just
when the start and all amounts are below `2 ^ 63`. -/
theorem addInTurn_int_iff (amounts : List Int) (nonempty : amounts ≠ [])
    (held : (Number.int a).InRange) (helds : ∀ i ∈ amounts, (Number.int i).InRange) {total : Data}
    (ends : addInTurn moment invocation (.num (.int a)) (amounts.map .int) = .ok total) :
    (∃ i, total = .num (.int i)) ↔ a < 2 ^ (63 : Nat) ∧ ∀ i ∈ amounts, i < 2 ^ (63 : Nat) := by
  induction amounts generalizing a with
  | nil => exact absurd rfl nonempty
  | cons b rest ih =>
    have held' := helds b List.mem_cons_self
    by_cases signed : a < 2 ^ (63 : Nat) ∧ b < 2 ^ (63 : Nat)
    · have is := sum_signed signed.1 signed.2
      split at is
      · rename_i inside
        rw [List.map_cons, addInTurn_ok is] at ends
        rw [List.forall_mem_cons]
        cases rest with
        | nil =>
          cases ends
          exact ⟨fun _ => ⟨signed.1, signed.2, fun _ none => nomatch none⟩, fun _ => ⟨_, rfl⟩⟩
        | cons next more =>
          have sum_held : (Number.int (a + b)).InRange := by
            rw [Number.InRange, Number.minInt, Number.intBound]
            omega
          rw [ih (List.cons_ne_nil next more) sum_held
            (fun i mem => helds i (List.mem_cons_of_mem b mem)) ends]
          exact ⟨fun all => ⟨signed.1, signed.2, all.2⟩, fun all => ⟨inside.2, all.2.2⟩⟩
      · rw [List.map_cons, addInTurn_error is] at ends
        cases ends
    · obtain ⟨x, is, -⟩ := sum_unsigned held held' signed
      rw [List.map_cons, addInTurn_ok is] at ends
      constructor
      · rintro ⟨i, rfl⟩
        exact absurd rfl (addInTurn_float _ x ends i)
      · rintro ⟨left, right⟩
        exact absurd ⟨left, right b List.mem_cons_self⟩ signed

/-- An addition of two integers is exact or refused just when neither of them is `2 ^ 63` or
more, and then it is refused just when the sum leaves the signed range. With a larger operand it
is never refused and never null: it is a float nearest to the sum of the operands' floats. So a
chain of additions stays among the integers just when its start and all its amounts are below
`2 ^ 63`, and then it adds up exactly or is refused. -/
theorem add_exact_or_refused_iff (held : (Number.int a).InRange) (held' : (Number.int b).InRange)
    (adds : Adds input (.int a) (.int b)) :
    (ExactOrRefused a b (add.reply moment invocation input) ↔
          a < 2 ^ (63 : Nat) ∧ b < 2 ^ (63 : Nat)) ∧
      (a < 2 ^ (63 : Nat) → b < 2 ^ (63 : Nat) →
        add.reply moment invocation input =
          if -(2 ^ (63 : Nat)) ≤ a + b ∧ a + b < 2 ^ (63 : Nat) then
            .output (.obj [("result", .num (.int (a + b)))])
          else .failed (toString a ++ " + " ++ toString b ++ " overflows a 64-bit integer")) ∧
      (¬ (a < 2 ^ (63 : Nat) ∧ b < 2 ^ (63 : Nat)) →
        ∃ x : Binary64,
          add.reply moment invocation input = .output (.obj [("result", .num (.float x))]) ∧
            x.IsNearest ((Number.int a).rounded + (Number.int b).rounded)) ∧
      ∀ amounts : List Int, amounts ≠ [] → (∀ i ∈ amounts, (Number.int i).InRange) →
        (((∃ i, addInTurn moment invocation (.num (.int a)) (amounts.map .int) =
              .ok (.num (.int i))) →
            a < 2 ^ (63 : Nat) ∧ ∀ i ∈ amounts, i < 2 ^ (63 : Nat)) ∧
          (a < 2 ^ (63 : Nat) → (∀ i ∈ amounts, i < 2 ^ (63 : Nat)) →
            addInTurn moment invocation (.num (.int a)) (amounts.map .int) =
                .ok (.num (.int (a + amounts.sum))) ∨
              ∃ c d : Int, addInTurn moment invocation (.num (.int a)) (amounts.map .int) =
                .error (.failed
                  (toString c ++ " + " ++ toString d ++ " overflows a 64-bit integer")))) := by
  have signed : a < 2 ^ (63 : Nat) → b < 2 ^ (63 : Nat) →
      add.reply moment invocation input =
        if -(2 ^ (63 : Nat)) ≤ a + b ∧ a + b < 2 ^ (63 : Nat) then
          .output (.obj [("result", .num (.int (a + b)))])
        else .failed (toString a ++ " + " ++ toString b ++ " overflows a 64-bit integer") := by
    intro left right
    rw [add_reply adds, sum_signed left right]
    by_cases inside : -(2 ^ (63 : Nat)) ≤ a + b ∧ a + b < 2 ^ (63 : Nat)
    · rw [if_pos inside, if_pos inside]
    · rw [if_neg inside, if_neg inside]
  have unsigned : ¬ (a < 2 ^ (63 : Nat) ∧ b < 2 ^ (63 : Nat)) →
      ∃ x : Binary64,
        add.reply moment invocation input = .output (.obj [("result", .num (.float x))]) ∧
          x.IsNearest ((Number.int a).rounded + (Number.int b).rounded) := by
    intro beyond
    obtain ⟨x, is, near⟩ := sum_unsigned held held' beyond
    exact ⟨x, by rw [add_reply adds, is], near⟩
  refine ⟨⟨fun kept => ?_, fun ⟨left, right⟩ => ?_⟩, signed, unsigned, fun amounts nonempty helds =>
    ⟨?_, fun left right => addInTurn_signed amounts left right⟩⟩
  · by_contra beyond
    obtain ⟨x, is, -⟩ := unsigned beyond
    rw [is] at kept
    cases kept
  · rw [signed left right]
    split
    · exact .exact
    · exact .refused
  · rintro ⟨i, ends⟩
    exact (addInTurn_int_iff amounts nonempty held helds ends).mp ⟨i, rfl⟩

/-- One more than the greatest signed integer is refused. -/
theorem add_largest_and_one :
    (Number.int (2 ^ (63 : Nat) - 1)).InRange ∧ (Number.int 1).InRange ∧
      add.reply ⟨⟨0, 0⟩, 0⟩ ⟨"w", "e", none⟩
          (operands (.num (.int (2 ^ (63 : Nat) - 1))) (.num (.int 1))) =
        .failed "9223372036854775807 + 1 overflows a 64-bit integer" :=
  ⟨by decide, by decide,
    ((add_exact_or_refused_iff (by decide) (by decide) (adds_operands _ _)).2.1
      (by decide) (by decide)).trans (by decide)⟩

/-- One less than `2 ^ 63` is a signed integer, but the addition gives the float `2 ^ 63`. -/
theorem add_rounds_unsigned :
    (Number.int (2 ^ (63 : Nat))).InRange ∧ (Number.int (-1)).InRange ∧
      add.reply ⟨⟨0, 0⟩, 0⟩ ⟨"w", "e", none⟩
          (operands (.num (.int (2 ^ (63 : Nat)))) (.num (.int (-1)))) =
        .output (.obj [("result", .num (.float ⟨false, 2 ^ (52 : Nat), 11⟩))]) ∧
      ¬ ExactOrRefused (2 ^ (63 : Nat)) (-1)
        (add.reply ⟨⟨0, 0⟩, 0⟩ ⟨"w", "e", none⟩
          (operands (.num (.int (2 ^ (63 : Nat)))) (.num (.int (-1))))) := by
  have floats : add.reply ⟨⟨0, 0⟩, 0⟩ ⟨"w", "e", none⟩
      (operands (.num (.int (2 ^ (63 : Nat)))) (.num (.int (-1)))) =
        .output (.obj [("result", .num (.float ⟨false, 2 ^ (52 : Nat), 11⟩))]) := by
    rw [add_reply (adds_operands _ _)]
    decide +kernel
  refine ⟨by decide, by decide, floats, ?_⟩
  rw [floats]
  intro kept
  cases kept

end Builtin

end DurableFlow
