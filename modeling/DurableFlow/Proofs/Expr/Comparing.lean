import DurableFlow.Proofs.Data.ByValue
import DurableFlow.Proofs.Data.Except
import DurableFlow.Proofs.Event.Answering

/-!
# What comparisons tell

A comparison of two numbers is one of the floats nearest to them. What has one value is therefore
found equal in whatever form it is given, and the order of two numbers is never found the other
way round; but large integers that differ may be found equal. Numbers inside arrays and objects
are compared as data, and there the form counts as well.
-/

namespace DurableFlow

namespace Number

variable {m n : Number}

theorem same_toBinary64_iff :
    m.toBinary64.same n.toBinary64 = true ↔ m.rounded = n.rounded :=
  Binary64.same_iff

/-- What the comparison of two numbers has to do with their values. -/
structure Approximates (m n : Number) : Prop where
  nearest : m.toBinary64.IsNearest m.value ∧ n.toBinary64.IsNearest n.value
  equal : m.value = n.value → m.rounded = n.rounded
  ordered : m.rounded < n.rounded → m.value < n.value
  exactly : m.Exact → n.Exact → m.rounded = m.value ∧ n.rounded = n.value

theorem InRange.approximates (held : m.InRange) (held' : n.InRange) : m.Approximates n where
  nearest := ⟨toBinary64_near held, toBinary64_near held'⟩
  equal := rounded_congr held held'
  ordered := by
    intro less
    by_contra turned
    exact absurd (rounded_mono held' held (not_lt.mp turned)) (not_le.mpr less)
  exactly few few' := ⟨few.rounded, few'.rounded⟩

end Number

namespace Data

/-- What an expression takes for equal: numbers by the floats nearest to them, and everything
else by value, where numbers inside have to agree in form as well. -/
def FoundEqual : Data → Data → Prop
  | .num m, .num n => m.rounded = n.rounded
  | x, y => x.EqualByValue y ∧ x.SameForms y

theorem looselyEqual_iff {x y : Data} : x.looselyEqual y = true ↔ x.FoundEqual y := by
  cases x with
  | num m =>
    cases y with
    | num n => exact Number.same_toBinary64_iff
    | _ => exact same_iff _ _
  | _ => exact same_iff _ _

theorem holds_arr_iff {items : List Data} {x : Data} :
    (Data.arr items).holds x = true ↔ ∃ item ∈ items, item.FoundEqual x := by
  rw [holds, List.any_eq_true]
  simp only [looselyEqual_iff]

end Data

namespace BinaryOp

variable {m n : Number}

theorem lt_apply : lt.apply (.num m) (.num n) = true ↔ m.rounded < n.rounded := by
  rw [apply, Data.order?, beq_iff_eq, Option.some_inj, Binary64.compare_eq_lt_iff]
  rfl

theorem gt_apply : gt.apply (.num m) (.num n) = true ↔ n.rounded < m.rounded := by
  rw [apply, Data.order?, beq_iff_eq, Option.some_inj, Binary64.compare_eq_gt_iff]
  rfl

theorem ltEq_apply : ltEq.apply (.num m) (.num n) = true ↔ m.rounded ≤ n.rounded := by
  rw [apply, Data.order?, Bool.or_eq_true, beq_iff_eq, beq_iff_eq, Option.some_inj,
    Option.some_inj, Binary64.compare_eq_lt_iff, Binary64.compare_eq_eq_iff]
  exact le_iff_lt_or_eq.symm

theorem gtEq_apply : gtEq.apply (.num m) (.num n) = true ↔ n.rounded ≤ m.rounded := by
  rw [apply, Data.order?, Bool.or_eq_true, beq_iff_eq, beq_iff_eq, Option.some_inj,
    Option.some_inj, Binary64.compare_eq_gt_iff, Binary64.compare_eq_eq_iff, le_iff_lt_or_eq]
  exact or_congr_right eq_comm

end BinaryOp

namespace Expr

/-- Evaluated over a scope, a text tells whether something is so. -/
def Tells (source : String) (scope : Data) (so : Prop) : Prop :=
  ∃ b, evaluate source scope = .ok (.bool b) ∧ (b = true ↔ so)

section Evaluation

variable {source : String} {scope x y : Data} {so : Prop}

theorem eval_path {head : String} {rest : List Segment}
    (found : scope.follow? (.key head :: rest) = some x) : (path head rest).eval scope = .ok x := by
  rw [eval, found, Option.getD_some]

theorem eval_name {name : String} (found : scope.field? name = some x) :
    (path name []).eval scope = .ok x := by
  apply eval_path
  rw [Data.follow?, Data.step?, found]
  rfl

theorem eval_member {name member : String} {whole : Data}
    (found : scope.field? name = some whole) (inside : whole.field? member = some x) :
    (path name [.key member]).eval scope = .ok x := by
  apply eval_path
  rw [Data.follow?, Data.step?, found]
  show whole.follow? [.key member] = some x
  rw [Data.follow?, Data.step?, inside]
  rfl

/-- A comparison tells what its operator finds of the values of its operands. -/
theorem tells_comparison {left right : Expr} (op : BinaryOp)
    (read : parse source = .ok (.binary left op right)) (compares : op ≠ .and ∧ op ≠ .or)
    (atLeft : left.eval scope = .ok x) (atRight : right.eval scope = .ok y)
    (finds : op.apply x y = true ↔ so) : Tells source scope so := by
  refine ⟨op.apply x y, ?_, finds⟩
  obtain ⟨notAnd, notOr⟩ := compares
  rw [evaluate, read, ok_bind, eval.eq_def]
  simp only [atLeft, ok_bind]
  cases op with
  | and => exact absurd rfl notAnd
  | or => exact absurd rfl notOr
  | _ => rw [atRight, ok_bind]

end Evaluation

/-- Whether two values are equal, whether one is among the items of an array and how two numbers
are ordered is found by the floats nearest to the numbers, and so it is in the filters of waits.
No number is found to come before one that it does not come before, equal numbers are found equal,
and of integers with at most 53 bits the comparison is true. -/
theorem compared_by_nearest_float (scope x y : Data) (xs : List Data)
    (atX : scope.field? "x" = some x) (atY : scope.field? "y" = some y)
    (atXs : scope.field? "xs" = some (.arr xs)) :
    Tells "x == y" scope (x.FoundEqual y) ∧
      Tells "x in xs" scope (∃ item ∈ xs, item.FoundEqual x) ∧
      (∀ m n : Number, x = .num m → y = .num n → m.InRange → n.InRange →
        Tells "x < y" scope (m.rounded < n.rounded) ∧
          Tells "x <= y" scope (m.rounded ≤ n.rounded) ∧
          Tells "x > y" scope (n.rounded < m.rounded) ∧
          Tells "x >= y" scope (n.rounded ≤ m.rounded) ∧ m.Approximates n) ∧
      ∀ (event : Event) (state : Suspended), event.payload.field? "id" = some x →
        Fields.get? state.vars "id" = some y →
        (event.passes state "payload.id == variables.id" = true ↔ x.FoundEqual y) := by
  have left : (path "x" []).eval scope = .ok x := eval_name atX
  have right : (path "y" []).eval scope = .ok y := eval_name atY
  refine ⟨?equality, ?membership, ?order, ?filter⟩
  case equality =>
    exact tells_comparison .eq (eq_ok_of_toOption (by decide +kernel))
      (by decide) left right Data.looselyEqual_iff
  case membership =>
    exact tells_comparison .isIn (eq_ok_of_toOption (by decide +kernel)) (by decide) left
      (eval_name atXs)
      Data.holds_arr_iff
  case order =>
    rintro m n rfl rfl held held'
    refine ⟨?_, ?_, ?_, ?_, held.approximates held'⟩
    · exact tells_comparison .lt (eq_ok_of_toOption (by decide +kernel))
        (by decide) left right BinaryOp.lt_apply
    · exact tells_comparison .ltEq (eq_ok_of_toOption (by decide +kernel))
        (by decide) left right BinaryOp.ltEq_apply
    · exact tells_comparison .gt (eq_ok_of_toOption (by decide +kernel))
        (by decide) left right BinaryOp.gt_apply
    · exact tells_comparison .gtEq (eq_ok_of_toOption (by decide +kernel))
        (by decide) left right BinaryOp.gtEq_apply
  case filter =>
    intro event state inPayload inVars
    have payload : (event.filterScope state).field? "payload" = some event.payload := by
      rw [Event.field?_filterScope]
      rfl
    have vars : (event.filterScope state).field? "variables" = some (.obj state.vars) := by
      rw [Event.field?_filterScope]
      rfl
    have read : parse "payload.id == variables.id" = .ok (.binary
        (.path "payload" [.key "id"]) .eq (.path "variables" [.key "id"])) :=
      eq_ok_of_toOption (by decide +kernel)
    obtain ⟨b, evaluated, tells⟩ := tells_comparison .eq read (by decide)
      (eval_member payload inPayload) (eval_member vars inVars) Data.looselyEqual_iff
    rw [Event.passes_iff, Event.Satisfies, evaluated, ← tells]
    simp [Data.truthy]

section Samples

/-- A scope with two values and an array. -/
def scopeOf (x y : Data) (xs : List Data) : Data :=
  .obj [("x", x), ("xs", .arr xs), ("y", y)]

/-- An event that brings an identifier. -/
def bringing (id : Data) : Event :=
  { id := "evt-1", provider := "p", trigger := some "paid", payload := .obj [("id", id)],
    timestamp := ⟨0, 0⟩ }

/-- A run that has an identifier among its variables. -/
def keeping (id : Data) : Suspended :=
  { workflow := "w", execution := "exec-1", node := "hold", vars := [("id", id)], outputs := [],
    history := ["hold"],
    wait := { names := ["paid"], filter := some "payload.id == variables.id" },
    pausedAt := ⟨0, 0⟩, startedAt := ⟨0, 0⟩ }

/-- The float `250.0`. -/
def floating : Number := .float ⟨false, 250 * 2 ^ (45 : Nat), -45⟩

/-- An integer and a float of one value are found equal, and neither comes before the other. -/
theorem compared_by_nearest_float_mixed :
    (Tells "x == y" (scopeOf (.num (.int 250)) (.num floating) []) True ∧
        Tells "x in xs" (scopeOf (.num (.int 250)) .null [.null, .num floating]) True ∧
        Tells "x < y" (scopeOf (.num (.int 250)) (.num floating) []) False) ∧
      (bringing (.num (.int 250))).passes (keeping (.num floating))
        "payload.id == variables.id" = true := by
  have few : (Number.int 250).Exact := by
    show (250 : Int).natAbs < 2 ^ (53 : Nat)
    decide
  have equal : (Number.int 250).rounded = floating.rounded := by
    rw [few.rounded]
    norm_num [Number.value, floating, Number.rounded, Number.toBinary64, Binary64.value]
  obtain ⟨⟨b, found, tells⟩, -, ordered, passes⟩ :=
    compared_by_nearest_float (scopeOf (.num (.int 250)) (.num floating) [])
      (.num (.int 250)) (.num floating) [] rfl rfl rfl
  obtain ⟨-, ⟨c, within, holds⟩, -⟩ :=
    compared_by_nearest_float (scopeOf (.num (.int 250)) .null [.null, .num floating])
      (.num (.int 250)) .null [.null, .num floating] rfl rfl rfl
  obtain ⟨⟨d, order, less⟩, -⟩ := ordered (.int 250) floating rfl rfl (by decide) (by decide)
  refine ⟨⟨⟨b, found, ?_⟩, ⟨c, within, ?_⟩, ⟨d, order, ?_⟩⟩, ?_⟩
  · exact tells.trans (iff_true_intro equal)
  · exact holds.trans (iff_true_intro ⟨.num floating, by simp, equal.symm⟩)
  · exact less.trans (iff_false_intro (equal ▸ lt_irrefl _))
  · exact (passes (bringing (.num (.int 250))) (keeping (.num floating)) rfl rfl).mpr equal

/-- Two identifiers with nothing between them, which one float is nearest to. -/
def even : Data := .num (.int (2 ^ (53 : Nat)))

def odd : Data := .num (.int (2 ^ (53 : Nat) + 1))

/-- Different identifiers are found equal, also by a filter, and the less one is not found to come
before the other; and where numbers stand inside arrays, an integer and a float of one value are
found to differ. -/
theorem different_identifiers_equal :
    (¬ odd.EqualByValue even ∧ evaluate "x == y" (scopeOf odd even []) = .ok (.bool true) ∧
        evaluate "x in xs" (scopeOf odd .null [even]) = .ok (.bool true) ∧
        evaluate "x < y" (scopeOf even odd []) = .ok (.bool false) ∧
        (bringing odd).passes (keeping even) "payload.id == variables.id" = true) ∧
      (Data.arr [.num (.int 250)]).EqualByValue (.arr [.num floating]) ∧
      evaluate "x == y" (scopeOf (.arr [.num (.int 250)]) (.arr [.num floating]) []) =
        .ok (.bool false) := by
  refine ⟨⟨?_, ?_, ?_, ?_, by decide +kernel⟩, ?_, eq_ok_of_toOption (by decide +kernel)⟩
  · norm_num [odd, even, Data.EqualByValue, Number.value]
  · exact eq_ok_of_toOption (by decide +kernel)
  · exact eq_ok_of_toOption (by decide +kernel)
  · exact eq_ok_of_toOption (by decide +kernel)
  · norm_num [Data.EqualByValue, Data.ItemsEqualByValue, Number.value, floating, Binary64.value]

end Samples

end Expr

end DurableFlow
