import Mathlib.Data.List.Forall2

/-!
# Results put together

What is known of the parts of a result that is none if one of its parts is none.
-/

namespace DurableFlow

variable {ε α β : Type}

/-- A second part is only come to through the first. -/
theorem bind_eq_ok_iff {first : Except ε α} {second : α → Except ε β} {result : β} :
    (first >>= second) = .ok result ↔ ∃ value, first = .ok value ∧ second value = .ok result := by
  cases first with
  | error e => simp [bind, Except.bind]
  | ok value => simp [bind, Except.bind]

theorem map_eq_ok_iff {value : Except ε α} {f : α → β} {result : β} :
    value.map f = .ok result ↔ ∃ x, value = .ok x ∧ f x = result := by
  cases value <;> simp [Except.map]

@[simp] theorem ok_bind (value : α) (second : α → Except ε β) :
    ((.ok value : Except ε α) >>= second) = second value := rfl

/-- Items are put together if there is a part for each of them. -/
theorem mapM_eq_ok_iff {part : α → Except ε β} {is : α → β → Prop} {items : List α}
    (parts : ∀ x ∈ items, ∀ y, part x = .ok y ↔ is x y) {whole : List β} :
    items.mapM part = .ok whole ↔ List.Forall₂ is items whole := by
  induction items generalizing whole with
  | nil => cases whole <;> simp [pure, Except.pure]
  | cons x rest ih =>
    obtain ⟨here, there⟩ := List.forall_mem_cons.mp parts
    rw [List.mapM_cons, bind_eq_ok_iff]
    constructor
    · rintro ⟨y, first, others⟩
      obtain ⟨ys, later, same⟩ := bind_eq_ok_iff.mp others
      cases same
      exact .cons ((here y).mp first) ((ih there).mp later)
    · rintro (_ | ⟨first, later⟩)
      exact ⟨_, (here _).mpr first, bind_eq_ok_iff.mpr ⟨_, (ih there).mpr later, rfl⟩⟩

theorem eq_ok_of_toOption {result : Except ε α} {value : α}
    (found : result.toOption = some value) : result = .ok value := by
  cases result with
  | error e => cases found
  | ok other => exact congrArg Except.ok (Option.some.inj found)

end DurableFlow
