import DurableFlow.Data.Ordered
import Mathlib.Data.List.Perm.Basic

/-!
# Sorted items

Sorting only moves items, and afterwards they stand in order, if the relation that they are sorted
by is one that tells an order.
-/

namespace DurableFlow

namespace Ordered

variable {α : Type} {comesAfter : α → α → Bool}

theorem sort_perm (comesAfter : α → α → Bool) (items : List α) :
    (sort comesAfter items).Perm items := by
  have further : ∀ done : List α,
      (items.foldl (fun done item => insert comesAfter item done) done).Perm (done ++ items) := by
    induction items with
    | nil => intro done; simp
    | cons item rest ih =>
      intro done
      refine (ih _).trans ?_
      have swapped : (item :: done ++ rest).Perm (done ++ item :: rest) :=
        List.perm_middle.symm
      exact ((insert_perm comesAfter item done).append_right rest).trans swapped
  exact further []

/-- Behind an item stands none that it comes after. -/
def InOrder (comesAfter : α → α → Bool) (items : List α) : Prop :=
  items.Pairwise fun a b => comesAfter a b = false

theorem insert_inOrder (asymm : ∀ a b, comesAfter a b = true → comesAfter b a = false)
    (trans : ∀ a b c, comesAfter a b = false → comesAfter b c = false → comesAfter a c = false)
    (item : α) {items : List α} (order : InOrder comesAfter items) :
    InOrder comesAfter (insert comesAfter item items) := by
  induction items with
  | nil => exact List.pairwise_singleton ..
  | cons other rest ih =>
    obtain ⟨first, later⟩ := List.pairwise_cons.mp order
    unfold insert
    split
    · rename_i behind
      have before := asymm other item behind
      refine List.pairwise_cons.mpr ⟨List.forall_mem_cons.mpr ⟨before, fun x member => ?_⟩, order⟩
      exact trans item other x before (first x member)
    · rename_i ahead
      refine List.pairwise_cons.mpr ⟨fun x member => ?_, ih later⟩
      rcases List.mem_cons.mp ((insert_perm comesAfter item rest).mem_iff.mp member) with rfl | old
      · exact eq_false_of_ne_true ahead
      · exact first x old

/-- Sorted items are in order. -/
theorem sort_inOrder (asymm : ∀ a b, comesAfter a b = true → comesAfter b a = false)
    (trans : ∀ a b c, comesAfter a b = false → comesAfter b c = false → comesAfter a c = false)
    (items : List α) : InOrder comesAfter (sort comesAfter items) := by
  have further : ∀ done, InOrder comesAfter done → InOrder comesAfter
      (items.foldl (fun done item => insert comesAfter item done) done) := by
    induction items with
    | nil => exact fun _ order => order
    | cons item rest ih => exact fun done order => ih _ (insert_inOrder asymm trans item order)
  exact further [] List.Pairwise.nil

/-- Sorted by a text, the least first. -/
theorem sort_text_inOrder (text : α → String) (items : List α) :
    InOrder (fun a b => decide (text b < text a))
      (sort (fun a b => decide (text b < text a)) items) := by
  refine sort_inOrder (fun a b => ?_) (fun a b c => ?_) items
  · simp only [decide_eq_true_eq, decide_eq_false_iff_not]
    exact String.lt_asymm
  · simp only [decide_eq_false_iff_not, String.not_lt]
    exact String.le_trans

/-- Sorted by a text, the greatest first. -/
theorem sort_text_inOrder_reverse (text : α → String) (items : List α) :
    InOrder (fun a b => decide (text a < text b))
      (sort (fun a b => decide (text a < text b)) items) := by
  refine sort_inOrder (fun a b => ?_) (fun a b c => ?_) items
  · simp only [decide_eq_true_eq, decide_eq_false_iff_not]
    exact String.lt_asymm
  · simp only [decide_eq_false_iff_not, String.not_lt]
    exact fun second first => String.le_trans first second

end Ordered

end DurableFlow
