/-!
# Sorting

Sorting by a relation that tells which of two items comes after the other. Items of which
neither comes after the other stay in their order.
-/

namespace DurableFlow

namespace Ordered

variable {α : Type}

/-- Put an item behind those that do not come after it. -/
def insert (comesAfter : α → α → Bool) (item : α) : List α → List α
  | [] => [item]
  | other :: rest =>
    if comesAfter other item then item :: other :: rest
    else other :: insert comesAfter item rest

/-- Sort items. -/
def sort (comesAfter : α → α → Bool) (items : List α) : List α :=
  items.foldl (fun done item => insert comesAfter item done) []

theorem insert_perm (comesAfter : α → α → Bool) (item : α) (items : List α) :
    (insert comesAfter item items).Perm (item :: items) := by
  induction items with
  | nil => exact List.Perm.refl _
  | cons other rest ih =>
    unfold insert
    split
    · exact List.Perm.refl _
    · exact (List.Perm.cons other ih).trans (List.Perm.swap item other rest)

end Ordered

end DurableFlow
