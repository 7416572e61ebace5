import EntityWorld.Component.Column
import EntityWorld.Proofs.Lists

/-!
# Removing a row by moving the last one

What stands where after a row was removed, and that nothing but the row is gone.
-/
namespace EntityWorld

section SwapRemove

variable {α : Type} {rows : Array α} {row : Nat}

theorem swapRemove_of_lt (inside : row < rows.size) :
    swapRemove rows row = (rows.setIfInBounds row (rows[rows.size - 1])).pop := by
  have last : rows.back? = some (rows[rows.size - 1]) := by
    rw [Array.back?_eq_getElem?, Array.getElem?_eq_getElem]
  simp only [swapRemove, if_pos inside, last]

theorem size_swapRemove (inside : row < rows.size) : (swapRemove rows row).size = rows.size - 1 := by
  rw [swapRemove_of_lt inside, Array.size_pop, Array.size_setIfInBounds]

/-- The last row stands in the place of the removed one; every other row stays where it is. -/
theorem getElem?_swapRemove (inside : row < rows.size) (i : Nat) :
    (swapRemove rows row)[i]? =
      if i + 1 < rows.size then if i = row then rows[rows.size - 1]? else rows[i]? else none := by
  rw [swapRemove_of_lt inside, Array.getElem?_pop, Array.size_setIfInBounds]
  by_cases below : i + 1 < rows.size
  · rw [if_pos (by omega), if_pos below, Array.getElem?_setIfInBounds]
    by_cases same : row = i
    · rw [if_pos same, if_pos (by omega), if_pos same.symm, Array.getElem?_eq_getElem]
    · rw [if_neg same, if_neg (Ne.symm same)]
  · rw [if_neg (by omega), if_neg below]

theorem perm_swapRemove {x : α} (found : rows[row]? = some x) :
    rows.toList.Perm (x :: (swapRemove rows row).toList) := by
  obtain ⟨inside, -⟩ := Array.getElem?_eq_some_iff.mp found
  rw [swapRemove_of_lt inside, Array.toList_pop, Array.toList_setIfInBounds]
  refine perm_dropLast_set (by simpa using found) ?_
  rw [List.getLast?_eq_getElem?, Array.length_toList, Array.getElem?_toList,
    Array.getElem?_eq_getElem]

end SwapRemove

end EntityWorld
