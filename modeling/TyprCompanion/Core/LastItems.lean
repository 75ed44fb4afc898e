import Mathlib.Data.List.DropRight

/-!
# The last items of a list

A bounded history keeps the last `n` items, `List.rtake n`, of all there were.

* `rtake_of_length_le`, `rtake_append` — the items that are surely among the last.
* **`rtake_append_rtake`** — keeping the last items after each addition keeps the last of all.
-/

namespace Core

variable {α β : Type}

theorem rtake_of_length_le {items : List α} {n : Nat} (h : items.length ≤ n) :
    items.rtake n = items := by
  rw [List.rtake, Nat.sub_eq_zero_of_le h, List.drop_zero]

theorem length_rtake_le (n : Nat) (items : List α) : (items.rtake n).length ≤ n := by
  rw [List.rtake, List.length_drop]
  omega

theorem rtake_suffix (n : Nat) (items : List α) : items.rtake n <:+ items := List.drop_suffix _ _

theorem rtake_append {n : Nat} {earlier later : List α} (h : later.length ≤ n) :
    (earlier ++ later).rtake n = earlier.rtake (n - later.length) ++ later := by
  have hlater : earlier.length + later.length - n - earlier.length = 0 := by omega
  have hearlier : earlier.length + later.length - n = earlier.length - (n - later.length) := by omega
  rw [List.rtake, List.rtake, List.length_append, List.drop_append, hlater, hearlier, List.drop_zero]

/-- What was dropped from the front does not come back when items are appended. -/
theorem rtake_append_rtake (n : Nat) (items added : List α) :
    (items.rtake n ++ added).rtake n = (items ++ added).rtake n := by
  by_cases h : items.length ≤ n
  · rw [rtake_of_length_le h]
  · have hlength : (items.rtake n).length = n := by rw [List.rtake, List.length_drop]; omega
    simp only [List.rtake, List.length_append, List.length_drop, List.drop_append,
      List.drop_drop] at hlength ⊢
    congr 2 <;> omega

theorem rtake_map (f : α → β) (n : Nat) (items : List α) :
    (items.map f).rtake n = (items.rtake n).map f := by
  rw [List.rtake, List.rtake, List.length_map, List.map_drop]

end Core
