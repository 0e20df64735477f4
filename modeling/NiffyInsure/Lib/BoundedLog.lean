import Mathlib.Data.List.Basic

/-!
# Bounded logs

A log that keeps its last `n` entries.  Pushing onto the bounded log is pushing onto the full
one and cutting again (`keepLast_snoc`), so that what is kept is always the end of the full log.
-/

namespace BoundedLog

variable {α : Type*} {n : Nat} {l : List α} {x : α}

/-- The last `n` entries. -/
def keepLast (n : Nat) (l : List α) : List α := l.drop (l.length - n)

/-- Cutting before a push does not matter. -/
theorem keepLast_snoc (n : Nat) (l : List α) (x : α) :
    keepLast n (keepLast n l ++ [x]) = keepLast n (l ++ [x]) := by
  have hcut : keepLast n l ++ [x] = (l ++ [x]).drop (l.length - n) := by
    rw [List.drop_append_of_le_length (by omega)]
    rfl
  unfold keepLast at hcut ⊢
  rw [hcut, List.drop_drop, List.length_drop, List.length_append, List.length_singleton]
  congr 1
  omega

theorem length_keepLast_le (n : Nat) (l : List α) : (keepLast n l).length ≤ n := by
  rw [keepLast, List.length_drop]
  omega

theorem keepLast_suffix (n : Nat) (l : List α) : keepLast n l <:+ l := List.drop_suffix ..

/-- A log that is not full has lost nothing. -/
theorem keepLast_eq_self (h : (keepLast n l).length < n) : keepLast n l = l := by
  rw [keepLast, List.length_drop] at h
  rw [keepLast, (by omega : l.length - n = 0), List.drop_zero]

theorem keepLast_ne_nil (hn : 0 < n) (hl : l ≠ []) : keepLast n l ≠ [] := by
  have hlen := List.length_pos_of_ne_nil hl
  rw [← List.length_pos_iff, keepLast, List.length_drop]
  omega

theorem getLast?_keepLast (hn : 0 < n) (l : List α) : (keepLast n l).getLast? = l.getLast? := by
  rw [keepLast, List.getLast?_drop]
  split
  · rename_i hle
    rw [List.length_eq_zero_iff.mp (by omega : l.length = 0)]
    rfl
  · rfl

end BoundedLog
