import Mathlib.Data.List.Perm.Basic

/-!
# Lists kept in buckets

A long list is cut into buckets of a fixed size: every bucket but the last is full, and the
last one is not empty (`Packed`).  The list is `bs.flatten`.

* `push`: append an element (`flatten_push`, `packed_push`).
* `pop`: take the last element away (`flatten_pop`, `packed_pop`).
* `perm_pop_set`: overwriting an element by the last one and then taking the last one away
  removes that element, up to order.
-/

namespace Bucketed

universe u

variable {α : Type u} {n : Nat} {bs : List (List α)} {x h t : α}

/-- Every bucket but the last is full, and the last is neither empty nor over-full. -/
def Packed (n : Nat) (bs : List (List α)) : Prop :=
  bs = [] ∨ ∃ front last, bs = front ++ [last] ∧ (∀ b ∈ front, b.length = n) ∧ last ≠ [] ∧
    last.length ≤ n

/-- Append an element: to the last bucket, or in a new one when that is full. -/
def push (n : Nat) (x : α) (bs : List (List α)) : List (List α) :=
  match bs.getLast? with
  | none => [[x]]
  | some last => if n ≤ last.length then bs ++ [[x]] else bs.dropLast ++ [last ++ [x]]

/-- Take the last element away, and its bucket when that was all it held. -/
def pop (bs : List (List α)) : List (List α) :=
  match bs.getLast? with
  | none => []
  | some last =>
    if last.dropLast = [] then bs.dropLast else bs.dropLast ++ [last.dropLast]

theorem push_snoc (n : Nat) (x : α) (front : List (List α)) (last : List α) :
    push n x (front ++ [last]) =
      if n ≤ last.length then front ++ [last] ++ [[x]] else front ++ [last ++ [x]] := by
  simp [push]

theorem pop_snoc (front : List (List α)) (last : List α) :
    pop (front ++ [last]) =
      if last.dropLast = [] then front else front ++ [last.dropLast] := by
  simp [pop]

theorem packed_nil (n : Nat) : Packed n ([] : List (List α)) := Or.inl rfl

theorem packed_push (hn : 0 < n) (hbs : Packed n bs) : Packed n (push n x bs) := by
  obtain rfl | ⟨front, last, rfl, hfull, hne, hle⟩ := hbs
  · exact Or.inr ⟨[], [x], rfl, by simp, by simp, hn⟩
  · rw [push_snoc]
    split
    · rename_i hlast
      refine Or.inr ⟨front ++ [last], [x], rfl, ?_, by simp, hn⟩
      intro b hb
      rw [List.mem_append, List.mem_singleton] at hb
      rcases hb with hb | rfl
      · exact hfull b hb
      · omega
    · rename_i hlast
      refine Or.inr ⟨front, last ++ [x], rfl, hfull, by simp, ?_⟩
      rw [List.length_append, List.length_singleton]
      omega

theorem flatten_push (n : Nat) (x : α) (bs : List (List α)) :
    (push n x bs).flatten = bs.flatten ++ [x] := by
  rcases List.eq_nil_or_concat bs with rfl | ⟨front, last, rfl⟩
  · simp [push]
  · rw [List.concat_eq_append, push_snoc]
    split <;> simp

theorem packed_pop (hbs : Packed n bs) : Packed n (pop bs) := by
  obtain rfl | ⟨front, last, rfl, hfull, hne, hle⟩ := hbs
  · exact packed_nil n
  · rw [pop_snoc]
    split
    · rcases List.eq_nil_or_concat front with rfl | ⟨front', last', rfl⟩
      · exact packed_nil n
      · rw [List.concat_eq_append] at hfull ⊢
        have hlast' := hfull last' (by simp)
        refine Or.inr ⟨front', last', rfl, fun b hb => hfull b (by simp [hb]), ?_,
          Nat.le_of_eq hlast'⟩
        rintro rfl
        rw [List.length_nil] at hlast'
        rw [← hlast', Nat.le_zero, List.length_eq_zero_iff] at hle
        exact hne hle
    · rename_i hdrop
      refine Or.inr ⟨front, last.dropLast, rfl, hfull, hdrop, ?_⟩
      rw [List.length_dropLast]
      omega

theorem flatten_pop (hbs : Packed n bs) : (pop bs).flatten = bs.flatten.dropLast := by
  obtain rfl | ⟨front, last, rfl, -, hne, -⟩ := hbs
  · rfl
  · rw [pop_snoc, List.flatten_append, List.flatten_singleton, List.dropLast_append_of_ne_nil hne]
    split
    · rename_i hdrop
      rw [hdrop, List.append_nil]
    · simp

/-- Another bucket of the same length in the place of a bucket. -/
theorem packed_set {i : Nat} {b c : List α} (hi : bs[i]? = some b) (hlen : c.length = b.length)
    (hbs : Packed n bs) : Packed n (bs.set i c) := by
  obtain rfl | ⟨front, last, rfl, hfull, hne, hle⟩ := hbs
  · simp at hi
  · by_cases hfront : i < front.length
    · rw [List.set_append_left _ _ hfront]
      rw [List.getElem?_append_left hfront] at hi
      refine Or.inr ⟨front.set i c, last, rfl, fun d hd => ?_, hne, hle⟩
      rcases List.mem_or_eq_of_mem_set hd with hd | rfl
      · exact hfull d hd
      · rw [hlen]
        exact hfull b (List.mem_of_getElem? hi)
    · rw [List.getElem?_append_right (by omega), List.getElem?_singleton] at hi
      split at hi
      · rename_i hzero
        cases hi
        rw [List.set_append_right _ _ (by omega), hzero, List.set_cons_zero]
        refine Or.inr ⟨front, c, rfl, hfull, ?_, by omega⟩
        rintro rfl
        exact hne (List.length_eq_zero_iff.mp hlen.symm)
      · cases hi

/-- The list around one of its elements, when the buckets are around that element. -/
theorem flatten_around {i : Nat} {c d : List α} (hi : bs[i]? = some (c ++ h :: d)) :
    ∃ before after, bs.flatten = before ++ h :: after ∧
      ∀ y, (bs.set i (c ++ y :: d)).flatten = before ++ y :: after := by
  obtain ⟨hlt, hget⟩ := List.getElem?_eq_some_iff.mp hi
  refine ⟨(bs.take i).flatten ++ c, d ++ (bs.drop (i + 1)).flatten, ?_, fun y => ?_⟩
  · have hsplit : bs = bs.take i ++ (c ++ h :: d) :: bs.drop (i + 1) := by
      rw [← hget, ← List.drop_eq_getElem_cons hlt, List.take_append_drop]
    conv_lhs => rw [hsplit]
    simp
  · rw [List.set_eq_take_append_cons_drop, if_pos hlt]
    simp

theorem perm_dropLast_of_getLast {before after : List α}
    (hlast : (before ++ h :: after).getLast? = some t) :
    (before ++ t :: after).dropLast.Perm (before ++ after) := by
  rcases List.eq_nil_or_concat after with rfl | ⟨rest, y, rfl⟩
  · simp
  · rw [List.concat_eq_append] at hlast ⊢
    have hy : y = t := by simpa [List.getLast?_cons] using hlast
    subst hy
    have hdrop : (before ++ y :: (rest ++ [y])).dropLast = before ++ y :: rest := by
      rw [← List.cons_append, ← List.append_assoc, List.dropLast_concat]
    rw [hdrop]
    exact List.Perm.append_left before (List.perm_append_singleton y rest).symm

/-- **Swap with the last and pop** takes away the element at that place, up to order. -/
theorem perm_pop_set {i : Nat} {c d : List α} (hbs : Packed n bs)
    (hi : bs[i]? = some (c ++ h :: d)) (hlast : bs.flatten.getLast? = some t) :
    ∃ before after, bs.flatten = before ++ h :: after ∧
      (pop (bs.set i (c ++ t :: d))).flatten.Perm (before ++ after) := by
  obtain ⟨before, after, hflat, hset⟩ := flatten_around hi
  refine ⟨before, after, hflat, ?_⟩
  rw [flatten_pop (packed_set hi (by simp) hbs), hset t]
  rw [hflat] at hlast
  exact perm_dropLast_of_getLast hlast

end Bucketed
