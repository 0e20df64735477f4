import Mathlib.Data.List.Sort

/-!
# Which of two items stands first

`[x, y]` is a sublist of a list, if `x` stands before `y` there.

* `pair_insertionSort_iff`: a stable sort puts one item before another one, if it is less, or if
  they are alike and it stood before it.
* `exists_last_iff`: an item of one kind stands behind all of another kind.
* `mem_take_insertionSort_iff`: an item is among the first that a stable sort gives, if few others
  are put before it.
-/

namespace StableSort

open List

variable {α : Type*} {l : List α} {x y : α}

theorem pair_or_pair (hx : x ∈ l) (hy : y ∈ l) (hne : x ≠ y) : [x, y] <+ l ∨ [y, x] <+ l := by
  obtain ⟨front, back, rfl⟩ := List.append_of_mem hx
  rcases List.mem_append.mp hy with hfront | hback
  · exact .inr ((List.singleton_sublist.mpr hfront).append
      (List.singleton_sublist.mpr List.mem_cons_self))
  · refine .inl ?_
    obtain rfl | hback := List.mem_cons.mp hback
    · exact absurd rfl hne
    · exact ((List.singleton_sublist.mpr hback).cons_cons x).trans (List.sublist_append_right _ _)

theorem not_pair_of_pair (hl : l.Nodup) (h : [x, y] <+ l) : ¬ [y, x] <+ l := by
  induction l with
  | nil => cases h
  | cons a l ih =>
    obtain ⟨ha, hl⟩ := List.nodup_cons.mp hl
    intro h'
    cases h with
    | cons _ h =>
      cases h' with
      | cons _ h' => exact ih hl h h'
      | cons_cons _ h' => exact ha (h.subset (List.mem_cons_of_mem _ List.mem_cons_self))
    | cons_cons _ h =>
      cases h' with
      | cons _ h' => exact ha (h'.subset (List.mem_cons_of_mem _ List.mem_cons_self))
      | cons_cons _ h' => exact ha (h.subset List.mem_cons_self)

theorem pair_append {l' : List α} (hx : x ∈ l) (hy : y ∈ l') : [x, y] <+ l ++ l' :=
  (List.singleton_sublist.mpr hx).append (List.singleton_sublist.mpr hy)

theorem pair_append_iff {l' : List α} (hl : (l ++ l').Nodup) (hx : x ∈ l) (hy : y ∈ l)
    (hne : x ≠ y) : [x, y] <+ l ++ l' ↔ [x, y] <+ l := by
  refine ⟨fun h => ?_, fun h => h.trans (List.sublist_append_left _ _)⟩
  rcases pair_or_pair hx hy hne with hpair | hpair
  · exact hpair
  · exact absurd (hpair.trans (List.sublist_append_left _ _)) (not_pair_of_pair hl h)

/-- **The order of two items that a stable sort gives.** -/
theorem pair_insertionSort_iff {r : α → α → Prop} [DecidableRel r] [IsTrans α r] [Std.Total r]
    (hl : l.Nodup) (hx : x ∈ l) (hy : y ∈ l) (hne : x ≠ y) :
    [y, x] <+ l.insertionSort r ↔ r y x ∧ (¬ r x y ∨ [y, x] <+ l) := by
  have hsorted : ∀ {a b}, [a, b] <+ l.insertionSort r → r a b := fun h =>
    List.pairwise_pair.mp ((List.pairwise_insertionSort r l).sublist h)
  constructor
  · intro h
    refine ⟨hsorted h, ?_⟩
    by_cases hxy : r x y
    case neg => exact .inl hxy
    rcases pair_or_pair hx hy hne with hpair | hpair
    · have hnodup : (l.insertionSort r).Nodup := (List.perm_insertionSort r l).nodup_iff.mpr hl
      exact absurd h (not_pair_of_pair hnodup (List.pair_sublist_insertionSort hxy hpair))
    · exact .inr hpair
  · rintro ⟨hyx, hnot | hpair⟩
    · have hx' : x ∈ l.insertionSort r := (List.mem_insertionSort r).mpr hx
      have hy' : y ∈ l.insertionSort r := (List.mem_insertionSort r).mpr hy
      rcases pair_or_pair hx' hy' hne with h | h
      · exact absurd (hsorted h) hnot
      · exact h
    · exact List.pair_sublist_insertionSort hyx hpair

/-- **An item of the one kind stands behind all of the other.** -/
theorem exists_last_iff {P Q : α → Prop} (hl : l.Nodup) (hPQ : ∀ x, Q x → ¬ P x) :
    (∃ front x back, l = front ++ x :: back ∧ Q x ∧ ∀ y ∈ back, ¬ P y) ↔
      ∃ x ∈ l, Q x ∧ ∀ y ∈ l, P y → [y, x] <+ l := by
  constructor
  · rintro ⟨front, x, back, rfl, hQ, hback⟩
    refine ⟨x, List.mem_append_right _ List.mem_cons_self, hQ, fun y hy hP => ?_⟩
    rcases List.mem_append.mp hy with hfront | hy
    · exact (List.singleton_sublist.mpr hfront).append
        (List.singleton_sublist.mpr List.mem_cons_self)
    · obtain rfl | hy := List.mem_cons.mp hy
      · exact absurd hP (hPQ _ hQ)
      · exact absurd hP (hback y hy)
  · rintro ⟨x, hx, hQ, hbefore⟩
    obtain ⟨front, back, rfl⟩ := List.append_of_mem hx
    refine ⟨front, x, back, rfl, hQ, fun y hy hP => ?_⟩
    have hpair : [x, y] <+ front ++ x :: back :=
      ((List.singleton_sublist.mpr hy).cons_cons x).trans (List.sublist_append_right _ _)
    exact not_pair_of_pair hl hpair
      (hbefore y (List.mem_append_right _ (List.mem_cons_of_mem _ hy)) hP)

theorem mem_take_iff [DecidableEq α] (hl : l.Nodup) {n : Nat} :
    x ∈ l.take n ↔ x ∈ l ∧ (l.filter fun y => y ≠ x ∧ [y, x] <+ l).length < n := by
  by_cases hx : x ∈ l
  case neg => exact iff_of_false (fun h => hx (List.mem_of_mem_take h)) fun h => hx h.1
  rw [and_iff_right hx]
  obtain ⟨front, back, rfl⟩ := List.append_of_mem hx
  have hnot : x ∉ front := fun h => List.disjoint_of_nodup_append hl h List.mem_cons_self
  have hbefore : (front ++ x :: back).filter (fun y => y ≠ x ∧ [y, x] <+ front ++ x :: back) =
      front := by
    rw [List.filter_append, List.filter_cons_of_neg (by simp)]
    rw [List.filter_eq_self.mpr, List.filter_eq_nil_iff.mpr, List.append_nil]
    · intro y hy hbefore
      have hpair : [x, y] <+ front ++ x :: back :=
        ((List.singleton_sublist.mpr hy).cons_cons x).trans (List.sublist_append_right _ _)
      exact not_pair_of_pair hl hpair (of_decide_eq_true hbefore).2
    · intro y hy
      exact decide_eq_true ⟨fun h => hnot (h ▸ hy), pair_append hy List.mem_cons_self⟩
  rw [hbefore]
  constructor
  · intro h
    by_contra hle
    rw [List.take_append_of_le_length (Nat.le_of_not_lt hle)] at h
    exact hnot (List.mem_of_mem_take h)
  · intro hlt
    obtain ⟨k, rfl⟩ := Nat.exists_eq_add_of_lt hlt
    rw [Nat.add_assoc, List.take_length_add_append, List.take_succ_cons]
    exact List.mem_append_right _ List.mem_cons_self

/-- **An item is among the first `n` that a stable sort gives**, if it puts fewer than `n` others
before it. -/
theorem mem_take_insertionSort_iff [DecidableEq α] {r : α → α → Prop} [DecidableRel r] [IsTrans α r]
    [Std.Total r] (hl : l.Nodup) {n : Nat} :
    x ∈ (l.insertionSort r).take n ↔
      x ∈ l ∧ (l.filter fun y => y ≠ x ∧ r y x ∧ (¬ r x y ∨ [y, x] <+ l)).length < n := by
  have hperm := List.perm_insertionSort r l
  rw [mem_take_iff (hperm.nodup_iff.mpr hl), List.mem_insertionSort]
  refine and_congr_right fun hx => ?_
  have hbefore : l.filter (fun y => y ≠ x ∧ [y, x] <+ l.insertionSort r) =
      l.filter fun y => y ≠ x ∧ r y x ∧ (¬ r x y ∨ [y, x] <+ l) := by
    refine List.filter_congr fun y hy => decide_eq_decide.mpr (and_congr_right fun hne => ?_)
    exact pair_insertionSort_iff hl hx hy (Ne.symm hne)
  rw [(hperm.filter _).length_eq, hbefore]

end StableSort
