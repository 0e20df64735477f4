import Mathlib.Logic.Function.Basic
import Mathlib.Data.List.Basic

/-!
# Keys listed by class

An index has a list of keys for every class.  A key is added to a list unless it is there, and
dropped from a list wherever it is.  `Listed index k o` says that `k` is in the list of the class
`o` once and in no other, or, for `none`, in no list at all.

* `Listed.add` and `Listed.drop`: what the two operations do to the key that they name.
* `Listed.add_other` and `Listed.drop_other`: every other key stays where it was.
* `Listed.move_self`: a key that is in the right list already is not moved.
* `Listed.restrict`: a list loses the keys that a condition rejects, and no other list does.
* `Listed.unique`: a key is listed under one class.
-/

namespace ClassIndex

universe u v

variable {C : Type u} {K : Type v} [DecidableEq C] [DecidableEq K]

/-- Append the key to the list of the class, unless it is there. -/
def add (index : C → List K) (c : C) (k : K) : C → List K :=
  if k ∈ index c then index else Function.update index c (index c ++ [k])

/-- Take the key off the list of the class. -/
def drop (index : C → List K) (c : C) (k : K) : C → List K :=
  Function.update index c ((index c).filter (· ≠ k))

/-- Take the key from the list of one class to that of another. -/
def move (index : C → List K) (c c' : C) (k : K) : C → List K :=
  if c = c' then index else add (drop index c k) c' k

/-- Keep only some of the keys in the list of the class. -/
def restrict (index : C → List K) (c : C) (keep : K → Bool) : C → List K :=
  Function.update index c ((index c).filter keep)

/-- The key stands once in the list of the class, and in no other list. -/
def Listed (index : C → List K) (k : K) (o : Option C) : Prop :=
  ∀ c, (index c).count k = if o = some c then 1 else 0

variable {index : C → List K} {c c' : C} {k k' : K} {o o' : Option C}

theorem Listed.mem_iff (h : Listed index k o) : k ∈ index c ↔ o = some c := by
  rw [← List.count_pos_iff, h c]
  split
  · rename_i heq
    simp [heq]
  · rename_i hne
    simp [hne]

theorem Listed.unique (h : Listed index k o) (h' : Listed index k o') : o = o' := by
  have hiff : ∀ c, o = some c ↔ o' = some c := fun c => h.mem_iff.symm.trans h'.mem_iff
  cases o with
  | none =>
    cases o' with
    | none => rfl
    | some c => exact absurd ((hiff c).mpr rfl) (by simp)
  | some c => exact ((hiff c).mp rfl).symm

theorem Listed.add (h : Listed index k none) (c : C) :
    Listed (ClassIndex.add index c k) k (some c) := by
  have habsent : k ∉ index c := fun hmem => by cases h.mem_iff.mp hmem
  unfold ClassIndex.add
  rw [if_neg habsent]
  intro c'
  by_cases hc : c' = c
  · subst hc
    rw [Function.update_self, List.count_append, h c']
    simp
  · rw [Function.update_of_ne hc, h c', if_neg (by simp), if_neg]
    intro heq
    cases heq
    exact hc rfl

/-- A key that is in the list already is not added again. -/
theorem Listed.add_self (h : Listed index k (some c)) : ClassIndex.add index c k = index :=
  if_pos (h.mem_iff.mpr rfl)

theorem Listed.add_other (h : Listed index k' o) (hne : k' ≠ k) (c : C) :
    Listed (ClassIndex.add index c k) k' o := by
  unfold ClassIndex.add
  split
  · exact h
  · intro c'
    by_cases hc : c' = c
    · subst hc
      have hone : List.count k' [k] = 0 := List.count_eq_zero.mpr (by simpa using hne)
      rw [Function.update_self, List.count_append, hone, h c', Nat.add_zero]
    · rw [Function.update_of_ne hc]
      exact h c'

theorem Listed.drop (h : Listed index k (some c)) : Listed (ClassIndex.drop index c k) k none := by
  intro c'
  rw [if_neg (by simp)]
  unfold ClassIndex.drop
  by_cases hc : c' = c
  · subst hc
    rw [Function.update_self]
    exact List.count_eq_zero.mpr (by simp)
  · rw [Function.update_of_ne hc, h c', if_neg]
    intro heq
    cases heq
    exact hc rfl

/-- A key is dropped in vain from a list that it is not in. -/
theorem Listed.drop_absent (h : Listed index k o) (hne : o ≠ some c) :
    ClassIndex.drop index c k = index := by
  have habsent : k ∉ index c := fun hmem => hne (h.mem_iff.mp hmem)
  unfold ClassIndex.drop
  have hall : (index c).filter (· ≠ k) = index c := by
    rw [List.filter_eq_self]
    intro x hx
    exact decide_eq_true fun heq => habsent (heq ▸ hx)
  rw [hall, Function.update_eq_self]

/-- A key that is moved to where it stands stays there, wherever it was thought to be. -/
theorem Listed.move_self (h : Listed index k (some c')) (c : C) : move index c c' k = index := by
  unfold move
  split
  · rfl
  · rename_i hne
    have hother : some c' ≠ some c := fun heq => hne (Option.some.inj heq).symm
    rw [h.drop_absent hother, h.add_self]

theorem Listed.drop_other (h : Listed index k' o) (hne : k' ≠ k) (c : C) :
    Listed (ClassIndex.drop index c k) k' o := by
  unfold ClassIndex.drop
  intro c'
  by_cases hc : c' = c
  · subst hc
    rw [Function.update_self, List.count_filter (by simpa using hne)]
    exact h c'
  · rw [Function.update_of_ne hc]
    exact h c'

theorem Listed.restrict (h : Listed index k o) (c : C) (keep : K → Bool) :
    Listed (ClassIndex.restrict index c keep) k
      (if o = some c ∧ keep k = false then none else o) := by
  intro c'
  unfold ClassIndex.restrict
  by_cases hc : c' = c
  · subst hc
    rw [Function.update_self]
    cases hkeep : keep k with
    | true =>
      rw [List.count_filter hkeep, h c']
      simp
    | false =>
      have hnone : k ∉ (index c').filter keep := by
        intro hmem
        rw [(List.mem_filter.mp hmem).2] at hkeep
        cases hkeep
      rw [List.count_eq_zero.mpr hnone, if_neg]
      split
      · exact nofun
      · rename_i hdrop
        exact fun heq => hdrop ⟨heq, rfl⟩
  · rw [Function.update_of_ne hc, h c']
    by_cases hdrop : o = some c ∧ keep k = false
    · rw [if_pos hdrop, if_neg, if_neg (by simp)]
      rw [hdrop.1]
      exact fun heq => hc (Option.some.inj heq).symm
    · rw [if_neg hdrop]

end ClassIndex
