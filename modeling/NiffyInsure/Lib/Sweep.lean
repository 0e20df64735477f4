import Mathlib.Data.Finset.Card
import Mathlib.Data.List.Perm.Basic
import Mathlib.Logic.Function.Basic

/-!
# Sweeps over a board

A keeper visits the items of a board one after the other.  It decides each item that is due, and
every decision leaves its mark; an item that is not due is passed over.

* `items_sweep`: what a sweep leaves of each item.
* `processed_eq`: a sweep decides as many items as were due in its list, counted once.
* `sweep_perm`: when marks commute, the order of the visits does not matter.
* `alter_comm`: changing a function at two points, as marks do.
-/

universe u v w

namespace Sweep

/-! ## Changing a function at a point -/

section Points

variable {κ : Type u} {β : Type v} [DecidableEq κ]

/-- Change the value at `k`. -/
def alter (f : κ → β) (k : κ) (g : β → β) : κ → β := Function.update f k (g (f k))

theorem alter_apply (f : κ → β) (k : κ) (g : β → β) (x : κ) :
    alter f k g x = if x = k then g (f x) else f x := by
  unfold alter
  rw [Function.update_apply]
  split
  · rename_i h
    rw [h]
  · rfl

/-- Changes at two points commute; at one point, they do when the changes do. -/
theorem alter_comm (f : κ → β) {k k' : κ} {g g' : β → β}
    (h : k = k' → ∀ b, g (g' b) = g' (g b)) :
    alter (alter f k g) k' g' = alter (alter f k' g') k g := by
  funext x
  simp only [alter_apply]
  by_cases hk : x = k
  · by_cases hk' : x = k'
    · simp only [if_pos hk, if_pos hk']
      exact (h (hk.symm.trans hk') (f x)).symm
    · simp only [if_pos hk, if_neg hk']
  · by_cases hk' : x = k'
    · simp only [if_neg hk, if_pos hk']
    · simp only [if_neg hk, if_neg hk']

end Points

/-! ## Boards -/

/-- Which items are due, what becomes of them, and the mark that this leaves. -/
structure Rule (ι : Type u) (α : Type v) (μ : Type w) where
  due : α → Bool
  decided : ι → α → α
  effect : ι → α → μ → μ

@[ext] structure Board (ι : Type u) (α : Type v) (μ : Type w) where
  items : ι → Option α
  marks : μ

variable {ι : Type u} {α : Type v} {μ : Type w}

namespace Rule

variable (r : Rule ι α μ)

/-- Whether the item `i` of the board is due. -/
def isDue (b : Board ι α μ) (i : ι) : Bool := (b.items i).any r.due

/-- What becomes of an item at a visit. -/
def settled (i : ι) (a : α) : α := if r.due a = true then r.decided i a else a

/-- A decided item is not due again. -/
def Settles : Prop := ∀ i a, r.due a = true → r.due (r.decided i a) = false

/-- The marks of two items commute. -/
def Commutes : Prop :=
  ∀ i j a c m, r.effect i a (r.effect j c m) = r.effect j c (r.effect i a m)

variable {r} {b : Board ι α μ} {i j : ι} {a : α}

theorem isDue_iff : r.isDue b i = true ↔ ∃ a, b.items i = some a ∧ r.due a = true := by
  unfold isDue
  cases b.items i with
  | none => simp
  | some a => simp

theorem isDue_of_some (hitem : b.items i = some a) : r.isDue b i = r.due a := by
  unfold isDue
  rw [hitem, Option.any_some]

theorem settled_settled (hsettles : r.Settles) (i : ι) (a : α) :
    r.settled i (r.settled i a) = r.settled i a := by
  unfold settled
  by_cases hdue : r.due a = true
  · rw [if_pos hdue, if_neg (by rw [hsettles i a hdue]; decide)]
  · rw [if_neg hdue, if_neg hdue]

section Visits

variable [DecidableEq ι]

variable (r) in
/-- Decide the item `i` if it is due. -/
def visit (b : Board ι α μ) (i : ι) : Board ι α μ :=
  match b.items i with
  | none => b
  | some a =>
    if r.due a = true then ⟨Function.update b.items i (some (r.decided i a)), r.effect i a b.marks⟩
    else b

variable (r) in
/-- Visit the items of a list. -/
def sweep (b : Board ι α μ) (l : List ι) : Board ι α μ := l.foldl r.visit b

variable (r) in
/-- The number of items that the sweep decides. -/
def processed : List ι → Board ι α μ → ℕ
  | [], _ => 0
  | i :: l, b => (if r.isDue b i then 1 else 0) + processed l (r.visit b i)

theorem visit_of_due (hitem : b.items i = some a) (hdue : r.due a = true) :
    r.visit b i =
      ⟨Function.update b.items i (some (r.decided i a)), r.effect i a b.marks⟩ := by
  unfold visit
  rw [hitem]
  exact if_pos hdue

theorem visit_of_not_due (h : r.isDue b i = false) : r.visit b i = b := by
  unfold isDue at h
  unfold visit
  split
  · rfl
  · rename_i a hitem
    rw [hitem, Option.any_some] at h
    rw [if_neg (by simp [h])]

theorem items_visit_of_ne (h : j ≠ i) : (r.visit b i).items j = b.items j := by
  unfold visit
  split
  · rfl
  · split
    · exact Function.update_of_ne h _ _
    · rfl

theorem items_visit_self : (r.visit b i).items i = (b.items i).map (r.settled i) := by
  cases hitem : b.items i with
  | none => rw [visit_of_not_due (by simp [isDue, hitem]), hitem, Option.map_none]
  | some a =>
    rw [Option.map_some, settled]
    by_cases hdue : r.due a = true
    · rw [visit_of_due hitem hdue, if_pos hdue]
      exact Function.update_self _ _ _
    · rw [visit_of_not_due (by simpa [isDue, hitem] using hdue), if_neg hdue, hitem]

theorem isDue_visit_of_ne (h : j ≠ i) : r.isDue (r.visit b i) j = r.isDue b j := by
  unfold isDue
  rw [items_visit_of_ne h]

theorem isDue_visit_self (hsettles : r.Settles) : r.isDue (r.visit b i) i = false := by
  unfold isDue
  rw [items_visit_self]
  cases b.items i with
  | none => rfl
  | some a =>
    rw [Option.map_some, Option.any_some, settled]
    by_cases hdue : r.due a = true
    · rw [if_pos hdue]
      exact hsettles i a hdue
    · rw [if_neg hdue]
      simpa using hdue

/-! ## Sweeps -/

/-- **What a sweep leaves of an item**: it is settled if it was visited. -/
theorem items_sweep (hsettles : r.Settles) (l : List ι) (b : Board ι α μ) (i : ι) :
    (r.sweep b l).items i = if i ∈ l then (b.items i).map (r.settled i) else b.items i := by
  induction l generalizing b with
  | nil => rfl
  | cons j l ih =>
    change (r.sweep (r.visit b j) l).items i = _
    rw [ih]
    by_cases hij : i = j
    · subst hij
      rw [items_visit_self, Option.map_map, if_pos List.mem_cons_self]
      have hidem : r.settled i ∘ r.settled i = r.settled i :=
        funext (settled_settled hsettles i)
      rw [hidem, ite_self]
    · rw [items_visit_of_ne hij]
      simp only [List.mem_cons, hij, false_or]

/-- **A sweep decides the items of its list that were due**, each once. -/
theorem processed_eq (hsettles : r.Settles) (l : List ι) (b : Board ι α μ) :
    r.processed l b = (l.toFinset.filter fun i => r.isDue b i = true).card := by
  induction l generalizing b with
  | nil => rfl
  | cons i l ih =>
    rw [processed, ih]
    by_cases hdue : r.isDue b i = true
    · have hset : ((i :: l).toFinset.filter fun j => r.isDue b j = true) =
          insert i (l.toFinset.filter fun j => r.isDue (r.visit b i) j = true) := by
        ext j
        simp only [Finset.mem_filter, List.mem_toFinset, List.mem_cons, Finset.mem_insert]
        by_cases hji : j = i
        · subst hji
          simp [hdue]
        · rw [isDue_visit_of_ne hji]
          simp [hji]
      have hnew : i ∉ l.toFinset.filter fun j => r.isDue (r.visit b i) j = true := by
        simp [isDue_visit_self hsettles]
      rw [if_pos hdue, hset, Finset.card_insert_of_notMem hnew, Nat.add_comm]
    · have hpass : r.visit b i = b := visit_of_not_due (by simpa using hdue)
      have hset : ((i :: l).toFinset.filter fun j => r.isDue b j = true) =
          l.toFinset.filter fun j => r.isDue b j = true := by
        ext j
        simp only [Finset.mem_filter, List.mem_toFinset, List.mem_cons]
        constructor
        · rintro ⟨rfl | hmem, hj⟩
          · exact absurd hj hdue
          · exact ⟨hmem, hj⟩
        · rintro ⟨hmem, hj⟩
          exact ⟨.inr hmem, hj⟩
      rw [if_neg hdue, hpass, hset, Nat.zero_add]

theorem processed_le (l : List ι) (b : Board ι α μ) : r.processed l b ≤ l.length := by
  induction l generalizing b with
  | nil => exact le_rfl
  | cons i l ih =>
    have := ih (r.visit b i)
    rw [processed, List.length_cons]
    split <;> omega

/-- Two visits commute. -/
theorem visit_comm (hcomm : r.Commutes) (b : Board ι α μ) (i j : ι) :
    r.visit (r.visit b i) j = r.visit (r.visit b j) i := by
  by_cases hij : i = j
  · rw [hij]
  · by_cases hi : r.isDue b i = true
    · by_cases hj : r.isDue b j = true
      · obtain ⟨a, hitem, hdue⟩ := isDue_iff.mp hi
        obtain ⟨c, hitem', hdue'⟩ := isDue_iff.mp hj
        have hj' : (r.visit b i).items j = some c := by
          rw [items_visit_of_ne (Ne.symm hij), hitem']
        have hi' : (r.visit b j).items i = some a := by rw [items_visit_of_ne hij, hitem]
        rw [visit_of_due hj' hdue', visit_of_due hi' hdue, visit_of_due hitem hdue,
          visit_of_due hitem' hdue']
        refine Board.ext ?_ ?_
        · exact Function.update_comm hij _ _ _
        · exact hcomm j i c a b.marks
      · have hj₁ : r.visit b j = b := visit_of_not_due (by simpa using hj)
        have hj₂ : r.isDue (r.visit b i) j = false := by
          rw [isDue_visit_of_ne (Ne.symm hij)]
          simpa using hj
        rw [visit_of_not_due hj₂, hj₁]
    · have hi₁ : r.visit b i = b := visit_of_not_due (by simpa using hi)
      have hi₂ : r.isDue (r.visit b j) i = false := by
        rw [isDue_visit_of_ne hij]
        simpa using hi
      rw [visit_of_not_due hi₂, hi₁]

/-- **The order of the visits does not matter.** -/
theorem sweep_perm (hcomm : r.Commutes) {l l' : List ι} (h : l.Perm l') (b : Board ι α μ) :
    r.sweep b l = r.sweep b l' :=
  h.foldl_eq' (fun i _ j _ b => visit_comm hcomm b i j) b

end Visits

end Rule

end Sweep
