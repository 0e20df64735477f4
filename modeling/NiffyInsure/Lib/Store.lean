import Mathlib.Data.List.AList
import Mathlib.Algebra.BigOperators.Group.Finset.Basic
import Mathlib.Algebra.BigOperators.Group.Finset.Piecewise
import Mathlib.Algebra.Order.BigOperators.Group.Finset

/-!
# Typed keyed stores

A contract host keeps one entry per storage key, and the type of the entry is
decided by the key.  Mathlib's `AList β` is exactly this, with `β : κ → Type`
giving the type of each entry.  This file adds the two notions that proofs about
programs over such a store keep using.

* `total f m`: the sum of `f` over the stored entries.  One write changes it by
  the new entry minus the entry it replaces (`total_insert_add`), one removal by
  the removed entry (`total_erase_add`).  With `f` an indicator it counts
  entries (`total_le_card`), and without negative terms it bounds each of them
  (`share_le_total`).  Two sums compare as their terms do (`total_congr`,
  `total_le_total`).
* `AgreeOn P m m'`: the two stores have the same entries at every key in `P`.
  A sum whose terms vanish outside `P` is the same over both (`AgreeOn.total_eq`).
-/

namespace KeyedStore

universe u v w

variable {κ : Type u} {β : κ → Type v}

/-! ## Sums over the entries -/

section Total

variable {M : Type w} [AddCommMonoid M]

/-- The sum of `f` over the entries of a store. -/
def total (f : (k : κ) → β k → M) (m : AList β) : M :=
  (m.entries.map fun e => f e.1 e.2).sum

/-- What the entry at `k` contributes to `total f`. -/
def share (f : (k : κ) → β k → M) (k : κ) (o : Option (β k)) : M :=
  o.elim 0 (f k)

@[simp] theorem share_none (f : (k : κ) → β k → M) (k : κ) : share f k none = 0 := rfl

@[simp] theorem share_some (f : (k : κ) → β k → M) (k : κ) (v : β k) :
    share f k (some v) = f k v := rfl

@[simp] theorem total_empty (f : (k : κ) → β k → M) : total f (∅ : AList β) = 0 := rfl

variable [DecidableEq κ]

theorem sum_dlookup_add_kerase (f : (k : κ) → β k → M) (k : κ) (l : List (Sigma β)) :
    share f k (l.dlookup k) + ((l.kerase k).map fun e => f e.1 e.2).sum =
      (l.map fun e => f e.1 e.2).sum := by
  induction l with
  | nil => simp
  | cons e l ih =>
    obtain ⟨k', v⟩ := e
    by_cases h : k = k'
    · subst h
      simp
    · rw [List.dlookup_cons_ne _ ⟨k', v⟩ h, List.kerase_cons_ne h]
      simp only [List.map_cons, List.sum_cons]
      rw [← ih, add_left_comm]

theorem total_erase_add (f : (k : κ) → β k → M) (m : AList β) (k : κ) :
    share f k (m.lookup k) + total f (m.erase k) = total f m :=
  sum_dlookup_add_kerase f k m.entries

theorem total_insert (f : (k : κ) → β k → M) (m : AList β) (k : κ) (v : β k) :
    total f (m.insert k v) = f k v + total f (m.erase k) := by
  rw [total, AList.entries_insert, List.map_cons, List.sum_cons]
  rfl

/-- Writing `v` at `k` exchanges the contribution of the entry that was there. -/
theorem total_insert_add (f : (k : κ) → β k → M) (m : AList β) (k : κ) (v : β k) :
    share f k (m.lookup k) + total f (m.insert k v) = f k v + total f m := by
  rw [total_insert, add_left_comm, total_erase_add]

theorem total_eq_zero {f : (k : κ) → β k → M} {m : AList β}
    (h : ∀ k v, m.lookup k = some v → f k v = 0) : total f m = 0 := by
  refine List.sum_eq_zero fun x hx => ?_
  obtain ⟨e, he, rfl⟩ := List.mem_map.mp hx
  exact h e.1 e.2 (AList.mem_lookup_iff.mpr he)

/-- Where no entry counts negatively, each entry counts for at most the sum. -/
theorem share_le_total [PartialOrder M] [IsOrderedAddMonoid M] {f : (k : κ) → β k → M} {m : AList β}
    (hf : ∀ k v, m.lookup k = some v → 0 ≤ f k v) (k : κ) :
    share f k (m.lookup k) ≤ total f m := by
  rw [← total_erase_add f m k]
  refine le_add_of_nonneg_right (List.sum_nonneg fun x hx => ?_)
  obtain ⟨e, he, rfl⟩ := List.mem_map.mp hx
  exact hf e.1 e.2 (AList.mem_lookup_iff.mpr ((List.kerase_sublist k m.entries).mem he))

/-- The sum over the entries, read off the lookups at any finite set of keys that holds
them all. -/
theorem total_eq_sum (f : (k : κ) → β k → M) (m : AList β) {S : Finset κ}
    (hS : ∀ k ∈ m, k ∈ S) : total f m = ∑ k ∈ S, share f k (m.lookup k) := by
  induction m using AList.insertRec with
  | H0 => simp
  | IH k v m hk ih =>
    have hkS : k ∈ S := hS k (by simp)
    have hmS : ∀ j ∈ m, j ∈ S := fun j hj => hS j (by simp [hj])
    have hrest : ∀ j ∈ S.erase k, share f j ((m.insert k v).lookup j) = share f j (m.lookup j) := by
      intro j hj
      rw [AList.lookup_insert_ne (Finset.ne_of_mem_erase hj)]
    have hnone : m.lookup k = none := AList.lookup_eq_none.mpr hk
    have hadd := total_insert_add f m k v
    rw [hnone, share_none, zero_add, ih hmS] at hadd
    rw [hadd, ← Finset.add_sum_erase S _ hkS, ← Finset.add_sum_erase S _ hkS,
      Finset.sum_congr rfl hrest, hnone, AList.lookup_insert, share_some, share_none, zero_add]

theorem total_congr {f g : (k : κ) → β k → M} {m m' : AList β}
    (h : ∀ k, share f k (m.lookup k) = share g k (m'.lookup k)) : total f m = total g m' := by
  have hS : ∀ k, k ∈ m ∨ k ∈ m' → k ∈ m.keys.toFinset ∪ m'.keys.toFinset := by
    intro k hk
    simpa [AList.mem_keys] using hk
  rw [total_eq_sum f m fun k hk => hS k (.inl hk), total_eq_sum g m' fun k hk => hS k (.inr hk)]
  exact Finset.sum_congr rfl fun k _ => h k

theorem total_le_total [PartialOrder M] [IsOrderedAddMonoid M] {f g : (k : κ) → β k → M}
    {m m' : AList β} (h : ∀ k, share f k (m.lookup k) ≤ share g k (m'.lookup k)) :
    total f m ≤ total g m' := by
  have hS : ∀ k, k ∈ m ∨ k ∈ m' → k ∈ m.keys.toFinset ∪ m'.keys.toFinset := by
    intro k hk
    simpa [AList.mem_keys] using hk
  rw [total_eq_sum f m fun k hk => hS k (.inl hk), total_eq_sum g m' fun k hk => hS k (.inr hk)]
  exact Finset.sum_le_sum fun k _ => h k

/-- Counting entries: where `f` is at most one on `T` and zero outside, it sums to at most the
size of `T`. -/
theorem total_le_card {f : (k : κ) → β k → Nat} {m : AList β} {T : Finset κ}
    (hone : ∀ k v, m.lookup k = some v → f k v ≤ 1)
    (hzero : ∀ k v, m.lookup k = some v → k ∉ T → f k v = 0) : total f m ≤ T.card := by
  have hS : ∀ k ∈ m, k ∈ m.keys.toFinset ∪ T := by
    intro k hk
    simp [AList.mem_keys.mp hk]
  have hterm : ∀ k ∈ m.keys.toFinset ∪ T,
      share f k (m.lookup k) ≤ if k ∈ T then 1 else 0 := by
    intro k _
    cases hv : m.lookup k with
    | none => simp
    | some v =>
      rw [share_some]
      split
      · exact hone k v hv
      · rename_i hk
        exact le_of_eq (hzero k v hv hk)
  calc total f m = ∑ k ∈ m.keys.toFinset ∪ T, share f k (m.lookup k) := total_eq_sum f m hS
    _ ≤ ∑ k ∈ m.keys.toFinset ∪ T, if k ∈ T then 1 else 0 := Finset.sum_le_sum hterm
    _ = T.card := by
      rw [Finset.sum_ite_mem, Finset.union_inter_cancel_right, Finset.card_eq_sum_ones]

end Total

/-! ## Agreement on a set of keys -/

variable [DecidableEq κ]

/-- The stores `m` and `m'` hold the same entries at the keys of `P`. -/
def AgreeOn (P : κ → Prop) (m m' : AList β) : Prop :=
  ∀ k, P k → m'.lookup k = m.lookup k

namespace AgreeOn

variable {P : κ → Prop} {m m' m'' : AList β}

/-- A sum whose terms vanish outside `P` depends on the entries at `P` only. -/
theorem total_eq {M : Type w} [AddCommMonoid M] {f : (k : κ) → β k → M} (h : AgreeOn P m m')
    (hf : ∀ k v, ¬ P k → f k v = 0) : total f m' = total f m := by
  refine total_congr fun k => ?_
  by_cases hk : P k
  · rw [h k hk]
  · have hzero : ∀ o : Option (β k), share f k o = 0 := by
      intro o
      cases o with
      | none => rfl
      | some v => exact hf k v hk
    rw [hzero, hzero]

end AgreeOn

end KeyedStore
