import Mathlib.Logic.Function.Basic
import NiffyInsure.Lib.Store

/-!
# Counting the entries of a store by class

`cls k v` is the class of the entry `v` at `k`, or `none` for an entry that is not counted, and
`census cls m` is the number of entries of each class.

* `census_insert_keep`, `census_insert_enter`, `census_insert_leave` and `census_erase`: one write
  changes the census by one, or not at all.
* `Enrolled n count member`: a counter for each class says `n`, and the classes that count are the
  members of a roll.  It is kept when an entry enters and when one leaves (`Enrolled.enter`,
  `Enrolled.leave`), provided that the roll is left with the last entry.
-/

namespace KeyedStore

universe u v w

/-! ## One more and one less -/

section Bump

variable {C : Type w} [DecidableEq C]

/-- One more of the class. -/
def enter (n : C → Nat) (c : C) : C → Nat := Function.update n c (n c + 1)

/-- One less of the class. -/
def leave (n : C → Nat) (c : C) : C → Nat := Function.update n c (n c - 1)

theorem leave_enter_comm (n : C → Nat) {c d : C} (hne : c ≠ d) :
    leave (enter n d) c = enter (leave n c) d := by
  unfold leave enter
  rw [Function.update_of_ne hne, Function.update_of_ne hne.symm, Function.update_comm hne]

/-- The counters say `n`, and the members of the roll are the classes that count. -/
def Enrolled (n count : C → Nat) (member : C → Prop) : Prop :=
  ∀ c, count c = n c ∧ (member c ↔ 0 < n c)

variable {n count count' : C → Nat} {member member' : C → Prop} {c : C}

theorem Enrolled.enter (h : Enrolled n count member) (hcount : count' = KeyedStore.enter count c)
    (hmem : ∀ d, member' d ↔ member d ∨ d = c) :
    Enrolled (KeyedStore.enter n c) count' member' := by
  intro d
  obtain ⟨hd, hiff⟩ := h d
  rw [hcount, hmem, hiff]
  unfold KeyedStore.enter
  by_cases hdc : d = c
  · subst hdc
    rw [Function.update_self, Function.update_self, hd]
    simp
  · rw [Function.update_of_ne hdc, Function.update_of_ne hdc]
    simp [hd, hdc]

theorem Enrolled.leave (h : Enrolled n count member) (hcount : count' = KeyedStore.leave count c)
    (hlast : count' c = 0 → ∀ d, member' d ↔ member d ∧ d ≠ c)
    (hmore : count' c ≠ 0 → ∀ d, member' d ↔ member d) :
    Enrolled (KeyedStore.leave n c) count' member' := by
  have hself : count' c = n c - 1 := by
    rw [hcount, KeyedStore.leave, Function.update_self, (h c).1]
  intro d
  obtain ⟨hd, hiff⟩ := h d
  unfold KeyedStore.leave
  by_cases hdc : d = c
  · subst hdc
    rw [Function.update_self]
    refine ⟨hself, ?_⟩
    by_cases hzero : count' d = 0
    · rw [hlast hzero d]
      constructor
      · rintro ⟨-, hne⟩
        exact absurd rfl hne
      · intro hpos
        omega
    · rw [hmore hzero d, hiff]
      omega
  · rw [Function.update_of_ne hdc]
    refine ⟨by rw [hcount, KeyedStore.leave, Function.update_of_ne hdc, hd], ?_⟩
    rw [← hiff]
    by_cases hzero : count' c = 0
    · rw [hlast hzero d]
      simp [hdc]
    · exact hmore hzero d

end Bump

/-! ## The census -/

section Census

variable {κ : Type u} {β : κ → Type v} {C : Type w} [DecidableEq C]

/-- The number of entries of each class. -/
def census (cls : (k : κ) → β k → Option C) (m : AList β) (c : C) : Nat :=
  m.entries.countP fun e => cls e.1 e.2 = some c

/-- What an entry counts for the class. -/
def counts (cls : (k : κ) → β k → Option C) (c : C) (k : κ) (v : β k) : Nat :=
  if cls k v = some c then 1 else 0

variable {cls : (k : κ) → β k → Option C} {m m' : AList β} {k : κ} {v : β k} {c : C}

theorem census_eq_total (cls : (k : κ) → β k → Option C) (m : AList β) (c : C) :
    census cls m c = total (counts cls c) m := by
  unfold census total
  induction m.entries with
  | nil => rfl
  | cons e l ih =>
    rw [List.countP_cons, List.map_cons, List.sum_cons, ih, Nat.add_comm]
    simp [counts]

@[simp] theorem census_empty : census cls (∅ : AList β) c = 0 := rfl

theorem share_counts (o : Option (β k)) :
    share (counts cls c) k o = if o.bind (cls k) = some c then 1 else 0 := by
  cases o with
  | none => rfl
  | some v => rfl

/-- The sums before and after an entry of the class is gone. -/
theorem census_eq_leave
    (h : ∀ d, (if some c = some d then 1 else 0) + census cls m' d = census cls m d) :
    census cls m' = leave (census cls m) c := by
  funext d
  have hadd := h d
  unfold leave
  by_cases hd : d = c
  · subst hd
    rw [if_pos rfl] at hadd
    rw [Function.update_self, ← hadd, Nat.add_sub_cancel_left]
  · rw [if_neg fun heq => hd (Option.some.inj heq).symm, Nat.zero_add] at hadd
    rw [Function.update_of_ne hd, hadd]

variable [DecidableEq κ]

theorem census_insert_add (cls : (k : κ) → β k → Option C) (m : AList β) (k : κ) (v : β k) (c : C) :
    (if (m.lookup k).bind (cls k) = some c then 1 else 0) + census cls (m.insert k v) c =
      (if cls k v = some c then 1 else 0) + census cls m c := by
  rw [census_eq_total, census_eq_total, ← share_counts]
  exact total_insert_add (counts cls c) m k v

/-- An entry that is replaced by one of its class changes nothing. -/
theorem census_insert_keep (h : (m.lookup k).bind (cls k) = cls k v) :
    census cls (m.insert k v) = census cls m := by
  funext c
  have hadd := census_insert_add cls m k v c
  rw [h] at hadd
  exact Nat.add_left_cancel hadd

/-- An entry of the class comes where none was counted. -/
theorem census_insert_enter (hold : (m.lookup k).bind (cls k) = none) (hnew : cls k v = some c) :
    census cls (m.insert k v) = enter (census cls m) c := by
  funext d
  have hadd := census_insert_add cls m k v d
  rw [hold, hnew, if_neg (by simp), Nat.zero_add] at hadd
  rw [hadd]
  unfold enter
  by_cases hd : d = c
  · subst hd
    rw [if_pos rfl, Function.update_self, Nat.add_comm]
  · rw [if_neg fun heq => hd (Option.some.inj heq).symm, Function.update_of_ne hd, Nat.zero_add]

/-- An entry of the class is replaced by one that is not counted. -/
theorem census_insert_leave (hold : (m.lookup k).bind (cls k) = some c) (hnew : cls k v = none) :
    census cls (m.insert k v) = leave (census cls m) c := by
  refine census_eq_leave fun d => ?_
  have hadd := census_insert_add cls m k v d
  have hzero : (if none = some d then 1 else 0) = 0 := if_neg (by simp)
  rw [hold, hnew, hzero, Nat.zero_add] at hadd
  exact hadd

theorem census_erase (hold : (m.lookup k).bind (cls k) = some c) :
    census cls (m.erase k) = leave (census cls m) c := by
  refine census_eq_leave fun d => ?_
  rw [← hold, census_eq_total, census_eq_total, ← share_counts]
  exact total_erase_add (counts cls d) m k

/-- Stores that agree where entries are counted have the same census. -/
theorem AgreeOn.census_eq {P : κ → Prop} (h : AgreeOn P m m')
    (hcls : ∀ k v, ¬ P k → cls k v = none) : census cls m' = census cls m := by
  funext c
  rw [census_eq_total, census_eq_total]
  refine h.total_eq fun k v hk => ?_
  rw [counts, hcls k v hk, if_neg (by simp)]

end Census

end KeyedStore
