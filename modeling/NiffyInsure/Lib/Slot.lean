import Mathlib.Logic.Function.Basic

/-!
# One-bit slots

Items sit at indices and carry a key; for each key one bit says whether an item with that
key is live.  `Exact` says that the bits tell the truth and that no key has two live items.

* `Exact.rewrite`: an item may be rewritten freely as long as its key and its being live do
  not change.
* `Exact.write`: an item may be written together with the bit of its key when it was live
  itself or the bit was clear.
-/

namespace Slot

universe u v w

variable {ι : Type u} {α : Type v} {κ : Type w}

/-- `flag k` tells whether an item with key `k` is live, and at most one is. -/
structure Exact (item : ι → Option α) (key : α → κ) (live : α → Prop) (flag : κ → Bool) : Prop where
  flag_iff : ∀ k, flag k = true ↔ ∃ i a, item i = some a ∧ key a = k ∧ live a
  unique : ∀ i j a b, item i = some a → item j = some b → live a → live b → key a = key b → i = j

variable {item : ι → Option α} {key : α → κ} {live : α → Prop} {flag : κ → Bool}

theorem Exact.empty (hitem : ∀ i, item i = none) (hflag : ∀ k, flag k = false) :
    Exact item key live flag where
  flag_iff k := by simp [hitem, hflag]
  unique i j a b ha := by
    rw [hitem] at ha
    cases ha

variable [DecidableEq ι] {i : ι} {b : α}

theorem Exact.rewrite (h : Exact item key live flag) {a : α} (ha : item i = some a)
    (hkey : key b = key a) (hlive : live b ↔ live a) :
    Exact (Function.update item i (some b)) key live flag := by
  -- every item of the new store is one of the old store with the same key, live as before
  have hold : ∀ j c, Function.update item i (some b) j = some c →
      ∃ d, item j = some d ∧ key c = key d ∧ (live c ↔ live d) := by
    intro j c hc
    by_cases hj : j = i
    · subst hj
      rw [Function.update_self] at hc
      cases hc
      exact ⟨a, ha, hkey, hlive⟩
    · rw [Function.update_of_ne hj] at hc
      exact ⟨c, hc, rfl, Iff.rfl⟩
  constructor
  · intro k
    rw [h.flag_iff]
    constructor
    · rintro ⟨j, c, hc, rfl, hl⟩
      by_cases hj : j = i
      · subst hj
        rw [ha] at hc
        cases hc
        exact ⟨j, b, by simp, hkey, hlive.mpr hl⟩
      · exact ⟨j, c, by rwa [Function.update_of_ne hj], rfl, hl⟩
    · rintro ⟨j, c, hc, rfl, hl⟩
      obtain ⟨d, hd, hk, hiff⟩ := hold j c hc
      exact ⟨j, d, hd, hk.symm, hiff.mp hl⟩
  · intro j j' c c' hc hc' hl hl' heq
    obtain ⟨d, hd, hk, hiff⟩ := hold j c hc
    obtain ⟨d', hd', hk', hiff'⟩ := hold j' c' hc'
    exact h.unique j j' d d' hd hd' (hiff.mp hl) (hiff'.mp hl') (by rw [← hk, heq, hk'])

variable [DecidableEq κ] [Decidable (live b)]

theorem Exact.write (h : Exact item key live flag) (hkey : ∀ a, item i = some a → key a = key b)
    (hfree : (∃ a, item i = some a ∧ live a) ∨ flag (key b) = false) :
    Exact (Function.update item i (some b)) key live
      (Function.update flag (key b) (decide (live b))) := by
  -- no other item with this key is live
  have hothers : ∀ j c, j ≠ i → item j = some c → live c → key c ≠ key b := by
    intro j c hj hc hl heq
    rcases hfree with ⟨a, ha, hla⟩ | hclear
    · exact hj (h.unique j i c a hc ha hl hla (heq.trans (hkey a ha).symm))
    · have hset := (h.flag_iff (key b)).mpr ⟨j, c, hc, heq, hl⟩
      rw [hclear] at hset
      cases hset
  constructor
  · intro k
    by_cases hk : k = key b
    · subst hk
      rw [Function.update_self, decide_eq_true_iff]
      constructor
      · intro hl
        exact ⟨i, b, by simp, rfl, hl⟩
      · rintro ⟨j, c, hc, heq, hl⟩
        by_cases hj : j = i
        · subst hj
          rw [Function.update_self] at hc
          cases hc
          exact hl
        · rw [Function.update_of_ne hj] at hc
          exact absurd heq (hothers j c hj hc hl)
    · rw [Function.update_of_ne hk, h.flag_iff]
      constructor
      · rintro ⟨j, c, hc, rfl, hl⟩
        have hj : j ≠ i := by
          rintro rfl
          exact hk (hkey c hc)
        exact ⟨j, c, by rwa [Function.update_of_ne hj], rfl, hl⟩
      · rintro ⟨j, c, hc, rfl, hl⟩
        have hj : j ≠ i := by
          rintro rfl
          rw [Function.update_self] at hc
          cases hc
          exact hk rfl
        exact ⟨j, c, by rwa [Function.update_of_ne hj] at hc, rfl, hl⟩
  · intro j j' c c' hc hc' hl hl' heq
    by_cases hj : j = i
    · by_cases hj' : j' = i
      · rw [hj, hj']
      · subst hj
        rw [Function.update_self] at hc
        cases hc
        rw [Function.update_of_ne hj'] at hc'
        exact absurd heq.symm (hothers j' c' hj' hc' hl')
    · rw [Function.update_of_ne hj] at hc
      by_cases hj' : j' = i
      · subst hj'
        rw [Function.update_self] at hc'
        cases hc'
        exact absurd heq (hothers j c hj hc hl)
      · rw [Function.update_of_ne hj'] at hc'
        exact h.unique j j' c c' hc hc' hl hl' heq

end Slot
