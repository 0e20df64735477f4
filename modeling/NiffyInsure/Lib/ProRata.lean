import Mathlib.Data.Int.Basic
import Mathlib.Tactic.Linarith

/-!
# Pro-rata shares

`share amount part whole` is the part of an amount that belongs to `part` of `whole` units of time,
rounded down.  A window of `terms` terms of one length makes the share of a term smaller than the
term's own window does, unless there is only one term or nothing to share.
-/

namespace ProRata

/-- The share of the amount for `part` of `whole` units. -/
def share (amount : Int) (part whole : Nat) : Int := amount * part / whole

variable {amount : Int} {part whole term terms : Nat}

theorem share_nonneg (h : 0 ≤ amount) : 0 ≤ share amount part whole :=
  Int.ediv_nonneg (Int.mul_nonneg h (Int.natCast_nonneg _)) (Int.natCast_nonneg _)

theorem share_le (h : 0 ≤ amount) (hpart : part ≤ whole) : share amount part whole ≤ amount := by
  by_cases hzero : whole = 0
  · rw [share, hzero]
    simpa using h
  · have hpos : (0 : Int) < whole := by omega
    refine Int.ediv_le_of_le_mul hpos ?_
    exact Int.mul_le_mul_of_nonneg_left (Int.ofNat_le.mpr hpart) h

theorem share_mono {part' : Nat} (h : 0 ≤ amount) (hpart : part ≤ part') :
    share amount part whole ≤ share amount part' whole := by
  rcases Nat.eq_zero_or_pos whole with rfl | hwhole
  · simp [share]
  · have hmul : amount * part ≤ amount * part' :=
      Int.mul_le_mul_of_nonneg_left (Int.ofNat_le.mpr hpart) h
    exact Int.ediv_le_ediv (by omega) hmul

/-- Nothing is to be shared exactly when the product stays below the whole. -/
theorem share_le_zero_iff (hwhole : 0 < whole) :
    share amount part whole ≤ 0 ↔ amount * part < whole := by
  have hpos : (0 : Int) < whole := Int.natCast_pos.mpr hwhole
  rw [share, ← Int.lt_add_one_iff, Int.zero_add, Int.ediv_lt_iff_lt_mul hpos, Int.one_mul]

theorem share_self (hterm : 0 < term) : share amount term term = amount :=
  Int.mul_ediv_cancel _ (by omega)

theorem share_terms :
    share amount part (terms * term) = share amount part term / terms := by
  rw [share, share, Int.ediv_ediv_of_nonneg (Int.natCast_nonneg _), Nat.cast_mul,
    Int.mul_comm terms]

/-- **Over several terms the share of the last one is smaller**, unless there is nothing to
share. -/
theorem share_lt_of_terms (hamount : 0 < amount) (hterm : 0 < term) (hterms : 2 ≤ terms)
    (hpart : part < 2 * term) (hsome : (term : Int) ≤ amount * (min part term : Nat)) :
    share amount part (terms * term) < share amount (min part term) term := by
  by_cases hle : part ≤ term
  · rw [min_eq_left hle] at hsome ⊢
    have hone : 0 < share amount part term := by
      by_contra hnone
      have hlt := (share_le_zero_iff hterm).mp (not_lt.mp hnone)
      omega
    have hk : (2 : Int) ≤ terms := by exact_mod_cast hterms
    rw [share_terms]
    refine Int.ediv_lt_of_lt_mul (by omega) ?_
    nlinarith
  · rw [min_eq_right (by omega), share_self hterm]
    have hlt : (part : Int) < terms * term := by
      have htwo : 2 * term ≤ terms * term := Nat.mul_le_mul_right term hterms
      exact_mod_cast hpart.trans_le htwo
    have hpos : (0 : Int) < (terms * term : Nat) := by
      have : 0 < terms * term := Nat.mul_pos (by omega) hterm
      exact_mod_cast this
    refine Int.ediv_lt_of_lt_mul hpos ?_
    push_cast
    exact Int.mul_lt_mul_of_pos_left hlt hamount

/-- **When the share over the whole window is at least that of the last term**: with one term, or
with nothing to share. -/
theorem share_le_share_iff (hamount : 0 < amount) (hterm : 0 < term) (hterms : 1 ≤ terms)
    (hpart : part < 2 * term) (hwhole : part ≤ terms * term) :
    share amount (min part term) term ≤ share amount part (terms * term) ↔
      amount * (min part term : Nat) < term ∨ terms = 1 := by
  by_cases hone : terms = 1
  · subst hone
    rw [Nat.one_mul] at hwhole ⊢
    rw [min_eq_left hwhole]
    exact iff_of_true le_rfl (.inr rfl)
  constructor
  · intro hle
    by_contra hsome
    simp only [not_or, not_lt] at hsome
    have hseveral : 2 ≤ terms := by omega
    exact absurd hle (not_le.mpr (share_lt_of_terms hamount hterm hseveral hpart hsome.1))
  · rintro (hnone | hone')
    · exact ((share_le_zero_iff hterm).mpr hnone).trans (share_nonneg hamount.le)
    · exact absurd hone' hone

end ProRata
