import NiffyInsure.Refund

/-!
# The arithmetic of the pro-rata refund

`compute_prorata_refund` subtracts ledgers with saturation, replaces a product that does not fit by
zero, and divides.  This file says what comes out, for every premium and every window.

* `div128`, `computeProrataRefundOrTrap`: the same computation with a division that may trap.
* `prorata_refund_exact`: bounds, the exact amount, its course over the ledgers, and no trap.
-/

namespace NiffyInsure

open ProRata

/-- `/` on `i128`, which traps on a zero divisor and on overflow. -/
def div128 (a b : Int) : Result Int :=
  if b = 0 then .error .trap else okOr (fit128 (a.tdiv b)) .trap

/-- `compute_prorata_refund`, where the division may trap. -/
def computeProrataRefundOrTrap (policy : Policy) (now : Nat) : Result Int :=
  let totalLedgers := policy.endLedger - policy.startLedger
  if totalLedgers = 0 then .ok 0
  else
    let remainingLedgers := policy.endLedger - now
    if remainingLedgers = 0 then .ok 0
    else
      let numerator := (checkedMul128 policy.premium remainingLedgers).getD 0
      if numerator ≤ 0 then .ok 0 else div128 numerator totalLedgers

/-- The ledgers of the window that are still to come. -/
def Policy.remaining (policy : Policy) (now : Nat) : Int := max ((policy.endLedger : Int) - now) 0

/-- The product of premium and remaining ledgers is an `i128`. -/
def Policy.RefundFits (policy : Policy) (now : Nat) : Prop :=
  I128_MIN ≤ policy.premium * policy.remaining now ∧
    policy.premium * policy.remaining now ≤ I128_MAX

section Arithmetic

variable {policy : Policy} {now later : Nat}

theorem remaining_eq (policy : Policy) (now : Nat) :
    policy.remaining now = (policy.endLedger - now : Nat) := by
  unfold Policy.remaining
  omega

theorem getD_fit128_cases (x : Int) :
    (fit128 x).getD 0 = x ∧ I128_MIN ≤ x ∧ x ≤ I128_MAX ∨ (fit128 x).getD 0 = 0 := by
  unfold fit128
  split
  · rename_i hfits
    exact .inl ⟨rfl, hfits.1, hfits.2⟩
  · exact .inr rfl

theorem computeProrataRefund_of_end (h : policy.endLedger ≤ now) :
    computeProrataRefund policy now = 0 := by
  have hleft : policy.endLedger - now = 0 := by omega
  simp [computeProrataRefund, hleft]

theorem computeProrataRefund_of_window (h : policy.endLedger ≤ policy.startLedger) :
    computeProrataRefund policy now = 0 := by
  have htotal : policy.endLedger - policy.startLedger = 0 := by omega
  simp [computeProrataRefund, htotal]

theorem computeProrataRefund_of_nonpos (h : policy.premium ≤ 0) :
    computeProrataRefund policy now = 0 := by
  have hnum : (checkedMul128 policy.premium (policy.endLedger - now : Nat)).getD 0 ≤ 0 := by
    rcases getD_fit128_cases (policy.premium * (policy.endLedger - now : Nat)) with ⟨heq, -⟩ | heq
    · rw [checkedMul128, heq]
      exact mul_nonpos_of_nonpos_of_nonneg h (Int.natCast_nonneg _)
    · rw [checkedMul128, heq]
  simp [computeProrataRefund, hnum]

theorem computeProrataRefund_eq_share (hpremium : 0 < policy.premium)
    (hfits : policy.RefundFits now) :
    computeProrataRefund policy now =
      share policy.premium (policy.endLedger - now) (policy.endLedger - policy.startLedger) := by
  by_cases hwindow : policy.startLedger < policy.endLedger
  · have hmax := hfits.2
    rw [remaining_eq] at hmax
    rw [computeProrataRefund_eq hpremium hwindow, if_pos hmax]
  · have htotal : policy.endLedger - policy.startLedger = 0 := by omega
    rw [computeProrataRefund_of_window (by omega), htotal, share, Nat.cast_zero, Int.ediv_zero]

/-- **The refund is the exact quotient, rounded down**, where the product fits. -/
theorem computeProrataRefund_eq_ediv (hnow : policy.startLedger ≤ now)
    (hpremium : 0 < policy.premium) (hfits : policy.RefundFits now) :
    computeProrataRefund policy now = policy.premium * policy.remaining now /
      ((policy.endLedger : Int) - policy.startLedger) := by
  by_cases hwindow : policy.startLedger < policy.endLedger
  · rw [computeProrataRefund_eq_share hpremium hfits, share, remaining_eq, Nat.cast_sub hwindow.le]
  · have hnone : policy.remaining now = 0 := by
      unfold Policy.remaining
      omega
    rw [computeProrataRefund_of_window (by omega), hnone, Int.mul_zero, Int.zero_ediv]

theorem computeProrataRefund_le (hnow : policy.startLedger ≤ now) :
    computeProrataRefund policy now ≤ max policy.premium 0 := by
  by_cases hpremium : policy.premium ≤ 0
  · rw [computeProrataRefund_of_nonpos hpremium]
    exact le_max_right _ _
  by_cases hwindow : policy.startLedger < policy.endLedger
  · rw [computeProrataRefund_eq (by omega) hwindow]
    split
    · have hpart : policy.endLedger - now ≤ policy.endLedger - policy.startLedger := by omega
      exact (share_le (by omega) hpart).trans (le_max_left _ _)
    · exact le_max_right _ _
  · rw [computeProrataRefund_of_window (by omega)]
    exact le_max_right _ _

theorem computeProrataRefund_antitone (hle : now ≤ later) (hnow : policy.RefundFits now)
    (hlater : policy.RefundFits later) :
    computeProrataRefund policy later ≤ computeProrataRefund policy now := by
  by_cases hpremium : policy.premium ≤ 0
  · rw [computeProrataRefund_of_nonpos hpremium, computeProrataRefund_of_nonpos hpremium]
  · rw [computeProrataRefund_eq_share (by omega) hnow,
      computeProrataRefund_eq_share (by omega) hlater]
    exact share_mono (by omega) (by omega)

/-- **The division never traps**: its divisor is positive and its quotient an `i128`. -/
theorem computeProrataRefundOrTrap_eq (policy : Policy) (now : Nat) :
    computeProrataRefundOrTrap policy now = .ok (computeProrataRefund policy now) := by
  dsimp only [computeProrataRefundOrTrap, computeProrataRefund]
  split
  · rfl
  rename_i htotal
  split
  · rfl
  split
  · rfl
  rename_i hnum
  generalize htotal' : policy.endLedger - policy.startLedger = total at *
  have hmax : (checkedMul128 policy.premium (policy.endLedger - now : Nat)).getD 0 ≤ I128_MAX := by
    rcases getD_fit128_cases (policy.premium * (policy.endLedger - now : Nat)) with
      ⟨heq, -, hmax⟩ | heq
    · rw [checkedMul128, heq]
      exact hmax
    · rw [checkedMul128, heq]
      decide
  generalize (checkedMul128 policy.premium (policy.endLedger - now : Nat)).getD 0 = numerator at *
  have hdiv : numerator.tdiv total = numerator / total := Int.tdiv_eq_ediv_of_nonneg (by omega)
  have hlow : 0 ≤ numerator / total := Int.ediv_nonneg (by omega) (by omega)
  have hhigh : numerator / total ≤ numerator := Int.ediv_le_self _ (by omega)
  have hmin : I128_MIN ≤ 0 := by decide
  have hfit : fit128 (numerator / total) = some (numerator / total) :=
    fit128_eq_some.mpr ⟨⟨by omega, by omega⟩, rfl⟩
  rw [div128, if_neg (by omega), hdiv, hfit]
  rfl

/-- **The refund of every policy at every ledger from its start on**: between zero and the premium;
zero from the end on, and in an empty window; the exact share, rounded down, of a positive premium
where the product fits; never more at a later ledger than at an earlier one where both products
fit; and computed without a trap. -/
theorem prorata_refund_exact (policy : Policy) (now : Nat) (hnow : policy.startLedger ≤ now) :
    (0 ≤ computeProrataRefund policy now ∧
      computeProrataRefund policy now ≤ max policy.premium 0) ∧
    (policy.endLedger ≤ now → computeProrataRefund policy now = 0) ∧
    (policy.endLedger ≤ policy.startLedger → computeProrataRefund policy now = 0) ∧
    (0 < policy.premium → policy.RefundFits now →
      computeProrataRefund policy now = policy.premium * policy.remaining now /
        ((policy.endLedger : Int) - policy.startLedger)) ∧
    (∀ later, now ≤ later → policy.RefundFits now → policy.RefundFits later →
      computeProrataRefund policy later ≤ computeProrataRefund policy now) ∧
    computeProrataRefundOrTrap policy now = .ok (computeProrataRefund policy now) :=
  ⟨⟨computeProrataRefund_nonneg policy now, computeProrataRefund_le hnow⟩,
    computeProrataRefund_of_end, computeProrataRefund_of_window, computeProrataRefund_eq_ediv hnow,
    fun _ => computeProrataRefund_antitone, computeProrataRefundOrTrap_eq policy now⟩

/-- A policy over the ledgers from 100 to 500. -/
def demoRefundPolicy : Policy where
  holder := 1
  policyId := 1
  policyType := .auto
  region := .low
  premium := 1000
  coverage := 50000
  isActive := true
  startLedger := 100
  endLedger := 500
  asset := 9
  deductible := none
  beneficiary := none
  terminatedAtLedger := 0
  terminationReason := .none
  terminatedByAdmin := false
  strikeCount := 0
  metadataUri := []
  termsHash := Vector.replicate 32 0
  tokenDecimals := 7

theorem prorata_refund_of_half :
    demoRefundPolicy.startLedger ≤ 300 ∧ computeProrataRefund demoRefundPolicy 300 = 500 ∧
      computeProrataRefund demoRefundPolicy 300 ≤ max demoRefundPolicy.premium 0 :=
  ⟨by decide, by decide, (prorata_refund_exact demoRefundPolicy 300 (by decide)).1.2⟩

end Arithmetic

end NiffyInsure
