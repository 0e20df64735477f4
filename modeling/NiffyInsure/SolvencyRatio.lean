import NiffyInsure.Trace
import Mathlib.Algebra.Ring.Int.Defs

/-!
# The solvency check, exactly

`check_solvency_ratio` compares the treasury's balance with the approved claims and a new coverage,
in `i128` arithmetic that saturates on one side and gives up on the other.

* `obligations_eq`: the obligations saturate once, at the top of the range.
* `checkSolvencyRatio_exact_iff`: when the answer is the one that exact arithmetic gives.
-/

namespace NiffyInsure

/-! ## Saturating sums -/

theorem clamp128_of_nonneg {x : Int} (h : 0 ≤ x) : clamp128 x = min x I128_MAX := by
  rw [clamp128]
  exact max_eq_right (le_min (le_trans (by decide) h) (by decide))

theorem saturatingAdd128_min {x y : Int} (hx : 0 ≤ x) (hy : 0 ≤ y) :
    saturatingAdd128 (min x I128_MAX) y = min (x + y) I128_MAX := by
  have hmax : (0 : Int) ≤ I128_MAX := by decide
  rw [saturatingAdd128, clamp128_of_nonneg (Int.add_nonneg (le_min hx hmax) hy)]
  omega

/-- What a claim obliges the treasury to pay in the asset. -/
def Claim.obligation (claim : Claim) (asset : Address) : Int :=
  if claim.status = .approved ∧ claim.asset = asset then max 0 (claim.amount - claim.deductible)
    else 0

/-- What all claims oblige it to, over the integers. -/
def State.obligationSum (s : State) (asset : Address) : Int :=
  ((List.range s.getClaimCounter).map fun i =>
    ((s.getClaim (i + 1)).map fun claim => claim.obligation asset).getD 0).sum

section Obligations

variable (s : State) (asset : Address)

theorem obligation_nonneg (claim : Claim) : 0 ≤ claim.obligation asset := by
  unfold Claim.obligation
  split
  · exact le_max_left _ _
  · exact le_rfl

theorem term_nonneg (i : Nat) :
    0 ≤ ((s.getClaim (i + 1)).map fun claim => claim.obligation asset).getD 0 := by
  cases s.getClaim (i + 1) with
  | none => exact le_rfl
  | some claim => exact obligation_nonneg asset claim

theorem obligationSum_nonneg : 0 ≤ s.obligationSum asset := by
  apply List.sum_nonneg
  intro x hx
  obtain ⟨i, -, rfl⟩ := List.mem_map.mp hx
  exact term_nonneg s asset i

theorem add_obligation {claim : Claim} {x : Int} (hx : 0 ≤ x) :
    (if claim.status = .approved ∧ claim.asset = asset ∧
        0 < saturatingSub128 claim.amount claim.deductible then
      saturatingAdd128 (min x I128_MAX) (saturatingSub128 claim.amount claim.deductible)
    else min x I128_MAX) = min (x + claim.obligation asset) I128_MAX := by
  have hmax : (0 : Int) ≤ I128_MAX := by decide
  have hmin : I128_MIN ≤ 0 := by decide
  by_cases hclaim : claim.status = .approved ∧ claim.asset = asset
  · rw [Claim.obligation, if_pos hclaim]
    by_cases hpos : 0 < claim.amount - claim.deductible
    · have hnet : saturatingSub128 claim.amount claim.deductible =
          min (claim.amount - claim.deductible) I128_MAX := clamp128_of_nonneg hpos.le
      have hnetpos : 0 < min (claim.amount - claim.deductible) I128_MAX := lt_min hpos (by decide)
      rw [hnet, if_pos ⟨hclaim.1, hclaim.2, hnetpos⟩, saturatingAdd128_min hx hnetpos.le]
      omega
    · have hnet : ¬ 0 < saturatingSub128 claim.amount claim.deductible := by
        rw [saturatingSub128, clamp128]
        omega
      rw [if_neg fun h => hnet h.2.2]
      omega
  · rw [Claim.obligation, if_neg hclaim, if_neg fun h => hclaim ⟨h.1, h.2.1⟩, Int.add_zero]

theorem foldl_min {α : Type} {top : Int} {f : Int → α → Int} {g : α → Int} (hg : ∀ a, 0 ≤ g a)
    (hf : ∀ x a, 0 ≤ x → f (min x top) a = min (x + g a) top) (l : List α) {x : Int} (hx : 0 ≤ x) :
    l.foldl f (min x top) = min (x + (l.map g).sum) top := by
  induction l generalizing x with
  | nil => rw [List.foldl_nil, List.map_nil, List.sum_nil, Int.add_zero]
  | cons a l ih =>
    rw [List.foldl_cons, List.map_cons, List.sum_cons, ← Int.add_assoc, hf x a hx]
    exact ih (Int.add_nonneg hx (hg a))

/-- **The obligations saturate once**: what the loop computes is the exact sum, cut at the top of
the range. -/
theorem obligations_eq :
    s.outstandingApprovedClaimObligations asset = min (s.obligationSum asset) I128_MAX := by
  have hzero : min (0 : Int) I128_MAX = 0 := by decide
  unfold State.outstandingApprovedClaimObligations
  rw [State.obligationSum, ← Int.zero_add (List.sum _),
    ← foldl_min (term_nonneg s asset) _ _ le_rfl, hzero]
  intro x i hx
  cases s.getClaim (i + 1) with
  | none => rw [Option.map_none, Option.getD_none, Int.add_zero]
  | some claim => exact add_obligation asset hx

end Obligations

/-! ## The answer -/

/-- The answer of the check, from the ratio, the balance and the obligations. -/
def solvencyAnswer (minRatioBps : Nat) (balance obligations : Int) : Bool :=
  if minRatioBps = 0 then true
  else if obligations ≤ 0 then true
  else if balance < 0 then false
  else match checkedMul128 balance 10000 with
    | none => true
    | some numerator => decide ((minRatioBps : Int) ≤ numerator / obligations)

theorem checkSolvencyRatio_eq (env : Env) (s : State) (asset : Address) {newCoverage : Int}
    (h : 0 ≤ newCoverage) :
    s.checkSolvencyRatio env asset newCoverage =
      solvencyAnswer s.getMinSolvencyRatioBps (s.balance asset (s.getTreasury env))
        (min (s.obligationSum asset + newCoverage) I128_MAX) := by
  rw [State.checkSolvencyRatio, obligations_eq,
    saturatingAdd128_min (obligationSum_nonneg s asset) h, solvencyAnswer]
  split
  · rfl
  · refine (if_neg (not_lt.mpr h)).trans ?_
    rfl

theorem le_ediv_min_iff {m : Nat} {n obligations : Int} (hm : m ≠ 0) (hpos : 0 < obligations)
    (hn : n * 10000 ≤ I128_MAX) :
    (m : Int) ≤ n * 10000 / min obligations I128_MAX ↔ m * obligations ≤ n * 10000 := by
  have hmax : (0 : Int) < I128_MAX := by decide
  rw [Int.le_ediv_iff_mul_le (lt_min hpos hmax)]
  rcases le_total obligations I128_MAX with hle | hle
  · rw [min_eq_left hle]
  · -- the ratio times the top of the range is more than a multiple of the scale can be
    have hm' : (1 : Int) ≤ m := by omega
    have htop : 1 * I128_MAX ≤ m * I128_MAX := Int.mul_le_mul_of_nonneg_right hm' hmax.le
    rw [Int.one_mul] at htop
    have hexact : m * I128_MAX ≤ m * obligations := Int.mul_le_mul_of_nonneg_left hle (by omega)
    rw [min_eq_right hle]
    have hlt : n * 10000 < I128_MAX := by
      simp only [I128_MAX] at hn ⊢
      omega
    exact iff_of_false (by omega) (by omega)

/-- **When the check is exact.**  A balance whose product with the scale is out of range passes, so
there the answer is right if the ratio is met; and a check that has nothing to compare passes, so
there the balance must not be negative. -/
theorem solvencyAnswer_exact_iff {m : Nat} {balance obligations : Int} (hobl : 0 ≤ obligations) :
    (solvencyAnswer m balance (min obligations I128_MAX) = true ↔
      m * obligations ≤ balance * 10000) ↔ (0 ≤ balance ∨ m ≠ 0 ∧ 0 < obligations) ∧
        (balance ≤ I128_MAX / 10000 ∨ m * obligations ≤ balance * 10000) := by
  have hmax : (0 : Int) < I128_MAX := by decide
  have hbound : ∀ {b : Int}, b ≤ I128_MAX / 10000 ↔ b * 10000 ≤ I128_MAX := fun {b} => by
    rw [Int.le_ediv_iff_mul_le (by decide)]
  by_cases hnothing : m = 0 ∨ obligations = 0
  · -- nothing to compare: the check passes
    have hanswer : solvencyAnswer m balance (min obligations I128_MAX) = true := by
      unfold solvencyAnswer
      rcases hnothing with hm | ho
      · rw [if_pos hm]
      · rw [if_pos (show min obligations I128_MAX ≤ 0 by omega), ite_self]
    have hprod : m * obligations = 0 := by
      rcases hnothing with hm | ho
      · rw [hm]
        exact Int.zero_mul _
      · rw [ho, Int.mul_zero]
    rw [hanswer, hprod]
    simp only [true_iff]
    constructor
    · exact fun h => ⟨.inl (by omega), .inr h⟩
    · rintro ⟨hnonneg | ⟨hm, ho⟩, -⟩
      · omega
      · omega
  · obtain ⟨hm, ho⟩ := not_or.mp hnothing
    have hpos : 0 < obligations := by omega
    have hcut : ¬ min obligations I128_MAX ≤ 0 := not_le.mpr (lt_min hpos hmax)
    have hprod : 0 < m * obligations := Int.mul_pos (by omega) hpos
    rw [solvencyAnswer, if_neg hm, if_neg hcut, and_iff_right (.inr ⟨hm, hpos⟩), hbound]
    split
    · rename_i hneg
      refine iff_of_true (iff_of_false Bool.false_ne_true (by omega)) (.inl (by omega))
    · rename_i hneg
      by_cases hfit : balance * 10000 ≤ I128_MAX
      · have hmul : checkedMul128 balance 10000 = some (balance * 10000) := by
          rw [checkedMul128, fit128_eq_some]
          refine ⟨⟨?_, hfit⟩, rfl⟩
          have : I128_MIN ≤ 0 := by decide
          omega
        rw [hmul, decide_eq_true_iff]
        exact iff_of_true (le_ediv_min_iff hm hpos hfit) (.inl hfit)
      · have hmul : checkedMul128 balance 10000 = none := by
          rw [checkedMul128, fit128, if_neg fun h => hfit h.2]
        rw [hmul, or_iff_right hfit]
        simp

/-- **When `check_solvency_ratio` is exact**, for the treasury's balance and the exact
obligations. -/
theorem checkSolvencyRatio_exact_iff {env : Env} {s : State} {asset : Address} {newCoverage : Int}
    (hcoverage : 0 ≤ newCoverage) :
    (s.checkSolvencyRatio env asset newCoverage = true ↔
      s.getMinSolvencyRatioBps * (s.obligationSum asset + newCoverage) ≤
        s.balance asset (s.getTreasury env) * 10000) ↔
      (0 ≤ s.balance asset (s.getTreasury env) ∨
          s.getMinSolvencyRatioBps ≠ 0 ∧ 0 < s.obligationSum asset + newCoverage) ∧
        (s.balance asset (s.getTreasury env) ≤ I128_MAX / 10000 ∨
          s.getMinSolvencyRatioBps * (s.obligationSum asset + newCoverage) ≤
            s.balance asset (s.getTreasury env) * 10000) := by
  rw [checkSolvencyRatio_eq env s asset hcoverage]
  exact solvencyAnswer_exact_iff (Int.add_nonneg (obligationSum_nonneg s asset) hcoverage)

theorem checkSolvencyRatio_exact_iff_deployed :
    ∃ s, (contract demoHost).Reach Machine.always s ∧
      (s.checkSolvencyRatio demoEnv assetAddress 500 = true ↔
        s.getMinSolvencyRatioBps * (s.obligationSum assetAddress + 500) ≤
          s.balance assetAddress (s.getTreasury demoEnv) * 10000) := by
  obtain ⟨s, hs, hval⟩ := exists_of_follow (f := fun s =>
      decide (0 ≤ s.balance assetAddress (s.getTreasury demoEnv) ∧
        s.balance assetAddress (s.getTreasury demoEnv) ≤ I128_MAX / 10000)) (a := true)
    always_of_noCheck (deployed 1000)
    [demoInit, demoCall (.setting (.adminSetMinSolvencyRatioBps 10000))]
    (fresh_deployed (by decide)) (by simp [demoInit]) (by decide +kernel)
  have hb := of_decide_eq_true hval
  exact ⟨s, hs, (checkSolvencyRatio_exact_iff (by decide)).mpr ⟨.inl hb.1, .inl hb.2⟩⟩

/-- A balance of 1.8e34 does not cover 2e34, but in basis points it is out of range, and passes. -/
theorem not_checkSolvencyRatio_exact :
    ∃ s, (contract demoHost).Reach Machine.always s ∧
      s.checkSolvencyRatio demoEnv assetAddress 20000000000000000000000000000000000 = true ∧
      ¬ s.getMinSolvencyRatioBps *
          (s.obligationSum assetAddress + 20000000000000000000000000000000000) ≤
        s.balance assetAddress (s.getTreasury demoEnv) * 10000 := by
  obtain ⟨s, hs, hval⟩ := exists_of_follow (f := fun s =>
      s.checkSolvencyRatio demoEnv assetAddress 20000000000000000000000000000000000 &&
        decide (¬ s.getMinSolvencyRatioBps *
            (s.obligationSum assetAddress + 20000000000000000000000000000000000) ≤
          s.balance assetAddress (s.getTreasury demoEnv) * 10000)) (a := true)
    always_of_noCheck (deployed 18000000000000000000000000000000000)
    [demoInit, demoCall (.setting (.adminSetMinSolvencyRatioBps 10000))]
    (fresh_deployed (by decide)) (by simp [demoInit]) (by decide +kernel)
  obtain ⟨hpass, hshort⟩ := Bool.and_eq_true_iff.mp hval
  exact ⟨s, hs, hpass, of_decide_eq_true hshort⟩

end NiffyInsure
