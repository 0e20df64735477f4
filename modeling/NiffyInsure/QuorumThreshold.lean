import NiffyInsure.Claim
import Mathlib.Algebra.Order.Floor.Div
import Mathlib.Algebra.Order.Ring.Rat
import Mathlib.Data.Rat.Floor
import Mathlib.GroupTheory.GroupAction.Ring

/-!
# The quorum as a number of ballots

`required_cast_for_quorum` multiplies in `u64` with saturation, rounds up and narrows to `u32`.  For
a `u32` electorate and a share of at most the whole, neither the saturation nor the narrowing is
ever seen: the number is the rounded-up share of the electorate.

* `requiredCastForQuorum_eq_ceilDiv`: the number without machine arithmetic.
* `requiredCastForQuorum_le_iff`: it is the least number of ballots that is the share.
* `requiredCastForQuorum_exact`: the rational ceiling, its bounds and its order, and that the whole
  electorate is a quorum.
-/

namespace NiffyInsure

section

variable {eligible quorumBps : Nat}

theorem mul_quorum_le (hE : eligible ≤ U32_MAX) (hQ : quorumBps ≤ 10000) :
    eligible * quorumBps ≤ U64_MAX := by
  have hmax : U32_MAX * 10000 ≤ U64_MAX := by decide
  exact (Nat.mul_le_mul hE hQ).trans hmax

theorem ceil_quorum_lt (hE : eligible ≤ U32_MAX) (hQ : quorumBps ≤ 10000) :
    eligible * quorumBps ⌈/⌉ 10000 < 2 ^ 32 := by
  have hmul : eligible * quorumBps ≤ U32_MAX * 10000 := Nat.mul_le_mul hE hQ
  have hu32 : U32_MAX * 10000 + 9999 < 2 ^ 32 * 10000 := by decide
  rw [Nat.ceilDiv_eq_add_pred_div, Nat.div_lt_iff_lt_mul (by decide)]
  omega

/-- **The threshold is the rounded-up share.** -/
theorem requiredCastForQuorum_eq_ceilDiv (hE : eligible ≤ U32_MAX) (hQ : quorumBps ≤ 10000) :
    requiredCastForQuorum eligible quorumBps = eligible * quorumBps ⌈/⌉ 10000 := by
  unfold requiredCastForQuorum
  by_cases hzero : eligible = 0
  · subst hzero
    rw [if_pos rfl, Nat.zero_mul, zero_ceilDiv]
  · rw [if_neg hzero, Nat.min_eq_left (mul_quorum_le hE hQ)]
    exact Nat.mod_eq_of_lt (ceil_quorum_lt hE hQ)

theorem requiredCastForQuorum_le_iff (hE : eligible ≤ U32_MAX) (hQ : quorumBps ≤ 10000) {n : Nat} :
    requiredCastForQuorum eligible quorumBps ≤ n ↔ eligible * quorumBps ≤ 10000 * n := by
  rw [requiredCastForQuorum_eq_ceilDiv hE hQ, ceilDiv_le_iff_le_mul (by decide)]

theorem ceil_requiredCastForQuorum (hE : eligible ≤ U32_MAX) (hQ : quorumBps ≤ 10000) :
    (requiredCastForQuorum eligible quorumBps : ℤ) = ⌈(eligible * quorumBps : ℚ) / 10000⌉ := by
  have hle : ∀ n, requiredCastForQuorum eligible quorumBps ≤ n ↔ eligible * quorumBps ≤ 10000 * n :=
    fun n => requiredCastForQuorum_le_iff hE hQ
  generalize requiredCastForQuorum eligible quorumBps = required at hle ⊢
  have hupper := (hle required).mp (Nat.le_refl _)
  refine (Int.ceil_eq_iff.mpr ⟨?_, ?_⟩).symm
  · -- one ballot less is below the share
    rw [lt_div_iff₀ (by norm_num), Int.cast_natCast]
    cases required with
    | zero =>
      have hpos : (0 : ℚ) ≤ eligible * quorumBps := by positivity
      push_cast
      linarith
    | succ n =>
      have hlower : 10000 * n < eligible * quorumBps := by
        by_contra hnot
        have hn := (hle n).mpr (by omega)
        omega
      have hcast : ((10000 * n : Nat) : ℚ) < (eligible * quorumBps : Nat) := Nat.cast_lt.mpr hlower
      push_cast at hcast ⊢
      linarith
  · rw [div_le_iff₀ (by norm_num), Int.cast_natCast]
    have hcast : ((eligible * quorumBps : Nat) : ℚ) ≤ (10000 * required : Nat) :=
      Nat.cast_le.mpr hupper
    push_cast at hcast
    linarith

theorem requiredCastForQuorum_le (hE : eligible ≤ U32_MAX) (hQ : quorumBps ≤ 10000) :
    requiredCastForQuorum eligible quorumBps ≤ eligible := by
  rw [requiredCastForQuorum_le_iff hE hQ, Nat.mul_comm]
  exact Nat.mul_le_mul_right _ hQ

theorem requiredCastForQuorum_pos (hE : eligible ≤ U32_MAX) (hQ : quorumBps ≤ 10000)
    (hvoters : 0 < eligible) (hshare : 0 < quorumBps) :
    0 < requiredCastForQuorum eligible quorumBps := by
  have hmul : 0 < eligible * quorumBps := Nat.mul_pos hvoters hshare
  by_contra hnot
  have hzero := (requiredCastForQuorum_le_iff hE hQ).mp (Nat.le_of_not_lt hnot)
  omega

theorem requiredCastForQuorum_mono {eligible' quorumBps' : Nat} (hE : eligible ≤ U32_MAX)
    (hQ : quorumBps ≤ 10000) (hvoters : eligible' ≤ eligible) (hshare : quorumBps' ≤ quorumBps) :
    requiredCastForQuorum eligible' quorumBps' ≤ requiredCastForQuorum eligible quorumBps := by
  rw [requiredCastForQuorum_le_iff (hvoters.trans hE) (hshare.trans hQ)]
  exact (Nat.mul_le_mul hvoters hshare).trans
    ((requiredCastForQuorum_le_iff hE hQ).mp (Nat.le_refl _))

end

/-! ## The whole electorate -/

/-- The claim after ballots that weigh one each. -/
def Claim.tallyAll (claim : Claim) (votes : List VoteOption) : Claim :=
  votes.foldl (fun c vote => c.tally vote 1) claim

theorem cast_tally_one (claim : Claim) (vote : VoteOption)
    (h : claim.approveVotes + claim.rejectVotes < U32_MAX) :
    (claim.tally vote 1).approveVotes + (claim.tally vote 1).rejectVotes =
      claim.approveVotes + claim.rejectVotes + 1 := by
  cases vote with
  | approve =>
    have hone : saturatingAdd32 claim.approveVotes 1 = claim.approveVotes + 1 :=
      Nat.min_eq_left (by omega)
    simp only [Claim.tally, hone]
    omega
  | reject =>
    have hone : saturatingAdd32 claim.rejectVotes 1 = claim.rejectVotes + 1 :=
      Nat.min_eq_left (by omega)
    simp only [Claim.tally, hone]
    omega

theorem cast_tallyAll : ∀ (votes : List VoteOption) (claim : Claim),
    claim.approveVotes + claim.rejectVotes + votes.length ≤ U32_MAX →
    (claim.tallyAll votes).approveVotes + (claim.tallyAll votes).rejectVotes =
      claim.approveVotes + claim.rejectVotes + votes.length := by
  intro votes
  induction votes with
  | nil => intro claim _; rfl
  | cons vote votes ih =>
    intro claim h
    rw [List.length_cons] at h ⊢
    have hone := cast_tally_one claim vote (by omega)
    have hrest := ih (claim.tally vote 1) (by omega)
    rw [Claim.tallyAll, List.foldl_cons, ← Claim.tallyAll, hrest, hone]
    omega

theorem met_of_everyone {eligible quorumBps approve reject : Nat} (hE : eligible ≤ U32_MAX)
    (hQ : quorumBps ≤ 10000) (h : approve + reject = eligible) :
    add32 approve reject = .ok eligible ∧
      participationQuorumMet eligible eligible quorumBps = true := by
  refine ⟨?_, decide_eq_true (requiredCastForQuorum_le hE hQ)⟩
  rw [add32, checkedAdd32, h, if_pos hE]
  rfl

/-- **The threshold is the exact ceiling**, at most the electorate, positive if both arguments are,
and monotone in them, and the ballots of the whole electorate reach it. -/
theorem requiredCastForQuorum_exact (eligible quorumBps : Nat) (hE : eligible ≤ U32_MAX)
    (hQ : quorumBps ≤ 10000) :
    (eligible * quorumBps ≤ U64_MAX ∧ eligible * quorumBps ⌈/⌉ 10000 ≤ U32_MAX ∧
      (requiredCastForQuorum eligible quorumBps : ℤ) = ⌈(eligible * quorumBps : ℚ) / 10000⌉) ∧
    requiredCastForQuorum eligible quorumBps ≤ eligible ∧
    (0 < eligible → 0 < quorumBps → 0 < requiredCastForQuorum eligible quorumBps) ∧
    (∀ eligible' ≤ eligible, ∀ quorumBps' ≤ quorumBps,
      requiredCastForQuorum eligible' quorumBps' ≤ requiredCastForQuorum eligible quorumBps) ∧
    ∀ (claim : Claim) (votes : List VoteOption), claim.approveVotes = 0 → claim.rejectVotes = 0 →
      votes.length = eligible →
      add32 (claim.tallyAll votes).approveVotes (claim.tallyAll votes).rejectVotes = .ok eligible ∧
        participationQuorumMet eligible eligible quorumBps = true := by
  refine ⟨⟨mul_quorum_le hE hQ, ?_, ceil_requiredCastForQuorum hE hQ⟩,
    requiredCastForQuorum_le hE hQ, requiredCastForQuorum_pos hE hQ, ?_, ?_⟩
  · have hlt := ceil_quorum_lt hE hQ
    have hu32 : U32_MAX + 1 = 2 ^ 32 := by decide
    omega
  · intro eligible' hvoters quorumBps' hshare
    exact requiredCastForQuorum_mono hE hQ hvoters hshare
  · intro claim votes happrove hreject heveryone
    have hcast := cast_tallyAll votes claim (by omega)
    exact met_of_everyone hE hQ (by omega)

/-- The largest electorate with a share of one third and a bit. -/
theorem requiredCastForQuorum_exact_largest :
    requiredCastForQuorum U32_MAX 3334 = 1431942097 ∧
      requiredCastForQuorum U32_MAX 3334 ≤ U32_MAX :=
  ⟨by decide, (requiredCastForQuorum_exact U32_MAX 3334 (Nat.le_refl _) (by decide)).2.1⟩

end NiffyInsure
