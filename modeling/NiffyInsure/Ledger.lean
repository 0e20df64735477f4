import NiffyInsure.Storage

/-!
# The asset book and the token contracts

`AssetLedger` is the contract's own book of each asset (`ledger.rs`); the token
contracts keep the cash.  `token.rs` moves cash and the callers keep the book, so
this file has both sides: the `record` and `reserve` operations on the book, and the
SEP-41 `transfer` and `transfer_from` that move exactly the given amount or trap.

Each operation has one `_eq_ok` lemma that says when it succeeds and what it
writes.
-/

namespace NiffyInsure

namespace State

variable (s : State)

/-! ## The book -/

/-- `ledger::load`. -/
abbrev getAssetLedger (asset : Address) : AssetLedger :=
  (s.get (.assetLedger asset)).getD AssetLedger.zero

abbrev setAssetLedger (asset : Address) (l : AssetLedger) : State := s.set (.assetLedger asset) l

/-- `record_premium_in`. -/
def recordPremiumIn (asset : Address) (amount : Int) : Result State := do
  ensure (0 < amount) (.error .zeroTreasuryDeposit)
  let l := s.getAssetLedger asset
  let treasuryBalance ← okOr (checkedAdd128 l.treasuryBalance amount) (.error .overflow)
  let totalPremiums ← okOr (checkedAdd128 l.totalPremiums amount) (.error .overflow)
  pure (s.setAssetLedger asset { l with treasuryBalance, totalPremiums })

/-- `record_deposit`. -/
def recordDeposit (asset : Address) (amount : Int) : Result State := do
  ensure (0 < amount) (.error .zeroTreasuryDeposit)
  let l := s.getAssetLedger asset
  let treasuryBalance ← okOr (checkedAdd128 l.treasuryBalance amount) (.error .overflow)
  pure (s.setAssetLedger asset { l with treasuryBalance })

/-- `reserve_coverage`. -/
def reserveCoverage (asset : Address) (amount : Int) : Result State := do
  ensure (0 < amount) (.error .claimAmountZero)
  let l := s.getAssetLedger asset
  let reservedCoverage ← okOr (checkedAdd128 l.reservedCoverage amount) (.error .overflow)
  pure (s.setAssetLedger asset { l with reservedCoverage })

/-- `release_coverage`. -/
def releaseCoverage (asset : Address) (amount : Int) : Result State :=
  if amount ≤ 0 then .ok s
  else do
    let l := s.getAssetLedger asset
    ensure (amount ≤ l.reservedCoverage) (.error .insufficientTreasury)
    let reservedCoverage ← okOr (checkedSub128 l.reservedCoverage amount) (.error .overflow)
    pure (s.setAssetLedger asset { l with reservedCoverage })

/-- `record_payout_out`: the debit and the released coverage are both capped at what
the book holds. -/
def recordPayoutOut (asset : Address) (amount releaseReserved : Int) : Result State := do
  ensure (0 < amount) (.error .claimAmountZero)
  let l := s.getAssetLedger asset
  let debit := if amount > l.treasuryBalance then l.treasuryBalance else amount
  let treasuryBalance ← okOr (checkedSub128 l.treasuryBalance debit) (.error .overflow)
  let totalPaid ← okOr (checkedAdd128 l.totalPaid amount) (.error .overflow)
  let reservedCoverage ←
    if releaseReserved > 0 then
      let rel := if releaseReserved > l.reservedCoverage then l.reservedCoverage
        else releaseReserved
      okOr (checkedSub128 l.reservedCoverage rel) (.error .overflow)
    else .ok l.reservedCoverage
  pure (s.setAssetLedger asset { l with treasuryBalance, totalPaid, reservedCoverage })

/-- `record_sweep`. -/
def recordSweep (asset : Address) (amount : Int) : Result State := do
  ensure (0 < amount) (.error .zeroTreasuryDeposit)
  let l := s.getAssetLedger asset
  let remaining ← okOr (checkedSub128 l.treasuryBalance amount) (.error .overflow)
  ensure (l.reservedCoverage ≤ remaining) (.error .insufficientTreasury)
  pure (s.setAssetLedger asset { l with treasuryBalance := remaining })

/-- `available_to_sweep`. -/
def availableToSweep (asset : Address) : Int :=
  saturatingSub128 (s.getAssetLedger asset).treasuryBalance
    (s.getAssetLedger asset).reservedCoverage

/-- `let _ = f(..)`: keep the writes if the call succeeded, and go on either way. -/
def ignoreErr (r : Result State) : State :=
  match r with
  | .ok s' => s'
  | .error _ => s

/-! ## The tokens -/

/-- Move `amount` of `asset` from `src` to `dst`. -/
def moveTokens (asset src dst : Address) (amount : Int) : State :=
  { s with
    balance := fun a x =>
      if a = asset then
        s.balance a x - (if x = src then amount else 0) + (if x = dst then amount else 0)
      else s.balance a x }

/-- SEP-41 `transfer`. -/
def tokenTransfer (env : Env) (asset src dst : Address) (amount : Int) : Result State := do
  ensure (src = env.contract ∨ env.auths src = true) .trap
  ensure (0 ≤ amount) .trap
  ensure (amount ≤ s.balance asset src) .trap
  pure (s.moveTokens asset src dst amount)

/-- SEP-41 `transfer_from`, always called by the contract as the spender. -/
def tokenTransferFrom (env : Env) (asset src dst : Address) (amount : Int) : Result State := do
  ensure (0 ≤ amount) .trap
  ensure (amount ≤ s.allowance asset src env.contract) .trap
  ensure (amount ≤ s.balance asset src) .trap
  let s₁ := s.moveTokens asset src dst amount
  pure { s₁ with
    allowance := fun a o x =>
      if a = asset ∧ o = src ∧ x = env.contract then s.allowance a o x - amount
      else s.allowance a o x }

/-- `token::transfer_in`. -/
def transferIn (env : Env) (src asset : Address) (amount : Int) : Result State := do
  ensure (0 < amount) (.error .zeroTreasuryDeposit)
  ensure (s.isAllowedAsset asset = true) (.error .invalidAsset)
  let s₁ ← s.recordDeposit asset amount
  s₁.tokenTransfer env asset src env.contract amount

/-- `token::collect_premium`: book the premium if the book can take it, then collect it into
the treasury. -/
def collectPremium (env : Env) (src asset : Address) (amount : Int) : Result State :=
  if amount ≤ 0 then .ok s
  else
    let s₁ := s.ignoreErr (s.recordPremiumIn asset amount)
    s₁.tokenTransferFrom env asset src (s₁.getTreasury env) amount

/-- `token::collect_premium_with_fee`: the treasury's part is booked and collected, the
protocol fee goes to its recipient unbooked. -/
def collectPremiumWithFee (env : Env) (src asset : Address) (treasuryAmount : Int)
    (feeRecipient : Address) (feeAmount : Int) : Result State := do
  let s₁ :=
    if 0 < treasuryAmount then s.ignoreErr (s.recordPremiumIn asset treasuryAmount) else s
  let s₂ ←
    if 0 < treasuryAmount then
      s₁.tokenTransferFrom env asset src (s₁.getTreasury env) treasuryAmount
    else .ok s₁
  if 0 < feeAmount then s₂.tokenTransferFrom env asset src feeRecipient feeAmount else .ok s₂

/-- Note a payout transfer in the ghost log. -/
def logPayout (p : Payout) : State := { s with payouts := s.payouts ++ [p] }

/-! ## What each operation on the book does -/

section Specs

variable {s} {s' : State} {asset : Address} {amount : Int}

theorem recordPremiumIn_eq_ok (h : s.recordPremiumIn asset amount = .ok s') :
    0 < amount ∧ (s.getAssetLedger asset).treasuryBalance + amount ≤ I128_MAX ∧
      s' = s.setAssetLedger asset { s.getAssetLedger asset with
        treasuryBalance := (s.getAssetLedger asset).treasuryBalance + amount
        totalPremiums := (s.getAssetLedger asset).totalPremiums + amount } := by
  simp only [recordPremiumIn, checkedAdd128, bind_eq_ok, ensure_eq_ok, okOr_eq_ok, pure_eq_ok,
    fit128_eq_some] at h
  obtain ⟨-, hpos, b, ⟨hfit, rfl⟩, p, ⟨-, rfl⟩, rfl⟩ := h
  exact ⟨hpos, hfit.2, rfl⟩

theorem recordDeposit_eq_ok (h : s.recordDeposit asset amount = .ok s') :
    0 < amount ∧ (s.getAssetLedger asset).treasuryBalance + amount ≤ I128_MAX ∧
      s' = s.setAssetLedger asset { s.getAssetLedger asset with
        treasuryBalance := (s.getAssetLedger asset).treasuryBalance + amount } := by
  simp only [recordDeposit, checkedAdd128, bind_eq_ok, ensure_eq_ok, okOr_eq_ok, pure_eq_ok,
    fit128_eq_some] at h
  obtain ⟨-, hpos, b, ⟨hfit, rfl⟩, rfl⟩ := h
  exact ⟨hpos, hfit.2, rfl⟩

theorem reserveCoverage_eq_ok (h : s.reserveCoverage asset amount = .ok s') :
    0 < amount ∧ (s.getAssetLedger asset).reservedCoverage + amount ≤ I128_MAX ∧
      s' = s.setAssetLedger asset { s.getAssetLedger asset with
        reservedCoverage := (s.getAssetLedger asset).reservedCoverage + amount } := by
  simp only [reserveCoverage, checkedAdd128, bind_eq_ok, ensure_eq_ok, okOr_eq_ok, pure_eq_ok,
    fit128_eq_some] at h
  obtain ⟨-, hpos, r, ⟨hfit, rfl⟩, rfl⟩ := h
  exact ⟨hpos, hfit.2, rfl⟩

/-- A positive amount is released exactly when it is reserved and the rest is an `i128`. -/
theorem releaseCoverage_eq_ok_iff (hpos : 0 < amount) :
    s.releaseCoverage asset amount = .ok s' ↔
      amount ≤ (s.getAssetLedger asset).reservedCoverage ∧
        (s.getAssetLedger asset).reservedCoverage - amount ≤ I128_MAX ∧
        s' = s.setAssetLedger asset { s.getAssetLedger asset with
          reservedCoverage := (s.getAssetLedger asset).reservedCoverage - amount } := by
  have hmin : I128_MIN ≤ 0 := by decide
  simp only [releaseCoverage, if_neg (show ¬ amount ≤ 0 by omega), checkedSub128, bind_eq_ok,
    ensure_eq_ok, okOr_eq_ok, pure_eq_ok, fit128_eq_some]
  constructor
  · rintro ⟨-, hle, r, ⟨⟨-, hfit⟩, rfl⟩, rfl⟩
    exact ⟨hle, hfit, rfl⟩
  · rintro ⟨hle, hfit, rfl⟩
    exact ⟨(), hle, _, ⟨⟨by omega, hfit⟩, rfl⟩, rfl⟩

/-- The part of `amount` that `record_payout_out` takes off the treasury. -/
def payoutDebit (asset : Address) (amount : Int) (s : State) : Int :=
  min amount (s.getAssetLedger asset).treasuryBalance

/-- The part of the reservation that `record_payout_out` releases. -/
def payoutRelease (asset : Address) (release : Int) (s : State) : Int :=
  if 0 < release then min release (s.getAssetLedger asset).reservedCoverage else 0

/-- The book after a payout of `amount`. -/
def payoutLedger (asset : Address) (amount release : Int) (s : State) : AssetLedger :=
  { s.getAssetLedger asset with
    treasuryBalance := (s.getAssetLedger asset).treasuryBalance - payoutDebit asset amount s
    reservedCoverage := (s.getAssetLedger asset).reservedCoverage - payoutRelease asset release s
    totalPaid := (s.getAssetLedger asset).totalPaid + amount }

theorem recordPayoutOut_eq_ok {release : Int}
    (h : s.recordPayoutOut asset amount release = .ok s') :
    0 < amount ∧ s' = s.setAssetLedger asset (payoutLedger asset amount release s) := by
  have hdebit : (if amount > (s.getAssetLedger asset).treasuryBalance then
      (s.getAssetLedger asset).treasuryBalance else amount) = payoutDebit asset amount s := by
    unfold payoutDebit
    split <;> omega
  dsimp only [recordPayoutOut] at h
  rw [hdebit] at h
  by_cases hrel : 0 < release
  · have hrelease : (if release > (s.getAssetLedger asset).reservedCoverage then
        (s.getAssetLedger asset).reservedCoverage else release) =
        payoutRelease asset release s := by
      unfold payoutRelease
      rw [if_pos hrel]
      split <;> omega
    simp only [gt_iff_lt] at hrelease
    simp only [gt_iff_lt, if_pos hrel, hrelease, checkedAdd128, checkedSub128, bind_eq_ok,
      ensure_eq_ok, okOr_eq_ok, pure_eq_ok, fit128_eq_some] at h
    obtain ⟨-, hpos, b, ⟨-, rfl⟩, p, ⟨-, rfl⟩, r, ⟨-, rfl⟩, rfl⟩ := h
    exact ⟨hpos, rfl⟩
  · have hrelease : payoutRelease asset release s = 0 := if_neg hrel
    simp only [gt_iff_lt, if_neg hrel, checkedAdd128, checkedSub128, bind_eq_ok, ensure_eq_ok,
      okOr_eq_ok, pure_eq_ok, fit128_eq_some] at h
    obtain ⟨-, hpos, b, ⟨-, rfl⟩, p, ⟨-, rfl⟩, r, hr, rfl⟩ := h
    cases hr
    refine ⟨hpos, ?_⟩
    rw [payoutLedger, hrelease, Int.sub_zero]

/-- With a book in range a payout is booked as long as the running total fits. -/
theorem exists_recordPayoutOut (hpos : 0 < amount)
    (htreasury : 0 ≤ (s.getAssetLedger asset).treasuryBalance)
    (hmax : (s.getAssetLedger asset).treasuryBalance ≤ I128_MAX)
    (htotal : I128_MIN ≤ (s.getAssetLedger asset).totalPaid)
    (hfit : (s.getAssetLedger asset).totalPaid + amount ≤ I128_MAX) :
    ∃ s', s.recordPayoutOut asset amount 0 = .ok s' := by
  have hmin : I128_MIN ≤ 0 := by decide
  dsimp only [recordPayoutOut]
  simp only [gt_iff_lt, if_neg (Int.lt_irrefl 0), checkedAdd128, checkedSub128, bind_eq_ok,
    ensure_eq_ok, okOr_eq_ok, pure_eq_ok, fit128_eq_some]
  refine ⟨_, (), hpos, _, ⟨?_, rfl⟩, _, ⟨by omega, rfl⟩, _, rfl, rfl⟩
  split <;> omega

/-- A sweep is booked exactly when the rest still covers the reservation. -/
theorem recordSweep_eq_ok_iff :
    s.recordSweep asset amount = .ok s' ↔
      0 < amount ∧ (I128_MIN ≤ (s.getAssetLedger asset).treasuryBalance - amount ∧
        (s.getAssetLedger asset).treasuryBalance - amount ≤ I128_MAX) ∧
        (s.getAssetLedger asset).reservedCoverage ≤
          (s.getAssetLedger asset).treasuryBalance - amount ∧
        s' = s.setAssetLedger asset { s.getAssetLedger asset with
          treasuryBalance := (s.getAssetLedger asset).treasuryBalance - amount } := by
  simp only [recordSweep, checkedSub128, bind_eq_ok, ensure_eq_ok, okOr_eq_ok, pure_eq_ok,
    fit128_eq_some]
  constructor
  · rintro ⟨-, hpos, r, ⟨hfit, rfl⟩, -, hres, rfl⟩
    exact ⟨hpos, hfit, hres, rfl⟩
  · rintro ⟨hpos, hfit, hres, rfl⟩
    exact ⟨(), hpos, _, ⟨hfit, rfl⟩, (), hres, rfl⟩

end Specs

@[simp] theorem get_moveTokens {k : DataKey} (a x y : Address) (n : Int) :
    (s.moveTokens a x y n).get k = s.get k := rfl
@[simp] theorem payouts_moveTokens (a x y : Address) (n : Int) :
    (s.moveTokens a x y n).payouts = s.payouts := rfl
@[simp] theorem sequence_moveTokens (a x y : Address) (n : Int) :
    (s.moveTokens a x y n).sequence = s.sequence := rfl
@[simp] theorem allowance_moveTokens (a x y : Address) (n : Int) :
    (s.moveTokens a x y n).allowance = s.allowance := rfl
@[simp] theorem storage_moveTokens (a x y : Address) (n : Int) :
    (s.moveTokens a x y n).storage = s.storage := rfl

@[simp] theorem get_logPayout {k : DataKey} (p : Payout) : (s.logPayout p).get k = s.get k := rfl
@[simp] theorem balance_logPayout (p : Payout) : (s.logPayout p).balance = s.balance := rfl
@[simp] theorem sequence_logPayout (p : Payout) : (s.logPayout p).sequence = s.sequence := rfl
@[simp] theorem payouts_logPayout (p : Payout) :
    (s.logPayout p).payouts = s.payouts ++ [p] := rfl
@[simp] theorem storage_logPayout (p : Payout) : (s.logPayout p).storage = s.storage := rfl

end State

end NiffyInsure
