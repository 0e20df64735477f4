import NiffyInsure.Book
import NiffyInsure.Trace

/-!
# Book and cash

With the treasury at its default, the contract itself, the tokens of the contract are to cover
`treasury_balance` of every asset.  Premiums, deposits, payouts and `admin_sweep` book what they
move.  Three places move tokens past the book: the refund of a filing fee, `drain`, and the two
calls that drop a failed booking (a refund at termination and `sweep_token`).

* `Solvent`: the book of every asset is in range and covered by the tokens of the contract.
* `KeepsSolvent`: the condition on a step, that tokens moved past the book come out of the
  surplus, and that the treasury stays where it is.
* `book_covered_of_reach`: in every run whose steps meet it the tokens cover the book.
-/

namespace NiffyInsure

open Machine

/-- The counters of one asset are in range, and `cash` covers the treasury balance. -/
structure AssetLedger.Covered (l : AssetLedger) (cash : Int) : Prop where
  treasury : 0 ≤ l.treasuryBalance
  fit : l.treasuryBalance ≤ I128_MAX
  reserved : 0 ≤ l.reservedCoverage
  paid : 0 ≤ l.totalPaid
  cash : l.treasuryBalance ≤ cash

/-- The treasury is the contract, and its tokens cover the book of every asset. -/
structure Solvent (host : Host) (s : State) : Prop where
  treasury : s.get .treasury = none
  covered : ∀ asset, (s.getAssetLedger asset).Covered (s.balance asset host.contract)

/-- What the contract holds of an asset beyond its treasury balance is at least `amount`. -/
def State.Spares (s : State) (contract asset : Address) (amount : Int) : Prop :=
  (s.getAssetLedger asset).treasuryBalance + amount ≤ s.balance asset contract

/-! ## The book of one asset -/

namespace AssetLedger.Covered

variable {l : AssetLedger} {cash amount : Int}

theorem mono (h : l.Covered cash) {cash' : Int} (hle : cash ≤ cash') : l.Covered cash' :=
  { h with cash := h.cash.trans hle }

theorem credit (h : l.Covered cash) (hpos : 0 < amount)
    (hfit : l.treasuryBalance + amount ≤ I128_MAX) (premiums : Int) :
    { l with treasuryBalance := l.treasuryBalance + amount, totalPremiums := premiums }.Covered
      (cash + amount) where
  treasury := Int.add_nonneg h.treasury hpos.le
  fit := hfit
  reserved := h.reserved
  paid := h.paid
  cash := Int.add_le_add_right h.cash amount

end AssetLedger.Covered

section Book

variable {env : Env} {s s' s₁ : State} {asset src dst : Address} {amount : Int}

theorem Solvent.of_quiet {host : Host} (h : Quiet s s') (hs : Solvent host s) :
    Solvent host s' where
  treasury := (h.treasury .treasury rfl).trans hs.treasury
  covered a := by
    rw [getAssetLedger_of_same h.ledger, h.balance]
    exact hs.covered a

theorem Solvent.getTreasury_eq (hs : Solvent env.toHost s) : s.getTreasury env = env.contract := by
  rw [State.getTreasury, hs.treasury]
  rfl

theorem Solvent.of_set {l : AssetLedger} (hs : Solvent env.toHost s)
    (hl : l.Covered (s.balance asset env.contract)) :
    Solvent env.toHost (s.setAssetLedger asset l) where
  treasury := by
    rw [State.setAssetLedger, State.get_set_of_ne _ _ (by simp)]
    exact hs.treasury
  covered a := by
    rw [getAssetLedger_setAssetLedger]
    split
    · rename_i heq
      subst heq
      exact hl
    · exact hs.covered a

theorem Solvent.of_move (hs : Solvent env.toHost s)
    (hcash : (s.getAssetLedger asset).treasuryBalance ≤
      s.balance asset env.contract - (if env.contract = src then amount else 0) +
        (if env.contract = dst then amount else 0)) :
    Solvent env.toHost (s.moveTokens asset src dst amount) where
  treasury := hs.treasury
  covered a := by
    change (s.getAssetLedger a).Covered (if a = asset then s.balance a env.contract -
      (if env.contract = src then amount else 0) + (if env.contract = dst then amount else 0)
      else s.balance a env.contract)
    split
    · rename_i heq
      subst heq
      exact { hs.covered a with cash := hcash }
    · exact hs.covered a

theorem Solvent.tokenTransfer_out (h : s.tokenTransfer env asset env.contract dst amount = .ok s')
    (hspare : dst = env.contract ∨ s.Spares env.contract asset amount)
    (hs : Solvent env.toHost s) : Solvent env.toHost s' := by
  obtain ⟨-, -, -, rfl⟩ := tokenTransfer_eq_ok.mp h
  have hcash : (s.getAssetLedger asset).treasuryBalance ≤ s.balance asset env.contract :=
    (hs.covered asset).cash
  refine hs.of_move ?_
  rw [if_pos rfl]
  rcases hspare with rfl | hspare
  · rw [if_pos rfl]
    omega
  · unfold State.Spares at hspare
    obtain ⟨-, hpos, -, -⟩ := tokenTransfer_eq_ok.mp h
    split <;> omega

/-- Apart from the allowance, `transfer_from` moves the tokens and nothing else. -/
theorem Solvent.of_transferFrom (h : s.tokenTransferFrom env asset src dst amount = .ok s')
    (hmove : Solvent env.toHost (s.moveTokens asset src dst amount)) : Solvent env.toHost s' := by
  obtain ⟨-, -, hbal, -⟩ := tokenTransferFrom_balance h
  have hf := frame_tokenTransferFrom h
  have hledger : SameKind .assetLedger s s' := hf.sameKind rfl
  have htreasury : SameKind .treasury s s' := hf.sameKind rfl
  have hquiet : Quiet (s.moveTokens asset src dst amount) s' := ⟨hledger, htreasury, hbal⟩
  exact Solvent.of_quiet hquiet hmove

/-- Tokens of others are moved by the contract, or its own past an empty book. -/
theorem Solvent.tokenTransferFrom (h : s.tokenTransferFrom env asset src dst amount = .ok s')
    (hsrc : src ≠ env.contract ∨ (s.getAssetLedger asset).treasuryBalance = 0)
    (hs : Solvent env.toHost s) : Solvent env.toHost s' := by
  obtain ⟨hpos, hle, -, -⟩ := tokenTransferFrom_balance h
  have hcash : (s.getAssetLedger asset).treasuryBalance ≤ s.balance asset env.contract :=
    (hs.covered asset).cash
  refine Solvent.of_transferFrom h (hs.of_move ?_)
  by_cases hself : env.contract = src
  · rw [if_pos hself]
    subst hself
    have hzero := hsrc.resolve_left (fun hne => hne rfl)
    split <;> omega
  · rw [if_neg hself]
    split <;> omega

theorem Solvent.of_credit {l : AssetLedger} (hs : Solvent env.toHost s) (hsrc : src ≠ env.contract)
    (hl : l.Covered (s.balance asset env.contract + amount)) (hpos : 0 ≤ amount) :
    Solvent env.toHost ((s.setAssetLedger asset l).moveTokens asset src env.contract amount) := by
  have hcash : (s.getAssetLedger asset).treasuryBalance ≤ s.balance asset env.contract :=
    (hs.covered asset).cash
  have hbal : (s.moveTokens asset src env.contract amount).balance asset env.contract =
      s.balance asset env.contract + amount := by
    simp [State.moveTokens, hsrc.symm]
  -- the two writes are to different parts of the state
  change Solvent env.toHost ((s.moveTokens asset src env.contract amount).setAssetLedger asset l)
  refine Solvent.of_set (hs.of_move ?_) ?_
  · rw [if_neg hsrc.symm, if_pos rfl]
    omega
  · rw [hbal]
    exact hl

theorem Solvent.recordPayoutOut {release : Int}
    (h : s.recordPayoutOut asset amount release = .ok s') (hs : Solvent env.toHost s) :
    Solvent env.toHost s' ∧ (amount ≤ s'.balance asset env.contract →
      s'.Spares env.contract asset amount) ∧
      (s'.balance asset env.contract < amount → (s'.getAssetLedger asset).treasuryBalance = 0) := by
  obtain ⟨hpos, rfl⟩ := State.recordPayoutOut_eq_ok h
  have hl := hs.covered asset
  obtain ⟨htreasury, hfit, hreserved, hpaid, hcash⟩ := hl
  have hledger :
      ((s.setAssetLedger asset (State.payoutLedger asset amount release s)).getAssetLedger asset) =
        State.payoutLedger asset amount release s := by
    rw [getAssetLedger_setAssetLedger, if_pos rfl]
  have hrest : (State.payoutLedger asset amount release s).treasuryBalance =
      (s.getAssetLedger asset).treasuryBalance -
        min amount (s.getAssetLedger asset).treasuryBalance :=
    rfl
  have hbal : (s.setAssetLedger asset (State.payoutLedger asset amount release s)).balance asset
      env.contract = s.balance asset env.contract := rfl
  change (s.getAssetLedger asset).treasuryBalance ≤ s.balance asset env.contract at hcash
  refine ⟨hs.of_set ⟨?_, ?_, ?_, ?_, ?_⟩, ?_, ?_⟩
  · omega
  · omega
  · change 0 ≤ (s.getAssetLedger asset).reservedCoverage - State.payoutRelease asset release s
    unfold State.payoutRelease
    split <;> omega
  · exact Int.add_nonneg hpaid hpos.le
  · omega
  · intro hle
    rw [State.Spares, hledger, hrest, hbal]
    rw [hbal] at hle
    omega
  · intro hlt
    rw [hledger, hrest]
    rw [hbal] at hlt
    omega

theorem Solvent.recordSweep (h : s.recordSweep asset amount = .ok s') (hs : Solvent env.toHost s) :
    Solvent env.toHost s' ∧ s'.Spares env.contract asset amount := by
  obtain ⟨hpos, hfit, hres, rfl⟩ := State.recordSweep_eq_ok_iff.mp h
  obtain ⟨htreasury, -, hreserved, hpaid, hcash⟩ := hs.covered asset
  change (s.getAssetLedger asset).treasuryBalance ≤ s.balance asset env.contract at hcash
  refine ⟨hs.of_set ⟨?_, hfit.2, hreserved, hpaid, ?_⟩, ?_⟩
  · dsimp only
    omega
  · dsimp only
    omega
  · rw [State.Spares, getAssetLedger_setAssetLedger, if_pos rfl]
    change (s.getAssetLedger asset).treasuryBalance - amount + amount ≤ s.balance asset env.contract
    omega

theorem Solvent.reserveCoverage (h : s.reserveCoverage asset amount = .ok s')
    (hs : Solvent env.toHost s) : Solvent env.toHost s' := by
  obtain ⟨hpos, -, rfl⟩ := State.reserveCoverage_eq_ok h
  have hl := hs.covered asset
  exact hs.of_set { hl with reserved := Int.add_nonneg hl.reserved hpos.le }

theorem Solvent.releaseCoverage (h : s.releaseCoverage asset amount = .ok s')
    (hs : Solvent env.toHost s) : Solvent env.toHost s' := by
  by_cases hpos : 0 < amount
  · obtain ⟨hle, -, rfl⟩ := (State.releaseCoverage_eq_ok_iff hpos).mp h
    exact hs.of_set { hs.covered asset with reserved := Int.sub_nonneg.mpr hle }
  · rw [State.releaseCoverage, if_pos (by omega)] at h
    cases h
    exact hs

theorem releaseCoverage_keeps (h : s.releaseCoverage asset amount = .ok s') :
    (s'.getAssetLedger asset).totalPaid = (s.getAssetLedger asset).totalPaid ∧
      (s'.getAssetLedger asset).treasuryBalance = (s.getAssetLedger asset).treasuryBalance := by
  by_cases hpos : 0 < amount
  · obtain ⟨-, -, rfl⟩ := (State.releaseCoverage_eq_ok_iff hpos).mp h
    rw [getAssetLedger_setAssetLedger, if_pos rfl]
    exact ⟨rfl, rfl⟩
  · rw [State.releaseCoverage, if_pos (by omega)] at h
    cases h
    exact ⟨rfl, rfl⟩

/-! ## The helpers -/

theorem Solvent.collectPremium (h : s.collectPremium env src asset amount = .ok s')
    (hsrc : src ≠ env.contract) (hs : Solvent env.toHost s) : Solvent env.toHost s' := by
  dsimp only [State.collectPremium] at h
  split at h
  · cases h
    exact hs
  · cases hrecord : s.recordPremiumIn asset amount with
    | error e =>
      rw [hrecord] at h
      exact hs.tokenTransferFrom h (.inl hsrc)
    | ok s₁ =>
      rw [hrecord] at h
      obtain ⟨hpos, hfit, rfl⟩ := State.recordPremiumIn_eq_ok hrecord
      have htreasury : (s.setAssetLedger asset { s.getAssetLedger asset with
          treasuryBalance := (s.getAssetLedger asset).treasuryBalance + amount
          totalPremiums := (s.getAssetLedger asset).totalPremiums + amount }).getTreasury env =
          env.contract := by
        rw [State.getTreasury, State.setAssetLedger, State.get_set_of_ne _ _ (by simp)]
        exact hs.getTreasury_eq
      dsimp only [State.ignoreErr] at h
      rw [htreasury] at h
      refine Solvent.of_transferFrom h (hs.of_credit hsrc ?_ hpos.le)
      exact (hs.covered asset).credit hpos hfit _

theorem Solvent.collectPremiumWithFee {feeRecipient : Address} {treasuryAmount feeAmount : Int}
    (h : s.collectPremiumWithFee env src asset treasuryAmount feeRecipient feeAmount = .ok s')
    (hsrc : src ≠ env.contract) (hs : Solvent env.toHost s) : Solvent env.toHost s' := by
  obtain ⟨s₁, h₁, rfl | h₂⟩ := collectPremiumWithFee_eq_ok h
  · exact hs.collectPremium h₁ hsrc
  · exact (hs.collectPremium h₁ hsrc).tokenTransferFrom h₂ (.inl hsrc)

theorem Solvent.collectFilingFee {claimId : Nat}
    (h : s.collectFilingFee env src asset claimId = .ok s') (hsrc : src ≠ env.contract)
    (hs : Solvent env.toHost s) : Solvent env.toHost s' := by
  dsimp only [State.collectFilingFee] at h
  split at h
  · simp only [bind_eq_ok, pure_eq_ok] at h
    obtain ⟨-, -, s₁, h₁, rfl⟩ := h
    have hf : Frame [.filingFeePaid] s₁
        (s₁.set (.claimFilingFeePaid claimId) s.getClaimFilingFee) := by
      simp
    exact Solvent.of_quiet ((hf.quiet rfl rfl rfl).emit _) (hs.collectPremium h₁ hsrc)
  · cases h
    exact hs

theorem Solvent.payFromTreasury {claimId : Nat}
    (h : s.payFromTreasury env claimId asset dst amount = .ok s')
    (hspare : s.Spares env.contract asset amount) (hs : Solvent env.toHost s) :
    Solvent env.toHost s' := by
  simp only [State.payFromTreasury, bind_eq_ok, pure_eq_ok] at h
  obtain ⟨s₁, h₁, rfl⟩ := h
  have hpaid := hs.tokenTransfer_out h₁ (.inr hspare)
  exact ⟨hpaid.treasury, hpaid.covered⟩

theorem Solvent.payFromReinsurance {claimId : Nat} {reinsurance : Address}
    (h : s.payFromReinsurance env claimId asset reinsurance dst amount = .ok s')
    (hzero : (s.getAssetLedger asset).treasuryBalance = 0) (hs : Solvent env.toHost s) :
    Solvent env.toHost s' := by
  simp only [State.payFromReinsurance, bind_eq_ok, pure_eq_ok] at h
  obtain ⟨s₁, h₁, rfl⟩ := h
  have hpaid := hs.tokenTransferFrom h₁ (.inr hzero)
  exact ⟨hpaid.treasury, hpaid.covered⟩

/-- A settled payout keeps the book covered: either the booked amount is paid in full, or the book
of the asset is empty. -/
theorem Solvent.settlePayout {claim claim' : Claim}
    (h : settlePayout env s claim asset dst amount = .ok (claim', s'))
    (hspare : amount ≤ s.balance asset env.contract → s.Spares env.contract asset amount)
    (hzero : s.balance asset env.contract < amount → (s.getAssetLedger asset).treasuryBalance = 0)
    (hs : Solvent env.toHost s) : Solvent env.toHost s' := by
  have hcash : (s.getAssetLedger asset).treasuryBalance ≤ s.balance asset env.contract :=
    (hs.covered asset).cash
  cases settlementRun_of_ok h with
  | treasury hle hpaid =>
    have hafter := hs.payFromTreasury hpaid (hspare hle)
    exact ⟨hafter.treasury, hafter.covered⟩
  | @short reinsurance missing =>
    refine Solvent.of_quiet (Quiet.emit ?_ _) hs
    have hf : Frame [.claim] s ((s.emit (.reinsuranceTriggered claim.claimId missing
        reinsurance)).setClaim (claim.moveTo .payoutFailed s.sequence)) := by simp
    exact hf.quiet rfl rfl rfl
  | both hlt _ _ _ _ hpaid hdrawn =>
    have hempty := hzero (Int.not_le.mp hlt)
    have hout : s.Spares env.contract asset (max (s.balance asset env.contract) 0) := by
      rw [State.Spares, hempty]
      omega
    have hafter := Solvent.payFromTreasury hpaid hout ⟨hs.treasury, hs.covered⟩
    have hlast := hafter.payFromReinsurance hdrawn (by
      rw [getAssetLedger_of_same ((frame_payFromTreasury hpaid).sameKind rfl)]
      exact hempty)
    exact ⟨hlast.treasury, hlast.covered⟩
  | reinsurance hlt _ _ _ _ hdrawn =>
    have hempty := hzero (Int.not_le.mp hlt)
    have hlast := Solvent.payFromReinsurance hdrawn hempty ⟨hs.treasury, hs.covered⟩
    exact ⟨hlast.treasury, hlast.covered⟩

theorem Solvent.payout {claim claim' : Claim} (h : payout env s claim = .ok (claim', s'))
    (hs : Solvent env.toHost s) : Solvent env.toHost s' := by
  obtain ⟨asset, recipient, net, s₁, s₂, hq, h₂, h₃⟩ := payout_book h
  obtain ⟨hs₂, hspare, hzero⟩ := Solvent.recordPayoutOut h₂ (.of_quiet hq hs)
  exact hs₂.settlePayout h₃ hspare hzero

/-- The refund at a termination is paid out of the booked amount, or out of the surplus when the
running total of payments is full. -/
theorem Solvent.payRefund (h : s.payRefund env asset dst amount = .ok s') (hpos : 0 < amount)
    (hok : (s.getAssetLedger asset).totalPaid + amount ≤ I128_MAX ∨
      s.Spares env.contract asset amount) (hs : Solvent env.toHost s) : Solvent env.toHost s' := by
  rw [State.payRefund, hs.getTreasury_eq] at h
  cases hrecord : s.recordPayoutOut asset amount 0 with
  | ok s₁ =>
    rw [hrecord] at h
    obtain ⟨hs₁, hspare, -⟩ := hs.recordPayoutOut hrecord
    obtain ⟨-, -, hle, -⟩ := tokenTransfer_eq_ok.mp h
    exact hs₁.tokenTransfer_out h (.inr (hspare hle))
  | error e =>
    rw [hrecord] at h
    obtain ⟨htreasury, hfit, -, hpaid, -⟩ := hs.covered asset
    have hspare : s.Spares env.contract asset amount := by
      refine hok.resolve_left fun htotal => ?_
      obtain ⟨t, ht⟩ := State.exists_recordPayoutOut hpos htreasury hfit
        (le_trans (by decide) hpaid) htotal
      rw [hrecord] at ht
      cases ht
    exact hs.tokenTransfer_out h (.inr hspare)

/-- A sweep is paid out of the booked amount, or out of the surplus when the book refuses it. -/
theorem Solvent.sweepTokenInner {reasonCode : Nat}
    (h : sweepTokenInner env s asset dst amount reasonCode = .ok s')
    (hok : (s.getAssetLedger asset).reservedCoverage + amount ≤
      (s.getAssetLedger asset).treasuryBalance ∨
      dst = env.contract ∨ s.Spares env.contract asset amount)
    (hs : Solvent env.toHost s) : Solvent env.toHost s' := by
  obtain ⟨s₁, s₂, hq₁, hpos, h₂, hq₂⟩ := sweepTokenInner_book h
  have hs₁ := Solvent.of_quiet hq₁ hs
  refine Solvent.of_quiet hq₂ ?_
  have hledger := getAssetLedger_of_same hq₁.ledger asset
  have hbal := hq₁.balance
  cases hrecord : s₁.recordSweep asset amount with
  | ok t =>
    rw [hrecord] at h₂
    obtain ⟨ht, hspare⟩ := hs₁.recordSweep hrecord
    exact ht.tokenTransfer_out h₂ (.inr hspare)
  | error e =>
    rw [hrecord] at h₂
    change s₁.tokenTransfer env asset env.contract dst amount = .ok s₂ at h₂
    have hmin : I128_MIN ≤ 0 := by decide
    obtain ⟨htreasury, hfit, hreserved, -, -⟩ := hs.covered asset
    refine hs₁.tokenTransfer_out h₂ ?_
    rw [State.Spares, hledger, hbal]
    refine hok.resolve_left fun hbooked => ?_
    have hsome : s₁.recordSweep asset amount = .ok _ :=
      State.recordSweep_eq_ok_iff.mpr
        ⟨hpos, by rw [hledger]; omega, by rw [hledger]; omega, rfl⟩
    rw [hrecord] at hsome
    cases hsome

end Book

/-! ## Steps -/

/-- A sweep that the book takes, or that comes out of the surplus. -/
def State.SweepCovered (s : State) (contract asset recipient : Address) (amount : Int) : Prop :=
  (s.getAssetLedger asset).reservedCoverage + amount ≤ (s.getAssetLedger asset).treasuryBalance ∨
    recipient = contract ∨ s.Spares contract asset amount

/-- The condition on a step.  A refunded filing fee and a drained amount come out of the surplus;
so do a sweep that the book refuses and a refund that the running total of payments cannot take.
The treasury stays at its default. -/
def KeepsSolvent (s : State) : Label → Prop
  | .call env (.claim (.withdrawClaim _ claimId)) =>
    ∀ claim fee, s.getClaim claimId = some claim → s.get (.claimFilingFeePaid claimId) = some fee →
      0 < fee → s.Spares env.contract claim.asset fee
  | .call env (.policy (.terminatePolicy holder policyId _)) =>
    ∀ p, s.getPolicy holder policyId = some p → 0 < computeProrataRefund p s.sequence →
      (s.getAssetLedger p.asset).totalPaid + computeProrataRefund p s.sequence ≤ I128_MAX ∨
        s.Spares env.contract p.asset (computeProrataRefund p s.sequence)
  | .call env (.treasury (.sweepToken asset recipient amount _)) =>
    s.SweepCovered env.contract asset recipient amount
  | .call env (.treasury (.drain recipient amount)) =>
    ∀ token, s.get .token = some token →
      recipient = env.contract ∨ s.Spares env.contract token amount
  | .call _ (.treasury (.setTreasury _)) => False
  | .call env (.treasury (.confirmAdminAction _)) =>
    ∀ pending, s.get .pendingAdminAction = some pending →
      match pending.action with
      | .treasuryRotation _ => False
      | .tokenSweep asset recipient amount _ => s.SweepCovered env.contract asset recipient amount
  | _ => True

section Calls

variable {env : Env} {s s' : State}

theorem solvent_of_claimCall {c : ClaimCall} (h : c.exec env s = .ok s')
    (hok : KeepsSolvent s (.call env (.claim c))) (hs : Solvent env.toHost s) :
    Solvent env.toHost s' := by
  have hran := ran_of_exec h
  cases c with
  | fileClaim holder =>
    obtain ⟨u, hauth, -⟩ := bind_eq_ok.mp h
    have hne := ne_contract_of_auths (requireAuth_eq_ok.mp hauth)
    obtain ⟨claimId, hran⟩ := hran
    obtain ⟨asset, s₁, s₂, hq₁, h₂, hq₂⟩ := fileClaim_book hran
    exact .of_quiet hq₂ ((Solvent.of_quiet hq₁ hs).collectFilingFee h₂ hne)
  | withdrawClaim claimant claimId =>
    obtain hq | ⟨claim, fee, s₁, s₂, hclaim, hfee, hpos, hq₁, h₂, hq₂⟩ := withdrawClaim_book hran
    · exact .of_quiet hq hs
    · refine .of_quiet hq₂ ((Solvent.of_quiet hq₁ hs).tokenTransfer_out h₂ (.inr ?_))
      rw [State.Spares, getAssetLedger_of_same hq₁.ledger, hq₁.balance]
      exact hok claim fee hclaim hfee hpos
  | processClaim =>
    obtain ⟨claim, claim₁, s₁, s₂, hq₁, h₁, rfl | ⟨claim₂, s₃, s₄, hq₂, h₃, hq₃⟩⟩ :=
      processClaim_book hran
    · exact (Solvent.of_quiet hq₁ hs).payout h₁
    · have hs₂ := (Solvent.of_quiet hq₁ hs).payout h₁
      exact .of_quiet hq₃ ((Solvent.of_quiet hq₂ hs₂).payout h₃)
  | disburseInstallment =>
    obtain ⟨asset, recipient, s₁, s₂, h₁, h₂, hq⟩ := disburseInstallment_book hran
    obtain ⟨hs₁, hspare, -⟩ := hs.recordPayoutOut h₁
    obtain ⟨-, -, hle, -⟩ := tokenTransfer_eq_ok.mp h₂
    exact .of_quiet hq (hs₁.tokenTransfer_out h₂ (.inr (hspare hle)))
  | _ => exact .of_quiet ((frame_claimCall h).quiet rfl rfl rfl) hs

theorem solvent_of_terminateInner {holder : Address} {policyId : Nat} {reason : TerminationReason}
    {byAdmin bypass : Bool}
    (h : terminateInner env s holder policyId reason byAdmin bypass = .ok s')
    (hok : byAdmin = false → ∀ p, s.getPolicy holder policyId = some p →
      0 < computeProrataRefund p s.sequence →
      (s.getAssetLedger p.asset).totalPaid + computeProrataRefund p s.sequence ≤ I128_MAX ∨
        s.Spares env.contract p.asset (computeProrataRefund p s.sequence))
    (hs : Solvent env.toHost s) : Solvent env.toHost s' := by
  obtain ⟨policy, s₁, s₂, hpolicy, -, -, hq₁, hpay, hq₂⟩ := terminateInner_book h
  have hs₁ := Solvent.of_quiet hq₁ hs
  refine .of_quiet hq₂ ?_
  have hrelease :
      Solvent env.toHost (s₁.ignoreErr (s₁.releaseCoverage policy.asset policy.coverage)) ∧
      ((s₁.ignoreErr (s₁.releaseCoverage policy.asset policy.coverage)).getAssetLedger
        policy.asset).totalPaid = (s.getAssetLedger policy.asset).totalPaid ∧
      ((s₁.ignoreErr (s₁.releaseCoverage policy.asset policy.coverage)).getAssetLedger
        policy.asset).treasuryBalance = (s.getAssetLedger policy.asset).treasuryBalance ∧
      (s₁.ignoreErr (s₁.releaseCoverage policy.asset policy.coverage)).balance = s.balance := by
    rw [← getAssetLedger_of_same hq₁.ledger, ← hq₁.balance]
    cases hrel : s₁.releaseCoverage policy.asset policy.coverage with
    | error e => exact ⟨hs₁, rfl, rfl, rfl⟩
    | ok t =>
      obtain ⟨hpaid, htreasury⟩ := releaseCoverage_keeps hrel
      exact ⟨hs₁.releaseCoverage hrel, hpaid, htreasury, (frame_releaseCoverage hrel).balance rfl⟩
  obtain ⟨ht, hpaid, htreasury, hbal⟩ := hrelease
  rcases hpay with ⟨hholder, hpos, h₂⟩ | rfl
  · refine ht.payRefund h₂ hpos ?_
    rw [State.Spares, hpaid, htreasury, hbal]
    exact hok hholder policy hpolicy hpos
  · exact ht

theorem solvent_of_policyCall {c : PolicyCall} (h : c.exec env s = .ok s')
    (hok : KeepsSolvent s (.call env (.policy c))) (hs : Solvent env.toHost s) :
    Solvent env.toHost s' := by
  have hran := policyRan_of_exec h
  cases c with
  | initiatePolicy =>
    obtain ⟨policy, hran⟩ := hran
    obtain ⟨treasuryAmount, feeRecipient, feeAmount, s₁, s₂, s₃, hauth, hq₁, h₂, h₃, hq₃⟩ :=
      initiatePolicy_book hran
    have hs₂ := (Solvent.of_quiet hq₁ hs).collectPremiumWithFee h₂ (ne_contract_of_auths hauth)
    exact .of_quiet hq₃ (hs₂.reserveCoverage h₃)
  | renewPolicy =>
    obtain ⟨o, hran⟩ := hran
    obtain hq | ⟨asset, premium, s₁, s₂, hauth, hq₁, h₂, hq₂⟩ := renewPolicy_book hran
    · exact .of_quiet hq hs
    · exact .of_quiet hq₂ ((Solvent.of_quiet hq₁ hs).collectPremium h₂ (ne_contract_of_auths hauth))
  | terminatePolicy => exact solvent_of_terminateInner hran.2 (fun _ => hok) hs
  | adminTerminatePolicy => exact solvent_of_terminateInner hran (fun hadmin => by cases hadmin) hs
  | _ => exact .of_quiet ((frame_policyCall h).quiet rfl rfl rfl) hs

theorem solvent_of_treasuryCall {c : TreasuryCall} (h : c.exec env s = .ok s')
    (hok : KeepsSolvent s (.call env (.treasury c))) (hs : Solvent env.toHost s) :
    Solvent env.toHost s' := by
  cases c with
  | depositTreasury depositor amount asset =>
    obtain ⟨s₁, s₂, hauth, h₁, h₂, hq⟩ := depositTreasury_book h
    obtain ⟨hpos, hfit, rfl⟩ := State.recordDeposit_eq_ok h₁
    obtain ⟨-, -, -, rfl⟩ := tokenTransfer_eq_ok.mp h₂
    refine .of_quiet hq (hs.of_credit (ne_contract_of_auths hauth) ?_ hpos.le)
    exact (hs.covered asset).credit hpos hfit _
  | adminSweep =>
    obtain ⟨s₁, s₂, s₃, hq₁, h₂, h₃, hq₃⟩ := adminSweep_book h
    obtain ⟨hs₂, hspare⟩ := (Solvent.of_quiet hq₁ hs).recordSweep h₂
    exact .of_quiet hq₃ (hs₂.tokenTransfer_out h₃ (.inr hspare))
  | sweepToken =>
    obtain ⟨admin, -, h⟩ := bind_eq_ok.mp h
    exact hs.sweepTokenInner h hok
  | drain =>
    obtain ⟨token, s₁, htoken, h₁, hq⟩ := drain_book h
    exact .of_quiet hq (hs.tokenTransfer_out h₁ (hok token htoken))
  | setTreasury => exact absurd hok id
  | confirmAdminAction =>
    obtain ⟨pending, s₁, hpending, h₁, hq⟩ := confirmAdminAction_book h
    have hact := hok pending hpending
    refine .of_quiet hq ?_
    cases haction : pending.action with
    | treasuryRotation newTreasury =>
      rw [haction] at hact
      exact absurd hact id
    | tokenSweep asset recipient amount reasonCode =>
      rw [haction] at hact h₁
      exact hs.sweepTokenInner h₁ hact
  | _ => exact .of_quiet ((frame_treasuryCall h).quiet rfl rfl rfl) hs

end Calls

/-- **The contract's tokens cover the treasury balance of every asset**, in every run with the
treasury at its default whose unbooked token movements come out of the surplus. -/
theorem book_covered_of_reach {host : Host} {s : State} (h : (contract host).Reach KeepsSolvent s) :
    ∀ asset, (s.getAssetLedger asset).treasuryBalance ≤ s.balance asset host.contract := by
  have hsolvent : Solvent host s := by
    refine h.invariant (I := Solvent host) ?_ ?_
    · intro s hs
      refine ⟨State.Fresh.get host hs _, fun asset => ?_⟩
      rw [State.getAssetLedger, State.Fresh.get host hs]
      have hmax : (0 : Int) ≤ I128_MAX := by decide
      exact ⟨le_refl 0, hmax, le_refl 0, le_refl 0, hs.balance asset⟩
    · intro s l s' hok hstep hs
      cases l with
      | closeLedger n =>
        obtain ⟨-, -, rfl⟩ := hstep
        exact ⟨hs.treasury, hs.covered⟩
      | tokens b a =>
        obtain ⟨hmore, rfl⟩ := hstep
        exact ⟨hs.treasury, fun asset => (hs.covered asset).mono (hmore asset)⟩
      | call env c =>
        obtain ⟨rfl, h⟩ := hstep
        cases c with
        | claim c => exact solvent_of_claimCall h hok hs
        | policy c => exact solvent_of_policyCall h hok hs
        | treasury c => exact solvent_of_treasuryCall h hok hs
        | setting c => exact .of_quiet ((frame_setting h).quiet rfl rfl rfl) hs
        | governance c =>
          refine .of_quiet ((frame_governanceCall h).quiet ?_ ?_ ?_) hs
          all_goals cases c <;> rfl
  exact fun asset => (hsolvent.covered asset).cash

/-! ## Two runs -/

/-- The check of a run in which premiums and deposits come in and booked amounts go out. -/
def booksOnly (_ : State) : Label → Bool
  | .call _ (.policy (.initiatePolicy _)) | .call _ (.setting _)
  | .call _ (.treasury (.depositTreasury ..)) | .call _ (.treasury (.adminSweep ..)) => true
  | _ => false

theorem keepsSolvent_of_check (s : State) (l : Label) (h : booksOnly s l = true) :
    KeepsSolvent s l := by
  unfold booksOnly at h
  split at h
  · trivial
  · trivial
  · trivial
  · trivial
  · cases h

/-- Account 1 binds a policy, account 2 deposits, and part of the deposit is swept. -/
theorem book_covered_swept : ∃ s, (contract demoHost).Reach KeepsSolvent s ∧
    0 < (s.getAssetLedger assetAddress).treasuryBalance ∧
    (s.getAssetLedger assetAddress).treasuryBalance ≤ s.balance assetAddress contractAddress := by
  obtain ⟨s, hreach, hval⟩ := exists_of_follow keepsSolvent_of_check (deployed 0)
    [demoInit, demoBind 1 .auto 10000000,
      demoCall (.setting (.setAuthorizedDepositor 2 true)),
      demoCall (.treasury (.depositTreasury 2 20000000 assetAddress)),
      demoCall (.treasury (.adminSweep assetAddress 3 5000000))]
    (f := fun s => decide (0 < (s.getAssetLedger assetAddress).treasuryBalance)) (a := true)
    (fresh_deployed (by decide)) (by simp [demoInit, demoBind]) (by decide +kernel)
  exact ⟨s, hreach, of_decide_eq_true hval, book_covered_of_reach hreach assetAddress⟩

/-- **A refunded filing fee leaves the book short.**  Account 1 pays a fee of 500 with its claim and
withdraws the claim; the fee leaves the contract and stays in the book. -/
theorem book_short_after_withdrawal : ∃ s, (contract demoHost).Reach always s ∧
    s.get .treasury = none ∧
    s.balance assetAddress contractAddress < (s.getAssetLedger assetAddress).treasuryBalance := by
  obtain ⟨s, hreach, hval⟩ := exists_of_follow always_of_noCheck (deployed 0)
    [demoInit, demoCall (.setting (.adminSetClaimFilingFee 500)),
      demoBind 1 .auto 10000000, demoBind 2 .auto 10000000, demoFile 1 1 1000,
      demoCall (.claim (.withdrawClaim 1 1))]
    (f := fun s => (decide (s.get .treasury = none),
      decide (s.balance assetAddress contractAddress <
        (s.getAssetLedger assetAddress).treasuryBalance))) (a := (true, true))
    (fresh_deployed (by decide)) (by simp [demoInit, demoBind, demoFile]) (by decide +kernel)
  simp only [Prod.mk.injEq, decide_eq_true_eq] at hval
  exact ⟨s, hreach, hval⟩

end NiffyInsure
