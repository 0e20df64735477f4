import Mathlib.Algebra.Order.Group.Int
import NiffyInsure.Book
import NiffyInsure.Trace

/-!
# Reserved coverage

`reserved_coverage` is kept by hand: `initiate_policy` adds the coverage of a new policy and
`terminate_inner` takes it off.  The coverage of the active policies changes in other places
too: a renewal can raise it, `process_expired` and the third rejected claim deactivate a policy,
and a transfer can overwrite the recipient's record.

* `State.activeCoverage`: the sum of the coverage over the stored active policies of an asset.
* `SameReserved` and `SameCover`: the reservation, or both sides, are untouched.
* `KeepsReserved`: the condition on a step, that none of the other places is reached and no
  claim is paid out of the reservation.
* `reserved_exact_of_reach`: in every run whose steps meet it, the reservation of every asset is
  that sum.
-/

namespace NiffyInsure

open Machine KeyedStore

/-! ## The coverage of the active policies -/

/-- What the policy has to be covered by in the asset. -/
def Policy.coverageIn (p : Policy) (asset : Address) : Int :=
  if p.isActive = true ∧ p.asset = asset then p.coverage else 0

/-- What an entry adds to the active coverage in the asset. -/
def coverageIn (asset : Address) : (k : DataKey) → k.Val → Int
  | .policy _ _, p => p.coverageIn asset
  | _, _ => 0

/-- The sum of the coverage over the stored active policies bound to the asset. -/
def State.activeCoverage (s : State) (asset : Address) : Int :=
  total (coverageIn asset) s.storage

theorem coverageIn_eq_zero {asset : Address} (k : DataKey) (v : k.Val) (hk : ¬ k.kind = .policy) :
    coverageIn asset k v = 0 := by
  unfold coverageIn
  split
  · exact absurd rfl hk
  · rfl

theorem Policy.coverageIn_congr {p p' : Policy} (hactive : p'.isActive = p.isActive)
    (hasset : p'.asset = p.asset) (hcov : p'.coverage = p.coverage) (asset : Address) :
    p'.coverageIn asset = p.coverageIn asset := by
  simp only [Policy.coverageIn, hactive, hasset, hcov]

section Active

variable {s s' : State} {holder : Address} {policyId : Nat} {p p' : Policy}

theorem activeCoverage_of_same (h : SameKind .policy s s') (asset : Address) :
    s'.activeCoverage asset = s.activeCoverage asset :=
  AgreeOn.total_eq (P := fun k => k.kind = .policy) (fun k hk => h k hk) coverageIn_eq_zero

/-- A written policy counts in the place of the record that it replaces. -/
theorem activeCoverage_of_write (h : SameKind .policy (s.setPolicy holder policyId p) s')
    (asset : Address) :
    share (coverageIn asset) (.policy holder policyId) (s.getPolicy holder policyId) +
      s'.activeCoverage asset = p.coverageIn asset + s.activeCoverage asset := by
  rw [activeCoverage_of_same h]
  exact total_insert_add (coverageIn asset) s.storage (.policy holder policyId) p

theorem activeCoverage_of_edit (hget : s.getPolicy holder policyId = some p)
    (h : SameKind .policy (s.setPolicy holder policyId p') s') (asset : Address) :
    p.coverageIn asset + s'.activeCoverage asset =
      p'.coverageIn asset + s.activeCoverage asset := by
  have hwrite := activeCoverage_of_write h asset
  rw [hget] at hwrite
  exact hwrite

/-- A moved policy counts under its new key, in the place of the record that was there. -/
theorem activeCoverage_of_move {newHolder : Address} (hne : holder ≠ newHolder)
    (hget : s.getPolicy holder policyId = some p)
    (h : SameKind .policy ((s.setPolicy newHolder policyId p').removePolicy holder policyId) s')
    (asset : Address) :
    p.coverageIn asset + (share (coverageIn asset) (.policy newHolder policyId)
      (s.getPolicy newHolder policyId) + s'.activeCoverage asset) =
      p'.coverageIn asset + s.activeCoverage asset := by
  have hkey : DataKey.policy holder policyId ≠ .policy newHolder policyId := by simpa using hne
  have hold : (s.setPolicy newHolder policyId p').storage.lookup
      (.policy holder policyId) = some p := by
    have hread : (s.setPolicy newHolder policyId p').get (.policy holder policyId) =
      s.get (.policy holder policyId) := s.get_set_of_ne _ hkey
    exact hread.trans hget
  have herase := total_erase_add (coverageIn asset) (s.setPolicy newHolder policyId p').storage
    (.policy holder policyId)
  rw [hold, share_some] at herase
  have hsame : s'.activeCoverage asset = total (coverageIn asset)
      ((s.setPolicy newHolder policyId p').storage.erase (.policy holder policyId)) :=
    activeCoverage_of_same h asset
  have hwrite : share (coverageIn asset) (.policy newHolder policyId)
      (s.getPolicy newHolder policyId) + total (coverageIn asset)
        (s.setPolicy newHolder policyId p').storage =
          p'.coverageIn asset + s.activeCoverage asset :=
    total_insert_add (coverageIn asset) s.storage (.policy newHolder policyId) p'
  rw [hsame, ← hwrite, ← herase, add_left_comm]
  rfl

theorem Policy.coverageIn_nonneg (h : 0 < p.coverage) (asset : Address) :
    0 ≤ p.coverageIn asset := by
  unfold Policy.coverageIn
  split
  · exact h.le
  · exact le_refl 0

/-- The coverage of an active policy is part of the sum. -/
theorem coverage_le_activeCoverage (hs : s.PoliciesSound)
    (hget : s.getPolicy holder policyId = some p) (hactive : p.isActive = true) :
    p.coverage ≤ s.activeCoverage p.asset := by
  have hle := share_le_total (f := coverageIn p.asset) (m := s.storage) ?_ (.policy holder policyId)
  · have hlook : s.storage.lookup (.policy holder policyId) = some p := hget
    rw [hlook, share_some] at hle
    have hshare : coverageIn p.asset (.policy holder policyId) p = p.coverage :=
      if_pos ⟨hactive, rfl⟩
    rw [hshare] at hle
    exact hle
  · intro k v hv
    unfold coverageIn
    split
    · rename_i a id q
      exact Policy.coverageIn_nonneg (hs a id q hv).coverage p.asset
    · exact le_refl 0

end Active

/-! ## The reservation -/

/-- The reservation of every asset is untouched. -/
def SameReserved (s s' : State) : Prop :=
  ∀ asset, (s'.getAssetLedger asset).reservedCoverage = (s.getAssetLedger asset).reservedCoverage

namespace SameReserved

variable {env : Env} {s s' s'' : State} {asset : Address} {amount : Int}

theorem refl (s : State) : SameReserved s s := fun _ => rfl

theorem trans (h : SameReserved s s') (h' : SameReserved s' s'') : SameReserved s s'' :=
  fun a => (h' a).trans (h a)

theorem of_same (h : SameKind .assetLedger s s') : SameReserved s s' := by
  intro a
  rw [getAssetLedger_of_same h]

/-- The book of an asset is written with the same reservation. -/
theorem set {l : AssetLedger}
    (h : l.reservedCoverage = (s.getAssetLedger asset).reservedCoverage) :
    SameReserved s (s.setAssetLedger asset l) := by
  intro a
  rw [getAssetLedger_setAssetLedger]
  split
  · rename_i heq
    rw [h, heq]
  · rfl

theorem ignoreErr {r : Result State} (hr : ∀ t, r = .ok t → SameReserved s t) :
    SameReserved s (s.ignoreErr r) := by
  cases r with
  | ok t => exact hr t rfl
  | error _ => exact .refl s

theorem recordPremiumIn (h : s.recordPremiumIn asset amount = .ok s') : SameReserved s s' := by
  obtain ⟨-, -, rfl⟩ := State.recordPremiumIn_eq_ok h
  exact .set rfl

theorem recordDeposit (h : s.recordDeposit asset amount = .ok s') : SameReserved s s' := by
  obtain ⟨-, -, rfl⟩ := State.recordDeposit_eq_ok h
  exact .set rfl

theorem recordSweep (h : s.recordSweep asset amount = .ok s') : SameReserved s s' := by
  obtain ⟨-, -, -, rfl⟩ := State.recordSweep_eq_ok_iff.mp h
  exact .set rfl

theorem recordPayoutOut (h : s.recordPayoutOut asset amount 0 = .ok s') : SameReserved s s' := by
  obtain ⟨-, rfl⟩ := State.recordPayoutOut_eq_ok h
  exact .set (Int.sub_zero _)

theorem tokenTransfer {src dst : Address} (h : s.tokenTransfer env asset src dst amount = .ok s') :
    SameReserved s s' :=
  .of_same ((frame_tokenTransfer h).sameKind rfl)

theorem tokenTransferFrom {src dst : Address}
    (h : s.tokenTransferFrom env asset src dst amount = .ok s') : SameReserved s s' :=
  .of_same ((frame_tokenTransferFrom h).sameKind rfl)

theorem collectPremium {src : Address} (h : s.collectPremium env src asset amount = .ok s') :
    SameReserved s s' := by
  dsimp only [State.collectPremium] at h
  split at h
  · cases h
    exact .refl s
  · exact (ignoreErr fun t ht => recordPremiumIn ht).trans (tokenTransferFrom h)

theorem collectPremiumWithFee {src feeRecipient : Address} {treasuryAmount feeAmount : Int}
    (h : s.collectPremiumWithFee env src asset treasuryAmount feeRecipient feeAmount = .ok s') :
    SameReserved s s' := by
  obtain ⟨s₁, h₁, rfl | h₂⟩ := collectPremiumWithFee_eq_ok h
  · exact collectPremium h₁
  · exact (collectPremium h₁).trans (tokenTransferFrom h₂)

theorem collectFilingFee {holder : Address} {claimId : Nat}
    (h : s.collectFilingFee env holder asset claimId = .ok s') : SameReserved s s' := by
  dsimp only [State.collectFilingFee] at h
  split at h
  · simp only [bind_eq_ok, pure_eq_ok] at h
    obtain ⟨-, -, s₁, h₁, rfl⟩ := h
    exact (collectPremium h₁).trans (.of_same (.of_set_ne (by simp) _))
  · cases h
    exact .refl s

theorem payRefund {holder : Address} (h : s.payRefund env asset holder amount = .ok s') :
    SameReserved s s' :=
  (ignoreErr fun _ ht => recordPayoutOut ht).trans (tokenTransfer h)

theorem sweepTokenInner {recipient : Address} {reasonCode : Nat}
    (h : sweepTokenInner env s asset recipient amount reasonCode = .ok s') : SameReserved s s' := by
  obtain ⟨s₁, s₂, hq₁, -, h₂, hq₂⟩ := sweepTokenInner_book h
  have hsweep := (ignoreErr fun _ ht => recordSweep ht).trans (tokenTransfer h₂)
  exact ((SameReserved.of_same hq₁.ledger).trans hsweep).trans (.of_same hq₂.ledger)

/-- The claim calls that write the book, `process_claim` apart. -/
theorem of_claimCall {c : ClaimCall} (h : c.exec env s = .ok s')
    (hc : ∀ claimId, c ≠ .processClaim claimId) : SameReserved s s' := by
  have hran := ran_of_exec h
  cases c with
  | processClaim claimId => exact absurd rfl (hc claimId)
  | fileClaim =>
    obtain ⟨claimId, hran⟩ := hran
    obtain ⟨asset, s₁, s₂, hq₁, h₂, hq₂⟩ := fileClaim_book hran
    exact ((SameReserved.of_same hq₁.ledger).trans (collectFilingFee h₂)).trans
      (.of_same hq₂.ledger)
  | disburseInstallment =>
    obtain ⟨asset, recipient, s₁, s₂, h₁, h₂, hq⟩ := disburseInstallment_book hran
    exact ((recordPayoutOut h₁).trans (tokenTransfer h₂)).trans (.of_same hq.ledger)
  | _ => exact .of_same ((frame_claimCall h).sameKind rfl)

theorem of_treasuryCall {c : TreasuryCall} (h : c.exec env s = .ok s') : SameReserved s s' := by
  cases c with
  | depositTreasury =>
    obtain ⟨s₁, s₂, -, h₁, h₂, hq⟩ := depositTreasury_book h
    exact ((recordDeposit h₁).trans (tokenTransfer h₂)).trans (.of_same hq.ledger)
  | adminSweep =>
    obtain ⟨s₁, s₂, s₃, hq₁, h₂, h₃, hq₃⟩ := adminSweep_book h
    refine ((SameReserved.of_same hq₁.ledger).trans ?_).trans (.of_same hq₃.ledger)
    exact (recordSweep h₂).trans (tokenTransfer h₃)
  | sweepToken =>
    obtain ⟨admin, -, h⟩ := bind_eq_ok.mp h
    exact sweepTokenInner h
  | confirmAdminAction =>
    obtain ⟨pending, s₁, -, h₁, hq⟩ := confirmAdminAction_book h
    refine SameReserved.trans ?_ (.of_same hq.ledger)
    cases haction : pending.action with
    | treasuryRotation newTreasury =>
      rw [haction] at h₁
      cases h₁
      exact .of_same (.of_set_ne (by simp) _)
    | tokenSweep asset recipient amount reasonCode =>
      rw [haction] at h₁
      exact sweepTokenInner h₁
  | _ => exact .of_same ((frame_treasuryCall h).sameKind rfl)

end SameReserved

/-! ## Steps -/

/-- The condition on a step.  No claim is processed, no rejected claim strikes a policy out, a
renewal keeps the coverage, a transfer overwrites no active policy, and `process_expired` finds no
policy to lapse. -/
def KeepsReserved (s : State) : Label → Prop
  | .call _ (.claim (.processClaim _)) => False
  | .call _ (.claim (.voteOnClaim voter claimId vote)) =>
    ∀ claim w, s.getClaim claimId = some claim → s.votingPowerFor claimId voter 1 = .ok w →
      s.ballotOutcome claimId (claim.tally vote w) = some .rejected → ¬ s.StrikesOut claim
  | .call _ (.claim (.finalizeClaim claimId)) => s.DeadlineSpares claimId
  | .call _ (.claim (.processDeadline claimId)) => s.DeadlineSpares claimId
  | .call _ (.claim (.finalizeExpiredBatch claimIds)) => BatchSpares claimIds s
  | .call _ (.policy (.renewPolicy a)) =>
    ∀ p, s.getPolicy a.holder a.policyId = some p → ¬ s.Lapsed p →
      a.newCoverageAmount.getD p.coverage = p.coverage
  | .call _ (.policy (.transferPolicy _ policyId newHolder)) =>
    ∀ p, s.getPolicy newHolder policyId = some p → p.isActive = false
  | .call _ (.policy (.processExpired holder policyIds)) =>
    ∀ id ∈ policyIds.take PROCESS_EXPIRED_MAX, ∀ p, s.getPolicy holder id = some p →
      p.isActive = true → ¬ s.Lapsed p
  | _ => True

/-- The reservation and the active coverage of every asset are untouched. -/
structure SameCover (s s' : State) : Prop where
  reserved : SameReserved s s'
  active : ∀ asset, s'.activeCoverage asset = s.activeCoverage asset

namespace SameCover

variable {env : Env} {s s' s'' : State}

theorem of_same (hledger : SameKind .assetLedger s s') (hpolicy : SameKind .policy s s') :
    SameCover s s' :=
  ⟨.of_same hledger, activeCoverage_of_same hpolicy⟩

/-- A record is replaced by one with the same coverage in the same state. -/
theorem of_edit {holder : Address} {policyId : Nat} {p q : Policy}
    (hreserved : SameReserved s s') (hget : s.getPolicy holder policyId = some p)
    (hactive : q.isActive = p.isActive) (hasset : q.asset = p.asset)
    (hcov : q.coverage = p.coverage)
    (hrec : SameKind .policy (s.setPolicy holder policyId q) s') : SameCover s s' where
  reserved := hreserved
  active a := by
    have hedit := activeCoverage_of_edit hget hrec a
    rw [Policy.coverageIn_congr hactive hasset hcov] at hedit
    exact add_left_cancel hedit

end SameCover

/-! ## Runs -/

/-- The reservation of every asset is its active coverage, and an `i128`. -/
def State.ReservedExact (s : State) : Prop :=
  ∀ asset, (s.getAssetLedger asset).reservedCoverage = s.activeCoverage asset ∧
    s.activeCoverage asset ≤ I128_MAX

section Runs

variable {env : Env} {s s' : State}

theorem SameCover.reservedExact (h : SameCover s s') (hs : s.ReservedExact) : s'.ReservedExact := by
  intro a
  rw [h.reserved, h.active]
  exact hs a

theorem reservedExact_of_shift (asset : Address) (amount : Int)
    (hreserved : ∀ a, (s'.getAssetLedger a).reservedCoverage =
      (s.getAssetLedger a).reservedCoverage + if a = asset then amount else 0)
    (hactive : ∀ a, s'.activeCoverage a = s.activeCoverage a + if a = asset then amount else 0)
    (hfit : s.activeCoverage asset + amount ≤ I128_MAX) (hs : s.ReservedExact) :
    s'.ReservedExact := by
  intro a
  rw [hreserved, hactive, (hs a).1]
  refine ⟨rfl, ?_⟩
  split
  · rename_i heq
    rw [heq]
    exact hfit
  · rw [Int.add_zero]
    exact (hs a).2

theorem reserved_setAssetLedger {asset : Address} {amount : Int} {l : AssetLedger}
    (hl : l.reservedCoverage = (s.getAssetLedger asset).reservedCoverage + amount) (a : Address) :
    ((s.setAssetLedger asset l).getAssetLedger a).reservedCoverage =
      (s.getAssetLedger a).reservedCoverage + if a = asset then amount else 0 := by
  rw [getAssetLedger_setAssetLedger]
  split
  · rename_i heq
    rw [hl, heq]
  · rw [Int.add_zero]

theorem reservedExact_of_initiatePolicy {a : InitiatePolicyArgs} {policy : Policy}
    (h : initiatePolicy env s a = .ok (policy, s')) (hs : s.ReservedExact) : s'.ReservedExact := by
  obtain ⟨hrec, hholder, -, hactive, -, -⟩ := initiatePolicy_records h
  obtain ⟨treasuryAmount, feeRecipient, feeAmount, s₁, s₂, s₃, -, hq₁, h₂, h₃, hq₃⟩ :=
    initiatePolicy_book h
  have hnone : s.getPolicy policy.holder policy.policyId = none := by
    rw [hholder]
    exact initiatePolicy_fresh h
  obtain ⟨-, hfit, rfl⟩ := State.reserveCoverage_eq_ok h₃
  have hpre : SameReserved s s₂ :=
    (SameReserved.of_same hq₁.ledger).trans (.collectPremiumWithFee h₂)
  have hcover : ∀ b, policy.coverageIn b = if b = policy.asset then policy.coverage else 0 := by
    intro b
    simp only [Policy.coverageIn, hactive, true_and, eq_comm (a := b)]
  refine reservedExact_of_shift policy.asset policy.coverage ?_ ?_ ?_ hs
  · intro b
    rw [getAssetLedger_of_same hq₃.ledger, reserved_setAssetLedger rfl, hpre b]
  · intro b
    have hwrite := activeCoverage_of_write hrec b
    rw [hnone, share_none, zero_add, hcover] at hwrite
    rw [hwrite, add_comm]
  · rw [← (hs policy.asset).1, ← hpre policy.asset]
    exact hfit

/-- The release of a terminated policy goes through, and takes off its coverage. -/
theorem reservedExact_of_terminateInner {holder : Address} {policyId : Nat}
    {reason : TerminationReason} {byAdmin bypass : Bool}
    (h : terminateInner env s holder policyId reason byAdmin bypass = .ok s')
    (hsound : s.PoliciesSound) (hs : s.ReservedExact) : s'.ReservedExact := by
  obtain ⟨policy, s₁, s₂, hpolicy, hactive, hrec, hq₁, hpay, hq₂⟩ := terminateInner_book h
  have hpos : 0 < policy.coverage := (hsound holder policyId policy hpolicy).coverage
  have hle : policy.coverage ≤ s.activeCoverage policy.asset :=
    coverage_le_activeCoverage hsound hpolicy hactive
  have hmax : s.activeCoverage policy.asset ≤ I128_MAX := (hs policy.asset).2
  have hreserved : (s₁.getAssetLedger policy.asset).reservedCoverage =
      s.activeCoverage policy.asset := by
    rw [getAssetLedger_of_same hq₁.ledger, (hs policy.asset).1]
  have hrelease : s₁.releaseCoverage policy.asset policy.coverage = .ok _ :=
    (State.releaseCoverage_eq_ok_iff hpos).mpr ⟨by omega, by omega, rfl⟩
  rw [hrelease] at hpay
  have hpaid : SameReserved (s₁.setAssetLedger policy.asset { s₁.getAssetLedger policy.asset with
      reservedCoverage := (s₁.getAssetLedger policy.asset).reservedCoverage - policy.coverage })
      s₂ := by
    rcases hpay with ⟨-, -, h₂⟩ | rfl
    · exact .payRefund h₂
    · exact .refl _
  refine reservedExact_of_shift policy.asset (- policy.coverage) ?_ ?_ ?_ hs
  · intro b
    rw [getAssetLedger_of_same hq₂.ledger, hpaid b,
      reserved_setAssetLedger (by rw [Int.sub_eq_add_neg]), getAssetLedger_of_same hq₁.ledger]
  · intro b
    have hedit := activeCoverage_of_edit hpolicy hrec b
    have hended : (policy.ended s.sequence reason byAdmin).coverageIn b = 0 := rfl
    have hcover : policy.coverageIn b = if b = policy.asset then policy.coverage else 0 := by
      simp only [Policy.coverageIn, hactive, true_and, eq_comm (a := b)]
    rw [hended, hcover] at hedit
    split at hedit
    · rename_i heq
      rw [if_pos heq]
      omega
    · rename_i hne
      rw [if_neg hne]
      omega
  · omega

theorem sameCover_of_transferPolicy {holder newHolder : Address} {policyId : Nat}
    (h : transferPolicy env s holder policyId newHolder = .ok s')
    (hok : ∀ p, s.getPolicy newHolder policyId = some p → p.isActive = false) : SameCover s s' := by
  obtain ⟨policy, hget, -, hne, hrec, -⟩ := transferPolicy_records h
  refine ⟨.of_same ((frame_transferPolicy h).sameKind rfl), fun a => ?_⟩
  have hmove := activeCoverage_of_move hne hget hrec a
  have hover : share (coverageIn a) (.policy newHolder policyId)
      (s.getPolicy newHolder policyId) = 0 := by
    cases hp : s.getPolicy newHolder policyId with
    | none => rfl
    | some p => exact if_neg fun hactive => by simp [hok p hp] at hactive
  have hsame : (policy.movedTo newHolder).coverageIn a = policy.coverageIn a := rfl
  rw [hover, zero_add, hsame] at hmove
  exact add_left_cancel hmove

theorem reservedExact_of_policyCall {c : PolicyCall} (h : c.exec env s = .ok s')
    (hok : KeepsReserved s (.call env (.policy c))) (hsound : s.PoliciesSound)
    (hs : s.ReservedExact) : s'.ReservedExact := by
  have hran := policyRan_of_exec h
  cases c with
  | initiatePolicy =>
    obtain ⟨policy, hran⟩ := hran
    exact reservedExact_of_initiatePolicy hran hs
  | setBeneficiary holder policyId b =>
    have hledger : SameKind .assetLedger s s' := (frame_setBeneficiary hran).sameKind rfl
    obtain ⟨policy, hpolicy, rfl | hrec⟩ := setBeneficiary_eq_ok hran
    · exact hs
    · exact (SameCover.of_edit (q := { policy with beneficiary := b })
        (.of_same hledger) hpolicy rfl rfl rfl hrec).reservedExact hs
  | adminUpdatePolicyMetadataUri holder policyId uri =>
    have hledger : SameKind .assetLedger s s' :=
      (frame_updatePolicyMetadataUri hran).sameKind rfl
    obtain ⟨policy, hpolicy, rfl | hrec⟩ := updatePolicyMetadataUri_eq_ok hran
    · exact hs
    · exact (SameCover.of_edit (q := { policy with metadataUri := uri })
        (.of_same hledger) hpolicy rfl rfl rfl hrec).reservedExact hs
  | renewPolicy a =>
    obtain ⟨o, hran⟩ := hran
    obtain hf | ⟨policy, premium, s₁, s₂, -, hget, -, hnot, -, hf₁, h₂, hf₂, hrec, -⟩ :=
      renewPolicy_eq_ok hran
    · exact (SameCover.of_same (hf.sameKind rfl) (hf.sameKind rfl)).reservedExact hs
    · have hreserved : SameReserved s s' :=
        ((SameReserved.of_same (hf₁.sameKind rfl)).trans (.collectPremium h₂)).trans
          (.of_same (hf₂.sameKind rfl))
      refine (SameCover.of_edit hreserved hget ?_ ?_ ?_ hrec).reservedExact hs
      · rfl
      · rfl
      · exact hok policy hget hnot
  | transferPolicy => exact (sameCover_of_transferPolicy hran hok).reservedExact hs
  | terminatePolicy => exact reservedExact_of_terminateInner hran.2 hsound hs
  | adminTerminatePolicy => exact reservedExact_of_terminateInner hran hsound hs
  | processExpired =>
    obtain ⟨n, hran⟩ := hran
    have hf := frame_processExpiredLoop_of_noneLapsed _ s 0 hran hok
    exact (SameCover.of_same (hf.sameKind rfl) (hf.sameKind rfl)).reservedExact hs

/-- Edited records that stay as active as they were cover what they covered. -/
theorem activeCoverage_of_spares (h : SparesPolicies s s') (asset : Address) :
    s'.activeCoverage asset = s.activeCoverage asset := by
  refine h.keeps (I := fun t => t.activeCoverage asset = s.activeCoverage asset) ?_ rfl
  rintro s₁ s₂ (hsame | ⟨holder, policyId, p, p', hget, hedit, hactive, hwrite⟩) hs₁
  · rw [activeCoverage_of_same hsame, hs₁]
  · have hsum := activeCoverage_of_edit hget hwrite asset
    rw [Policy.coverageIn_congr hactive hedit.asset hedit.coverage] at hsum
    rw [add_left_cancel hsum, hs₁]

theorem sameCover_of_claimCall {c : ClaimCall} (h : c.exec env s = .ok s')
    (hok : KeepsReserved s (.call env (.claim c))) : SameCover s s' := by
  have hpay : ∀ claimId, c ≠ .processClaim claimId := by
    rintro claimId rfl
    exact hok
  have hspare : c.Spares s := by
    cases c with
    | processClaim claimId => exact absurd rfl (hpay claimId)
    | voteOnClaim | finalizeClaim | processDeadline | finalizeExpiredBatch => exact hok
    | _ => trivial
  exact ⟨.of_claimCall h hpay, activeCoverage_of_spares (sparesPolicies_of_claimCall h hspare)⟩

end Runs

/-- **The reserved coverage of every asset is the coverage of its active policies**, in every run
in which no claim is processed, no renewal raises a coverage, no policy lapses or is struck out, and
no transfer overwrites an active policy. -/
theorem reserved_exact_of_reach {host : Host} {s : State}
    (h : (contract host).Reach KeepsReserved s) :
    ∀ asset, (s.getAssetLedger asset).reservedCoverage = s.activeCoverage asset := by
  have hexact : s.ReservedExact := by
    refine h.invariant_with (J := State.PoliciesSound) (I := State.ReservedExact)
      (fun s hs => policiesSound_of_reach hs.to_always) ?_ ?_
    · intro s hs asset
      have hzero : s.activeCoverage asset = 0 := by
        rw [State.activeCoverage, hs.storage, total_empty]
      rw [hzero, State.getAssetLedger, hs.get]
      exact ⟨rfl, by decide⟩
    · intro s l s' hsound hok hstep hs
      cases l with
      | closeLedger n =>
        obtain ⟨-, -, rfl⟩ := hstep
        exact hs
      | tokens b a =>
        obtain ⟨-, rfl⟩ := hstep
        exact hs
      | call env c =>
        obtain ⟨-, h⟩ := hstep
        cases c with
        | claim c => exact (sameCover_of_claimCall h hok).reservedExact hs
        | policy c => exact reservedExact_of_policyCall h hok hsound hs
        | treasury c =>
          refine SameCover.reservedExact ⟨.of_treasuryCall h, activeCoverage_of_same ?_⟩ hs
          exact (frame_treasuryCall h).sameKind (c.untouched rfl)
        | setting c =>
          have hf := frame_setting h
          exact (SameCover.of_same (hf.sameKind rfl) (hf.sameKind rfl)).reservedExact hs
        | governance c =>
          have hf := frame_governanceCall h
          refine SameCover.reservedExact (.of_same ?_ ?_) hs
          · exact hf.sameKind (c.untouched rfl)
          · exact hf.sameKind (c.untouched rfl)
  exact fun asset => (hexact asset).1

/-! ## Two runs -/

/-- No claim is paid. -/
def withoutPayouts (_ : State) : Label → Bool
  | .call _ (.claim (.processClaim _)) | .call _ (.claim (.disburseInstallment ..)) => false
  | _ => true

/-- The check of a run with two policies bound and one terminated. -/
def bindsAndTerminates (_ : State) : Label → Bool
  | .call _ (.policy (.initiatePolicy _)) | .call _ (.policy (.terminatePolicy ..))
  | .call _ (.setting _) => true
  | _ => false

theorem keepsReserved_of_check (s : State) (l : Label) (h : bindsAndTerminates s l = true) :
    KeepsReserved s l := by
  unfold bindsAndTerminates at h
  split at h
  · trivial
  · trivial
  · trivial
  · cases h

/-- Accounts 1 and 2 bind policies, and account 1 terminates its own. -/
theorem reserved_exact_terminated : ∃ s, (contract demoHost).Reach KeepsReserved s ∧
    (s.getAssetLedger assetAddress).reservedCoverage = 30000000 ∧
    s.activeCoverage assetAddress = 30000000 := by
  obtain ⟨s, hreach, hval⟩ := exists_of_follow keepsReserved_of_check (deployed 0)
    [demoInit, demoBind 1 .auto 10000000, demoBind 2 .auto 30000000,
      demoCall (.policy (.terminatePolicy 1 1 .voluntaryCancellation))]
    (f := fun s => (s.getAssetLedger assetAddress).reservedCoverage) (a := 30000000)
    (fresh_deployed (by decide)) (by simp [demoInit, demoBind]) (by decide +kernel)
  refine ⟨s, hreach, hval, ?_⟩
  rw [← reserved_exact_of_reach hreach assetAddress]
  exact hval

/-- **A lapsed policy stays reserved.**  The policy of account 1 runs out, and `process_expired`
deactivates it without a release. -/
theorem reserved_after_lapse : ∃ s,
    (contract demoHost).Reach (fun s l => withoutPayouts s l = true) s ∧
    (s.getAssetLedger assetAddress).reservedCoverage = 10000000 ∧
    s.activeCoverage assetAddress = 0 := by
  obtain ⟨s, hreach, hval⟩ := exists_of_follow
    (fun s l (h : withoutPayouts s l = true) => h)
    (deployed 0)
    [demoInit, demoBind 1 .auto 10000000, .closeLedger 4000000,
      demoCall (.policy (.processExpired 1 [1]))]
    (f := fun s => ((s.getAssetLedger assetAddress).reservedCoverage,
      s.activeCoverage assetAddress))
    (a := (10000000, 0))
    (fresh_deployed (by decide)) (by simp [demoInit, demoBind]) (by decide +kernel)
  rw [Prod.mk.injEq] at hval
  exact ⟨s, hreach, hval⟩

end NiffyInsure
