import NiffyInsure.Frame.Basic

/-!
# What the claim entrypoints change

One lemma a function, from filing to the appeal round.  Loops go by induction on the list
of ids.
-/

namespace NiffyInsure

variable {env : Env} {s s' : State}

theorem frame_collectFilingFee {holder asset : Address} {claimId : Nat}
    (h : s.collectFilingFee env holder asset claimId = .ok s') :
    Frame [.assetLedger, .cash, .filingFeePaid] s s' := by
  dsimp only [State.collectFilingFee] at h
  split at h
  · simp only [bind_eq_ok, pure_eq_ok] at h
    obtain ⟨-, -, s₁, h₁, rfl⟩ := h
    simpa using (frame_collectPremium h₁).mono (by simp)
  · cases h
    simp

theorem frame_recordNewClaim (s : State) (claim : Claim) (anchor : Option Nat) :
    Frame [.claim, .openClaim, .claimQuorum, .rateLimit, .ratePrev, .statusEvent] s
      (s.recordNewClaim claim anchor) := by
  simp [State.recordNewClaim]

/-- Filing bumps the holder's nonce, and leaves it alone from there on. -/
theorem fileClaim_bumps {holder : Address} {policyId id : Nat} {amount : Int} {details : Str}
    {evidence : List ClaimEvidenceEntry} {expectedNonce : Option Nat}
    (h : fileClaim env s holder policyId amount details evidence expectedNonce = .ok (id, s')) :
    ∃ s₁, s.checkAndBumpNonce holder expectedNonce = .ok s₁ ∧
      Frame [.rolling, .claimCounter, .assetLedger, .cash, .filingFeePaid, .claimVoters, .claim,
        .openClaim, .claimQuorum, .rateLimit, .ratePrev, .statusEvent] s₁ s' := by
  simp only [fileClaim, bind_eq_ok, pure_eq_ok, Prod.exists, Prod.mk.injEq] at h
  obtain ⟨-, -, s₁, h₁, policy, -, -, -, s₂, h₂, -, -, deadline, -, claimId, s₃, h₃,
    s₄, h₄, rfl, rfl⟩ := h
  obtain ⟨-, rfl⟩ := nextClaimId_eq_ok h₃
  refine ⟨s₁, h₁, Frame.trans ?_ ((frame_recordNewClaim _ _ _).mono (by simp))⟩
  rw [State.snapshotClaimVoters, Frame.set_iff (by simp)]
  refine Frame.trans ?_ ((frame_collectFilingFee h₄).mono (by simp))
  rw [Frame.set_iff (by simp)]
  exact (frame_checkFileClaim h₂).mono (by simp)

theorem frame_fileClaim {holder : Address} {policyId id : Nat} {amount : Int} {details : Str}
    {evidence : List ClaimEvidenceEntry} {expectedNonce : Option Nat}
    (h : fileClaim env s holder policyId amount details evidence expectedNonce = .ok (id, s')) :
    Frame [.nonce, .rolling, .claimCounter, .assetLedger, .cash, .filingFeePaid,
      .claimVoters, .claim, .openClaim, .claimQuorum, .rateLimit, .ratePrev,
      .statusEvent] s s' := by
  obtain ⟨s₁, h₁, hf⟩ := fileClaim_bumps h
  exact ((frame_checkAndBumpNonce h₁).mono (by simp)).trans (hf.mono (by simp))

theorem frame_refundFilingFee {claimId : Nat} {claim : Claim}
    (h : s.refundFilingFee env claimId claim = .ok s') : Frame [.filingFeePaid, .cash] s s' := by
  dsimp only [State.refundFilingFee] at h
  split at h
  · split at h
    · simp only [bind_eq_ok, pure_eq_ok] at h
      obtain ⟨s₂, h₂, rfl⟩ := h
      rw [Frame.emit_iff rfl]
      refine Frame.trans ?_ ((frame_tokenTransfer h₂).mono (by simp))
      simp
    · cases h
      simp
  · cases h
    simp

theorem frame_withdrawClaim {claimant : Address} {claimId : Nat}
    (h : withdrawClaim env s claimant claimId = .ok s') :
    Frame [.openClaim, .rateLimit, .ratePrev, .claim, .filingFeePaid, .cash,
      .statusEvent] s s' := by
  simp only [withdrawClaim, bind_eq_ok, pure_eq_ok] at h
  obtain ⟨claim, -, -, -, -, -, -, -, s₄, h₄, rfl⟩ := h
  rw [Frame.emit_iff rfl, Frame.emit_iff rfl]
  refine Frame.trans ?_ ((frame_refundFilingFee h₄).mono (by simp))
  simp

theorem frame_addClaimEvidence {claimant : Address} {claimId : Nat}
    {newEvidence : List ClaimEvidenceEntry}
    (h : addClaimEvidence s claimant claimId newEvidence = .ok s') : Frame [.claim] s s' := by
  simp only [addClaimEvidence, bind_eq_ok, pure_eq_ok] at h
  obtain ⟨-, -, claim, -, -, -, -, -, -, -, rfl⟩ := h
  simp

theorem frame_onReject {claim : Claim} (h : onReject s claim = .ok s') :
    Frame [.policy, .registry, .activeCount, .strikeEvent] s s' := by
  dsimp only [onReject] at h
  split at h
  · cases h
    simp
  · split at h
    · simp only [bind_eq_ok, pure_eq_ok] at h
      obtain ⟨s₃, h₃, rfl⟩ := h
      rw [Frame.emit_iff rfl]
      refine Frame.trans ?_ ((frame_dropActivePolicy h₃).mono (by simp))
      simp
    · cases h
      simp

/-- The writes of `closeRound` before a rejection is handled. -/
def State.recordDecision (s : State) (claimId : Nat) (before : ClaimStatus)
    (claim : Claim) : State :=
  let s₂ := (s.emit (.claimStatusChanged claimId before claim.status s.sequence)).setOpenClaim
    claim.claimant claim.policyId false
  let s₃ := if before = .processing then s₂.remove (.claimRateLimitPrev claimId) else s₂
  (s₃.setClaim claim).set (.lastClaimResolvedLedger claim.claimant claim.policyId) s.sequence

/-- A decided round is recorded, and then a rejection is handled. -/
theorem closeRound_eq (s : State) (claimId : Nat) (before : ClaimStatus) (claim : Claim) :
    closeRound s claimId before claim = if claim.status = .rejected then
      onReject (s.recordDecision claimId before claim) claim
    else .ok (s.recordDecision claimId before claim) := rfl

theorem closeRound_cases {claimId : Nat} {before : ClaimStatus} {claim : Claim}
    (h : closeRound s claimId before claim = .ok s') :
    (claim.status = .rejected ∧ onReject (s.recordDecision claimId before claim) claim = .ok s') ∨
      (claim.status ≠ .rejected ∧ s' = s.recordDecision claimId before claim) := by
  rw [closeRound_eq] at h
  split at h
  · rename_i hrej
    exact .inl ⟨hrej, h⟩
  · rename_i hrej
    cases h
    exact .inr ⟨hrej, rfl⟩

theorem frame_recordDecision (s : State) (claimId : Nat) (before : ClaimStatus) (claim : Claim) :
    Frame [.openClaim, .ratePrev, .claim, .lastResolved, .statusEvent] s
      (s.recordDecision claimId before claim) := by
  dsimp only [State.recordDecision]
  split <;> simp

theorem frame_closeRound {claimId : Nat} {before : ClaimStatus} {claim : Claim}
    (h : closeRound s claimId before claim = .ok s') :
    Frame [.openClaim, .ratePrev, .claim, .lastResolved, .policy, .registry, .activeCount,
      .statusEvent, .strikeEvent] s s' := by
  have hrec : Frame [.openClaim, .ratePrev, .claim, .lastResolved, .policy, .registry, .activeCount,
      .statusEvent, .strikeEvent] s (s.recordDecision claimId before claim) :=
    (frame_recordDecision s claimId before claim).mono (by simp)
  obtain ⟨-, h⟩ | ⟨-, rfl⟩ := closeRound_cases h
  · exact hrec.trans ((frame_onReject h).mono (by simp))
  · exact hrec

theorem frame_voteOnClaimWith {weight : State → Nat} {voter : Address} {claimId : Nat}
    {vote : VoteOption} {st : ClaimStatus}
    (h : voteOnClaimWith s weight voter claimId vote = .ok (st, s')) :
    Frame [.vote, .openClaim, .ratePrev, .claim, .lastResolved, .policy, .registry, .activeCount,
      .statusEvent, .strikeEvent] s s' := by
  simp only [voteOnClaimWith, bind_eq_ok] at h
  obtain ⟨-, -, claim, -, -, -, w, -, cast, -, h⟩ := h
  split at h
  · cases h
    simp
  · simp only [bind_eq_ok, pure_eq_ok, Prod.mk.injEq] at h
    obtain ⟨claim₂, -, s₂, h₂, -, rfl⟩ := h
    refine Frame.trans ?_ ((frame_closeRound h₂).mono (by simp))
    simp

theorem frame_voteOnClaim {voter : Address} {claimId : Nat} {vote : VoteOption} {st : ClaimStatus}
    (h : voteOnClaim s voter claimId vote = .ok (st, s')) :
    Frame [.vote, .openClaim, .ratePrev, .claim, .lastResolved, .policy, .registry, .activeCount,
      .statusEvent, .strikeEvent] s s' :=
  frame_voteOnClaimWith (voteOnClaim_eq s voter claimId vote ▸ h)

theorem frame_finalizeClaimInner {claimId : Nat} {st : ClaimStatus}
    (h : finalizeClaimInner s claimId = .ok (st, s')) :
    Frame [.openClaim, .ratePrev, .claim, .lastResolved, .policy, .registry, .activeCount,
      .statusEvent, .strikeEvent] s s' := by
  simp only [finalizeClaimInner, bind_eq_ok, pure_eq_ok, Prod.mk.injEq] at h
  obtain ⟨claim, -, -, -, -, -, cast, -, claim₁, -, s₁, h₁, -, rfl⟩ := h
  exact frame_closeRound h₁

theorem frame_finalizeBatchLoop {n m : Nat} :
    ∀ (ids : List Nat) (s : State) (p q : Nat), finalizeBatchLoop ids s p q = .ok (n, m, s') →
      Frame [.openClaim, .ratePrev, .claim, .lastResolved, .policy, .registry, .activeCount,
        .statusEvent, .strikeEvent] s s' := by
  intro ids
  induction ids with
  | nil =>
    intro s p q h
    cases h
    simp
  | cons id rest ih =>
    intro s p q h
    unfold finalizeBatchLoop at h
    split at h
    · obtain ⟨⟨st, s₁⟩, h₁, h₂⟩ := bind_eq_ok.mp h
      exact (frame_finalizeClaimInner h₁).trans (ih _ _ _ h₂)
    · exact ih _ _ _ h

theorem frame_payFromTreasury {claimId : Nat} {asset recipient : Address} {amount : Int}
    (h : s.payFromTreasury env claimId asset recipient amount = .ok s') :
    Frame [.cash, .payout] s s' := by
  simp only [State.payFromTreasury, bind_eq_ok, pure_eq_ok] at h
  obtain ⟨s₁, h₁, rfl⟩ := h
  simpa using (frame_tokenTransfer h₁).mono (by simp)

theorem frame_payFromReinsurance {claimId : Nat} {asset reinsurance recipient : Address}
    {amount : Int} (h : s.payFromReinsurance env claimId asset reinsurance recipient amount =
      .ok s') :
    Frame [.cash, .payout] s s' := by
  simp only [State.payFromReinsurance, bind_eq_ok, pure_eq_ok] at h
  obtain ⟨s₁, h₁, rfl⟩ := h
  simpa using (frame_tokenTransferFrom h₁).mono (by simp)

/-- How a payout is settled: by the treasury, by nobody, or by the reinsurance pool with what the
treasury has, if it has anything. -/
inductive SettlementRun (env : Env) (s : State) (claim : Claim) (asset recipient : Address)
    (net : Int) : Claim → State → Prop where
  | treasury {s₁ : State} (hcash : net ≤ s.balance asset env.contract)
      (hpaid : s.payFromTreasury env claim.claimId asset recipient net = .ok s₁) :
      SettlementRun env s claim asset recipient net claim
        (s₁.emit (.claimProcessed claim.claimId recipient claim.amount claim.deductible net))
  | short {reinsurance : Address} {missing : Int} (hcash : ¬ net ≤ s.balance asset env.contract)
      (hmissing : missing = net - max (s.balance asset env.contract) 0)
      (hpool : s.get .reinsuranceContract = some reinsurance)
      (hshort : s.reinsuranceAvailable env asset reinsurance < missing) :
      SettlementRun env s claim asset recipient net (claim.moveTo .payoutFailed s.sequence)
        (((s.emit (.reinsuranceTriggered claim.claimId missing reinsurance)).setClaim
          (claim.moveTo .payoutFailed s.sequence)).emit
            (.reinsuranceDrawdownFailed claim.claimId 0 missing reinsurance))
  | both {reinsurance : Address} {missing : Int} {s₂ s₃ : State}
      (hcash : ¬ net ≤ s.balance asset env.contract)
      (hmissing : missing = net - max (s.balance asset env.contract) 0)
      (hpool : s.get .reinsuranceContract = some reinsurance)
      (henough : missing ≤ s.reinsuranceAvailable env asset reinsurance)
      (hsome : 0 < max (s.balance asset env.contract) 0)
      (hpaid : (s.emit (.reinsuranceTriggered claim.claimId missing reinsurance)).payFromTreasury
        env claim.claimId asset recipient (max (s.balance asset env.contract) 0) = .ok s₂)
      (hdrawn : s₂.payFromReinsurance env claim.claimId asset reinsurance
        recipient missing = .ok s₃) :
      SettlementRun env s claim asset recipient net claim
        ((s₃.emit (.reinsuranceDrawdown claim.claimId (max (s.balance asset env.contract) 0) missing
          reinsurance)).emit
            (.claimProcessed claim.claimId recipient claim.amount claim.deductible net))
  | reinsurance {reinsurance : Address} {missing : Int} {s₃ : State}
      (hcash : ¬ net ≤ s.balance asset env.contract)
      (hmissing : missing = net - max (s.balance asset env.contract) 0)
      (hpool : s.get .reinsuranceContract = some reinsurance)
      (henough : missing ≤ s.reinsuranceAvailable env asset reinsurance)
      (hnone : ¬ 0 < max (s.balance asset env.contract) 0)
      (hdrawn : (s.emit (.reinsuranceTriggered claim.claimId missing
        reinsurance)).payFromReinsurance env
        claim.claimId asset reinsurance recipient missing = .ok s₃) :
      SettlementRun env s claim asset recipient net claim
        ((s₃.emit (.reinsuranceDrawdown claim.claimId (max (s.balance asset env.contract) 0) missing
          reinsurance)).emit
            (.claimProcessed claim.claimId recipient claim.amount claim.deductible net))

theorem settlementRun_of_ok {claim claim' : Claim} {asset recipient : Address} {net : Int}
    (h : settlePayout env s claim asset recipient net = .ok (claim', s')) :
    SettlementRun env s claim asset recipient net claim' s' := by
  dsimp only [settlePayout] at h
  split at h
  · rename_i hcash
    simp only [bind_eq_ok, pure_eq_ok, Prod.mk.injEq] at h
    obtain ⟨s₁, hpaid, rfl, rfl⟩ := h
    exact .treasury hcash hpaid
  · rename_i hcash
    simp only [bind_eq_ok, okOr_eq_ok, checkedSub128, fit128_eq_some] at h
    obtain ⟨reinsurance, hpool, missing, ⟨-, rfl⟩, h⟩ := h
    split at h
    · rename_i hshort
      simp only [pure_eq_ok, Prod.mk.injEq] at h
      obtain ⟨rfl, rfl⟩ := h
      exact .short hcash rfl hpool hshort
    · rename_i hshort
      have henough := Int.not_lt.mp hshort
      split at h
      · rename_i hsome
        simp only [bind_eq_ok, pure_eq_ok, Prod.mk.injEq] at h
        obtain ⟨s₂, hpaid, s₃, hdrawn, rfl, rfl⟩ := h
        exact .both hcash rfl hpool henough hsome hpaid hdrawn
      · rename_i hnone
        simp only [bind_eq_ok, pure_eq_ok, Prod.mk.injEq] at h
        obtain ⟨s₂, rfl, s₃, hdrawn, rfl, rfl⟩ := h
        exact .reinsurance hcash rfl hpool henough hnone hdrawn

theorem frame_settlePayout {claim claim' : Claim} {asset recipient : Address} {net : Int}
    (h : settlePayout env s claim asset recipient net = .ok (claim', s')) :
    Frame [.cash, .payout, .claim] s s' := by
  cases settlementRun_of_ok h with
  | treasury _ hpaid => simpa using (frame_payFromTreasury hpaid).mono (by simp)
  | short => simp
  | both _ _ _ _ _ hpaid hdrawn =>
    rw [Frame.emit_iff rfl, Frame.emit_iff rfl]
    refine Frame.trans ?_ ((frame_payFromReinsurance hdrawn).mono (by simp))
    refine Frame.trans ?_ ((frame_payFromTreasury hpaid).mono (by simp))
    simp
  | reinsurance _ _ _ _ _ hdrawn =>
    rw [Frame.emit_iff rfl, Frame.emit_iff rfl]
    refine Frame.trans ?_ ((frame_payFromReinsurance hdrawn).mono (by simp))
    simp

theorem frame_payout {claim claim' : Claim} (h : payout env s claim = .ok (claim', s')) :
    Frame [.assetLedger, .cash, .payout, .claim] s s' := by
  simp only [payout, bind_eq_ok] at h
  obtain ⟨policy, -, -, -, net, -, -, -, -, -, s₃, h₃, h₄⟩ := h
  refine Frame.trans ?_ ((frame_settlePayout h₄).mono (by simp))
  refine Frame.trans ?_ ((frame_recordPayoutOut h₃).mono (by simp))
  split <;> split <;> simp

theorem frame_recordClaimPaid (s : State) (holder : Address) (policyId : Nat) (amount : Int)
    (now : Nat) : Frame [.rolling] s (s.recordClaimPaid holder policyId amount now) := by
  simp [State.recordClaimPaid]

theorem frame_processClaim {claimId : Nat} (h : processClaim env s claimId = .ok s') :
    Frame [.openClaim, .ratePrev, .claim, .rolling, .assetLedger, .cash, .payout,
      .statusEvent] s s' := by
  simp only [processClaim, bind_eq_ok, Prod.exists] at h
  obtain ⟨claim, -, -, -, -, -, -, -, claim₂, s₄, h₄, h⟩ := h
  have hfirst : Frame [.openClaim, .ratePrev, .claim, .rolling, .assetLedger, .cash, .payout,
      .statusEvent] s s₄ := by
    refine Frame.trans ?_ ((frame_payout h₄).mono (by simp))
    refine Frame.trans ?_ ((frame_recordClaimPaid _ _ _ _ _).mono (by simp))
    simp
  split at h
  · cases h
    exact hfirst
  · simp only [bind_eq_ok, Prod.exists, pure_eq_ok] at h
    obtain ⟨claim₃, s₆, h₆, rfl⟩ := h
    rw [Frame.emit_iff rfl]
    refine Frame.trans ?_ ((frame_payout h₆).mono (by simp))
    exact hfirst.trans ((frame_recordClaimPaid _ _ _ _ _).mono (by simp))

theorem frame_processPayoutTimeout {claimId : Nat} {st : ClaimStatus}
    (h : processPayoutTimeout s claimId = .ok (st, s')) :
    Frame [.openClaim, .ratePrev, .claim] s s' := by
  simp only [processPayoutTimeout, bind_eq_ok, pure_eq_ok, Prod.mk.injEq] at h
  obtain ⟨claim, -, -, -, -, -, -, rfl⟩ := h
  simp

theorem frame_disputeClaim {claimId : Nat} (h : disputeClaim s claimId = .ok s') :
    Frame [.claim] s s' := by
  simp only [disputeClaim, bind_eq_ok, pure_eq_ok] at h
  obtain ⟨claim, -, -, -, -, -, rfl⟩ := h
  simp

theorem frame_markFullyPaid (s : State) (claimId : Nat) (claim : Claim) (recipient : Address)
    (net : Int) :
    Frame [.openClaim, .ratePrev, .rolling, .statusEvent] s
      (s.markFullyPaid claimId claim recipient net).2 := by
  unfold State.markFullyPaid
  dsimp only
  refine Frame.trans ?_ ((frame_recordClaimPaid _ _ _ _ _).mono (by simp))
  simp

theorem frame_disburseInstallment {claimId : Nat} {amount : Int}
    (h : disburseInstallment env s claimId amount = .ok s') :
    Frame [.openClaim, .ratePrev, .claim, .rolling, .assetLedger, .cash, .payout,
      .statusEvent] s s' := by
  simp only [disburseInstallment, bind_eq_ok, pure_eq_ok] at h
  obtain ⟨-, -, claim, -, -, -, -, -, -, -, net, -, -, -, remaining, -, -, -, policy, -, -, -, s₁,
    h₁, s₂, h₂, paid, -, count, -, rfl⟩ := h
  rw [Frame.set_iff (by simp)]
  have hpaid : Frame [.openClaim, .ratePrev, .claim, .rolling, .assetLedger, .cash, .payout,
      .statusEvent] s s₂ :=
    ((frame_recordPayoutOut h₁).mono (by simp)).trans ((frame_payFromTreasury h₂).mono (by simp))
  split
  · refine Frame.trans ?_ ((frame_markFullyPaid _ _ _ _ _).mono (by simp))
    simpa using hpaid
  · simpa using hpaid

theorem frame_openAppeal {claimant : Address} {claimId : Nat}
    (h : openAppeal s claimant claimId = .ok s') :
    Frame [.claimQuorum, .appealVoters, .openClaim, .claim, .statusEvent] s s' := by
  simp only [openAppeal, bind_eq_ok, pure_eq_ok] at h
  obtain ⟨deadline, -, -, -, claim, -, -, -, -, -, -, -, -, -, rfl⟩ := h
  simp [State.snapshotAppealVoters]

/-- A deadline that is set if `p` holds, and kept otherwise. -/
theorem deadline_eq_ok {α : Type} {p : Prop} [Decidable p] {a b c : Nat}
    {k : Nat → Result α} {r : α}
    (h : (if p then okOr (checkedAdd32 a b) (.error .overflow) >>= k else pure c >>= k) = .ok r) :
    ∃ d, (if p then checkedAdd32 a b = some d else d = c) ∧ k d = .ok r := by
  split at h <;> rename_i hp
  · obtain ⟨d, hd, h⟩ := bind_eq_ok.mp h
    refine ⟨d, ?_, h⟩
    rw [if_pos hp]
    exact okOr_eq_ok.mp hd
  · refine ⟨c, ?_, h⟩
    rw [if_neg hp]

/-- Where a deadline is set, the sum can overflow. -/
theorem deadline_eq_error {α : Type} {p : Prop} [Decidable p] {a b c : Nat} {k : Nat → Result α}
    {e : Fault}
    (h : (if p then okOr (checkedAdd32 a b) (.error .overflow) >>= k else pure c >>= k) =
      .error e) :
    e = .error .overflow ∨ ∃ d, k d = .error e := by
  split at h
  · rcases bind_eq_error.mp h with h | ⟨d, -, h⟩
    · exact .inl (okOr_eq_error.mp h).2.symm
    · exact .inr ⟨d, h⟩
  · exact .inr ⟨c, h⟩

/-- A decided appeal: the record with a new status and new deadlines, the flag cleared, and the
events. -/
theorem finalizeAppealOutcome_cases {claim claim' : Claim} {outcome : ClaimStatus}
    (h : finalizeAppealOutcome s claim outcome = .ok (claim', s')) :
    ∃ payoutDeadline,
      (if outcome = .appealApproved ∧ claim.payoutDeadlineLedger = 0 then
        checkedAdd32 s.sequence PAYOUT_TIMEOUT_LEDGERS = some payoutDeadline
      else payoutDeadline = claim.payoutDeadlineLedger) ∧
    ∃ dispute,
      (if outcome = .appealApproved ∧ claim.payoutDeadlineLedger = 0 then
        checkedAdd32 s.sequence DEFAULT_DISPUTE_WINDOW_LEDGERS = some dispute
      else dispute = claim.disputeDeadlineLedger) ∧
    claim' = { claim.moveTo outcome s.sequence with
      payoutDeadlineLedger := payoutDeadline
      disputeDeadlineLedger := dispute } ∧
    s' = ((s.setOpenClaim claim.claimant claim.policyId false).emit
      (.claimStatusChanged claim.claimId claim.status outcome s.sequence)).emit
        (.appealResolved claim.claimId claim.policyId claim.claimant outcome
          claim.appealApproveVotes claim.appealRejectVotes s.sequence) := by
  dsimp only [finalizeAppealOutcome] at h
  obtain ⟨payoutDeadline, hpayout, h⟩ := deadline_eq_ok h
  obtain ⟨dispute, hdispute, h⟩ := deadline_eq_ok h
  cases h
  exact ⟨payoutDeadline, hpayout, dispute, hdispute, rfl, rfl⟩

theorem finalizeAppealOutcome_eq_error {claim : Claim} {outcome : ClaimStatus} {e : Fault}
    (h : finalizeAppealOutcome s claim outcome = .error e) : e = .error .overflow := by
  dsimp only [finalizeAppealOutcome] at h
  rcases deadline_eq_error h with h | ⟨payoutDeadline, h⟩
  · exact h
  rcases deadline_eq_error h with h | ⟨dispute, h⟩
  · exact h
  · exact absurd h pure_ne_error

theorem frame_finalizeAppealOutcome {claim claim' : Claim} {outcome : ClaimStatus}
    (h : finalizeAppealOutcome s claim outcome = .ok (claim', s')) :
    Frame [.openClaim, .statusEvent] s s' := by
  obtain ⟨_, -, _, -, -, rfl⟩ := finalizeAppealOutcome_cases h
  simp

theorem frame_voteOnAppealWith {weight : State → Nat} {voter : Address} {claimId : Nat}
    {vote : VoteOption} {st : ClaimStatus}
    (h : voteOnAppealWith s weight voter claimId vote = .ok (st, s')) :
    Frame [.appealVote, .openClaim, .claim, .statusEvent] s s' := by
  simp only [voteOnAppealWith, bind_eq_ok] at h
  obtain ⟨-, -, claim, -, -, -, -, -, -, -, -, -, target, -, -, -, -, -, cast, -, h⟩ := h
  split at h
  · simp only [bind_eq_ok, Prod.exists, pure_eq_ok, Prod.mk.injEq] at h
    obtain ⟨claim₂, s₂, h₂, -, rfl⟩ := h
    rw [Frame.set_iff (by simp)]
    refine Frame.trans ?_ ((frame_finalizeAppealOutcome h₂).mono (by simp))
    simp
  · simp only [bind_eq_ok, Prod.exists, pure_eq_ok, Prod.mk.injEq] at h
    obtain ⟨claim₂, s₂, ⟨rfl, rfl⟩, -, rfl⟩ := h
    simp

theorem frame_voteOnAppeal {voter : Address} {claimId : Nat} {vote : VoteOption} {st : ClaimStatus}
    (h : voteOnAppeal s voter claimId vote = .ok (st, s')) :
    Frame [.appealVote, .openClaim, .claim, .statusEvent] s s' :=
  frame_voteOnAppealWith (voteOnAppeal_eq s voter claimId vote ▸ h)

theorem frame_finalizeAppeal {claimId : Nat} {st : ClaimStatus}
    (h : finalizeAppeal s claimId = .ok (st, s')) :
    Frame [.openClaim, .claim, .statusEvent] s s' := by
  simp only [finalizeAppeal, bind_eq_ok, Prod.exists, pure_eq_ok, Prod.mk.injEq] at h
  obtain ⟨-, -, claim, -, -, -, -, -, cast, -, claim₁, s₁, h₁, -, rfl⟩ := h
  simpa using (frame_finalizeAppealOutcome h₁).mono (by simp)

theorem frame_revealVote {voter : Address} {claimId : Nat} {vote : VoteOption} {salt : Bytes32}
    (h : revealVote env s voter claimId vote salt = .ok s') : Frame [.vote, .claim] s s' := by
  simp only [revealVote, bind_eq_ok, pure_eq_ok] at h
  obtain ⟨-, -, phases, -, -, -, -, -, stored, -, -, -, -, -, claim, -, rfl⟩ := h
  simp

theorem frame_delegateVote {delegator delegate : Address} {expiryLedger : Nat}
    (h : delegateVote env s delegator delegate expiryLedger = .ok s') :
    Frame [.delegations] s s' := by
  simp only [delegateVote, bind_eq_ok, pure_eq_ok] at h
  obtain ⟨-, -, -, -, target, -, -, -, rfl⟩ := h
  simp [State.setVoteDelegation]

end NiffyInsure
