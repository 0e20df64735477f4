import NiffyInsure.Ledger
import NiffyInsure.Validate
import NiffyInsure.Voters

/-!
# Claims

The claim lifecycle of `claim.rs`: filing, the base voting round, payouts, disputes and
the appeal round.  A function takes the state before the call and returns its result with
the state after it.

The tail of `vote_on_claim` and of `finalize_claim_inner` is the same code up to one
deadline and is one function here, `closeRound`; the appeal round has its own,
`finalizeAppealOutcome`.
-/

namespace NiffyInsure

/-! ## Status history -/

/-- `push_status_transition`: append, and drop the oldest entries beyond the limit. -/
def pushStatusTransition (history : List ClaimStatusHistoryEntry) (status : ClaimStatus)
    (ledger : Nat) : List ClaimStatusHistoryEntry :=
  let h := history ++ [⟨status, ledger⟩]
  h.drop (h.length - CLAIM_STATUS_HISTORY_MAX)

/-- Move a claim to `status` and log the transition. -/
def Claim.moveTo (claim : Claim) (status : ClaimStatus) (now : Nat) : Claim :=
  { claim with status, statusHistory := pushStatusTransition claim.statusHistory status now }

/-! ## Participation quorum -/

/-- `required_cast_for_quorum`. -/
def requiredCastForQuorum (eligible quorumBps : Nat) : Nat :=
  if eligible = 0 then 0
  else (min (eligible * quorumBps) U64_MAX + 9999) / 10000 % 2 ^ 32

/-- `participation_quorum_met`. -/
def participationQuorumMet (castVotes eligible quorumBps : Nat) : Bool :=
  decide (requiredCastForQuorum eligible quorumBps ≤ castVotes)

/-- `resolve_plurality_if_quorum_met`. -/
def resolvePluralityIfQuorumMet (approveVotes rejectVotes castVotes eligible quorumBps : Nat) :
    Option ClaimStatus :=
  if participationQuorumMet castVotes eligible quorumBps then
    if rejectVotes < approveVotes then some .approved else some .rejected
  else none

namespace State

variable (s : State)

/-- `effective_quorum_bps`: a fraud score above the threshold raises the quorum. -/
def effectiveQuorumBps (claimId : Nat) : Nat :=
  let base := s.getClaimQuorumBps claimId
  match s.get (.claimFraudScore claimId) with
  | some score =>
    if s.getFraudScoreThreshold < score then max s.getElevatedQuorumBps base else base
  | none => base

/-- `voting_power_for`. -/
def votingPowerFor (claimId : Nat) (voter : Address) (defaultWeight : Nat) : Result Nat :=
  match s.get (.claimVoterPowerOverride claimId voter) with
  | some power => do
    ensure (0 < power) (.error .corruptSnapshotEntry)
    pure (power.toNat % 2 ^ 32)
  | none => .ok defaultWeight

end State

/-! ## Filing and withdrawing -/

section Filing

variable (env : Env) (s : State)

/-- The checks of `file_claim` between reading the policy and the first write. -/
def State.checkFiling (holder : Address) (policyId : Nat) (policy : Policy) (amount : Int)
    (details : Str) (evidence : List ClaimEvidenceEntry) : Result Unit := do
  let now := s.sequence
  ensure (isWithinWindow now policy.startLedger policy.endLedger = true)
    (.error (if isExpired now policy.endLedger then .policyExpired else .policyInactive))
  ensure (policy.isActive = true) (.error .policyInactive)
  ensure (s.hasOpenClaim holder policyId = false) (.error .duplicateOpenClaim)
  let cooldown := s.getCooldownLedgers
  ensure (cooldown = 0 ∨ (s.get (.lastClaimResolvedLedger holder policyId)).all
    (fun last => decide (cooldown ≤ now - last)) = true) (.error .cooldownActive)
  ensure ((s.get (.lastClaimLedger holder)).all
    (fun last => isRateLimitElapsed now last RATE_LIMIT_WINDOW_LEDGERS) = true)
    (.error .rateLimitExceeded)
  s.checkClaimFields amount policy.coverage details evidence

/-- The asset's own bounds on a claim amount. -/
def State.checkAssetBounds (asset : Address) (amount : Int) : Result Unit :=
  match s.get (.allowedAssetConfig asset) with
  | some config => do
    ensure (config.minClaimAmount ≤ amount) (.error .claimBelowMinAmount)
    ensure (amount ≤ config.maxClaimAmount) (.error .claimAboveMaxAmount)
  | none => .ok ()

/-- The filing fee, collected like a premium and noted for a refund. -/
def State.collectFilingFee (holder asset : Address) (claimId : Nat) : Result State :=
  let filingFee := s.getClaimFilingFee
  if 0 < filingFee then do
    ensure (filingFee ≤ s.allowance asset holder env.contract) (.error .insufficientAllowanceForFee)
    let s₁ ← s.collectPremium env holder asset filingFee
    pure ((s₁.set (.claimFilingFeePaid claimId) filingFee).emit
      (.claimFeeCollected claimId filingFee holder s.sequence))
  else .ok s

/-- The claim record that `file_claim` creates. -/
def newClaim (claimId policyId : Nat) (holder : Address) (amount deductible : Int) (asset : Address)
    (details : Str) (evidence : List ClaimEvidenceEntry) (votingDeadlineLedger now : Nat)
    (eligibleVoterCount : Nat) : Claim where
  claimId := claimId
  policyId := policyId
  claimant := holder
  amount := amount
  deductible := deductible
  asset := asset
  details := details
  evidence := evidence
  status := .processing
  votingDeadlineLedger := votingDeadlineLedger
  payoutDeadlineLedger := 0
  approveVotes := 0
  rejectVotes := 0
  filedAt := now
  eligibleVoterCount := eligibleVoterCount
  appealOpenDeadlineLedger := 0
  appealsCount := 0
  appealDeadlineLedger := 0
  appealApproveVotes := 0
  appealRejectVotes := 0
  statusHistory := pushStatusTransition [] .processing now
  disputeDeadlineLedger := 0
  paidAmount := 0
  installmentCount := 0

/-- The writes of `file_claim` once the fee is collected. -/
def State.recordNewClaim (claim : Claim) (rateLimitAnchor : Option Nat) : State :=
  let s₁ := (s.setClaim claim).setOpenClaim claim.claimant claim.policyId true
  let s₂ := s₁.set (.claimQuorumBps claim.claimId) s₁.getQuorumBps
  let s₃ := s₂.set (.lastClaimLedger claim.claimant) claim.filedAt
  let s₄ := s₃.setIfSome (.claimRateLimitPrev claim.claimId) rateLimitAnchor
  let s₅ := s₄.emit (.claimFiled claim.claimId claim.claimant claim.policyId claim.amount
    claim.deductible (claim.evidence.map (·.hash)))
  s₅.emit (.claimStatusChanged claim.claimId .pending .processing claim.filedAt)

/-- `file_claim`. -/
def fileClaim (holder : Address) (policyId : Nat) (amount : Int) (details : Str)
    (evidence : List ClaimEvidenceEntry) (expectedNonce : Option Nat) : Result (Nat × State) := do
  s.assertClaimsNotPaused
  let s₁ ← s.checkAndBumpNonce holder expectedNonce
  let policy ← okOr (s₁.getPolicy holder policyId) (.error .policyNotFound)
  let now := s₁.sequence
  s₁.checkFiling holder policyId policy amount details evidence
  let rateLimitAnchor := s₁.get (.lastClaimLedger holder)
  let s₂ ← s₁.checkFileClaim holder policyId amount now
  s₂.checkAssetBounds policy.asset amount
  let votingDeadline ← okOr (checkedAdd32 now s₂.getVotingDurationLedgers) (.error .overflow)
  let (claimId, s₃) ← s₂.nextClaimId
  let s₄ ← s₃.collectFilingFee env holder policy.asset claimId
  let s₅ := s₄.snapshotClaimVoters claimId holder
  let claim := newClaim claimId policyId holder amount (policy.deductible.getD 0) policy.asset
    details evidence votingDeadline now (s₅.getClaimVoters claimId).length
  pure (claimId, s₅.recordNewClaim claim rateLimitAnchor)

/-- The refund of the filing fee at withdrawal.  The cash leaves the contract; the book is
not touched. -/
def State.refundFilingFee (claimId : Nat) (claim : Claim) : Result State :=
  match s.get (.claimFilingFeePaid claimId) with
  | some feePaid => do
    let s₁ := s.remove (.claimFilingFeePaid claimId)
    if 0 < feePaid then do
      let s₂ ← s₁.tokenTransfer env claim.asset env.contract claim.claimant feePaid
      pure (s₂.emit (.claimFeeRefunded claimId feePaid claim.claimant s.sequence))
    else pure s₁
  | none => .ok s

/-- `withdraw_claim`. -/
def withdrawClaim (claimant : Address) (claimId : Nat) : Result State := do
  let claim ← okOr (s.getClaim claimId) (.error .claimNotFound)
  ensure (claimant = claim.claimant) (.error .notEligibleVoter)
  ensure (claim.status = .processing) (.error .claimAlreadyTerminal)
  ensure (claim.approveVotes = 0 ∧ claim.rejectVotes = 0) (.error .claimAlreadyTerminal)
  let claim₁ := claim.moveTo .withdrawn s.sequence
  let s₁ := s.setOpenClaim claim.claimant claim.policyId false
  let anchor := s₁.get (.claimRateLimitPrev claimId)
  let s₂ := s₁.remove (.claimRateLimitPrev claimId)
  let s₃ := s₂.setOrRemove (.lastClaimLedger claim.claimant) anchor
  let s₄ ← (s₃.setClaim claim₁).refundFilingFee env claimId claim₁
  let s₅ := s₄.emit (.claimWithdrawn claimId claim.policyId claimant s.sequence)
  pure (s₅.emit (.claimStatusChanged claimId claim.status .withdrawn s.sequence))

/-- `add_claim_evidence`. -/
def addClaimEvidence (claimant : Address) (claimId : Nat) (newEvidence : List ClaimEvidenceEntry) :
    Result State := do
  s.assertClaimsNotPaused
  let claim ← okOr (s.getClaim claimId) (.error .claimNotFound)
  ensure (claimant = claim.claimant) (.error .notEligibleVoter)
  ensure (claim.status = .processing ∧ claim.approveVotes = 0 ∧ claim.rejectVotes = 0)
    (.error .claimEvidenceUpdateNotAllowed)
  s.checkClaimEvidenceUpdate newEvidence
  let s₁ := s.setClaim { claim with evidence := newEvidence }
  pure (s₁.emit (.claimEvidenceUpdated claimId claim.policyId
    (newEvidence.map (·.hash)) s.sequence))

end Filing

/-! ## The base voting round -/

section Voting

variable (s : State)

/-- `on_reject`: the policy gets a strike, and is deactivated at the threshold. -/
def onReject (claim : Claim) : Result State :=
  let now := s.sequence
  let s₁ := s.emit (.claimRejected claim.claimId claim.policyId claim.claimant claim.rejectVotes
    claim.approveVotes now)
  match s₁.getPolicy claim.claimant claim.policyId with
  | none => .ok s₁
  | some policy =>
    let policy₁ : Policy := { policy with strikeCount := saturatingAdd32 policy.strikeCount 1 }
    let s₂ := s₁.emit (.strikeIncremented claim.claimant claim.policyId claim.claimId
      policy₁.strikeCount)
    if STRIKE_DEACTIVATION_THRESHOLD ≤ policy₁.strikeCount ∧ policy₁.isActive = true then do
      let policy₂ := { policy₁ with
        isActive := false
        terminatedAtLedger := now
        terminationReason := .excessiveRejections
        terminatedByAdmin := false }
      let s₃ ← (s₂.setPolicy claim.claimant claim.policyId policy₂).dropActivePolicy claim.claimant
      pure (s₃.emit (.policyDeactivated claim.claimant claim.policyId 1 now))
    else .ok (s₂.setPolicy claim.claimant claim.policyId policy₁)

/-- The record of a claim that the base round decided.  Only the deadline path opens a
dispute window. -/
def Claim.decide (claim : Claim) (outcome : ClaimStatus) (now : Nat) (opensDispute : Bool) :
    Result Claim := do
  let appealOpenDeadlineLedger ←
    if outcome = .rejected then
      okOr (checkedAdd32 now APPEAL_OPEN_WINDOW_LEDGERS) (.error .overflow)
    else pure claim.appealOpenDeadlineLedger
  let firstApproval := outcome = .approved ∧ claim.payoutDeadlineLedger = 0
  let payoutDeadlineLedger ←
    if firstApproval then okOr (checkedAdd32 now PAYOUT_TIMEOUT_LEDGERS) (.error .overflow)
    else pure claim.payoutDeadlineLedger
  let disputeDeadlineLedger ←
    if firstApproval ∧ opensDispute = true then
      okOr (checkedAdd32 now DEFAULT_DISPUTE_WINDOW_LEDGERS) (.error .overflow)
    else pure claim.disputeDeadlineLedger
  pure { claim.moveTo outcome now with
    appealOpenDeadlineLedger, payoutDeadlineLedger, disputeDeadlineLedger }

/-- What both ends of the base round do with the decided claim. -/
def closeRound (claimId : Nat) (statusBefore : ClaimStatus) (claim : Claim) : Result State :=
  let now := s.sequence
  let s₁ := s.emit (.claimStatusChanged claimId statusBefore claim.status now)
  let s₂ := s₁.setOpenClaim claim.claimant claim.policyId false
  let s₃ := if statusBefore = .processing then s₂.remove (.claimRateLimitPrev claimId) else s₂
  let s₄ := (s₃.setClaim claim).set (.lastClaimResolvedLedger claim.claimant claim.policyId) now
  if claim.status = .rejected then onReject s₄ claim else .ok s₄

/-- Add a ballot to the tallies of the base round. -/
def Claim.tally (claim : Claim) (vote : VoteOption) (weight : Nat) : Claim :=
  match vote with
  | .approve => { claim with approveVotes := saturatingAdd32 claim.approveVotes weight }
  | .reject => { claim with rejectVotes := saturatingAdd32 claim.rejectVotes weight }

/-- The checks of `vote_on_claim` before its first write. -/
def State.checkBallot (voter : Address) (claimId : Nat) (claim : Claim) : Result Unit := do
  ensure (claim.status.isTerminal = false) (.error .claimAlreadyTerminal)
  ensure (voter ≠ claim.claimant) (.error .selfVoteNotAllowed)
  ensure (isClaimVotingOpen s.sequence claim.votingDeadlineLedger = true)
    (.error .votingWindowClosed)
  ensure (s.hasClaimVoters claimId = true) (.error .voterSnapshotExpired)
  ensure (voter ∈ s.getClaimVoters claimId) (.error .notEligibleVoter)
  let castCount ← add32 claim.approveVotes claim.rejectVotes
  ensure (¬ (s.getMaxVotersPerClaim ≤ castCount ∧ s.getVote claimId voter = none))
    (.error .voterCapReached)
  let resolvedTarget ← s.resolveVoteDelegationTarget voter s.sequence
  ensure (resolvedTarget = voter) (.error .voteDelegated)
  ensure (s.getVote claimId voter = none) (.error .duplicateVote)

/-- The default weight of a ballot of the voter, in a build with the `governance-token` feature:
its active policies up to `max_weight_cap` while weighting is armed, and one otherwise. -/
def State.defaultWeight (s : State) (armed : Bool) (voter : Address) : Nat :=
  if armed then
    let balance : Int := s.getActivePolicyCount voter
    (max (min balance ((s.get .maxWeightCap).getD I128_MAX)) 1).toNat % 2 ^ 32
  else 1

/-- `vote_on_claim`, where a ballot weighs `defaultWeight` unless its snapshot entry says
otherwise. -/
def voteOnClaimWith (defaultWeight : State → Nat) (voter : Address) (claimId : Nat)
    (vote : VoteOption) : Result (ClaimStatus × State) := do
  s.assertClaimsNotPaused
  let claim ← okOr (s.getClaim claimId) (.error .claimNotFound)
  s.checkBallot voter claimId claim
  let s₁ := s.setVote claimId voter vote
  let voteWeight ← s₁.votingPowerFor claimId voter (defaultWeight s₁)
  let claim₁ := claim.tally vote voteWeight
  let cast ← add32 claim₁.approveVotes claim₁.rejectVotes
  match resolvePluralityIfQuorumMet claim₁.approveVotes claim₁.rejectVotes cast
      claim₁.eligibleVoterCount (s₁.effectiveQuorumBps claimId) with
  -- an open claim keeps its status, and nothing but the tally is written
  | none => pure (claim.status, s₁.setClaim claim₁)
  | some outcome => do
    let claim₂ ← claim₁.decide outcome s.sequence false
    let s₂ ← closeRound s₁ claimId claim.status claim₂
    pure (outcome, s₂)

/-- `vote_on_claim`, with governance-token weighting off: every ballot weighs one unless
its snapshot entry says otherwise. -/
def voteOnClaim (voter : Address) (claimId : Nat) (vote : VoteOption) :
    Result (ClaimStatus × State) :=
  voteOnClaimWith s (fun _ => 1) voter claimId vote

theorem voteOnClaim_eq (voter : Address) (claimId : Nat) (vote : VoteOption) :
    voteOnClaim s voter claimId vote = voteOnClaimWith s (fun _ => 1) voter claimId vote := rfl

/-- `finalize_claim_inner`. -/
def finalizeClaimInner (claimId : Nat) : Result (ClaimStatus × State) := do
  let claim ← okOr (s.getClaim claimId) (.error .claimNotFound)
  ensure (claim.status.isTerminal = false) (.error .claimAlreadyTerminal)
  ensure (isClaimPastVotingDeadline s.sequence claim.votingDeadlineLedger = true)
    (.error .votingWindowStillOpen)
  let cast ← add32 claim.approveVotes claim.rejectVotes
  let outcome :=
    if participationQuorumMet cast claim.eligibleVoterCount (s.effectiveQuorumBps claimId) = true ∧
        claim.rejectVotes < claim.approveVotes then ClaimStatus.approved
    else .rejected
  let claim₁ ← claim.decide outcome s.sequence true
  let s₁ ← closeRound s claimId claim.status claim₁
  pure (outcome, s₁)

/-- `finalize_claim`. -/
def finalizeClaim (claimId : Nat) : Result (ClaimStatus × State) := do
  s.assertClaimsNotPaused
  finalizeClaimInner s claimId

/-- `process_deadline`. -/
def processDeadline (claimId : Nat) : Result (ClaimStatus × State) := do
  ensure (s.getPauseFlags.claimsPaused = false) (.error .calculatorPaused)
  let claim ← okOr (s.getClaim claimId) (.error .claimNotFound)
  ensure (claim.status.isTerminal = false) (.error .claimAlreadyTerminal)
  ensure (claim.status = .processing) (.error .claimNotProcessing)
  finalizeClaimInner s claimId

/-- Whether the batch keeper finalizes the claim or skips it. -/
def State.isBatchEligible (claimId : Nat) : Bool :=
  match s.getClaim claimId with
  | none => false
  | some claim =>
    claim.status == .processing && isClaimPastVotingDeadline s.sequence claim.votingDeadlineLedger

def BATCH_FINALIZE_MAX : Nat := 20

/-- The loop of `finalize_expired_batch`. -/
def finalizeBatchLoop : List Nat → State → Nat → Nat → Result (Nat × Nat × State)
  | [], s, processed, skipped => .ok (processed, skipped, s)
  | claimId :: rest, s, processed, skipped =>
    if s.isBatchEligible claimId then do
      let (_, s₁) ← finalizeClaimInner s claimId
      finalizeBatchLoop rest s₁ (processed + 1) skipped
    else finalizeBatchLoop rest s processed (skipped + 1)

/-- `finalize_expired_batch`. -/
def finalizeExpiredBatch (claimIds : List Nat) : Result (Nat × Nat × State) := do
  ensure (s.getPauseFlags.claimsPaused = false) (.error .calculatorPaused)
  ensure (claimIds.length ≤ BATCH_FINALIZE_MAX) (.error .policyBatchTooLarge)
  let (processed, skipped, s₁) ← finalizeBatchLoop claimIds s 0 0
  pure (processed, skipped, s₁.emit (.batchFinalized processed skipped s.sequence))

/-- `escalate_claim`. -/
def escalateClaim (claimId newDeadlineLedger : Nat) : Result State := do
  let claim ← okOr (s.getClaim claimId) (.error .claimNotFound)
  ensure (claim.status = .processing) (.error .claimNotProcessing)
  ensure (s.sequence < newDeadlineLedger) (.error .escalationDeadlineNotFuture)
  ensure (newDeadlineLedger < claim.votingDeadlineLedger) (.error .escalationDeadlineNotEarlier)
  let s₁ := s.setClaim { claim with votingDeadlineLedger := newDeadlineLedger }
  pure (s₁.emit (.claimEscalated claimId claim.votingDeadlineLedger newDeadlineLedger s.sequence))

/-- `refresh_snapshot`, which only extends a time to live. -/
def refreshSnapshot (claimId : Nat) : Result State := do
  let _ ← okOr (s.getClaim claimId) (.error .claimNotFound)
  ensure (s.hasClaimVoters claimId = true) (.error .voterSnapshotExpired)
  pure s

/-- `set_claim_fraud_score`. -/
def setClaimFraudScore (caller : Address) (claimId score : Nat) : Result State := do
  ensure (score ≤ 100) (.error .safetyScoreOutOfRange)
  let _ ← okOr (s.getClaim claimId) (.error .claimNotFound)
  let admin ← okOr (s.get .admin) .trap
  if caller ≠ admin then do
    let delegation ← okOr (s.get (.delegation caller)) (.error .delegationInvalid)
    ensure (s.sequence ≤ delegation.expiryLedger) (.error .delegationInvalid)
    ensure (delegation.permissions.canSetFraudScore = true) (.error .delegationPermissionDenied)
  else pure ()
  pure ((s.set (.claimFraudScore claimId) score).emit
    (.claimFraudScoreSet claimId score caller s.sequence))

end Voting

/-! ## Payouts -/

section Payouts

variable (env : Env) (s : State)

/-- The asset a policy's claims are paid in. -/
def State.effectiveAsset (policy : Policy) : Address :=
  ((s.get (.policyTypeConfig policy.policyType)).bind (·.payoutAssetOverride)).getD policy.asset

/-- Where a policy's claims are paid to. -/
def Policy.payoutTo (policy : Policy) : Address := policy.beneficiary.getD policy.holder

/-- `reinsurance_available`. -/
def State.reinsuranceAvailable (asset reinsurance : Address) : Int :=
  min (s.balance asset reinsurance) (s.allowance asset reinsurance env.contract)

/-- Pay `amount` of the contract's own cash for a claim. -/
def State.payFromTreasury (claimId : Nat) (asset recipient : Address) (amount : Int) :
    Result State := do
  let s₁ ← s.tokenTransfer env asset env.contract recipient amount
  pure (s₁.logPayout ⟨claimId, asset, env.contract, recipient, amount⟩)

/-- Draw `amount` from the reinsurance pool for a claim. -/
def State.payFromReinsurance (claimId : Nat) (asset reinsurance recipient : Address)
    (amount : Int) : Result State := do
  let s₁ ← s.tokenTransferFrom env asset reinsurance recipient amount
  pure (s₁.logPayout ⟨claimId, asset, reinsurance, recipient, amount⟩)

/-- The part of `payout` after the book: pay from the treasury, or from the treasury and
the reinsurance pool, or mark the claim `PayoutFailed` when neither can. -/
def settlePayout (claim : Claim) (asset recipient : Address) (net : Int) :
    Result (Claim × State) := do
  let processed := Event.claimProcessed claim.claimId recipient claim.amount claim.deductible net
  let primaryBalance := s.balance asset env.contract
  if net ≤ primaryBalance then do
    let s₁ ← s.payFromTreasury env claim.claimId asset recipient net
    pure (claim, s₁.emit processed)
  else do
    let reinsurance ← okOr (s.get .reinsuranceContract) (.error .noReinsuranceConfigured)
    let primaryAmount := max primaryBalance 0
    let reinsuranceAmount ← okOr (checkedSub128 net primaryAmount) (.error .overflow)
    let s₁ := s.emit (.reinsuranceTriggered claim.claimId reinsuranceAmount reinsurance)
    if s₁.reinsuranceAvailable env asset reinsurance < reinsuranceAmount then
      let failed := claim.moveTo .payoutFailed s.sequence
      pure (failed, (s₁.setClaim failed).emit
        (.reinsuranceDrawdownFailed claim.claimId 0 reinsuranceAmount reinsurance))
    else do
      let s₂ ←
        if 0 < primaryAmount then s₁.payFromTreasury env claim.claimId asset recipient primaryAmount
        else pure s₁
      let s₃ ← s₂.payFromReinsurance env claim.claimId asset reinsurance recipient reinsuranceAmount
      let s₄ := s₃.emit
        (.reinsuranceDrawdown claim.claimId primaryAmount reinsuranceAmount reinsurance)
      pure (claim, s₄.emit processed)

/-- `payout`. -/
def payout (claim : Claim) : Result (Claim × State) := do
  let policy ← okOr (s.getPolicy claim.claimant claim.policyId) (.error .policyNotFound)
  let asset := s.effectiveAsset policy
  ensure (asset = policy.asset ∨ s.isAllowedAsset asset = true) (.error .invalidAsset)
  let net ← okOr (checkedSub128 claim.amount claim.deductible) (.error .overflow)
  ensure (0 < net) (.error .claimAmountZero)
  let recipient := policy.payoutTo
  ensure (env.executable recipient = false ∨ s.isAllowedPayoutRecipient recipient = true)
    (.error .payoutRecipientContractNotAllowlisted)
  let s₁ := if env.executable recipient = true then
    s.emit (.payoutRecipientWarning claim.claimId recipient asset s.sequence) else s
  let s₂ := if asset ≠ policy.asset then
    s₁.emit (.payoutAssetOverrideApplied claim.claimId policy.policyType policy.asset asset) else s₁
  let s₃ ← s₂.recordPayoutOut asset net net
  settlePayout env s₃ claim asset recipient net

/-- `process_claim`.  The second `payout(env, &claim)` is read as a call on the same claim
value. -/
def processClaim (claimId : Nat) : Result State := do
  let claim ← okOr (s.getClaim claimId) (.error .claimNotFound)
  ensure (claim.status ≠ .paid) (.error .alreadyPaid)
  ensure (claim.status = .approved ∨ claim.status = .appealApproved) (.error .claimNotApproved)
  let now := s.sequence
  ensure (claim.disputeDeadlineLedger < now) (.error .disputeWindowActive)
  let claim₁ := claim.moveTo .paid now
  let s₁ := s.setOpenClaim claim.claimant claim.policyId false
  let s₂ := (s₁.remove (.claimRateLimitPrev claimId)).setClaim claim₁
  let s₃ := s₂.recordClaimPaid claim.claimant claim.policyId claim.amount now
  let (claim₂, s₄) ← payout env s₃ claim₁
  if claim₂.status = .payoutFailed then pure s₄
  else do
    let s₅ := s₄.recordClaimPaid claim.claimant claim.policyId claim.amount now
    let (_, s₆) ← payout env s₅ claim₂
    pure (s₆.emit (.claimStatusChanged claimId claim.status .paid now))

/-- `process_payout_timeout`. -/
def processPayoutTimeout (claimId : Nat) : Result (ClaimStatus × State) := do
  let claim ← okOr (s.getClaim claimId) (.error .claimNotFound)
  ensure (claim.status = .approved) (.error .claimNotApproved)
  ensure (claim.payoutDeadlineLedger < s.sequence) (.error .payoutDeadlineNotReached)
  let s₁ := s.setOpenClaim claim.claimant claim.policyId false
  let s₂ := s₁.remove (.claimRateLimitPrev claimId)
  let s₃ := s₂.setClaim (claim.moveTo .payoutTimeout s.sequence)
  pure (.payoutTimeout,
    s₃.emit (.payoutTimedOut claimId claim.payoutDeadlineLedger s.sequence))

/-- `dispute_claim`. -/
def disputeClaim (claimId : Nat) : Result State := do
  let claim ← okOr (s.getClaim claimId) (.error .claimNotFound)
  ensure (claim.status = .approved) (.error .claimNotApproved)
  ensure (s.sequence ≤ claim.disputeDeadlineLedger) (.error .payoutDeadlineNotReached)
  let s₁ := s.setClaim (claim.moveTo .disputed s.sequence)
  pure (s₁.emit (.claimDisputed claimId s.sequence))

/-- The end of a claim paid in full by installments. -/
def State.markFullyPaid (claimId : Nat) (claim : Claim) (recipient : Address) (net : Int) :
    Claim × State :=
  let now := s.sequence
  let claim₁ := claim.moveTo .paid now
  let s₁ := s.setOpenClaim claim.claimant claim.policyId false
  let s₂ := s₁.remove (.claimRateLimitPrev claimId)
  let s₃ := s₂.emit (.claimStatusChanged claimId claim.status .paid now)
  let s₄ := s₃.emit
    (.claimFullyPaid claimId recipient claim.paidAmount claim.installmentCount now)
  (claim₁, s₄.recordClaimPaid claim.claimant claim.policyId net now)

/-- `disburse_installment`. -/
def disburseInstallment (claimId : Nat) (amount : Int) : Result State := do
  ensure (0 < amount) (.error .claimAmountZero)
  let claim ← okOr (s.getClaim claimId) (.error .claimNotFound)
  ensure (claim.status ≠ .paid) (.error .alreadyPaid)
  ensure (claim.status = .approved) (.error .claimNotApproved)
  ensure (claim.disputeDeadlineLedger < s.sequence) (.error .disputeWindowActive)
  let net ← okOr (checkedSub128 claim.amount claim.deductible) (.error .overflow)
  ensure (0 < net) (.error .claimAmountZero)
  let remaining ← okOr (checkedSub128 net claim.paidAmount) (.error .overflow)
  ensure (amount ≤ remaining) (.error .overDisbursement)
  let policy ← okOr (s.getPolicy claim.claimant claim.policyId) (.error .policyNotFound)
  let asset := s.effectiveAsset policy
  ensure (asset = policy.asset ∨ s.isAllowedAsset asset = true) (.error .invalidAsset)
  let recipient := policy.payoutTo
  let s₁ ← s.recordPayoutOut asset amount 0
  let s₂ ← s₁.payFromTreasury env claimId asset recipient amount
  let paidAmount ← okOr (checkedAdd128 claim.paidAmount amount) (.error .overflow)
  let installmentCount ← add32 claim.installmentCount 1
  let claim₁ := { claim with paidAmount, installmentCount }
  let s₃ := s₂.emit (.installmentDisbursed claimId recipient amount paidAmount net installmentCount
    asset s.sequence)
  let (claim₂, s₄) :=
    if net ≤ paidAmount then s₃.markFullyPaid claimId claim₁ recipient net else (claim₁, s₃)
  pure (s₄.setClaim claim₂)

end Payouts

/-! ## The appeal round -/

section Appeals

variable (s : State)

/-- `open_appeal`. -/
def openAppeal (claimant : Address) (claimId : Nat) : Result State := do
  let now := s.sequence
  let appealDeadline ← okOr (checkedAdd32 now APPEAL_VOTE_WINDOW_LEDGERS) (.error .overflow)
  s.assertClaimsNotPaused
  let claim ← okOr (s.getClaim claimId) (.error .claimNotFound)
  ensure (claimant = claim.claimant) (.error .notEligibleVoter)
  ensure (claim.status = .rejected) (.error .claimAlreadyTerminal)
  ensure (now ≤ claim.appealOpenDeadlineLedger) (.error .appealWindowClosed)
  ensure (claim.appealsCount < s.getMaxAppealsPerClaim) (.error .appealAlreadyUsed)
  let appealQuorumBps := max s.getElevatedQuorumBps APPEAL_ELEVATED_QUORUM_BPS
  let claim₁ := { claim.moveTo .underAppeal now with
    appealApproveVotes := 0
    appealRejectVotes := 0
    appealDeadlineLedger := appealDeadline
    appealsCount := saturatingAdd32 claim.appealsCount 1 }
  let s₁ := s.set (.appealClaimQuorumBps claimId) appealQuorumBps
  let s₂ := s₁.snapshotAppealVoters claimId
  let s₃ := (s₂.setOpenClaim claim.claimant claim.policyId true).setClaim claim₁
  let s₄ := s₃.emit (.claimStatusChanged claimId claim.status .underAppeal now)
  pure (s₄.emit (.appealOpened claimId claim.policyId claimant appealDeadline appealQuorumBps now))

/-- `finalize_appeal_outcome`. -/
def finalizeAppealOutcome (claim : Claim) (outcome : ClaimStatus) : Result (Claim × State) := do
  let now := s.sequence
  let firstApproval := outcome = .appealApproved ∧ claim.payoutDeadlineLedger = 0
  let payoutDeadlineLedger ←
    if firstApproval then okOr (checkedAdd32 now PAYOUT_TIMEOUT_LEDGERS) (.error .overflow)
    else pure claim.payoutDeadlineLedger
  let disputeDeadlineLedger ←
    if firstApproval then okOr (checkedAdd32 now DEFAULT_DISPUTE_WINDOW_LEDGERS) (.error .overflow)
    else pure claim.disputeDeadlineLedger
  let claim₁ := { claim.moveTo outcome now with payoutDeadlineLedger, disputeDeadlineLedger }
  let s₁ := s.setOpenClaim claim.claimant claim.policyId false
  let s₂ := s₁.emit (.claimStatusChanged claim.claimId claim.status outcome now)
  pure (claim₁, s₂.emit (.appealResolved claim.claimId claim.policyId claim.claimant outcome
    claim.appealApproveVotes claim.appealRejectVotes now))

/-- Add a ballot to the tallies of the appeal round. -/
def Claim.tallyAppeal (claim : Claim) (vote : VoteOption) (weight : Nat) : Claim :=
  match vote with
  | .approve => { claim with appealApproveVotes := saturatingAdd32 claim.appealApproveVotes weight }
  | .reject => { claim with appealRejectVotes := saturatingAdd32 claim.appealRejectVotes weight }

/-- `vote_on_appeal`, where a ballot weighs `weight`. -/
def voteOnAppealWith (weight : State → Nat) (voter : Address) (claimId : Nat) (vote : VoteOption) :
    Result (ClaimStatus × State) := do
  s.assertClaimsNotPaused
  let claim ← okOr (s.getClaim claimId) (.error .claimNotFound)
  ensure (claim.status = .underAppeal) (.error .claimAlreadyTerminal)
  let now := s.sequence
  ensure (isClaimVotingOpen now claim.appealDeadlineLedger = true) (.error .votingWindowClosed)
  ensure (s.hasAppealVoters claimId = true) (.error .voterSnapshotExpired)
  let snapshot := s.getAppealVoters claimId
  ensure (voter ∈ snapshot) (.error .notEligibleVoter)
  let resolvedTarget ← s.resolveVoteDelegationTarget voter now
  ensure (resolvedTarget = voter) (.error .voteDelegated)
  ensure (s.getAppealVote claimId voter = none) (.error .duplicateVote)
  let s₁ := s.set (.appealVote claimId voter) vote
  let claim₁ := claim.tallyAppeal vote (weight s₁)
  let s₂ := s₁.emit (.appealVoteCast claimId voter vote now)
  let cast ← add32 claim₁.appealApproveVotes claim₁.appealRejectVotes
  let (claim₂, s₃) ←
    match resolvePluralityIfQuorumMet claim₁.appealApproveVotes claim₁.appealRejectVotes cast
        snapshot.length (s₂.getAppealClaimQuorumBps claimId) with
    | some raw =>
      finalizeAppealOutcome s₂ claim₁ (if raw = .approved then .appealApproved else .appealRejected)
    | none => pure (claim₁, s₂)
  pure (claim₂.status, s₃.setClaim claim₂)

/-- `vote_on_appeal`, with governance-token weighting off. -/
def voteOnAppeal (voter : Address) (claimId : Nat) (vote : VoteOption) :
    Result (ClaimStatus × State) :=
  voteOnAppealWith s (fun _ => 1) voter claimId vote

theorem voteOnAppeal_eq (voter : Address) (claimId : Nat) (vote : VoteOption) :
    voteOnAppeal s voter claimId vote = voteOnAppealWith s (fun _ => 1) voter claimId vote := rfl

/-- `finalize_appeal`. -/
def finalizeAppeal (claimId : Nat) : Result (ClaimStatus × State) := do
  s.assertClaimsNotPaused
  let claim ← okOr (s.getClaim claimId) (.error .claimNotFound)
  ensure (claim.status = .underAppeal) (.error .claimAlreadyTerminal)
  ensure (isClaimVotingOpen s.sequence claim.appealDeadlineLedger = false)
    (.error .votingWindowStillOpen)
  let eligible := if s.hasAppealVoters claimId then (s.getAppealVoters claimId).length
    else claim.eligibleVoterCount
  let cast ← add32 claim.appealApproveVotes claim.appealRejectVotes
  let outcome :=
    if participationQuorumMet cast eligible (s.getAppealClaimQuorumBps claimId) = true ∧
        claim.appealRejectVotes < claim.appealApproveVotes then ClaimStatus.appealApproved
    else .appealRejected
  let (claim₁, s₁) ← finalizeAppealOutcome s claim outcome
  pure (claim₁.status, s₁.setClaim claim₁)

end Appeals

end NiffyInsure
