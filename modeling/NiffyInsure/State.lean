import NiffyInsure.Lib.Store
import NiffyInsure.Arith

/-!
# Contract state

The state is what the host keeps between calls: the contract's storage, the
balances and allowances of the SEP-41 tokens, the current ledger sequence and the
published events.

Storage is one typed keyed store, `AList DataKey.Val`, with the keys of
`storage::DataKey`; which of the three Soroban durabilities a key lives in makes no
difference here (an archived entry is restored, not lost).  Every read and write
goes through `State.get`, `State.set` and `State.remove`, so that the frame of a
function is the set of keys it writes (`get_set_of_ne`).

`payouts` is a ghost log: one entry for each token transfer made by the payout code,
naming the claim it was made for.  Nothing reads it.
-/

namespace NiffyInsure

open KeyedStore

/-! ## Storage keys -/

/-- The two-step admin actions of `admin.rs`. -/
inductive AdminAction where
  | treasuryRotation (newTreasury : Address)
  | tokenSweep (asset recipient : Address) (amount : Int) (reasonCode : Nat)
  deriving DecidableEq

structure PendingAdminAction where
  proposer : Address
  action : AdminAction
  expiryLedger : Nat
  deriving DecidableEq

/-- `storage::DataKey`, without the keys that no modelled function touches. -/
inductive DataKey where
  | admin
  | pendingAdmin
  | pendingAdminExpiry
  | token
  | initLedger
  | treasury
  | protocolFeeBps
  | feeRecipient
  | minSolvencyRatioBps
  | premiumTable
  | calcAddress
  | expectedCalcVersion
  | lastCalcAbiVersion
  | allowedAsset (asset : Address)
  | voterBucket (index : Nat)
  | voterBucketCount
  | voterMember (holder : Address)
  | voterRegistryLen
  | claimCounter
  | paused
  | pauseReason
  | pendingAdminAction
  | sweepCap
  | sweepNoticePeriodLedgers
  | adminActionWindowLedgers
  | activePolicyCount (holder : Address)
  | rollingClaimCap
  | rollingClaimWindowLedgers
  | maxEvidenceCount
  | minEvidenceCount
  | maxWeightCap
  | lastClaimResolvedLedger (holder : Address) (policyId : Nat)
  | cooldownLedgers
  | policyExpiredEventEndLedger (holder : Address) (policyId : Nat)
  | gatewayAllowlist
  | policy (holder : Address) (policyId : Nat)
  | policyCounter (holder : Address)
  | claim (claimId : Nat)
  | openClaim (holder : Address) (policyId : Nat)
  | vote (claimId : Nat) (voter : Address)
  | voteDelegations
  | claimVoters (claimId : Nat)
  | lastClaimLedger (holder : Address)
  | appealVote (claimId : Nat) (voter : Address)
  | voteDurLedgers
  | quorumBps
  | gracePeriodLedgers
  | maxAppealsPerClaim
  | claimQuorumBps (claimId : Nat)
  | claimRateLimitPrev (claimId : Nat)
  | claimFilingFeePaid (claimId : Nat)
  | claimVoterPowerOverride (claimId : Nat) (voter : Address)
  | holderNonce (holder : Address)
  | rollingClaimState (holder : Address) (policyId : Nat)
  | commitRevealPhases (claimId : Nat)
  | voteCommitment (claimId : Nat) (voter : Address)
  | policyTypeConfig (policyType : PolicyType)
  | policyTypeActive (policyType : PolicyType)
  | policyTypeRegistryEnabled
  | assetPremiumTable (asset : Address)
  | whitelistEnabled
  | whitelisted (holder : Address)
  | claimFilingFee
  | appealVoters (claimId : Nat)
  | appealClaimQuorumBps (claimId : Nat)
  | claimFraudScore (claimId : Nat)
  | fraudScoreThreshold
  | elevatedQuorumBps
  | allowedAssetConfig (asset : Address)
  | delegation (operator : Address)
  | reinsuranceContract
  | authorizedDepositor (depositor : Address)
  | allowedPayoutRecipient (recipient : Address)
  | regionRegistry
  | policyByStatusIndex (status : PolicyStatus)
  | governanceCooldownLedgers
  | lastParamChangeLedger
  | maxSweepPerLedger
  | lastSweepLedger
  | cumulativeSweptThisLedger
  | pauseAdmin
  | treasuryAdmin
  | paramAdmin
  | minCoverageAmount
  | maxVotersPerClaim
  | assetDecimals (asset : Address)
  | assetLedger (asset : Address)
  | voters
  | proposalCounter
  | proposal (proposalId : Nat)
  | proposalVote (proposalId : Nat) (voter : Address)
  | lastProposalLedger (proposer : Address)
  | proposerCooldownLedgers
  deriving DecidableEq

/-- The type of the entry stored at a key. -/
@[reducible] def DataKey.Val : DataKey → Type
  | .admin | .pendingAdmin | .token | .treasury | .feeRecipient | .calcAddress
  | .reinsuranceContract | .pauseAdmin | .treasuryAdmin | .paramAdmin => Address
  | .allowedAsset _ | .voterMember _ | .openClaim _ _ | .policyTypeActive _
  | .policyTypeRegistryEnabled | .whitelistEnabled | .whitelisted _ | .authorizedDepositor _
  | .allowedPayoutRecipient _ | .proposalVote _ _ => Bool
  | .sweepCap | .rollingClaimCap | .maxWeightCap | .claimFilingFeePaid _
  | .claimVoterPowerOverride _ _ | .claimFilingFee | .maxSweepPerLedger
  | .cumulativeSweptThisLedger | .minCoverageAmount => Int
  | .premiumTable | .assetPremiumTable _ => MultiplierTable
  | .voters | .voterBucket _ | .claimVoters _ | .appealVoters _ => List Address
  | .paused => PauseFlags
  | .pauseReason => PauseReason
  | .pendingAdminAction => PendingAdminAction
  | .gatewayAllowlist => List Str
  | .policy _ _ => Policy
  | .claim _ => Claim
  | .vote _ _ | .appealVote _ _ => VoteOption
  | .voteDelegations => AList fun _ : Address => VoteDelegation
  | .rollingClaimState _ _ => RollingClaimWindowState
  | .commitRevealPhases _ => CommitRevealPhases
  | .voteCommitment _ _ => Bytes32
  | .policyTypeConfig _ => PolicyTypeConfig
  | .allowedAssetConfig _ => AllowedAssetConfig
  | .delegation _ => DelegationRecord
  | .regionRegistry => AList fun _ : Str => RegionConfig
  | .policyByStatusIndex _ => List PolicyLookupKey
  | .assetLedger _ => AssetLedger
  | .proposal _ => Proposal
  | .pendingAdminExpiry | .initLedger | .protocolFeeBps | .minSolvencyRatioBps
  | .expectedCalcVersion | .lastCalcAbiVersion | .voterBucketCount | .voterRegistryLen
  | .claimCounter | .sweepNoticePeriodLedgers | .adminActionWindowLedgers | .activePolicyCount _
  | .rollingClaimWindowLedgers | .maxEvidenceCount | .minEvidenceCount
  | .lastClaimResolvedLedger _ _ | .cooldownLedgers | .policyExpiredEventEndLedger _ _
  | .policyCounter _ | .lastClaimLedger _ | .voteDurLedgers | .quorumBps | .gracePeriodLedgers
  | .maxAppealsPerClaim | .claimQuorumBps _ | .claimRateLimitPrev _ | .holderNonce _
  | .appealClaimQuorumBps _ | .claimFraudScore _ | .fraudScoreThreshold | .elevatedQuorumBps
  | .governanceCooldownLedgers | .lastParamChangeLedger | .lastSweepLedger | .maxVotersPerClaim
  | .assetDecimals _ | .proposalCounter | .lastProposalLedger _ | .proposerCooldownLedgers => Nat

/-! ## Events -/

/-- The events of the claim, policy, voting and treasury entrypoints.  The schema
version that each carries is a constant and left out. -/
inductive Event where
  | claimFeeCollected (claimId : Nat) (feeAmount : Int) (payer : Address) (atLedger : Nat)
  | claimFiled (claimId : Nat) (holder : Address) (policyId : Nat) (claimAmount deductible : Int)
      (evidenceHashes : List Bytes32)
  | claimStatusChanged (claimId : Nat) (oldStatus newStatus : ClaimStatus) (atLedger : Nat)
  | claimFeeRefunded (claimId : Nat) (feeAmount : Int) (recipient : Address) (atLedger : Nat)
  | claimWithdrawn (claimId policyId : Nat) (claimant : Address) (atLedger : Nat)
  | claimEvidenceUpdated (claimId policyId : Nat) (evidenceHashes : List Bytes32) (atLedger : Nat)
  | claimRejected (claimId policyId : Nat) (claimant : Address) (rejectVotes approveVotes : Nat)
      (atLedger : Nat)
  | strikeIncremented (holder : Address) (policyId claimId strikeCount : Nat)
  | policyDeactivated (holder : Address) (policyId reasonCode atLedger : Nat)
  | batchFinalized (processed skipped atLedger : Nat)
  | payoutTimedOut (claimId deadlineLedger atLedger : Nat)
  | claimDisputed (claimId atLedger : Nat)
  | claimEscalated (claimId oldDeadlineLedger newDeadlineLedger atLedger : Nat)
  | claimFraudScoreSet (claimId score : Nat) (setBy : Address) (atLedger : Nat)
  | payoutRecipientWarning (claimId : Nat) (recipient asset : Address) (atLedger : Nat)
  | payoutAssetOverrideApplied (claimId : Nat) (policyType : PolicyType)
      (premiumAsset payoutAsset : Address)
  | reinsuranceTriggered (claimId : Nat) (shortfallAmount : Int) (reinsuranceContract : Address)
  | reinsuranceDrawdownFailed (claimId : Nat) (primaryAmount shortfallAmount : Int)
      (reinsuranceContract : Address)
  | reinsuranceDrawdown (claimId : Nat) (primaryAmount reinsuranceAmount : Int)
      (reinsuranceContract : Address)
  | claimProcessed (claimId : Nat) (recipient : Address) (grossAmount deductible amount : Int)
  | installmentDisbursed (claimId : Nat) (recipient : Address) (amount paidAmount totalAmount : Int)
      (installmentCount : Nat) (asset : Address) (atLedger : Nat)
  | claimFullyPaid (claimId : Nat) (recipient : Address) (totalPaid : Int)
      (installmentCount atLedger : Nat)
  | appealOpened (claimId policyId : Nat) (claimant : Address)
      (appealDeadlineLedger quorumBps atLedger : Nat)
  | appealVoteCast (claimId : Nat) (voter : Address) (vote : VoteOption) (atLedger : Nat)
  | appealResolved (claimId policyId : Nat) (claimant : Address) (outcome : ClaimStatus)
      (approveVotes rejectVotes atLedger : Nat)
  | voteCommitted (claimId : Nat) (voter : Address) (atLedger : Nat)
  | voteRevealed (claimId : Nat) (voter : Address) (vote : VoteOption)
      (approveVotes rejectVotes atLedger : Nat)
  | protocolFeeCollected (policyId : Nat) (feeAmount : Int) (recipient : Address)
  | policyInitiated (policyId : Nat) (holder : Address) (premium : Int) (asset : Address)
      (policyType : PolicyType) (region : RegionTier) (coverage : Int) (deductible : Option Int)
      (startLedger endLedger : Nat) (termsHash : Bytes32)
  | beneficiaryUpdated (holder : Address) (policyId : Nat)
      (oldBeneficiary newBeneficiary : Option Address)
  | policyMetadataUpdated (holder : Address) (policyId : Nat) (oldUri newUri : Str)
  | policyExpired (holder : Address) (policyId expiryLedger reportedAtLedger : Nat)
  | policyRenewed (holder : Address) (policyId : Nat) (premium : Int) (newEndLedger : Nat)
      (oldCoverageType newCoverageType : CoverageTier) (oldCoverage newCoverage : Int)
  | policyTransferred (policyId : Nat) (oldHolder newHolder : Address) (atLedger : Nat)
  | policyTerminated (holder : Address) (policyId reasonCode terminatedByAdmin openClaimBypass
      openClaims atLedger : Nat) (refundAmount : Int)
  | calculatorFallback (calculator : Address)
  | multiplierTableUpdated (version : Nat)
  | premiumMultiplierUpdated (key : MultiplierKey) (oldValue newValue : Int)
  | assetPremiumTableSet (asset : Address) (tableVersion : Nat) (cleared : Bool)
  | voterAdded (voter addedBy : Address)
  | treasuryDeposited (depositor asset : Address) (amount : Int) (atLedger : Nat)
  | treasurySwept (asset recipient : Address) (amount : Int) (atLedger : Nat)
  | treasuryDrained (admin recipient : Address) (amount : Int)
  | emergencySweepExecuted (admin asset recipient : Address) (amount : Int)
      (reasonCode atLedger : Nat)
  | treasuryUpdated (oldTreasury newTreasury : Address)
  | adminActionProposed (proposer : Address) (actionId expiryLedger : Nat) (action : AdminAction)
  | adminActionConfirmed (proposer confirmer : Address) (action : AdminAction)
  | adminActionExpired (proposer : Address) (actionId expiryLedger : Nat) (action : AdminAction)
  | proposalCreated (proposalId : Nat) (creator : Address) (paramKey : Str)
      (proposedValue deadline atLedger : Nat)
  | proposalVoteCast (proposalId : Nat) (voter : Address) (approve : Bool)
      (approveVotes rejectVotes atLedger : Nat)
  | proposalResolved (proposalId : Nat) (paramKey : Str) (proposedValue : Nat) (applied : Bool)
      (atLedger : Nat)
  | proposalExpired (proposalId : Nat) (paramKey : Str) (proposedValue deadline atLedger : Nat)
  deriving DecidableEq

/-- The event that closes the vote on a proposal. -/
@[reducible] def Event.isProposalResolved : Event → Bool
  | .proposalResolved .. => true
  | _ => false

/-- One token transfer of the payout code: `amount` of `asset` moved from `source` to
`recipient` for the claim `claimId`. -/
structure Payout where
  claimId : Nat
  asset : Address
  source : Address
  recipient : Address
  amount : Int
  deriving DecidableEq

/-! ## The state -/

structure State where
  storage : AList DataKey.Val
  balance : Address → Address → Int
  allowance : Address → Address → Address → Int
  sequence : Nat
  events : List Event
  payouts : List Payout

namespace State

def get (s : State) (k : DataKey) : Option k.Val := s.storage.lookup k

def set (s : State) (k : DataKey) (v : k.Val) : State :=
  { s with storage := s.storage.insert k v }

def remove (s : State) (k : DataKey) : State := { s with storage := s.storage.erase k }

/-- Publish an event. -/
def emit (s : State) (e : Event) : State := { s with events := s.events ++ [e] }

/-- The published resolutions of governance proposals, in order. -/
def resolutions (s : State) : List Event := s.events.filter Event.isProposalResolved

variable (s : State) {k k' : DataKey}

@[simp] theorem get_set_self (v : k.Val) : (s.set k v).get k = some v := by
  simp [get, set]

@[simp] theorem get_set_of_ne (v : k.Val) (h : k' ≠ k) : (s.set k v).get k' = s.get k' := by
  simp [get, set, AList.lookup_insert_ne h]

@[simp] theorem get_remove_self : (s.remove k).get k = none := by
  simp [get, remove]

@[simp] theorem get_remove_of_ne (h : k' ≠ k) : (s.remove k).get k' = s.get k' := by
  simp [get, remove, AList.lookup_erase_ne h]

@[simp] theorem get_emit (e : Event) : (s.emit e).get k = s.get k := rfl

@[simp] theorem balance_set (v : k.Val) : (s.set k v).balance = s.balance := rfl
@[simp] theorem balance_remove : (s.remove k).balance = s.balance := rfl
@[simp] theorem balance_emit (e : Event) : (s.emit e).balance = s.balance := rfl
@[simp] theorem allowance_set (v : k.Val) : (s.set k v).allowance = s.allowance := rfl
@[simp] theorem allowance_remove : (s.remove k).allowance = s.allowance := rfl
@[simp] theorem allowance_emit (e : Event) : (s.emit e).allowance = s.allowance := rfl
@[simp] theorem sequence_set (v : k.Val) : (s.set k v).sequence = s.sequence := rfl
@[simp] theorem sequence_remove : (s.remove k).sequence = s.sequence := rfl
@[simp] theorem sequence_emit (e : Event) : (s.emit e).sequence = s.sequence := rfl
@[simp] theorem payouts_set (v : k.Val) : (s.set k v).payouts = s.payouts := rfl
@[simp] theorem payouts_remove : (s.remove k).payouts = s.payouts := rfl
@[simp] theorem payouts_emit (e : Event) : (s.emit e).payouts = s.payouts := rfl
@[simp] theorem storage_emit (e : Event) : (s.emit e).storage = s.storage := rfl
@[simp] theorem resolutions_set (v : k.Val) : (s.set k v).resolutions = s.resolutions := rfl
@[simp] theorem resolutions_remove : (s.remove k).resolutions = s.resolutions := rfl

theorem resolutions_emit (e : Event) :
    (s.emit e).resolutions = s.resolutions ++ [e].filter Event.isProposalResolved := by
  simp [resolutions, emit]

@[simp] theorem resolutions_emit_other {e : Event} (he : e.isProposalResolved = false) :
    (s.emit e).resolutions = s.resolutions := by
  rw [resolutions_emit, List.filter_cons_of_neg (by rw [he]; exact Bool.false_ne_true),
    List.filter_nil, List.append_nil]

end State

end NiffyInsure
