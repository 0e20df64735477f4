import NiffyInsure.Lib.Machine
import NiffyInsure.CommitReveal
import NiffyInsure.Policy
import NiffyInsure.Governance

/-!
# The contract

The public entrypoints of `lib.rs` as one type of calls, with the authorisation that each
demands, and the machine whose runs are the histories of a deployed contract.

A step of the machine is a successful call, the closing of a ledger, or something that
happens in the token contracts without this contract: balances and allowances may become
anything there, except that the contract's own balance does not go down, since it never
authorises a transfer or an allowance outside its calls.  A failing call changes nothing
and is no step.
-/

namespace NiffyInsure

/-! ## Calls -/

/-- Claims, voting and payouts. -/
inductive ClaimCall where
  | fileClaim (holder : Address) (policyId : Nat) (amount : Int) (details : Str)
      (evidence : List ClaimEvidenceEntry) (expectedNonce : Option Nat)
  | withdrawClaim (claimant : Address) (claimId : Nat)
  | addClaimEvidence (claimant : Address) (claimId : Nat) (newEvidence : List ClaimEvidenceEntry)
  | voteOnClaim (voter : Address) (claimId : Nat) (vote : VoteOption)
  | finalizeClaim (claimId : Nat)
  | processDeadline (claimId : Nat)
  | finalizeExpiredBatch (claimIds : List Nat)
  | escalateClaim (claimId newDeadlineLedger : Nat)
  | refreshSnapshot (claimId : Nat)
  | setClaimFraudScore (caller : Address) (claimId score : Nat)
  | processClaim (claimId : Nat)
  | processPayoutTimeout (claimId : Nat)
  | disputeClaim (claimId : Nat)
  | disburseInstallment (claimId : Nat) (amount : Int)
  | openAppeal (claimant : Address) (claimId : Nat)
  | voteOnAppeal (voter : Address) (claimId : Nat) (vote : VoteOption)
  | finalizeAppeal (claimId : Nat)
  | setCommitRevealPhases (claimId commitPhaseEndLedger revealPhaseEndLedger : Nat)
  | commitVote (voter : Address) (claimId : Nat) (commitment : Bytes32)
  | revealVote (voter : Address) (claimId : Nat) (vote : VoteOption) (salt : Bytes32)
  | delegateVote (delegator delegate : Address) (expiryLedger : Nat)

/-- Policies. -/
inductive PolicyCall where
  | initiatePolicy (args : InitiatePolicyArgs)
  | setBeneficiary (holder : Address) (policyId : Nat) (newBeneficiary : Option Address)
  | adminUpdatePolicyMetadataUri (holder : Address) (policyId : Nat) (newUri : Str)
  | renewPolicy (args : RenewPolicyArgs)
  | transferPolicy (holder : Address) (policyId : Nat) (newHolder : Address)
  | terminatePolicy (holder : Address) (policyId : Nat) (reason : TerminationReason)
  | adminTerminatePolicy (admin holder : Address) (policyId : Nat) (reason : TerminationReason)
      (allowOpenClaims : Bool)
  | processExpired (holder : Address) (policyIds : List Nat)

/-- The treasury and the two-step admin actions. -/
inductive TreasuryCall where
  | depositTreasury (depositor : Address) (amount : Int) (asset : Address)
  | adminSweep (asset recipient : Address) (amount : Int)
  | sweepToken (asset recipient : Address) (amount : Int) (reasonCode : Nat)
  | drain (recipient : Address) (amount : Int)
  | setTreasury (newTreasury : Address)
  | proposeAdminAction (action : AdminAction)
  | confirmAdminAction (confirmer : Address)
  | cancelAdminAction

/-- Initialisation, roles and configuration. -/
inductive Setting where
  | initializeContract (admin token : Address)
  | proposeAdmin (newAdmin : Address)
  | acceptAdmin
  | cancelAdminProposal
  | setPauseAdmin (addr : Address)
  | setTreasuryAdmin (addr : Address)
  | setParamAdmin (addr : Address)
  | setToken (newToken : Address)
  | pause (admin : Address) (reason : PauseReason)
  | unpause (admin : Address)
  | pauseBind (admin : Address) (reason : PauseReason)
  | pauseClaims (admin : Address) (reason : PauseReason)
  | adminSetVoteDurationLedgers (ledgers : Nat)
  | adminSetQuorumBps (quorumBps : Nat)
  | adminSetElevatedQuorumBps (bps : Nat)
  | adminSetFraudScoreThreshold (threshold : Nat)
  | adminSetMaxVotersPerClaim (cap : UInt32)
  | adminSetClaimFilingFee (fee : Int)
  | adminSetMaxEvidenceCount (newCount : Nat)
  | adminSetMinEvidenceCount (newMin : Nat)
  | adminSetMaxWeightCap (newCap : Int)
  | adminSetCooldownLedgers (newLedgers : Nat)
  | adminSetMaxAppealsPerClaim (newCap : Nat)
  | adminSetGatewayAllowlist (gateways : List Str)
  | adminSetAssetClaimBounds (asset : Address) (minClaimAmount maxClaimAmount : Int)
  | setRollingClaimCap (newCap : Int)
  | setRollingClaimWindowLedgers (windowLedgers : Nat)
  | grantDelegation (operator : Address) (expiryLedger : Nat) (permissions : DelegationPermissions)
  | revokeDelegation (operator : Address)
  | addVotersBatch (addresses : List Address)
  | adminRemoveVoter (voter : Address)
  | updateMultiplierTable (newTable : MultiplierTable)
  | adminSetPremiumMultiplier (key : MultiplierKey) (value : Int)
  | adminSetAssetPremiumTable (asset : Address) (table : Option MultiplierTable)
  | setAllowedAsset (asset : Address) (allowed : Bool) (decimals : Nat)
  | adminSetAssetDecimals (asset : Address) (decimals : Nat)
  | adminSetProtocolFeeBps (feeBps : Nat)
  | adminSetFeeRecipient (recipient : Address)
  | adminSetMinSolvencyRatioBps (ratioBps : Nat)
  | adminSetMinCoverageAmount (amount : Int)
  | setGracePeriodLedgers (ledgers : Nat)
  | setCalculator (calculator : Address)
  | setCalculatorWithVersion (calculator : Address) (expectedVersion : Nat)
  | clearCalculator
  | upsertRegion (region : Str) (config : RegionConfig)
  | removeRegion (region : Str)
  | adminRegisterPolicyType (policyType : PolicyType) (config : PolicyTypeConfig)
  | adminDeregisterPolicyType (policyType : PolicyType)
  | adminSetWhitelistEnabled (enabled : Bool)
  | adminAddToWhitelist (holder : Address)
  | adminRemoveFromWhitelist (holder : Address)
  | setSweepCap (cap : Option Int)
  | setSweepNoticePeriod (ledgers : Nat)
  | adminSetMaxSweepPerLedger (cap : Int)
  | adminSetGovCooldownLedgers (newLedgers : Nat)
  | adminSetReinsuranceContract (reinsurance : Address)
  | adminClearReinsuranceContract
  | setAuthorizedDepositor (depositor : Address) (allowed : Bool)
  | setAllowedPayoutRecipient (recipient : Address) (allowed : Bool)

/-- Proposals of parameter changes and the votes on them. -/
inductive GovernanceCall where
  | createProposal (creator : Address) (paramKey : Str) (newValue : Nat)
  | voteProposal (voter : Address) (proposalId : Nat) (approve : Bool)
  | finalizeGovernanceProposal (proposalId : Nat)
  | adminSetProposerCooldown (newLedgers : Nat)

/-- A call of a public entrypoint. -/
inductive Call where
  | claim (c : ClaimCall)
  | policy (c : PolicyCall)
  | treasury (c : TreasuryCall)
  | setting (c : Setting)
  | governance (c : GovernanceCall)

/-! ## Executing a call -/

section Exec

variable (env : Env) (s : State)

/-- `delegation::require_admin_or_scope`. -/
def requireAdminOrScope (caller : Address) (scope : DelegationPermissions → Bool) :
    Result Unit := do
  requireAuth env caller
  let admin ← okOr (s.get .admin) .trap
  if caller = admin then pure ()
  else do
    let delegation ← okOr (s.get (.delegation caller)) (.error .delegationInvalid)
    ensure (s.sequence ≤ delegation.expiryLedger) (.error .delegationInvalid)
    ensure (scope delegation.permissions = true) (.error .delegationPermissionDenied)

/-- Drop the value that an entrypoint returns beside the state. -/
def dropValue {α : Type} (r : Result (α × State)) : Result State := r.map (·.2)

def ClaimCall.exec : ClaimCall → Result State
  | .fileClaim holder policyId amount details evidence expectedNonce => do
    requireAuth env holder
    dropValue (NiffyInsure.fileClaim env s holder policyId amount details evidence expectedNonce)
  | .withdrawClaim claimant claimId => do
    requireAuth env claimant
    NiffyInsure.withdrawClaim env s claimant claimId
  | .addClaimEvidence claimant claimId newEvidence => do
    requireAuth env claimant
    NiffyInsure.addClaimEvidence s claimant claimId newEvidence
  | .voteOnClaim voter claimId vote => do
    requireAuth env voter
    dropValue (NiffyInsure.voteOnClaim s voter claimId vote)
  | .finalizeClaim claimId => dropValue (NiffyInsure.finalizeClaim s claimId)
  | .processDeadline claimId => dropValue (NiffyInsure.processDeadline s claimId)
  | .finalizeExpiredBatch claimIds =>
    (NiffyInsure.finalizeExpiredBatch s claimIds).map (·.2.2)
  | .escalateClaim claimId newDeadlineLedger => do
    let _ ← requireStoredAdmin env s
    NiffyInsure.escalateClaim s claimId newDeadlineLedger
  | .refreshSnapshot claimId => NiffyInsure.refreshSnapshot s claimId
  | .setClaimFraudScore caller claimId score => do
    requireAdminOrScope env s caller (·.canSetFraudScore)
    NiffyInsure.setClaimFraudScore s caller claimId score
  | .processClaim claimId => do
    let _ ← requireStoredAdmin env s
    NiffyInsure.processClaim env s claimId
  | .processPayoutTimeout claimId => dropValue (NiffyInsure.processPayoutTimeout s claimId)
  | .disputeClaim claimId => do
    let _ ← requireStoredAdmin env s
    NiffyInsure.disputeClaim s claimId
  | .disburseInstallment claimId amount => do
    let _ ← requireStoredAdmin env s
    NiffyInsure.disburseInstallment env s claimId amount
  | .openAppeal claimant claimId => do
    requireAuth env claimant
    NiffyInsure.openAppeal s claimant claimId
  | .voteOnAppeal voter claimId vote => do
    requireAuth env voter
    dropValue (NiffyInsure.voteOnAppeal s voter claimId vote)
  | .finalizeAppeal claimId => dropValue (NiffyInsure.finalizeAppeal s claimId)
  | .setCommitRevealPhases claimId commitEnd revealEnd =>
    NiffyInsure.setCommitRevealPhases env s claimId commitEnd revealEnd
  | .commitVote voter claimId commitment => NiffyInsure.commitVote env s voter claimId commitment
  | .revealVote voter claimId vote salt => NiffyInsure.revealVote env s voter claimId vote salt
  | .delegateVote delegator delegate expiryLedger =>
    NiffyInsure.delegateVote env s delegator delegate expiryLedger

def PolicyCall.exec : PolicyCall → Result State
  | .initiatePolicy args => dropValue (NiffyInsure.initiatePolicy env s args)
  | .setBeneficiary holder policyId newBeneficiary =>
    NiffyInsure.setBeneficiary env s holder policyId newBeneficiary
  | .adminUpdatePolicyMetadataUri holder policyId newUri => do
    let _ ← requireStoredAdmin env s
    updatePolicyMetadataUri s holder policyId newUri
  | .renewPolicy args => dropValue (NiffyInsure.renewPolicy env s args)
  | .transferPolicy holder policyId newHolder =>
    NiffyInsure.transferPolicy env s holder policyId newHolder
  | .terminatePolicy holder policyId reason =>
    NiffyInsure.terminatePolicy env s holder policyId reason
  | .adminTerminatePolicy admin holder policyId reason allowOpenClaims =>
    NiffyInsure.adminTerminatePolicy env s admin holder policyId reason allowOpenClaims
  | .processExpired holder policyIds => dropValue (NiffyInsure.processExpired s holder policyIds)

def TreasuryCall.exec : TreasuryCall → Result State
  | .depositTreasury depositor amount asset =>
    NiffyInsure.depositTreasury env s depositor amount asset
  | .adminSweep asset recipient amount => NiffyInsure.adminSweep env s asset recipient amount
  | .sweepToken asset recipient amount reasonCode =>
    NiffyInsure.sweepToken env s asset recipient amount reasonCode
  | .drain recipient amount => NiffyInsure.drain env s recipient amount
  | .setTreasury newTreasury => NiffyInsure.setTreasury env s newTreasury
  | .proposeAdminAction action => NiffyInsure.proposeAdminAction env s action
  | .confirmAdminAction confirmer => NiffyInsure.confirmAdminAction env s confirmer
  | .cancelAdminAction => NiffyInsure.cancelAdminAction env s

def Setting.exec : Setting → Result State
  | .initializeContract admin token => NiffyInsure.initializeContract env s admin token
  | .proposeAdmin newAdmin => NiffyInsure.proposeAdmin env s newAdmin
  | .acceptAdmin => NiffyInsure.acceptAdmin env s
  | .cancelAdminProposal => NiffyInsure.cancelAdminProposal env s
  | .setPauseAdmin addr => NiffyInsure.setPauseAdmin env s addr
  | .setTreasuryAdmin addr => NiffyInsure.setTreasuryAdmin env s addr
  | .setParamAdmin addr => NiffyInsure.setParamAdmin env s addr
  | .setToken newToken => NiffyInsure.setToken env s newToken
  | .pause admin reason => NiffyInsure.pause env s admin reason
  | .unpause admin => NiffyInsure.unpause env s admin
  | .pauseBind admin reason => NiffyInsure.pauseBind env s admin reason
  | .pauseClaims admin reason => NiffyInsure.pauseClaims env s admin reason
  | .adminSetVoteDurationLedgers ledgers => NiffyInsure.adminSetVoteDurationLedgers env s ledgers
  | .adminSetQuorumBps quorumBps => NiffyInsure.adminSetQuorumBps env s quorumBps
  | .adminSetElevatedQuorumBps bps => NiffyInsure.adminSetElevatedQuorumBps env s bps
  | .adminSetFraudScoreThreshold threshold =>
    NiffyInsure.adminSetFraudScoreThreshold env s threshold
  | .adminSetMaxVotersPerClaim cap => NiffyInsure.adminSetMaxVotersPerClaim env s cap
  | .adminSetClaimFilingFee fee => NiffyInsure.adminSetClaimFilingFee env s fee
  | .adminSetMaxEvidenceCount newCount => NiffyInsure.adminSetMaxEvidenceCount env s newCount
  | .adminSetMinEvidenceCount newMin => NiffyInsure.adminSetMinEvidenceCount env s newMin
  | .adminSetMaxWeightCap newCap => NiffyInsure.adminSetMaxWeightCap env s newCap
  | .adminSetCooldownLedgers newLedgers => NiffyInsure.adminSetCooldownLedgers env s newLedgers
  | .adminSetMaxAppealsPerClaim newCap => NiffyInsure.adminSetMaxAppealsPerClaim env s newCap
  | .adminSetGatewayAllowlist gateways => NiffyInsure.adminSetGatewayAllowlist env s gateways
  | .adminSetAssetClaimBounds asset minClaimAmount maxClaimAmount =>
    NiffyInsure.adminSetAssetClaimBounds env s asset minClaimAmount maxClaimAmount
  | .setRollingClaimCap newCap => NiffyInsure.setRollingClaimCap env s newCap
  | .setRollingClaimWindowLedgers windowLedgers =>
    NiffyInsure.setRollingClaimWindowLedgers env s windowLedgers
  | .grantDelegation operator expiryLedger permissions =>
    NiffyInsure.grantDelegation env s operator expiryLedger permissions
  | .revokeDelegation operator => NiffyInsure.revokeDelegation env s operator
  | .addVotersBatch addresses => NiffyInsure.addVotersBatch env s addresses
  | .adminRemoveVoter voter => NiffyInsure.adminRemoveVoter env s voter
  | .updateMultiplierTable newTable => NiffyInsure.updateMultiplierTable env s newTable
  | .adminSetPremiumMultiplier key value => NiffyInsure.adminSetPremiumMultiplier env s key value
  | .adminSetAssetPremiumTable asset table =>
    NiffyInsure.adminSetAssetPremiumTable env s asset table
  | .setAllowedAsset asset allowed decimals =>
    NiffyInsure.setAllowedAsset env s asset allowed decimals
  | .adminSetAssetDecimals asset decimals => NiffyInsure.adminSetAssetDecimals env s asset decimals
  | .adminSetProtocolFeeBps feeBps => NiffyInsure.adminSetProtocolFeeBps env s feeBps
  | .adminSetFeeRecipient recipient => NiffyInsure.adminSetFeeRecipient env s recipient
  | .adminSetMinSolvencyRatioBps ratioBps =>
    NiffyInsure.adminSetMinSolvencyRatioBps env s ratioBps
  | .adminSetMinCoverageAmount amount => NiffyInsure.adminSetMinCoverageAmount env s amount
  | .setGracePeriodLedgers ledgers => NiffyInsure.setGracePeriodLedgers env s ledgers
  | .setCalculator calculator => NiffyInsure.setCalculator env s calculator
  | .setCalculatorWithVersion calculator expectedVersion =>
    NiffyInsure.setCalculatorWithVersion env s calculator expectedVersion
  | .clearCalculator => NiffyInsure.clearCalculator env s
  | .upsertRegion region config => NiffyInsure.upsertRegion env s region config
  | .removeRegion region => NiffyInsure.removeRegion env s region
  | .adminRegisterPolicyType policyType config =>
    NiffyInsure.adminRegisterPolicyType env s policyType config
  | .adminDeregisterPolicyType policyType =>
    NiffyInsure.adminDeregisterPolicyType env s policyType
  | .adminSetWhitelistEnabled enabled => NiffyInsure.adminSetWhitelistEnabled env s enabled
  | .adminAddToWhitelist holder => NiffyInsure.adminAddToWhitelist env s holder
  | .adminRemoveFromWhitelist holder => NiffyInsure.adminRemoveFromWhitelist env s holder
  | .setSweepCap cap => NiffyInsure.setSweepCap env s cap
  | .setSweepNoticePeriod ledgers => NiffyInsure.setSweepNoticePeriod env s ledgers
  | .adminSetMaxSweepPerLedger cap => NiffyInsure.adminSetMaxSweepPerLedger env s cap
  | .adminSetGovCooldownLedgers newLedgers =>
    NiffyInsure.adminSetGovCooldownLedgers env s newLedgers
  | .adminSetReinsuranceContract reinsurance =>
    NiffyInsure.adminSetReinsuranceContract env s reinsurance
  | .adminClearReinsuranceContract => NiffyInsure.adminClearReinsuranceContract env s
  | .setAuthorizedDepositor depositor allowed =>
    NiffyInsure.setAuthorizedDepositor env s depositor allowed
  | .setAllowedPayoutRecipient recipient allowed =>
    NiffyInsure.setAllowedPayoutRecipient env s recipient allowed

def GovernanceCall.exec : GovernanceCall → Result State
  | .createProposal creator paramKey newValue =>
    dropValue (NiffyInsure.createProposal env s creator paramKey newValue)
  | .voteProposal voter proposalId approve =>
    NiffyInsure.voteProposal env s voter proposalId approve
  | .finalizeGovernanceProposal proposalId => NiffyInsure.finalizeGovernanceProposal s proposalId
  | .adminSetProposerCooldown newLedgers => NiffyInsure.adminSetProposerCooldown env s newLedgers

def Call.exec : Call → Result State
  | .claim c => c.exec env s
  | .policy c => c.exec env s
  | .treasury c => c.exec env s
  | .setting c => c.exec env s
  | .governance c => c.exec env s

end Exec

/-! ## Runs -/

/-- What can happen next. -/
inductive Label where
  | call (env : Env) (c : Call)
  | closeLedger (sequence : Nat)
  | tokens (balance : Address → Address → Int) (allowance : Address → Address → Address → Int)

/-- A freshly deployed contract. -/
structure State.Fresh (host : Host) (s : State) : Prop where
  storage : s.storage = ∅
  payouts : s.payouts = []
  balance : ∀ asset, 0 ≤ s.balance asset host.contract
  sequence : s.sequence ≤ U32_MAX

theorem State.Fresh.get (host : Host) {s : State} (h : s.Fresh host) (k : DataKey) :
    s.get k = none := by
  simp [State.get, h.storage]

/-- One step of a deployed contract. -/
def State.Step (host : Host) (s : State) : Label → State → Prop
  | .call env c, s' => env.toHost = host ∧ c.exec env s = .ok s'
  | .closeLedger n, s' => s.sequence ≤ n ∧ n ≤ U32_MAX ∧ s' = { s with sequence := n }
  | .tokens balance allowance, s' =>
    (∀ asset, s.balance asset host.contract ≤ balance asset host.contract) ∧
      s' = { s with balance, allowance }

/-- The machine of the contract deployed on `host`. -/
def contract (host : Host) : Machine State Label where
  init := State.Fresh host
  step := State.Step host

/-- The machine of the contract with its event log: nothing was published before the
deployment. -/
def loggedContract (host : Host) : Machine State Label where
  init s := s.Fresh host ∧ s.events = []
  step := State.Step host

theorem reach_of_logged {host : Host} {ok : State → Label → Prop} {s : State}
    (h : (loggedContract host).Reach ok s) : (contract host).Reach ok s := by
  obtain ⟨s₀, hinit, hrun⟩ := h
  exact ⟨s₀, hinit.1, hrun⟩

end NiffyInsure
