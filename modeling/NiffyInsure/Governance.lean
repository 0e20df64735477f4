import NiffyInsure.Settings

/-!
# Governance proposals

A holder of an active policy puts one of two parameters to the vote (`createProposal`); every
holder of an active policy has one vote on it (`voteProposal`).  The vote that brings one side
to a majority of the voter registry closes it: the parameter is written, or the proposal is
removed.  Who may vote is read off the live count of active policies, the majority off the
registry as it stands at the vote.

A proposal that was applied stays in storage and can still be voted on until its deadline.
Past the deadline anyone may remove one that was not applied (`finalizeGovernanceProposal`).
`vote_proposal` removes an expired proposal too, but it then returns an error, so the host
discards the removal.
-/

namespace NiffyInsure

def MINIMUM_STAKE_POLICIES : Nat := 1
def MAX_PROPOSER_COOLDOWN_LEDGERS : Nat := 7 * LEDGERS_PER_DAY

/-- `"quorum_bps"`. -/
def quorumBpsKey : Str := [113, 117, 111, 114, 117, 109, 95, 98, 112, 115]

/-- `"voting_duration_ledgers"`. -/
def votingDurationLedgersKey : Str :=
  [118, 111, 116, 105, 110, 103, 95, 100, 117, 114, 97, 116, 105, 111, 110, 95, 108, 101, 100, 103,
    101, 114, 115]

namespace State

variable (s : State)

abbrev getProposal (proposalId : Nat) : Option Proposal := s.get (.proposal proposalId)
abbrev getProposalCounter : Nat := (s.get .proposalCounter).getD 0
abbrev getLastProposalLedger (proposer : Address) : Option Nat :=
  s.get (.lastProposalLedger proposer)
abbrev getProposerCooldownLedgers : Nat := (s.get .proposerCooldownLedgers).getD 0

/-- `has_proposal_vote`. -/
def hasProposalVote (proposalId : Nat) (voter : Address) : Bool :=
  (s.get (.proposalVote proposalId voter)).isSome

/-- `next_proposal_id`: the counter saturates. -/
def nextProposalId : Nat × State :=
  let next := saturatingAdd64 s.getProposalCounter 1
  (next, s.set .proposalCounter next)

/-- `set_proposal`: under the id that the proposal carries. -/
def setProposal (proposal : Proposal) : State := s.set (.proposal proposal.proposalId) proposal

/-- `quorum_required`: a majority of the registry as it stands now. -/
def quorumRequired : Nat :=
  let eligible := s.getVoters.length
  if eligible = 0 then 1 else saturatingAdd32 (eligible / 2) 1

/-- `apply_parameter`. -/
def applyParameter (proposal : Proposal) : State :=
  if proposal.paramKey = quorumBpsKey then s.set .quorumBps proposal.proposedValue
  else if proposal.paramKey = votingDurationLedgersKey then
    s.set .voteDurLedgers proposal.proposedValue
  else s

end State

section Entrypoints

variable (env : Env) (s : State)

/-- `require_token_holder`. -/
def requireTokenHolder (holder : Address) : Result Unit := do
  requireAuth env holder
  ensure (MINIMUM_STAKE_POLICIES ≤ s.getActivePolicyCount holder) (.governance .notTokenHolder)

/-- `validate_supported_parameter`. -/
def validateSupportedParameter (paramKey : Str) (newValue : Nat) : Result Unit :=
  if paramKey = quorumBpsKey then
    mapErr (validateQuorumBps newValue) fun _ => .governance .invalidParameterValue
  else if paramKey = votingDurationLedgersKey then
    ensure (MIN_VOTING_DURATION_LEDGERS ≤ newValue ∧ newValue ≤ MAX_VOTING_DURATION_LEDGERS)
      (.governance .invalidParameterValue)
  else .error (.governance .unsupportedParameter)

/-- `create_proposal`. -/
def createProposal (creator : Address) (paramKey : Str) (newValue : Nat) :
    Result (Nat × State) := do
  requireTokenHolder env s creator
  validateSupportedParameter paramKey newValue
  let now := s.sequence
  let cooldown := s.getProposerCooldownLedgers
  ensure (cooldown = 0 ∨ (s.getLastProposalLedger creator).all
    (fun last => decide (cooldown ≤ now - last)) = true) (.governance .proposerCooldownActive)
  let s₁ := s.set (.lastProposalLedger creator) now
  let (proposalId, s₂) := s₁.nextProposalId
  let deadline ← okOr (checkedAdd32 now s₂.getVotingDurationLedgers)
    (.governance .invalidParameterValue)
  let s₃ := s₂.setProposal {
    proposalId, creator, paramKey
    proposedValue := newValue
    deadline
    approveVotes := 0
    rejectVotes := 0
    applied := false }
  pure (proposalId, s₃.emit (.proposalCreated proposalId creator paramKey newValue deadline now))

/-- The proposal with one more vote. -/
def Proposal.count (proposal : Proposal) (approve : Bool) : Proposal :=
  if approve then { proposal with approveVotes := saturatingAdd32 proposal.approveVotes 1 }
  else { proposal with rejectVotes := saturatingAdd32 proposal.rejectVotes 1 }

/-- What `vote_proposal` does once the vote is recorded and counted. -/
def State.closeVote (s : State) (proposal : Proposal) : State :=
  let quorum := s.quorumRequired
  if quorum ≤ proposal.approveVotes then
    ((s.applyParameter proposal).setProposal { proposal with applied := true }).emit
      (.proposalResolved proposal.proposalId proposal.paramKey proposal.proposedValue
        true s.sequence)
  else if quorum ≤ proposal.rejectVotes then
    (s.emit (.proposalResolved proposal.proposalId proposal.paramKey proposal.proposedValue false
      s.sequence)).remove (.proposal proposal.proposalId)
  else s.setProposal proposal

/-- `vote_proposal`. -/
def voteProposal (voter : Address) (proposalId : Nat) (approve : Bool) : Result State := do
  requireTokenHolder env s voter
  let proposal ← okOr (s.getProposal proposalId) (.governance .proposalNotFound)
  ensure (s.sequence ≤ proposal.deadline) (.governance .votingClosed)
  ensure (s.hasProposalVote proposalId voter = false) (.governance .duplicateVote)
  let s₁ := s.set (.proposalVote proposalId voter) approve
  let counted := proposal.count approve
  let s₂ := s₁.emit (.proposalVoteCast proposalId voter approve counted.approveVotes
    counted.rejectVotes s.sequence)
  pure (s₂.closeVote counted)

/-- `finalize_governance_proposal`. -/
def finalizeGovernanceProposal (proposalId : Nat) : Result State := do
  let proposal ← okOr (s.getProposal proposalId) (.governance .proposalNotFound)
  ensure (proposal.applied = false) (.governance .proposalAlreadyClosed)
  ensure (proposal.deadline < s.sequence) (.governance .proposalNotExpired)
  pure ((s.remove (.proposal proposalId)).emit (.proposalExpired proposalId proposal.paramKey
    proposal.proposedValue proposal.deadline s.sequence))

/-- `admin_set_proposer_cooldown`. -/
def adminSetProposerCooldown (newLedgers : Nat) : Result State :=
  s.configure (requireAdmin env s) (.ok ()) false
    (ensure (newLedgers ≤ MAX_PROPOSER_COOLDOWN_LEDGERS)
      (.governance .proposerCooldownOutOfBounds))
    [⟨.proposerCooldownLedgers, some newLedgers⟩]

end Entrypoints

end NiffyInsure
