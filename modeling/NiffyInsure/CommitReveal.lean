import NiffyInsure.Claim

/-!
# Commit-reveal ballots and vote delegation

`commit_vote` and `reveal_vote` (`commit_reveal.rs`) write the same vote entries and the
same tallies as `vote_on_claim`, with checks of their own: the phases of the claim and the
stored commitment.  The storage helpers that this module names are not defined at this
commit and are read as plain keyed reads and writes.
-/

namespace NiffyInsure

section

variable (env : Env) (s : State)

/-- `set_commit_reveal_phases`, called by the admin. -/
def setCommitRevealPhases (claimId commitPhaseEndLedger revealPhaseEndLedger : Nat) :
    Result State := do
  let admin ← okOr (s.get .admin) .trap
  requireAuth env admin
  ensure (commitPhaseEndLedger < revealPhaseEndLedger) (.error .votingDurationOutOfBounds)
  pure (s.set (.commitRevealPhases claimId) ⟨commitPhaseEndLedger, revealPhaseEndLedger⟩)

/-- `commit_vote`. -/
def commitVote (voter : Address) (claimId : Nat) (commitment : Bytes32) : Result State := do
  requireAuth env voter
  let phases ← okOr (s.get (.commitRevealPhases claimId)) (.error .commitRevealNotSet)
  ensure (s.sequence ≤ phases.commitPhaseEndLedger) (.error .commitPhaseEnded)
  ensure (s.get (.voteCommitment claimId voter) = none) (.error .duplicateVote)
  pure ((s.set (.voteCommitment claimId voter) commitment).emit
    (.voteCommitted claimId voter s.sequence))

/-- The bytes that a commitment hashes: the ballot, the salt and the voter. -/
def commitmentPreimage (vote : VoteOption) (salt : Bytes32) (voter : Address) : List UInt8 :=
  (match vote with
    | .approve => 0x00
    | .reject => 0x01) :: (salt.toList ++ env.toXdr voter)

/-- `reveal_vote`. -/
def revealVote (voter : Address) (claimId : Nat) (vote : VoteOption) (salt : Bytes32) :
    Result State := do
  requireAuth env voter
  let phases ← okOr (s.get (.commitRevealPhases claimId)) (.error .commitRevealNotSet)
  ensure (phases.commitPhaseEndLedger < s.sequence) (.error .revealPhaseNotOpen)
  ensure (s.sequence ≤ phases.revealPhaseEndLedger) (.error .revealPhaseEnded)
  let stored ← okOr (s.get (.voteCommitment claimId voter)) (.error .commitmentNotFound)
  ensure (s.getVote claimId voter = none) (.error .duplicateVote)
  ensure (env.sha256 (commitmentPreimage env vote salt voter) = stored) (.error .commitmentMismatch)
  let s₁ := s.setVote claimId voter vote
  let claim ← okOr (s₁.getClaim claimId) (.error .claimNotFound)
  let claim₁ := claim.tally vote 1
  pure ((s₁.setClaim claim₁).emit
    (.voteRevealed claimId voter vote claim₁.approveVotes claim₁.rejectVotes s.sequence))

/-- `delegate_vote`. -/
def delegateVote (delegator delegate : Address) (expiryLedger : Nat) : Result State := do
  requireAuth env delegator
  ensure (delegator ≠ delegate) (.error .circularDelegation)
  let resolvedTarget ← s.resolveVoteDelegationTarget delegate s.sequence
  ensure (resolvedTarget ≠ delegator) (.error .circularDelegation)
  pure (s.setVoteDelegation delegator ⟨delegate, expiryLedger⟩)

end

end NiffyInsure
