import NiffyInsure.Frame.Calls
import Mathlib.Algebra.Ring.Int.Defs

/-!
# What the claim entrypoints do

One lemma for each entrypoint that writes a claim: the checks that passed, the record that
was written and the open-claim flag.  The written records are given as the old record with
the fields that change; everything else the call touches is in `Frame`.

`State.ballotOutcome` and `State.deadlineOutcome` are the two ways the base round is
decided, as pure functions of the state and the tallies.
-/

namespace NiffyInsure

/-! ## How the base round is decided -/

namespace State

/-- The outcome that the tallies of `claim` give at a ballot, if they meet the quorum. -/
def ballotOutcome (s : State) (claimId : Nat) (claim : Claim) : Option ClaimStatus :=
  resolvePluralityIfQuorumMet claim.approveVotes claim.rejectVotes
    (claim.approveVotes + claim.rejectVotes) claim.eligibleVoterCount (s.effectiveQuorumBps claimId)

/-- The outcome that the tallies of `claim` give after the deadline. -/
def deadlineOutcome (s : State) (claimId : Nat) (claim : Claim) : ClaimStatus :=
  if participationQuorumMet (claim.approveVotes + claim.rejectVotes) claim.eligibleVoterCount
      (s.effectiveQuorumBps claimId) = true ∧ claim.rejectVotes < claim.approveVotes then .approved
  else .rejected

theorem ballotOutcome_eq_some {s : State} {claimId : Nat} {claim : Claim} {outcome : ClaimStatus}
    (h : s.ballotOutcome claimId claim = some outcome) :
    outcome = .approved ∨ outcome = .rejected := by
  unfold ballotOutcome resolvePluralityIfQuorumMet at h
  split at h
  · split at h
    · cases h
      exact .inl rfl
    · cases h
      exact .inr rfl
  · cases h

theorem deadlineOutcome_cases (s : State) (claimId : Nat) (claim : Claim) :
    s.deadlineOutcome claimId claim = .approved ∨ s.deadlineOutcome claimId claim = .rejected := by
  unfold deadlineOutcome
  split
  · exact .inl rfl
  · exact .inr rfl

end State

/-- The record of a claim that the base round decided. -/
def Claim.closed (claim : Claim) (outcome : ClaimStatus)
    (now appealOpen payoutDeadline dispute : Nat) : Claim :=
  { claim.moveTo outcome now with
    appealOpenDeadlineLedger := appealOpen
    payoutDeadlineLedger := payoutDeadline
    disputeDeadlineLedger := dispute }

theorem decide_cases {claim claim' : Claim} {outcome : ClaimStatus} {now : Nat} {b : Bool}
    (h : claim.decide outcome now b = .ok claim') :
    ∃ appealOpen,
      (if outcome = .rejected then checkedAdd32 now APPEAL_OPEN_WINDOW_LEDGERS = some appealOpen
      else appealOpen = claim.appealOpenDeadlineLedger) ∧
    ∃ payoutDeadline,
      (if outcome = .approved ∧ claim.payoutDeadlineLedger = 0 then
        checkedAdd32 now PAYOUT_TIMEOUT_LEDGERS = some payoutDeadline
      else payoutDeadline = claim.payoutDeadlineLedger) ∧
    ∃ dispute,
      (if (outcome = .approved ∧ claim.payoutDeadlineLedger = 0) ∧ b = true then
        checkedAdd32 now DEFAULT_DISPUTE_WINDOW_LEDGERS = some dispute
      else dispute = claim.disputeDeadlineLedger) ∧
    claim' = claim.closed outcome now appealOpen payoutDeadline dispute := by
  dsimp only [Claim.decide] at h
  obtain ⟨appealOpen, hopen, h⟩ := deadline_eq_ok h
  obtain ⟨payoutDeadline, hpayout, h⟩ := deadline_eq_ok h
  obtain ⟨dispute, hdispute, h⟩ := deadline_eq_ok h
  cases h
  exact ⟨appealOpen, hopen, payoutDeadline, hpayout, dispute, hdispute, rfl⟩

/-- A decided claim is the old one with a new status and new deadlines. -/
theorem decide_eq_ok {claim claim' : Claim} {outcome : ClaimStatus} {now : Nat} {b : Bool}
    (h : claim.decide outcome now b = .ok claim') :
    ∃ appealOpen payoutDeadline dispute,
      claim' = claim.closed outcome now appealOpen payoutDeadline dispute := by
  obtain ⟨appealOpen, -, payoutDeadline, -, dispute, -, hclosed⟩ := decide_cases h
  exact ⟨appealOpen, payoutDeadline, dispute, hclosed⟩

theorem decide_eq_error {claim : Claim} {outcome : ClaimStatus} {now : Nat} {b : Bool} {e : Fault}
    (h : claim.decide outcome now b = .error e) : e = .error .overflow := by
  dsimp only [Claim.decide] at h
  rcases deadline_eq_error h with h | ⟨appealOpen, h⟩
  · exact h
  rcases deadline_eq_error h with h | ⟨payoutDeadline, h⟩
  · exact h
  rcases deadline_eq_error h with h | ⟨dispute, h⟩
  · exact h
  · exact absurd h pure_ne_error

/-- The record of a policy after a strike. -/
def Policy.struck (p : Policy) (now : Nat) : Policy :=
  if STRIKE_DEACTIVATION_THRESHOLD ≤ saturatingAdd32 p.strikeCount 1 ∧ p.isActive = true then
    { p with
      strikeCount := saturatingAdd32 p.strikeCount 1
      isActive := false
      terminatedAtLedger := now
      terminationReason := .excessiveRejections
      terminatedByAdmin := false }
  else { p with strikeCount := saturatingAdd32 p.strikeCount 1 }

/-- The policy at `(holder, policyId)`, if there is one, got a strike. -/
def StrikesAt (s s' : State) (holder : Address) (policyId : Nat) : Prop :=
  match s.getPolicy holder policyId with
  | none => SameKind .policy s s'
  | some p => SameKind .policy (s.setPolicy holder policyId (p.struck s.sequence)) s'

section BaseRound

variable {s s' : State} {claimId : Nat}

/-- A rejection leaves a policy that is gone alone; otherwise it stores the struck record, and
takes a policy that the strike deactivates off its holder's count. -/
theorem onReject_cases {claim : Claim} (h : onReject s claim = .ok s') :
    (s.getPolicy claim.claimant claim.policyId = none ∧ Frame [.strikeEvent] s s') ∨
      ∃ p t, s.getPolicy claim.claimant claim.policyId = some p ∧ Frame [.strikeEvent] s t ∧
        ((p.isActive = true ∧ (p.struck s.sequence).isActive = false ∧
            ∃ u, (t.setPolicy claim.claimant claim.policyId
              (p.struck s.sequence)).dropActivePolicy claim.claimant = .ok u ∧
              Frame [.strikeEvent] u s') ∨
          ((p.struck s.sequence).isActive = p.isActive ∧
            s' = t.setPolicy claim.claimant claim.policyId (p.struck s.sequence))) := by
  dsimp only [onReject, State.getPolicy] at h
  simp only [State.get_emit] at h
  split at h
  · rename_i hnone
    cases h
    exact .inl ⟨hnone, by simp⟩
  · rename_i p hp
    refine .inr ⟨p, (s.emit (.claimRejected claim.claimId claim.policyId claim.claimant
      claim.rejectVotes claim.approveVotes s.sequence)).emit (.strikeIncremented claim.claimant
      claim.policyId claim.claimId (saturatingAdd32 p.strikeCount 1)), hp, by simp, ?_⟩
    unfold Policy.struck
    split at h
    · rename_i hthr
      rw [if_pos hthr]
      simp only [bind_eq_ok, pure_eq_ok] at h
      obtain ⟨u, hdrop, rfl⟩ := h
      exact .inl ⟨hthr.2, rfl, u, hdrop, by simp⟩
    · rename_i hthr
      rw [if_neg hthr]
      cases h
      exact .inr ⟨rfl, rfl⟩

theorem strikesAt_onReject {claim : Claim} (h : onReject s claim = .ok s') :
    StrikesAt s s' claim.claimant claim.policyId := by
  unfold StrikesAt
  obtain ⟨hnone, hf⟩ | ⟨p, t, hp, hf, ⟨-, -, u, hdrop, hemit⟩ | ⟨-, rfl⟩⟩ := onReject_cases h
  · rw [hnone]
    exact hf.sameKind rfl
  · rw [hp]
    refine SameKind.trans ?_ (((frame_dropActivePolicy hdrop).sameKind rfl).trans
      (hemit.sameKind rfl))
    exact SameKind.set (hf.sameKind rfl) _ _
  · rw [hp]
    exact SameKind.set (hf.sameKind rfl) _ _

theorem claim_recordDecision (s : State) (claimId : Nat) (before : ClaimStatus) (claim : Claim) :
    SameKind .claim (s.setClaim claim) (s.recordDecision claimId before claim) := by
  dsimp only [State.recordDecision]
  rw [SameKind.set_iff (by simp)]
  refine SameKind.set ?_ _ _
  split <;> simp

theorem openClaim_recordDecision (s : State) (claimId : Nat) (before : ClaimStatus)
    (claim : Claim) : SameKind .openClaim (s.setOpenClaim claim.claimant claim.policyId false)
      (s.recordDecision claimId before claim) := by
  dsimp only [State.recordDecision]
  rw [SameKind.set_iff (by simp), SameKind.set_iff (by simp)]
  split
  · rw [SameKind.remove_iff (by simp)]
    exact SameKind.set (.refl _ s) _ _
  · exact SameKind.set (.refl _ s) _ _

/-- What the end of the base round does: the record is stored, the flag is cleared, and a
rejection strikes the policy. -/
theorem closeRound_eq_ok {before : ClaimStatus} {claim : Claim}
    (h : closeRound s claimId before claim = .ok s') :
    SameKind .claim (s.setClaim claim) s' ∧
      SameKind .openClaim (s.setOpenClaim claim.claimant claim.policyId false) s' ∧
      (claim.status = .rejected → StrikesAt s s' claim.claimant claim.policyId) ∧
      (claim.status ≠ .rejected → SameKind .policy s s') := by
  have hclaim := claim_recordDecision s claimId before claim
  have hflag := openClaim_recordDecision s claimId before claim
  have hrec := frame_recordDecision s claimId before claim
  obtain ⟨hrej, h⟩ | ⟨hrej, rfl⟩ := closeRound_cases h
  · have hf := frame_onReject h
    refine ⟨hclaim.trans (hf.sameKind rfl), hflag.trans (hf.sameKind rfl), fun _ =>
      ?_, fun hne => ?_⟩
    · have hstrike := strikesAt_onReject h
      unfold StrikesAt at hstrike ⊢
      have hget : (s.recordDecision claimId before claim).getPolicy claim.claimant claim.policyId =
        s.getPolicy claim.claimant claim.policyId := hrec.get (.policy _ _) rfl
      rw [hget] at hstrike
      split at hstrike
      · exact (hrec.sameKind rfl).trans hstrike
      · rw [hrec.sequence] at hstrike
        exact (SameKind.set (hrec.sameKind rfl) _ _).trans hstrike
    · exact absurd hrej hne
  · exact ⟨hclaim, hflag, fun hr => absurd hr hrej, fun _ => hrec.sameKind rfl⟩

theorem effectiveQuorumBps_of_frame {ks : List Kind} (h : Frame ks s s')
    (hquorum : ks.contains .claimQuorum = false) (hscore : ks.contains .fraudScore = false)
    (hrules : ks.contains .votingRules = false) :
    s'.effectiveQuorumBps claimId = s.effectiveQuorumBps claimId := by
  simp only [State.effectiveQuorumBps, State.getClaimQuorumBps, State.getFraudScoreThreshold,
    State.getElevatedQuorumBps, h.get (.claimQuorumBps claimId) hquorum,
    h.get (.claimFraudScore claimId) hscore, h.get .fraudScoreThreshold hrules,
    h.get .elevatedQuorumBps hrules]

theorem effectiveQuorumBps_setVote (s : State) (voter : Address) (vote : VoteOption) (id : Nat) :
    (s.setVote claimId voter vote).effectiveQuorumBps id = s.effectiveQuorumBps id := by
  simp [State.effectiveQuorumBps, State.getClaimQuorumBps, State.getFraudScoreThreshold,
    State.getElevatedQuorumBps]

theorem votingPowerFor_setVote (s : State) (voter : Address) (vote : VoteOption) (w : Nat) :
    (s.setVote claimId voter vote).votingPowerFor claimId voter w =
      s.votingPowerFor claimId voter w := by
  simp [State.votingPowerFor]

/-- A ballot is stored and counted; the round goes on, or is decided by the new tallies. -/
theorem voteOnClaimWith_eq_ok {weight : State → Nat} {voter : Address} {vote : VoteOption}
    {st : ClaimStatus} (h : voteOnClaimWith s weight voter claimId vote = .ok (st, s')) :
    ∃ claim w, s.getClaim claimId = some claim ∧ s.checkBallot voter claimId claim = .ok () ∧
      s.votingPowerFor claimId voter (weight (s.setVote claimId voter vote)) = .ok w ∧
      ((s.ballotOutcome claimId (claim.tally vote w) = none ∧ st = claim.status ∧
          s' = (s.setVote claimId voter vote).setClaim (claim.tally vote w)) ∨
        ∃ outcome claim', s.ballotOutcome claimId (claim.tally vote w) = some outcome ∧
          st = outcome ∧ (claim.tally vote w).decide outcome s.sequence false = .ok claim' ∧
          closeRound (s.setVote claimId voter vote) claimId claim.status claim' = .ok s') := by
  simp only [voteOnClaimWith, bind_eq_ok, okOr_eq_ok, add32_eq_ok, votingPowerFor_setVote,
    effectiveQuorumBps_setVote] at h
  obtain ⟨-, -, claim, hclaim, u, hcheck, w, hw, cast, ⟨-, rfl⟩, h⟩ := h
  refine ⟨claim, w, hclaim, hcheck, hw, ?_⟩
  split at h
  · rename_i hnone
    simp only [pure_eq_ok, Prod.mk.injEq] at h
    obtain ⟨rfl, rfl⟩ := h
    exact .inl ⟨hnone, rfl, rfl⟩
  · rename_i outcome hsome
    simp only [bind_eq_ok, pure_eq_ok, Prod.mk.injEq] at h
    obtain ⟨claim', hdec, s₂, hclose, rfl, rfl⟩ := h
    exact .inr ⟨_, claim', hsome, rfl, hdec, hclose⟩

theorem voteOnClaim_eq_ok {voter : Address} {vote : VoteOption} {st : ClaimStatus}
    (h : voteOnClaim s voter claimId vote = .ok (st, s')) :
    ∃ claim w, s.getClaim claimId = some claim ∧ s.checkBallot voter claimId claim = .ok () ∧
      s.votingPowerFor claimId voter 1 = .ok w ∧
      ((s.ballotOutcome claimId (claim.tally vote w) = none ∧ st = claim.status ∧
          s' = (s.setVote claimId voter vote).setClaim (claim.tally vote w)) ∨
        ∃ outcome claim', s.ballotOutcome claimId (claim.tally vote w) = some outcome ∧
          st = outcome ∧ (claim.tally vote w).decide outcome s.sequence false = .ok claim' ∧
          closeRound (s.setVote claimId voter vote) claimId claim.status claim' = .ok s') :=
  voteOnClaimWith_eq_ok (voteOnClaim_eq s voter claimId vote ▸ h)

theorem checkBallot_eq_ok {voter : Address} {claim : Claim} {u : Unit} :
    s.checkBallot voter claimId claim = .ok u ↔
      claim.status.isTerminal = false ∧ voter ≠ claim.claimant ∧
        isClaimVotingOpen s.sequence claim.votingDeadlineLedger = true ∧
        s.hasClaimVoters claimId = true ∧ voter ∈ s.getClaimVoters claimId ∧
        claim.approveVotes + claim.rejectVotes ≤ U32_MAX ∧
        claim.approveVotes + claim.rejectVotes < s.getMaxVotersPerClaim ∧
        s.resolveVoteDelegationTarget voter s.sequence = .ok voter ∧
        s.getVote claimId voter = none := by
  simp only [State.checkBallot, bind_eq_ok, ensure_eq_ok, add32_eq_ok]
  constructor
  · rintro ⟨-, h₁, -, h₂, -, h₃, -, h₄, -, h₅, c, ⟨h₆, rfl⟩, -, h₇, t, h₈, -, rfl, h₉⟩
    refine ⟨h₁, h₂, h₃, h₄, h₅, h₆, ?_, h₈, h₉⟩
    by_contra hge
    exact h₇ ⟨by omega, h₉⟩
  · rintro ⟨h₁, h₂, h₃, h₄, h₅, h₆, h₇, h₈, h₉⟩
    exact ⟨(), h₁, (), h₂, (), h₃, (), h₄, (), h₅, _, ⟨h₆, rfl⟩, (), fun h => by omega, _, h₈, (),
      rfl, h₉⟩

theorem finalizeClaimInner_eq_ok {st : ClaimStatus}
    (h : finalizeClaimInner s claimId = .ok (st, s')) :
    ∃ claim claim', s.getClaim claimId = some claim ∧ claim.status.isTerminal = false ∧
      isClaimPastVotingDeadline s.sequence claim.votingDeadlineLedger = true ∧
      claim.approveVotes + claim.rejectVotes ≤ U32_MAX ∧ st = s.deadlineOutcome claimId claim ∧
      claim.decide (s.deadlineOutcome claimId claim) s.sequence true = .ok claim' ∧
      closeRound s claimId claim.status claim' = .ok s' := by
  simp only [finalizeClaimInner, bind_eq_ok, okOr_eq_ok, ensure_eq_ok, add32_eq_ok, pure_eq_ok,
    Prod.mk.injEq] at h
  obtain ⟨claim, hclaim, -, hterm, -, hpast, cast, ⟨hfit, rfl⟩, claim', hdec, s₁, hclose,
      rfl, rfl⟩ := h
  exact ⟨claim, claim', hclaim, hterm, hpast, hfit, rfl, hdec, hclose⟩

end BaseRound

/-! ## Filing, withdrawing, correcting -/

section Filing

variable {env : Env} {s s' : State} {claimId : Nat}

theorem swapAt_perm (work : List Address) (i j : Nat) : (swapAt work i j).Perm work := by
  unfold swapAt
  split
  · rename_i x y hx hy
    obtain ⟨hi, rfl⟩ := List.getElem?_eq_some_iff.mp hx
    obtain ⟨hj, rfl⟩ := List.getElem?_eq_some_iff.mp hy
    exact List.set_set_perm hi hj
  · exact .refl work

theorem shuffle_perm (n : Nat) :
    ∀ (steps i state : Nat) (work : List Address), (shuffle n steps i state work).Perm work := by
  intro steps
  induction steps with
  | zero =>
    intro i state work
    exact .refl work
  | succ steps ih =>
    intro i state work
    unfold shuffle
    refine (ih _ _ _).trans ?_
    split
    · exact swapAt_perm work _ _
    · exact .refl work

theorem mem_claimElectorate {claimant a : Address} (h : a ∈ s.claimElectorate claimId claimant) :
    a ≠ claimant := by
  have hmem : a ∈ s.getVoters.filter (· ≠ claimant) := by
    dsimp only [State.claimElectorate] at h
    split at h
    · unfold sampleVotersByClaimId at h
      dsimp only at h
      split at h
      · cases h
      · exact (shuffle_perm ..).mem_iff.mp (List.mem_of_mem_take h)
    · exact h
  simpa using (List.mem_filter.mp hmem).2

theorem length_claimElectorate_le (claimant : Address) :
    (s.claimElectorate claimId claimant).length ≤ s.getMaxVotersPerClaim := by
  dsimp only [State.claimElectorate]
  split
  · unfold sampleVotersByClaimId
    dsimp only
    split
    · simp
    · rw [List.length_take, (shuffle_perm ..).length_eq]
      omega
  · omega

/-- A filed claim: the checks on the policy and the flag, and the record with its frozen
electorate. -/
theorem fileClaim_eq_ok {holder : Address} {policyId : Nat} {amount : Int} {details : Str}
    {evidence : List ClaimEvidenceEntry} {expectedNonce : Option Nat}
    (h : fileClaim env s holder policyId amount details evidence expectedNonce =
      .ok (claimId, s')) :
    ∃ policy voters deadline, s.getPolicy holder policyId = some policy ∧
      policy.isActive = true ∧ s.hasOpenClaim holder policyId = false ∧
      claimId = s.getClaimCounter + 1 ∧ holder ∉ voters ∧
      voters.length ≤ s.getMaxVotersPerClaim ∧
      SameKind .claim (s.setClaim (newClaim claimId policyId holder amount
        (policy.deductible.getD 0) policy.asset details evidence deadline s.sequence
        voters.length)) s' ∧
      SameKind .openClaim (s.setOpenClaim holder policyId true) s' ∧
      SameKind .claimVoters (s.set (.claimVoters claimId) voters) s' ∧
      SameKind .claimCounter (s.set .claimCounter claimId) s' := by
  simp only [fileClaim, bind_eq_ok, okOr_eq_ok, pure_eq_ok, Prod.exists, Prod.mk.injEq] at h
  obtain ⟨-, -, s₁, h₁, policy, hpolicy, u, hcheck, s₂, h₂, -, -, deadline, -, id, s₃,
    h₃, s₄, h₄, rfl, rfl⟩ := h
  obtain ⟨hid, rfl⟩ := nextClaimId_eq_ok h₃
  have hf₁ := frame_checkAndBumpNonce h₁
  have hf₂ := frame_checkFileClaim h₂
  have hf₄ := frame_collectFilingFee h₄
  -- the state in which the electorate is frozen
  have hpre : Frame [.nonce, .rolling, .claimCounter, .assetLedger, .cash,
      .filingFeePaid] s s₄ := by
    refine Frame.trans ?_ (hf₄.mono (by simp))
    rw [Frame.set_iff (by simp)]
    exact (hf₁.mono (by simp)).trans (hf₂.mono (by simp))
  have hcounter : SameKind .claimCounter (s.set .claimCounter id) s₄ := by
    refine SameKind.trans (SameKind.set ?_ .claimCounter id) (hf₄.sameKind rfl)
    exact (hf₁.sameKind rfl).trans (hf₂.sameKind rfl)
  simp only [State.checkFiling, bind_eq_ok, ensure_eq_ok] at hcheck
  obtain ⟨-, -, -, hactive, -, hopen, -⟩ := hcheck
  refine ⟨policy, s₄.claimElectorate id holder, deadline, ?_, hactive, ?_, ?_, ?_, ?_,
    ?_, ?_, ?_, ?_⟩
  · rw [← hpolicy]
    exact (hf₁.get (.policy holder policyId) rfl).symm
  · rw [← hopen]
    simp only [State.hasOpenClaim, hf₁.get (.openClaim holder policyId) rfl]
  · rw [hid]
    simp only [State.getClaimCounter, hf₂.get .claimCounter rfl, hf₁.get .claimCounter rfl]
  · exact fun hmem => mem_claimElectorate hmem rfl
  · refine le_trans (length_claimElectorate_le holder) ?_
    simp only [State.getMaxVotersPerClaim, hpre.get .maxVotersPerClaim rfl, le_refl]
  · simp only [State.recordNewClaim, SameKind.emit_iff]
    rw [SameKind.setIfSome_iff rfl]
    simp only [State.snapshotClaimVoters, State.getClaimVoters, State.get_set_self,
      Option.getD_some]
    rw [SameKind.set_iff rfl, SameKind.set_iff rfl, SameKind.set_iff rfl, hf₁.sequence]
    refine SameKind.set ?_ _ _
    rw [SameKind.set_iff rfl]
    exact hpre.sameKind rfl
  · simp only [State.recordNewClaim, SameKind.emit_iff]
    rw [SameKind.setIfSome_iff rfl, SameKind.set_iff rfl, SameKind.set_iff rfl]
    refine SameKind.set ?_ _ _
    rw [SameKind.set_iff rfl, State.snapshotClaimVoters, SameKind.set_iff rfl]
    exact hpre.sameKind rfl
  · refine SameKind.trans ?_ ((frame_recordNewClaim _ _ _).sameKind rfl)
    exact SameKind.set (hpre.sameKind rfl) _ _
  · refine SameKind.trans ?_ ((frame_recordNewClaim _ _ _).sameKind rfl)
    rw [State.snapshotClaimVoters, SameKind.set_iff rfl]
    exact hcounter

/-- The writes of `file_claim`: the record goes in with the anchor that the rate limit was checked
against, over a state that differs from the old one in the book-keeping of the filing only. -/
theorem fileClaim_records {holder : Address} {policyId : Nat} {amount : Int} {details : Str}
    {evidence : List ClaimEvidenceEntry} {expectedNonce : Option Nat}
    (h : fileClaim env s holder policyId amount details evidence expectedNonce =
      .ok (claimId, s')) :
    ∃ s₁ claim, Frame [.nonce, .rolling, .claimCounter, .assetLedger, .cash, .filingFeePaid,
        .claimVoters] s s₁ ∧
      s' = s₁.recordNewClaim claim (s.get (.lastClaimLedger holder)) ∧
      claim.claimId = claimId ∧ claim.claimant = holder ∧ claim.status = .processing ∧
      claim.filedAt = s.sequence ∧
      (∀ last : Nat, s.get (.lastClaimLedger holder) = some last →
        saturatingAdd32 last RATE_LIMIT_WINDOW_LEDGERS ≤ s.sequence) ∧
      s.sequence + s.getVotingDurationLedgers ≤ U32_MAX := by
  simp only [fileClaim, bind_eq_ok, okOr_eq_ok, pure_eq_ok, Prod.exists, Prod.mk.injEq] at h
  obtain ⟨-, -, s₁, h₁, policy, -, u, hcheck, s₂, h₂, -, -, deadline, hfit, id, s₃, h₃,
    s₄, h₄, rfl, rfl⟩ := h
  obtain ⟨-, rfl⟩ := nextClaimId_eq_ok h₃
  have hf₁ := frame_checkAndBumpNonce h₁
  have hf₂ := frame_checkFileClaim h₂
  have hanchor : s₁.get (.lastClaimLedger holder) = s.get (.lastClaimLedger holder) :=
    hf₁.get _ rfl
  simp only [State.checkFiling, bind_eq_ok, ensure_eq_ok, hanchor, hf₁.sequence] at hcheck
  obtain ⟨-, -, -, -, -, -, -, -, -, hrate, -⟩ := hcheck
  rw [checkedAdd32_eq_some, hf₁.sequence, State.getVotingDurationLedgers,
    hf₂.get .voteDurLedgers rfl, hf₁.get .voteDurLedgers rfl] at hfit
  rw [hanchor]
  refine ⟨_, _, ?_, rfl, rfl, rfl, rfl, ?_, fun last hlast => ?_, hfit.1⟩
  · rw [State.snapshotClaimVoters, Frame.set_iff (by simp)]
    refine Frame.trans ?_ ((frame_collectFilingFee h₄).mono (by simp))
    rw [Frame.set_iff (by simp)]
    exact (hf₁.mono (by simp)).trans (hf₂.mono (by simp))
  · exact hf₁.sequence
  · rw [hlast] at hrate
    simpa [isRateLimitElapsed] using hrate

theorem withdrawClaim_eq_ok {claimant : Address}
    (h : withdrawClaim env s claimant claimId = .ok s') :
    ∃ claim, s.getClaim claimId = some claim ∧ claim.status = .processing ∧
      claim.approveVotes = 0 ∧ claim.rejectVotes = 0 ∧
      SameKind .claim (s.setClaim (claim.moveTo .withdrawn s.sequence)) s' ∧
      SameKind .openClaim (s.setOpenClaim claim.claimant claim.policyId false) s' := by
  simp only [withdrawClaim, bind_eq_ok, okOr_eq_ok, ensure_eq_ok, pure_eq_ok] at h
  obtain ⟨claim, hclaim, -, -, -, hst, -, ⟨ha, hr⟩, s₄, h₄, rfl⟩ := h
  have hf := frame_refundFilingFee h₄
  refine ⟨claim, hclaim, hst, ha, hr, ?_, ?_⟩
  · rw [SameKind.emit_iff, SameKind.emit_iff]
    refine SameKind.trans ?_ (hf.sameKind rfl)
    refine SameKind.set ?_ _ _
    rw [SameKind.setOrRemove_iff rfl, SameKind.remove_iff rfl, SameKind.set_iff rfl]
    exact .refl _ s
  · rw [SameKind.emit_iff, SameKind.emit_iff]
    refine SameKind.trans ?_ (hf.sameKind rfl)
    rw [SameKind.set_iff rfl, SameKind.setOrRemove_iff rfl, SameKind.remove_iff rfl]
    exact .refl _ _

theorem addClaimEvidence_eq_ok {claimant : Address} {newEvidence : List ClaimEvidenceEntry}
    (h : addClaimEvidence s claimant claimId newEvidence = .ok s') :
    ∃ claim, s.getClaim claimId = some claim ∧ claim.status = .processing ∧
      SameKind .claim (s.setClaim { claim with evidence := newEvidence }) s' := by
  simp only [addClaimEvidence, bind_eq_ok, okOr_eq_ok, ensure_eq_ok, pure_eq_ok] at h
  obtain ⟨-, -, claim, hclaim, -, -, -, ⟨hst, -⟩, -, -, rfl⟩ := h
  exact ⟨claim, hclaim, hst, by simp⟩

theorem escalateClaim_eq_ok {newDeadline : Nat} (h : escalateClaim s claimId newDeadline = .ok s') :
    ∃ claim, s.getClaim claimId = some claim ∧ claim.status = .processing ∧
      SameKind .claim (s.setClaim { claim with votingDeadlineLedger := newDeadline }) s' := by
  simp only [escalateClaim, bind_eq_ok, okOr_eq_ok, ensure_eq_ok, pure_eq_ok] at h
  obtain ⟨claim, hclaim, -, hst, -, -, -, -, rfl⟩ := h
  exact ⟨claim, hclaim, hst, by simp⟩

theorem revealVote_eq_ok {voter : Address} {vote : VoteOption} {salt : Bytes32}
    (h : revealVote env s voter claimId vote salt = .ok s') :
    ∃ claim, s.getClaim claimId = some claim ∧ s.getVote claimId voter = none ∧
      SameKind .claim (s.setClaim (claim.tally vote 1)) s' ∧
      SameKind .vote (s.setVote claimId voter vote) s' := by
  simp only [revealVote, bind_eq_ok, okOr_eq_ok, ensure_eq_ok, pure_eq_ok] at h
  obtain ⟨-, -, phases, -, -, -, -, -, stored, -, -, hnone, -, -, claim, hclaim, rfl⟩ := h
  refine ⟨claim, ?_, hnone, ?_, ?_⟩
  · simpa using hclaim
  · rw [SameKind.emit_iff]
    refine SameKind.set ?_ _ _
    simp
  · rw [SameKind.emit_iff, SameKind.set_iff rfl]
    exact .refl _ _

end Filing

/-! ## Payouts -/

section Payouts

variable {env : Env} {s s' : State} {claimId : Nat}

/-- The funds for `net`: the contract's own cash, or that and the reinsurance pool. -/
def State.Funded (env : Env) (s : State) (asset : Address) (net : Int) : Prop :=
  net ≤ s.balance asset env.contract ∨ ∃ reinsurance, s.get .reinsuranceContract =
    some reinsurance ∧
    net - max (s.balance asset env.contract) 0 ≤ s.reinsuranceAvailable env asset reinsurance

/-- The claim's net amount is funded in the asset that its policy is paid in. -/
def State.CanPay (env : Env) (s : State) (claim : Claim) : Prop :=
  ∃ policy, s.getPolicy claim.claimant claim.policyId = some policy ∧
    s.Funded env (s.effectiveAsset policy) (claim.amount - claim.deductible)

/-- The payout transfers `ps`, all for one claim, add up to `net`. -/
def PaysExactly (ps : List Payout) (claimId : Nat) (net : Int) : Prop :=
  (∀ p ∈ ps, p.claimId = claimId) ∧ (ps.map (·.amount)).sum = net

/-- What a payout does with the claim: it is paid the net amount, or marked failed. -/
inductive Settled (s : State) (claim : Claim) (net : Int) : Claim → State → Prop
  | paid {s' : State} (ps : List Payout) (hps : PaysExactly ps claim.claimId net)
      (hlog : s'.payouts = s.payouts ++ ps) (hclaim : SameKind .claim s s') :
      Settled s claim net claim s'
  | failed {s' : State} (hlog : s'.payouts = s.payouts)
      (hclaim : SameKind .claim (s.setClaim (claim.moveTo .payoutFailed s.sequence)) s') :
      Settled s claim net (claim.moveTo .payoutFailed s.sequence) s'

theorem payFromTreasury_eq_ok {asset recipient : Address} {amount : Int}
    (h : s.payFromTreasury env claimId asset recipient amount = .ok s') :
    0 ≤ amount ∧ amount ≤ s.balance asset env.contract ∧
      s' = (s.moveTokens asset env.contract recipient amount).logPayout
        ⟨claimId, asset, env.contract, recipient, amount⟩ := by
  simp only [State.payFromTreasury, bind_eq_ok, pure_eq_ok, tokenTransfer_eq_ok] at h
  obtain ⟨s₁, ⟨-, hpos, hle, rfl⟩, rfl⟩ := h
  exact ⟨hpos, hle, rfl⟩

theorem payFromReinsurance_eq_ok {asset reinsurance recipient : Address} {amount : Int}
    (h : s.payFromReinsurance env claimId asset reinsurance recipient amount = .ok s') :
    amount ≤ s.balance asset reinsurance ∧
      s'.balance = (s.moveTokens asset reinsurance recipient amount).balance ∧
      s'.payouts = s.payouts ++ [⟨claimId, asset, reinsurance, recipient, amount⟩] := by
  simp only [State.payFromReinsurance, bind_eq_ok, pure_eq_ok] at h
  obtain ⟨s₁, h₁, rfl⟩ := h
  obtain ⟨-, hle, hbal, hpay⟩ := tokenTransferFrom_balance h₁
  exact ⟨hle, hbal, by simp [hpay]⟩

/-- **A payout is settled exactly when it is funded.** -/
theorem settlePayout_eq_ok {claim claim' : Claim} {asset recipient : Address} {net : Int}
    (h : settlePayout env s claim asset recipient net = .ok (claim', s')) :
    (s.Funded env asset net ∧ claim' = claim ∧ Settled s claim net claim' s') ∨
      (¬ s.Funded env asset net ∧ claim' = claim.moveTo .payoutFailed s.sequence ∧
        Settled s claim net claim' s') := by
  cases settlementRun_of_ok h with
  | treasury hcash hpaid =>
    obtain ⟨-, -, rfl⟩ := payFromTreasury_eq_ok hpaid
    exact .inl ⟨.inl hcash, rfl, .paid _ ⟨by simp, by simp⟩ rfl fun _ _ => rfl⟩
  | short hcash hmissing hpool hshort =>
    refine .inr ⟨?_, rfl, .failed rfl ?_⟩
    · rintro (hle | ⟨r, hr, hle⟩)
      · exact hcash hle
      · rw [hpool] at hr
        cases hr
        omega
    · rw [SameKind.emit_iff]
      exact SameKind.set (.refl _ s) _ _
  | @both reinsurance missing _ _ _ hmissing hpool henough _ hpaid hdrawn =>
    have hframe := frame_payFromReinsurance hdrawn
    obtain ⟨-, -, hlog⟩ := payFromReinsurance_eq_ok hdrawn
    obtain ⟨-, -, rfl⟩ := payFromTreasury_eq_ok hpaid
    refine .inl ⟨.inr ⟨reinsurance, hpool, by omega⟩, rfl, .paid
      [⟨claim.claimId, asset, env.contract, recipient, max (s.balance asset env.contract) 0⟩,
        ⟨claim.claimId, asset, reinsurance, recipient, missing⟩] ⟨by simp, ?_⟩ ?_ ?_⟩
    · simp [hmissing]
    · simp [hlog]
    · rw [SameKind.emit_iff, SameKind.emit_iff]
      exact SameKind.trans (fun _ _ => rfl) (hframe.sameKind rfl)
  | @reinsurance reinsurance missing _ _ hmissing hpool henough hnone hdrawn =>
    have hframe := frame_payFromReinsurance hdrawn
    obtain ⟨-, -, hlog⟩ := payFromReinsurance_eq_ok hdrawn
    refine .inl ⟨.inr ⟨reinsurance, hpool, by omega⟩, rfl, .paid
      [⟨claim.claimId, asset, reinsurance, recipient, missing⟩] ⟨by simp, ?_⟩ ?_ ?_⟩
    · simp only [List.map_cons, List.map_nil, List.sum_cons, List.sum_nil]
      omega
    · simp [hlog]
    · rw [SameKind.emit_iff, SameKind.emit_iff]
      exact SameKind.trans (fun _ _ => rfl) (hframe.sameKind rfl)

theorem Funded_congr {s₁ : State} {asset : Address} {net : Int} (hbal : s₁.balance = s.balance)
    (hall : s₁.allowance = s.allowance)
    (hre : s₁.get .reinsuranceContract = s.get .reinsuranceContract) :
    s₁.Funded env asset net ↔ s.Funded env asset net := by
  simp only [State.Funded, State.reinsuranceAvailable, hbal, hall, hre]

/-- What a payout was settled on does not matter outside the claims and the log. -/
theorem Settled.of_same {s₁ : State} {claim claim' : Claim} {net : Int}
    (h : Settled s₁ claim net claim' s') (hclaim : SameKind .claim s s₁)
    (hlog : s₁.payouts = s.payouts) (hseq : s₁.sequence = s.sequence) :
    Settled s claim net claim' s' := by
  cases h with
  | paid ps hps hlog' hclaim' => exact .paid ps hps (by rw [hlog', hlog]) (hclaim.trans hclaim')
  | failed hlog' hclaim' =>
    rw [hseq] at hclaim' ⊢
    exact .failed (by rw [hlog', hlog]) ((hclaim.set _ _).trans hclaim')

/-- **A claim is paid its net amount when the funds are there, and fails otherwise.** -/
theorem payout_eq_ok {claim claim' : Claim} (h : payout env s claim = .ok (claim', s')) :
    (∃ policy, s.getPolicy claim.claimant claim.policyId = some policy) ∧
      0 < claim.amount - claim.deductible ∧
      ((s.CanPay env claim ∧ claim' = claim) ∨
        (¬ s.CanPay env claim ∧ claim' = claim.moveTo .payoutFailed s.sequence)) ∧
      Settled s claim (claim.amount - claim.deductible) claim' s' := by
  simp only [payout, bind_eq_ok, okOr_eq_ok, ensure_eq_ok, checkedSub128, fit128_eq_some] at h
  obtain ⟨policy, hpolicy, -, -, net, ⟨-, rfl⟩, -, hnet, -, -, s₃, h₃, h₄⟩ := h
  have hpre : Frame [.assetLedger] s s₃ := by
    refine Frame.trans ?_ (frame_recordPayoutOut h₃)
    split <;> split <;> simp
  have hfunded : s₃.Funded env (s.effectiveAsset policy) (claim.amount - claim.deductible) ↔
      s.Funded env (s.effectiveAsset policy) (claim.amount - claim.deductible) :=
    Funded_congr (hpre.balance rfl) (hpre.allowance rfl) (hpre.get .reinsuranceContract rfl)
  have hcan : s.CanPay env claim ↔
      s.Funded env (s.effectiveAsset policy) (claim.amount - claim.deductible) := by
    constructor
    · rintro ⟨policy', hpolicy', hf⟩
      rw [hpolicy] at hpolicy'
      cases hpolicy'
      exact hf
    · exact fun hf => ⟨policy, hpolicy, hf⟩
  refine ⟨⟨policy, hpolicy⟩, hnet, ?_, ?_⟩
  · rw [hcan, ← hfunded]
    rcases settlePayout_eq_ok h₄ with ⟨hf, rfl, -⟩ | ⟨hf, rfl, -⟩
    · exact .inl ⟨hf, rfl⟩
    · rw [hpre.sequence]
      exact .inr ⟨hf, rfl⟩
  · have hsettled : Settled s₃ claim (claim.amount - claim.deductible) claim' s' := by
      rcases settlePayout_eq_ok h₄ with ⟨-, -, hs⟩ | ⟨-, -, hs⟩
      · exact hs
      · exact hs
    exact hsettled.of_same (hpre.sameKind rfl) (hpre.payouts rfl) hpre.sequence

/-- The record that `process_claim` leaves. -/
def Claim.processed (claim : Claim) (now : Nat) (failed : Bool) : Claim :=
  if failed then (claim.moveTo .paid now).moveTo .payoutFailed now else claim.moveTo .paid now

/-- The state in which `process_claim` calls `payout` for the first time. -/
def State.markPaid (s : State) (claimId : Nat) (claim : Claim) : State :=
  (((s.setOpenClaim claim.claimant claim.policyId false).remove
    (.claimRateLimitPrev claimId)).setClaim
    (claim.moveTo .paid s.sequence)).recordClaimPaid claim.claimant claim.policyId
      claim.amount s.sequence

theorem frame_markPaid (claimId : Nat) (claim : Claim) :
    Frame [.openClaim, .ratePrev, .claim, .rolling] s (s.markPaid claimId claim) := by
  refine Frame.trans ?_ ((frame_recordClaimPaid _ _ _ _ _).mono (by simp))
  simp

theorem claim_markPaid (claimId : Nat) (claim : Claim) :
    SameKind .claim (s.setClaim (claim.moveTo .paid s.sequence)) (s.markPaid claimId claim) := by
  refine SameKind.trans (SameKind.set ?_ _ _) ((frame_recordClaimPaid _ _ _ _ _).sameKind rfl)
  rw [SameKind.remove_iff rfl, SameKind.set_iff rfl]
  exact .refl _ s

theorem openClaim_markPaid (claimId : Nat) (claim : Claim) :
    SameKind .openClaim (s.setOpenClaim claim.claimant claim.policyId false)
      (s.markPaid claimId claim) := by
  refine SameKind.trans ?_ ((frame_recordClaimPaid _ _ _ _ _).sameKind rfl)
  rw [SameKind.set_iff rfl, SameKind.remove_iff rfl]
  exact .refl _ _

theorem canPay_markPaid (claimId : Nat) (claim : Claim) :
    (s.markPaid claimId claim).CanPay env (claim.moveTo .paid s.sequence) ↔ s.CanPay env claim := by
  have hf := frame_markPaid (s := s) claimId claim
  have hpol : (s.markPaid claimId claim).getPolicy claim.claimant claim.policyId =
    s.getPolicy claim.claimant claim.policyId := hf.get _ rfl
  have heff : ∀ p, (s.markPaid claimId claim).effectiveAsset p = s.effectiveAsset p := by
    intro p
    simp only [State.effectiveAsset, hf.get (.policyTypeConfig p.policyType) rfl]
  unfold State.CanPay
  change (∃ p, (s.markPaid claimId claim).getPolicy claim.claimant claim.policyId = some p ∧ _) ↔ _
  rw [hpol]
  refine exists_congr fun p => and_congr_right fun _ => ?_
  rw [heff]
  exact Funded_congr (hf.balance rfl) (hf.allowance rfl) (hf.get _ rfl)

/-- The two payouts of `process_claim`: without the funds the first one marks the claim failed and
the call ends; with them the claim is paid, and then settled again. -/
theorem processClaim_cases (h : processClaim env s claimId = .ok s') :
    ∃ claim, s.getClaim claimId = some claim ∧
      (claim.status = .approved ∨ claim.status = .appealApproved) ∧
      claim.disputeDeadlineLedger < s.sequence ∧
      ((¬ s.CanPay env claim ∧ payout env (s.markPaid claimId claim)
        (claim.moveTo .paid s.sequence) =
          .ok ((claim.moveTo .paid s.sequence).moveTo .payoutFailed s.sequence, s')) ∨
        (s.CanPay env claim ∧ ∃ s₄ claim₃ s₆,
          payout env (s.markPaid claimId claim) (claim.moveTo .paid s.sequence) =
            .ok (claim.moveTo .paid s.sequence, s₄) ∧
          payout env (s₄.recordClaimPaid claim.claimant claim.policyId claim.amount s.sequence)
            (claim.moveTo .paid s.sequence) = .ok (claim₃, s₆) ∧
          s' = s₆.emit (.claimStatusChanged claimId claim.status .paid s.sequence))) := by
  simp only [processClaim, bind_eq_ok, okOr_eq_ok, ensure_eq_ok, Prod.exists] at h
  obtain ⟨claim, hclaim, -, -, -, hst, -, hdisp, claim₂, s₄, h₄, h⟩ := h
  change payout env (s.markPaid claimId claim) (claim.moveTo .paid s.sequence) = _ at h₄
  refine ⟨claim, hclaim, hst, hdisp, ?_⟩
  obtain ⟨-, -, hcase, -⟩ := payout_eq_ok h₄
  rw [canPay_markPaid, (frame_markPaid claimId claim).sequence] at hcase
  rcases hcase with ⟨hpays, rfl⟩ | ⟨hno, rfl⟩
  · have hne : (claim.moveTo .paid s.sequence).status ≠ .payoutFailed := by
      intro hfail
      cases hfail
    rw [if_neg hne] at h
    simp only [bind_eq_ok, Prod.exists, pure_eq_ok] at h
    obtain ⟨claim₃, s₆, h₆, rfl⟩ := h
    exact .inr ⟨hpays, s₄, claim₃, s₆, h₄, h₆, rfl⟩
  · split at h
    · cases h
      exact .inl ⟨hno, h₄⟩
    · rename_i hne
      exact absurd rfl hne

/-- What `process_claim` does: the claim leaves its approved status and the flag is cleared.
Without the funds nothing is paid; with them the claim is paid once, and then settled
again. -/
theorem processClaim_eq_ok (h : processClaim env s claimId = .ok s') :
    ∃ claim failed, s.getClaim claimId = some claim ∧
      (claim.status = .approved ∨ claim.status = .appealApproved) ∧
      claim.disputeDeadlineLedger < s.sequence ∧ 0 < claim.amount - claim.deductible ∧
      SameKind .claim (s.setClaim (claim.processed s.sequence failed)) s' ∧
      SameKind .openClaim (s.setOpenClaim claim.claimant claim.policyId false) s' ∧
      (∃ ps, (∀ p ∈ ps, p.claimId = claim.claimId) ∧ s'.payouts = s.payouts ++ ps) ∧
      (¬ s.CanPay env claim → failed = true ∧ s'.payouts = s.payouts) := by
  obtain ⟨claim, hclaim, hst, hdisp, hcase⟩ := processClaim_cases h
  have hf₃ := frame_markPaid (s := s) claimId claim
  have hclaim₃ := claim_markPaid (s := s) claimId claim
  have hflag₃ := openClaim_markPaid (s := s) claimId claim
  rcases hcase with ⟨-, h₄⟩ | ⟨hpays, s₄, claim₃, s₆, h₄, h₆, rfl⟩
  · obtain ⟨-, hnet, -, hset⟩ := payout_eq_ok h₄
    obtain ⟨hlog, hrec⟩ : s'.payouts = s.payouts ∧
        SameKind .claim ((s.markPaid claimId claim).setClaim
          ((claim.moveTo .paid s.sequence).moveTo .payoutFailed s.sequence)) s' := by
      cases hset with
      | failed hlog hrec =>
        rw [hf₃.sequence] at hrec
        exact ⟨by rw [hlog, hf₃.payouts rfl], hrec⟩
    refine ⟨claim, true, hclaim, hst, hdisp, hnet, (hclaim₃.overwrite _).trans hrec,
      hflag₃.trans ((frame_payout h₄).sameKind rfl), ⟨[], by simp, by simpa using hlog⟩,
      fun _ => ⟨rfl, hlog⟩⟩
  · obtain ⟨-, hnet, -, hset⟩ := payout_eq_ok h₄
    have hf₄ := frame_payout h₄
    obtain ⟨hclaim₄, ps, hps, hlog⟩ : SameKind .claim (s.markPaid claimId claim) s₄ ∧
        ∃ ps, (∀ p ∈ ps, p.claimId = claim.claimId) ∧ s₄.payouts =
          (s.markPaid claimId claim).payouts ++ ps := by
      cases hset with
      | paid ps hps hlog hrec => exact ⟨hrec, ps, hps.1, hlog⟩
    obtain ⟨-, -, -, hset₆⟩ := payout_eq_ok h₆
    have hf₅ := frame_recordClaimPaid s₄ claim.claimant claim.policyId claim.amount s.sequence
    have hclaim₅ := (hclaim₃.trans hclaim₄).trans (hf₅.sameKind rfl)
    have hseq :
        (s₄.recordClaimPaid claim.claimant claim.policyId claim.amount s.sequence).sequence =
          s.sequence := by
      rw [hf₅.sequence, hf₄.sequence, hf₃.sequence]
    have hlog₅ :
        (s₄.recordClaimPaid claim.claimant claim.policyId claim.amount s.sequence).payouts =
          s.payouts ++ ps := by
      rw [hf₅.payouts rfl, hlog, hf₃.payouts rfl]
    refine ⟨claim, decide (claim₃.status = .payoutFailed), hclaim, hst, hdisp, hnet, ?_, ?_, ?_,
      fun hno => absurd hpays hno⟩
    · rw [SameKind.emit_iff]
      cases hset₆ with
      | paid ps hps hlog hrec => exact hclaim₅.trans hrec
      | failed hlog hrec =>
        rw [hseq] at hrec
        exact (hclaim₅.overwrite _).trans hrec
    · rw [SameKind.emit_iff]
      exact ((hflag₃.trans (hf₄.sameKind rfl)).trans (hf₅.sameKind rfl)).trans
        ((frame_payout h₆).sameKind rfl)
    · cases hset₆ with
      | paid qs hqs hlog₆ hrec =>
        refine ⟨ps ++ qs, ?_, ?_⟩
        · intro p hp
          rcases List.mem_append.mp hp with hp | hp
          · exact hps p hp
          · exact hqs.1 p hp
        · rw [State.payouts_emit, hlog₆, hlog₅, List.append_assoc]
      | failed hlog₆ hrec => exact ⟨ps, hps, by rw [State.payouts_emit, hlog₆, hlog₅]⟩

theorem processPayoutTimeout_eq_ok {st : ClaimStatus}
    (h : processPayoutTimeout s claimId = .ok (st, s')) :
    ∃ claim, s.getClaim claimId = some claim ∧ claim.status = .approved ∧
      SameKind .claim (s.setClaim (claim.moveTo .payoutTimeout s.sequence)) s' ∧
      SameKind .openClaim (s.setOpenClaim claim.claimant claim.policyId false) s' := by
  simp only [processPayoutTimeout, bind_eq_ok, okOr_eq_ok, ensure_eq_ok, pure_eq_ok,
    Prod.mk.injEq] at h
  obtain ⟨claim, hclaim, -, hst, -, -, -, rfl⟩ := h
  refine ⟨claim, hclaim, hst, ?_, ?_⟩
  · rw [SameKind.emit_iff]
    refine SameKind.set ?_ _ _
    rw [SameKind.remove_iff rfl, SameKind.set_iff rfl]
    exact .refl _ s
  · rw [SameKind.emit_iff, SameKind.set_iff rfl, SameKind.remove_iff rfl]
    exact .refl _ _

theorem disputeClaim_eq_ok (h : disputeClaim s claimId = .ok s') :
    ∃ claim, s.getClaim claimId = some claim ∧ claim.status = .approved ∧
      SameKind .claim (s.setClaim (claim.moveTo .disputed s.sequence)) s' := by
  simp only [disputeClaim, bind_eq_ok, okOr_eq_ok, ensure_eq_ok, pure_eq_ok] at h
  obtain ⟨claim, hclaim, -, hst, -, -, rfl⟩ := h
  exact ⟨claim, hclaim, hst, by simp⟩

/-- The claim after an installment. -/
def Claim.paidInstallment (claim : Claim) (amount : Int) : Claim :=
  { claim with
    paidAmount := claim.paidAmount + amount
    installmentCount := claim.installmentCount + 1 }

/-- The installment that brings the claim to its net amount. -/
def Claim.Completes (claim : Claim) (amount : Int) : Prop :=
  claim.amount - claim.deductible ≤ claim.paidAmount + amount

/-- An installment is paid within the net amount; the last one moves the claim to `Paid` and
clears the flag. -/
theorem disburseInstallment_eq_ok {amount : Int}
    (h : disburseInstallment env s claimId amount = .ok s') :
    ∃ claim p, s.getClaim claimId = some claim ∧ claim.status = .approved ∧ 0 < amount ∧
      amount ≤ claim.amount - claim.deductible - claim.paidAmount ∧
      p.claimId = claimId ∧ p.amount = amount ∧ s'.payouts = s.payouts ++ [p] ∧
      (claim.Completes amount →
        SameKind .claim (s.setClaim ((claim.paidInstallment amount).moveTo .paid s.sequence)) s' ∧
        SameKind .openClaim (s.setOpenClaim claim.claimant claim.policyId false) s') ∧
      (¬ claim.Completes amount →
        SameKind .claim (s.setClaim (claim.paidInstallment amount)) s' ∧
        SameKind .openClaim s s') := by
  simp only [disburseInstallment, bind_eq_ok, okOr_eq_ok, ensure_eq_ok, pure_eq_ok, checkedSub128,
    checkedAdd128, fit128_eq_some, add32_eq_ok] at h
  obtain ⟨-, hpos, claim, hclaim, -, -, -, hst, -, -, net, ⟨-, rfl⟩, -, -, remaining,
    ⟨-, rfl⟩, -, hle, policy, -, -, -, s₁, h₁, s₂, h₂, paid, ⟨-, rfl⟩, count, ⟨-, rfl⟩, rfl⟩ := h
  have hf₁ := frame_recordPayoutOut h₁
  have hf₂ := frame_payFromTreasury h₂
  obtain ⟨-, -, hs₂⟩ := payFromTreasury_eq_ok h₂
  have hseq : s₂.sequence = s.sequence := by rw [hf₂.sequence, hf₁.sequence]
  have hsame : ∀ kd, [Kind.assetLedger, .cash, .payout].contains kd = false → SameKind kd s s₂ :=
    fun kd hkd => ((hf₁.mono (by simp)).trans (hf₂.mono (by simp))).sameKind hkd
  have hlog : s₂.payouts = s.payouts ++
      [⟨claimId, s.effectiveAsset policy, env.contract, policy.payoutTo, amount⟩] := by
    rw [hs₂]
    simp [hf₁.payouts rfl]
  refine ⟨claim, ⟨claimId, s.effectiveAsset policy, env.contract, policy.payoutTo, amount⟩, hclaim,
    hst, hpos, hle, rfl, rfl, ?_, ?_, ?_⟩
  · split
    · exact hlog
    · exact hlog
  · intro hcomp
    unfold Claim.Completes at hcomp
    rw [if_pos hcomp]
    constructor
    · simp only [State.markFullyPaid, State.sequence_emit, hseq]
      refine SameKind.set ?_ _ _
      refine SameKind.trans ?_ ((frame_recordClaimPaid _ _ _ _ _).sameKind rfl)
      rw [SameKind.emit_iff, SameKind.emit_iff, SameKind.remove_iff rfl, SameKind.set_iff rfl,
        SameKind.emit_iff]
      exact hsame .claim rfl
    · rw [SameKind.set_iff rfl, State.markFullyPaid]
      refine SameKind.trans ?_ ((frame_recordClaimPaid _ _ _ _ _).sameKind rfl)
      rw [SameKind.emit_iff, SameKind.emit_iff, SameKind.remove_iff rfl]
      refine SameKind.set ?_ _ _
      rw [SameKind.emit_iff]
      exact hsame .openClaim rfl
  · intro hcomp
    unfold Claim.Completes at hcomp
    rw [if_neg hcomp]
    constructor
    · refine SameKind.set ?_ _ _
      rw [SameKind.emit_iff]
      exact hsame .claim rfl
    · rw [SameKind.set_iff rfl, SameKind.emit_iff]
      exact hsame .openClaim rfl

end Payouts

/-! ## The appeal round -/

section Appeals

variable {s s' : State} {claimId : Nat}

/-- The record of a claim whose appeal was opened. -/
def Claim.appealed (claim : Claim) (now deadline : Nat) : Claim :=
  { claim.moveTo .underAppeal now with
    appealApproveVotes := 0
    appealRejectVotes := 0
    appealDeadlineLedger := deadline
    appealsCount := saturatingAdd32 claim.appealsCount 1 }

theorem openAppeal_eq_ok {claimant : Address} (h : openAppeal s claimant claimId = .ok s') :
    ∃ claim deadline, s.getClaim claimId = some claim ∧ claim.status = .rejected ∧
      SameKind .claim (s.setClaim (claim.appealed s.sequence deadline)) s' ∧
      SameKind .openClaim (s.setOpenClaim claim.claimant claim.policyId true) s' := by
  simp only [openAppeal, bind_eq_ok, okOr_eq_ok, ensure_eq_ok, pure_eq_ok] at h
  obtain ⟨deadline, -, -, -, claim, hclaim, -, -, -, hst, -, -, -, -, rfl⟩ := h
  refine ⟨claim, deadline, hclaim, hst, ?_, ?_⟩
  · rw [SameKind.emit_iff, SameKind.emit_iff]
    refine SameKind.set ?_ _ _
    rw [SameKind.set_iff rfl, State.snapshotAppealVoters, SameKind.set_iff rfl,
      SameKind.set_iff rfl]
    exact .refl _ s
  · rw [SameKind.emit_iff, SameKind.emit_iff, SameKind.set_iff rfl]
    refine SameKind.set ?_ _ _
    rw [State.snapshotAppealVoters, SameKind.set_iff rfl, SameKind.set_iff rfl]
    exact .refl _ s

/-- The record of a claim whose appeal was decided. -/
def Claim.appealClosed (claim : Claim) (outcome : ClaimStatus)
    (now payoutDeadline dispute : Nat) : Claim :=
  { claim.moveTo outcome now with
    payoutDeadlineLedger := payoutDeadline
    disputeDeadlineLedger := dispute }

/-- A decided appeal: the old record with a new status and new deadlines, and the flag
cleared. -/
theorem finalizeAppealOutcome_eq_ok {claim claim' : Claim} {outcome : ClaimStatus}
    (h : finalizeAppealOutcome s claim outcome = .ok (claim', s')) :
    (∃ payoutDeadline dispute,
      claim' = claim.appealClosed outcome s.sequence payoutDeadline dispute) ∧
      SameKind .openClaim (s.setOpenClaim claim.claimant claim.policyId false) s' := by
  obtain ⟨payoutDeadline, -, dispute, -, rfl, rfl⟩ := finalizeAppealOutcome_cases h
  exact ⟨⟨payoutDeadline, dispute, rfl⟩, by simp⟩

/-- The record and the flag after a step of the appeal round on `claim`: the round goes on, or
is decided. -/
inductive AppealStep (s s' : State) (claim : Claim) : Prop
  | voting (hclaim : SameKind .claim (s.setClaim claim) s') (hflag : SameKind .openClaim s s')
  | decided (outcome : ClaimStatus) (payoutDeadline dispute : Nat)
      (hout : outcome = .appealApproved ∨ outcome = .appealRejected)
      (hclaim : SameKind .claim
        (s.setClaim (claim.appealClosed outcome s.sequence payoutDeadline dispute)) s')
      (hflag : SameKind .openClaim (s.setOpenClaim claim.claimant claim.policyId false) s')

/-- The outcome that the tallies of `claim` give at a ballot of the appeal round, if they meet the
quorum. -/
def State.appealBallotOutcome (s : State) (claimId : Nat) (claim : Claim) : Option ClaimStatus :=
  (resolvePluralityIfQuorumMet claim.appealApproveVotes claim.appealRejectVotes
    (claim.appealApproveVotes + claim.appealRejectVotes) (s.getAppealVoters claimId).length
    (s.getAppealClaimQuorumBps claimId)).map
      fun raw => if raw = .approved then .appealApproved else .appealRejected

/-- The number of voters that an appeal is decided by after its deadline. -/
def State.appealElectorate (s : State) (claimId : Nat) (claim : Claim) : Nat :=
  if s.hasAppealVoters claimId then (s.getAppealVoters claimId).length else claim.eligibleVoterCount

/-- The outcome that the tallies of `claim` give after the deadline of the appeal round. -/
def State.appealDeadlineOutcome (s : State) (claimId : Nat) (claim : Claim) : ClaimStatus :=
  if participationQuorumMet (claim.appealApproveVotes + claim.appealRejectVotes)
      (s.appealElectorate claimId claim) (s.getAppealClaimQuorumBps claimId) = true ∧
      claim.appealRejectVotes < claim.appealApproveVotes then .appealApproved
  else .appealRejected

theorem State.appealBallotOutcome_eq_some {claim : Claim} {outcome : ClaimStatus}
    (h : s.appealBallotOutcome claimId claim = some outcome) :
    outcome = .appealApproved ∨ outcome = .appealRejected := by
  obtain ⟨raw, -, rfl⟩ := Option.map_eq_some_iff.mp h
  exact ite_eq_or_eq _ _ _

/-- A ballot of the appeal round is stored and counted; the round goes on, or is decided by the
new tallies. -/
theorem voteOnAppealWith_cases {weight : State → Nat} {voter : Address} {vote : VoteOption}
    {st : ClaimStatus} (h : voteOnAppealWith s weight voter claimId vote = .ok (st, s')) :
    ∃ claim w, w = weight (s.set (.appealVote claimId voter) vote) ∧
      s.getClaim claimId = some claim ∧ claim.status = .underAppeal ∧
      voter ∈ s.getAppealVoters claimId ∧
      ((s.appealBallotOutcome claimId (claim.tallyAppeal vote w) = none ∧
          s' = ((s.set (.appealVote claimId voter) vote).emit
            (.appealVoteCast claimId voter vote s.sequence)).setClaim (claim.tallyAppeal vote w)) ∨
        ∃ outcome claim' s₂,
          s.appealBallotOutcome claimId (claim.tallyAppeal vote w) = some outcome ∧
          finalizeAppealOutcome ((s.set (.appealVote claimId voter) vote).emit
            (.appealVoteCast claimId voter vote s.sequence)) (claim.tallyAppeal vote w) outcome =
              .ok (claim', s₂) ∧
          s' = s₂.setClaim claim') := by
  simp only [voteOnAppealWith, bind_eq_ok, okOr_eq_ok, ensure_eq_ok, add32_eq_ok] at h
  obtain ⟨-, -, claim, hclaim, -, hst, -, -, -, -, -, hmem, target, -, -, -, -, -,
    cast, ⟨-, rfl⟩, h⟩ := h
  refine ⟨claim, _, rfl, hclaim, hst, hmem, ?_⟩
  have hquorum : ((s.set (.appealVote claimId voter) vote).emit
      (.appealVoteCast claimId voter vote s.sequence)).getAppealClaimQuorumBps claimId =
        s.getAppealClaimQuorumBps claimId := by
    simp [State.getAppealClaimQuorumBps]
  rw [hquorum] at h
  split at h
  · rename_i raw hraw
    simp only [bind_eq_ok, Prod.exists, pure_eq_ok, Prod.mk.injEq] at h
    obtain ⟨claim₂, s₂, h₂, -, rfl⟩ := h
    exact .inr ⟨_, claim₂, s₂, Option.map_eq_some_iff.mpr ⟨raw, hraw, rfl⟩, h₂, rfl⟩
  · rename_i hraw
    simp only [bind_eq_ok, Prod.exists, pure_eq_ok, Prod.mk.injEq] at h
    obtain ⟨claim₂, s₂, ⟨rfl, rfl⟩, -, rfl⟩ := h
    exact .inl ⟨Option.map_eq_none_iff.mpr hraw, rfl⟩

theorem voteOnAppeal_cases {voter : Address} {vote : VoteOption} {st : ClaimStatus}
    (h : voteOnAppeal s voter claimId vote = .ok (st, s')) :
    ∃ claim, s.getClaim claimId = some claim ∧ claim.status = .underAppeal ∧
      voter ∈ s.getAppealVoters claimId ∧
      ((s.appealBallotOutcome claimId (claim.tallyAppeal vote 1) = none ∧
          s' = ((s.set (.appealVote claimId voter) vote).emit
            (.appealVoteCast claimId voter vote s.sequence)).setClaim (claim.tallyAppeal vote 1)) ∨
        ∃ outcome claim' s₂,
          s.appealBallotOutcome claimId (claim.tallyAppeal vote 1) = some outcome ∧
          finalizeAppealOutcome ((s.set (.appealVote claimId voter) vote).emit
            (.appealVoteCast claimId voter vote s.sequence)) (claim.tallyAppeal vote 1) outcome =
              .ok (claim', s₂) ∧
          s' = s₂.setClaim claim') := by
  obtain ⟨claim, w, rfl, h⟩ := voteOnAppealWith_cases (voteOnAppeal_eq s voter claimId vote ▸ h)
  exact ⟨claim, h⟩

theorem voteOnAppealWith_eq_ok {weight : State → Nat} {voter : Address} {vote : VoteOption}
    {st : ClaimStatus} (h : voteOnAppealWith s weight voter claimId vote = .ok (st, s')) :
    ∃ claim w, w = weight (s.set (.appealVote claimId voter) vote) ∧
      s.getClaim claimId = some claim ∧ claim.status = .underAppeal ∧
      AppealStep s s' (claim.tallyAppeal vote w) := by
  obtain ⟨claim, w, hw, hclaim, hst, -, ⟨-, rfl⟩ | ⟨outcome, claim₂, s₂, hout, h₂, rfl⟩⟩ :=
    voteOnAppealWith_cases h
  · refine ⟨claim, w, hw, hclaim, hst, .voting ?_ ?_⟩
    · refine SameKind.set ?_ _ _
      rw [SameKind.emit_iff, SameKind.set_iff rfl]
      exact .refl _ s
    · rw [SameKind.set_iff rfl, SameKind.emit_iff, SameKind.set_iff rfl]
      exact .refl _ s
  · have hf := frame_finalizeAppealOutcome h₂
    obtain ⟨⟨x, y, rfl⟩, hflag⟩ := finalizeAppealOutcome_eq_ok h₂
    refine ⟨claim, w, hw, hclaim, hst,
      .decided outcome x y (State.appealBallotOutcome_eq_some hout) ?_ ?_⟩
    · refine SameKind.set ?_ _ _
      refine SameKind.trans ?_ (hf.sameKind rfl)
      rw [SameKind.emit_iff, SameKind.set_iff rfl]
      exact .refl _ s
    · rw [SameKind.set_iff rfl]
      refine SameKind.trans (SameKind.set ?_ _ _) hflag
      rw [SameKind.emit_iff, SameKind.set_iff rfl]
      exact .refl _ s

theorem voteOnAppeal_eq_ok {voter : Address} {vote : VoteOption} {st : ClaimStatus}
    (h : voteOnAppeal s voter claimId vote = .ok (st, s')) :
    ∃ claim, s.getClaim claimId = some claim ∧ claim.status = .underAppeal ∧
      AppealStep s s' (claim.tallyAppeal vote 1) := by
  obtain ⟨claim, w, rfl, h⟩ := voteOnAppealWith_eq_ok (voteOnAppeal_eq s voter claimId vote ▸ h)
  exact ⟨claim, h⟩

theorem finalizeAppeal_cases {st : ClaimStatus} (h : finalizeAppeal s claimId = .ok (st, s')) :
    ∃ claim claim' s₁, s.getClaim claimId = some claim ∧ claim.status = .underAppeal ∧
      finalizeAppealOutcome s claim (s.appealDeadlineOutcome claimId claim) = .ok (claim', s₁) ∧
      s' = s₁.setClaim claim' ∧ st = claim'.status := by
  simp only [finalizeAppeal, bind_eq_ok, okOr_eq_ok, ensure_eq_ok, Prod.exists, pure_eq_ok,
    Prod.mk.injEq, add32_eq_ok] at h
  obtain ⟨-, -, claim, hclaim, -, hst, -, -, cast, ⟨-, rfl⟩, claim₁, s₁, h₁, rfl, rfl⟩ := h
  exact ⟨claim, claim₁, s₁, hclaim, hst, h₁, rfl, rfl⟩

theorem finalizeAppeal_eq_ok {st : ClaimStatus} (h : finalizeAppeal s claimId = .ok (st, s')) :
    ∃ claim, s.getClaim claimId = some claim ∧ claim.status = .underAppeal ∧
      AppealStep s s' claim := by
  obtain ⟨claim, claim₁, s₁, hclaim, hst, h₁, rfl, -⟩ := finalizeAppeal_cases h
  have hf := frame_finalizeAppealOutcome h₁
  obtain ⟨⟨x, y, rfl⟩, hflag⟩ := finalizeAppealOutcome_eq_ok h₁
  refine ⟨claim, hclaim, hst, .decided _ x y ?_ (SameKind.set (hf.sameKind rfl) _ _) ?_⟩
  · exact ite_eq_or_eq _ _ _
  · rw [SameKind.set_iff rfl]
    exact hflag

end Appeals

end NiffyInsure
