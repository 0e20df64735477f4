import NiffyInsure.Lib.Poll
import NiffyInsure.Ballots
import NiffyInsure.Registry

/-!
# The order of the ballots

The base round of a claim is a `Poll` that stops at the quorum: `vote_on_claim` decides the claim
with the ballot that meets the participation quorum, and refuses the later ones.  So the final
status depends on the order in which the electorate votes, unless no order can tip it.

* `Order`: an order in which ballots are submitted before the deadline, each call accepted or
  refused, and the claim is finalized after it.
* `Tracks`: the state of the claim follows the stage of the poll (`tracks_vote`), and at the end
  the status is the outcome of the poll (`claimStatus_finalize`).
* `same_status_iff`: any two orders end with the same status exactly when the poll is steady.
-/

namespace NiffyInsure

open Machine

/-! ## Submitting ballots -/

/-- Who votes, and how. -/
structure Ballot where
  voter : Address
  vote : VoteOption
  deriving DecidableEq

/-- A ballot with the ledger in which it is submitted. -/
structure Submission extends Ballot where
  ledger : Nat

/-- The state in ledger `n`. -/
def State.inLedger (s : State) (n : Nat) : State := { s with sequence := n }

@[simp] theorem State.get_inLedger (s : State) (n : Nat) (k : DataKey) :
    (s.inLedger n).get k = s.get k := rfl

@[simp] theorem State.sequence_inLedger (s : State) (n : Nat) : (s.inLedger n).sequence = n := rfl

theorem Frame.inLedger {ks : List Kind} {s t : State} {m : Nat} (h : Frame ks (s.inLedger m) t)
    (n : Nat) : Frame ks (s.inLedger n) (t.inLedger n) :=
  ⟨h.get, h.balance, h.allowance, h.payouts, h.events, rfl⟩

/-- Make the call in ledger `n`.  A refused call changes nothing. -/
def State.attempt (env : Env) (s : State) (n : Nat) (c : ClaimCall) : State :=
  (s.inLedger n).ignoreErr (c.exec env (s.inLedger n))

/-- An order of the ballots: all of them are submitted from the ledger of `s` to the deadline,
and the claim is finalized after the deadline, where all ledger windows fit. -/
structure Order (s : State) (deadline : Nat) (ballots : List Ballot) where
  submissions : List Submission
  closing : Nat
  perm : (submissions.map (·.toBallot)).Perm ballots
  ledgers : (s.sequence :: submissions.map (·.ledger)).Pairwise (· ≤ ·)
  beforeDeadline : ∀ b ∈ submissions, b.ledger ≤ deadline
  afterDeadline : deadline < closing
  safe : closing ≤ MAX_SAFE_LEDGER

/-- Submit the ballots one after the other. -/
def State.submitAll (env : Env) (claimId : Nat) (s : State)
    (submissions : List Submission) : State :=
  submissions.foldl (fun t b => t.attempt env b.ledger (.voteOnClaim b.voter claimId b.vote)) s

/-- The state after the ballots and `finalize_claim`. -/
def Order.run {s : State} {deadline : Nat} {ballots : List Ballot} (o : Order s deadline ballots)
    (env : Env) (claimId : Nat) : State :=
  (s.submitAll env claimId o.submissions).attempt env o.closing (.finalizeClaim claimId)

/-- The status of a claim. -/
def State.claimStatus (s : State) (claimId : Nat) : Option ClaimStatus :=
  (s.getClaim claimId).map (·.status)

/-- The voter may vote on the claim: it is in the electorate, has not given its vote away, and
has not voted. -/
structure State.Eligible (s : State) (claimId : Nat) (claim : Claim) (voter : Address) : Prop where
  notClaimant : voter ≠ claim.claimant
  member : voter ∈ s.getClaimVoters claimId
  ownVote : s.resolveVoteDelegationTarget voter s.sequence = .ok voter
  fresh : s.getVote claimId voter = none

/-! ## When the calls succeed -/

section Succeeds

variable {s s' : State} {claimId : Nat} {claim : Claim}

/-- The windows that the end of a base round opens do not overflow. -/
structure WindowsFit (now : Nat) : Prop where
  appeal : now + APPEAL_OPEN_WINDOW_LEDGERS ≤ U32_MAX
  payout : now + PAYOUT_TIMEOUT_LEDGERS ≤ U32_MAX
  dispute : now + DEFAULT_DISPUTE_WINDOW_LEDGERS ≤ U32_MAX

theorem windowsFit_of_safe {now : Nat} (hsafe : now ≤ MAX_SAFE_LEDGER) : WindowsFit now := by
  have hfit : ∀ w, w ≤ MAX_VOTING_DURATION_LEDGERS → now + w ≤ U32_MAX := by
    intro w hw
    have hmax : MAX_VOTING_DURATION_LEDGERS ≤ U32_MAX := by decide
    unfold MAX_SAFE_LEDGER at hsafe
    omega
  exact ⟨hfit _ (by decide), hfit _ (by decide), hfit _ (by decide)⟩

theorem exists_decide (claim : Claim) (outcome : ClaimStatus) {now : Nat} (b : Bool)
    (hwindows : WindowsFit now) : ∃ claim', claim.decide outcome now b = .ok claim' := by
  have hfit : ∀ w, now + w ≤ U32_MAX →
      okOr (checkedAdd32 now w) (.error .overflow) = .ok (now + w) := by
    intro w hw
    rw [okOr_eq_ok, checkedAdd32_eq_some]
    exact ⟨hw, rfl⟩
  dsimp only [Claim.decide]
  rw [hfit _ hwindows.appeal, hfit _ hwindows.payout, hfit _ hwindows.dispute]
  split <;> split <;> split <;> exact ⟨_, rfl⟩

theorem exists_voteOnClaim {voter : Address} {vote : VoteOption}
    (hpause : s.assertClaimsNotPaused = .ok ()) (hclaim : s.getClaim claimId = some claim)
    (hcheck : s.checkBallot voter claimId claim = .ok ())
    (hweight : s.votingPowerFor claimId voter 1 = .ok 1)
    (hfit : (claim.tally vote 1).approveVotes + (claim.tally vote 1).rejectVotes ≤ U32_MAX)
    (hbuckets : s.BucketsFilled) (hsafe : s.sequence ≤ MAX_SAFE_LEDGER) :
    ∃ st s', voteOnClaim s voter claimId vote = .ok (st, s') := by
  have hvote : (s.setVote claimId voter vote).BucketsFilled :=
    bucketsFilled_set (by simp) _ hbuckets
  have hweight' : (s.setVote claimId voter vote).votingPowerFor claimId voter 1 = .ok 1 := by
    rw [votingPowerFor_setVote, hweight]
  unfold voteOnClaim voteOnClaimWith
  simp only [hpause, hclaim, okOr, hcheck, hweight', add32, checkedAdd32, if_pos hfit,
    bind, Except.bind]
  cases hres : resolvePluralityIfQuorumMet (claim.tally vote 1).approveVotes
      (claim.tally vote 1).rejectVotes
      ((claim.tally vote 1).approveVotes + (claim.tally vote 1).rejectVotes)
      (claim.tally vote 1).eligibleVoterCount
      ((s.setVote claimId voter vote).effectiveQuorumBps claimId) with
  | none => exact ⟨_, _, rfl⟩
  | some outcome =>
    obtain ⟨claim', hdec⟩ := exists_decide (claim.tally vote 1) outcome false
      (windowsFit_of_safe hsafe)
    obtain ⟨s₂, hclose⟩ := exists_closeRound hvote claimId claim.status claim'
    simp only [hdec, hclose]
    exact ⟨_, _, rfl⟩

theorem exists_finalizeClaimInner (hclaim : s.getClaim claimId = some claim)
    (hterm : claim.status.isTerminal = false)
    (hpast : isClaimPastVotingDeadline s.sequence claim.votingDeadlineLedger = true)
    (hfit : claim.approveVotes + claim.rejectVotes ≤ U32_MAX)
    (hbuckets : s.BucketsFilled) (hwindows : WindowsFit s.sequence) :
    ∃ st s', finalizeClaimInner s claimId = .ok (st, s') := by
  obtain ⟨claim', hdec⟩ := exists_decide claim (s.deadlineOutcome claimId claim) true hwindows
  obtain ⟨s₁, hclose⟩ := exists_closeRound hbuckets claimId claim.status claim'
  refine ⟨s.deadlineOutcome claimId claim, s₁, ?_⟩
  unfold finalizeClaimInner
  simp only [hclaim, okOr, bind_eq_ok, ensure_eq_ok, add32_eq_ok, pure_eq_ok]
  exact ⟨claim, rfl, (), hterm, (), hpast, _, ⟨hfit, rfl⟩, claim', hdec, s₁, hclose, rfl⟩

end Succeeds

/-! ## Attempts -/

section Attempts

variable {env : Env} {s s' : State} {n claimId : Nat} {c : ClaimCall}

theorem attempt_of_ok (h : c.exec env (s.inLedger n) = .ok s') : s.attempt env n c = s' := by
  rw [State.attempt, h]
  rfl

theorem attempt_of_refused (h : ∀ s', c.exec env (s.inLedger n) ≠ .ok s') :
    s.attempt env n c = s.inLedger n := by
  unfold State.attempt
  cases hr : c.exec env (s.inLedger n) with
  | ok s' => exact absurd hr (h s')
  | error e => rfl

theorem exec_voteOnClaim {voter : Address} {vote : VoteOption} :
    (ClaimCall.voteOnClaim voter claimId vote).exec env s = .ok s' ↔
      env.auths voter = true ∧ ∃ st, voteOnClaim s voter claimId vote = .ok (st, s') := by
  simp only [ClaimCall.exec, bind_eq_ok, requireAuth_eq_ok, dropValue_eq_ok]
  constructor
  · rintro ⟨-, hauth, h⟩
    exact ⟨hauth, h⟩
  · rintro ⟨hauth, h⟩
    exact ⟨(), hauth, h⟩

theorem exec_finalizeClaim :
    (ClaimCall.finalizeClaim claimId).exec env s = .ok s' ↔
      s.assertClaimsNotPaused = .ok () ∧ ∃ st, finalizeClaimInner s claimId = .ok (st, s') := by
  simp only [ClaimCall.exec, dropValue_eq_ok, finalizeClaim, bind_eq_ok]
  constructor
  · rintro ⟨st, u, hpause, h⟩
    exact ⟨hpause, st, h⟩
  · rintro ⟨hpause, st, h⟩
    exact ⟨st, (), hpause, h⟩

theorem attempt_vote_refused {voter : Address} {vote : VoteOption}
    (h : ∀ claim, s.getClaim claimId = some claim → s.assertClaimsNotPaused = .ok () →
      (s.inLedger n).checkBallot voter claimId claim ≠ .ok ()) :
    s.attempt env n (.voteOnClaim voter claimId vote) = s.inLedger n := by
  refine attempt_of_refused fun s' hexec => ?_
  obtain ⟨-, st, hvote⟩ := exec_voteOnClaim.mp hexec
  have hpause : s.assertClaimsNotPaused = .ok () := by
    obtain ⟨u, hpause, -⟩ := bind_eq_ok.mp hvote
    exact hpause
  obtain ⟨claim, w, hclaim, hcheck, -⟩ := voteOnClaim_eq_ok hvote
  exact h claim hclaim hpause hcheck

theorem getVote_attempt_vote {voter other : Address} {vote : VoteOption} (hne : other ≠ voter) :
    (s.attempt env n (.voteOnClaim voter claimId vote)).getVote claimId other =
      s.getVote claimId other := by
  cases hr : (ClaimCall.voteOnClaim voter claimId vote).exec env (s.inLedger n) with
  | error e =>
    rw [attempt_of_refused fun s' h => by rw [hr] at h; cases h]
    rfl
  | ok s' =>
    rw [attempt_of_ok hr]
    obtain ⟨-, st, hvote⟩ := exec_voteOnClaim.mp hr
    have hother : ((s.inLedger n).setVote claimId voter vote).getVote claimId other =
        s.getVote claimId other := by
      rw [State.getVote, State.setVote, State.get_set_of_ne _ _ (by simpa using hne)]
      rfl
    obtain ⟨claim, w, -, -, -, ⟨-, rfl⟩ | ⟨outcome, -, hclosed⟩⟩ := voteOnClaim_cases hvote
    · rw [State.getVote, State.setClaim, State.get_set_of_ne _ _ (by simp)]
      exact hother
    · rw [getVote_of_same (hclosed.frame.sameKind rfl)]
      exact hother

end Attempts

/-! ## The poll of a claim -/

/-- The ballot is in favour of the claim. -/
def VoteOption.inFavour : VoteOption → Bool
  | .approve => true
  | .reject => false

/-- The rule of a claim's base round. -/
def State.pollRule (s : State) (claimId : Nat) (claim : Claim) : Poll.Rule where
  quorum := requiredCastForQuorum claim.eligibleVoterCount (s.effectiveQuorumBps claimId)
  cap := s.getMaxVotersPerClaim

/-- The status that the outcome of the poll gives the claim. -/
def statusOf (carried : Bool) : ClaimStatus := if carried then .approved else .rejected

/-- The claim with other tallies. -/
def Claim.withTallies (claim : Claim) (yes no : Nat) : Claim :=
  { claim with approveVotes := yes, rejectVotes := no }

/-- What is known of every reached state. -/
structure VoteFacts (s : State) : Prop extends BallotFacts s where
  buckets : s.BucketsFilled

theorem voteFacts_of_reach {host : Host} {s : State} (h : (contract host).Reach always s) :
    VoteFacts s :=
  ⟨ballotFacts_of_reach h, bucketsFilled_of_reach h⟩

/-- The state `t` of the claim is at the stage `p` of the poll that began in `s`. -/
inductive Tracks (s : State) (claimId : Nat) (claim : Claim) (t : State) : Poll.Stage → Prop
  | running (yes no : Nat) (hframe : Frame [.vote, .claim] (s.inLedger t.sequence) t)
      (hrecord : t.getClaim claimId = some (claim.withTallies yes no))
      (hfit : yes + no ≤ s.getMaxVotersPerClaim) : Tracks s claimId claim t (.running yes no)
  | decided (b : Bool) (c : Claim) (hrecord : t.getClaim claimId = some c)
      (hstatus : c.status = statusOf b) : Tracks s claimId claim t (.decided b)

section Simulation

variable {env : Env} {s t : State} {claimId : Nat} {claim : Claim}

theorem isTerminal_statusOf (b : Bool) : (statusOf b).isTerminal = true := by
  cases b <;> rfl

theorem ballotOutcome_eq (yes no : Nat) :
    s.ballotOutcome claimId (claim.withTallies yes no) =
      if (s.pollRule claimId claim).quorum ≤ yes + no then some (statusOf (decide (no < yes)))
      else none := by
  simp only [State.ballotOutcome, resolvePluralityIfQuorumMet, participationQuorumMet,
    State.pollRule, Claim.withTallies, statusOf]
  by_cases hquorum :
      requiredCastForQuorum claim.eligibleVoterCount (s.effectiveQuorumBps claimId) ≤ yes + no
  · by_cases hlt : no < yes <;> simp [hquorum, hlt]
  · simp [hquorum]

theorem deadlineOutcome_eq (yes no : Nat) :
    s.deadlineOutcome claimId (claim.withTallies yes no) =
      statusOf ((s.pollRule claimId claim).finish (.running yes no)) := by
  simp only [State.deadlineOutcome, participationQuorumMet, State.pollRule, Claim.withTallies,
    statusOf, Poll.Rule.finish]
  by_cases hquorum :
      requiredCastForQuorum claim.eligibleVoterCount (s.effectiveQuorumBps claimId) ≤ yes + no
  · by_cases hlt : no < yes <;> simp [hquorum, hlt]
  · simp [hquorum]

theorem pollRule_of_frame {n : Nat} (h : Frame [.vote, .claim] (s.inLedger n) t) :
    t.pollRule claimId claim = s.pollRule claimId claim := by
  have hquorum : t.effectiveQuorumBps claimId = s.effectiveQuorumBps claimId := by
    change t.effectiveQuorumBps claimId = (s.inLedger n).effectiveQuorumBps claimId
    exact effectiveQuorumBps_of_frame h rfl rfl rfl
  have hcap : t.getMaxVotersPerClaim = s.getMaxVotersPerClaim := by
    simp only [State.getMaxVotersPerClaim, h.get .maxVotersPerClaim rfl, State.get_inLedger]
  simp only [State.pollRule, hquorum, hcap]

theorem votingPowerFor_of_frame (hs : VoteFacts s) {n : Nat}
    (h : Frame [.vote, .claim] (s.inLedger n) t) (claimId : Nat) (voter : Address) :
    t.votingPowerFor claimId voter 1 = .ok 1 := by
  rw [← hs.weight claimId voter]
  simp only [State.votingPowerFor, h.get (.claimVoterPowerOverride claimId voter) rfl,
    State.get_inLedger]

theorem activeDelegate_eq_none_of_le {now later : Nat} {voter : Address} (hle : now ≤ later)
    (h : s.activeDelegate now voter = none) : s.activeDelegate later voter = none := by
  unfold State.activeDelegate at h ⊢
  cases hd : s.getVoteDelegation voter with
  | none => rfl
  | some d =>
    rw [hd] at h
    dsimp only at h ⊢
    split at h
    · rw [if_pos (by omega)]
    · cases h

theorem resolve_eq_self_iff {now : Nat} {voter : Address} :
    s.resolveVoteDelegationTarget voter now = .ok voter ↔ s.activeDelegate now voter = none := by
  constructor
  · intro h
    exact (s.leads_of_resolveVoteDelegationTarget h).2
  · intro h
    simp [State.resolveVoteDelegationTarget, PointerChain.walk, h]

theorem tally_withTallies (claim : Claim) (yes no : Nat) (vote : VoteOption)
    (hyes : yes + no + 1 ≤ U32_MAX) :
    ∃ yes' no', (claim.withTallies yes no).tally vote 1 = claim.withTallies yes' no' ∧
      Poll.Stage.add yes no vote.inFavour = .running yes' no' ∧ yes' + no' = yes + no + 1 := by
  cases vote with
  | approve =>
    refine ⟨yes + 1, no, ?_, rfl, by omega⟩
    have hadd : saturatingAdd32 yes 1 = yes + 1 :=
      saturatingAdd32_one (m := U32_MAX) (by omega) (le_refl _)
    simp only [Claim.tally, Claim.withTallies, hadd]
  | reject =>
    refine ⟨yes, no + 1, ?_, rfl, by omega⟩
    have hadd : saturatingAdd32 no 1 = no + 1 :=
      saturatingAdd32_one (m := U32_MAX) (by omega) (le_refl _)
    simp only [Claim.tally, Claim.withTallies, hadd]

theorem tracks_vote_decided {b : Submission} {carried : Bool}
    (ht : Tracks s claimId claim t (.decided carried)) :
    Tracks s claimId claim (t.attempt env b.ledger (.voteOnClaim b.voter claimId b.vote))
      (.decided carried) := by
  cases ht with
  | decided _ c hrecord hstatus =>
    rw [attempt_vote_refused]
    · exact .decided carried c hrecord hstatus
    · intro c' hc' _ hcheck
      have hterm := (checkBallot_eq_ok.mp hcheck).1
      rw [hrecord] at hc'
      cases hc'
      rw [hstatus, isTerminal_statusOf] at hterm
      cases hterm

theorem tracks_vote_full {b : Submission} {yes no : Nat}
    (ht : Tracks s claimId claim t (.running yes no)) (hfull : s.getMaxVotersPerClaim ≤ yes + no) :
    Tracks s claimId claim (t.attempt env b.ledger (.voteOnClaim b.voter claimId b.vote))
      (.running yes no) := by
  cases ht with
  | running _ _ hframe hrecord hfit =>
    rw [attempt_vote_refused]
    · exact .running yes no (hframe.inLedger _) hrecord hfit
    · intro c' hc' _ hcheck
      have hlt := (checkBallot_eq_ok.mp hcheck).2.2.2.2.2.2.1
      have hcap : t.getMaxVotersPerClaim = s.getMaxVotersPerClaim := by
        simp only [State.getMaxVotersPerClaim, hframe.get .maxVotersPerClaim rfl]
        rfl
      rw [hrecord] at hc'
      cases hc'
      have hlt' : yes + no < t.getMaxVotersPerClaim := hlt
      omega

/-- In a running poll with room for it, the ballot of an eligible voter is accepted. -/
theorem exists_vote_of_running (hs : VoteFacts s) (hpause : s.assertClaimsNotPaused = .ok ())
    (hterm : claim.status.isTerminal = false)
    (hsafe : claim.votingDeadlineLedger ≤ MAX_SAFE_LEDGER) {b : Submission} {yes no : Nat}
    (hel : s.Eligible claimId claim b.voter) (hledger : s.sequence ≤ b.ledger)
    (hdead : b.ledger ≤ claim.votingDeadlineLedger) (hfresh : t.getVote claimId b.voter = none)
    (hf : Frame [.vote, .claim] (s.inLedger b.ledger) t)
    (hrecord : t.getClaim claimId = some (claim.withTallies yes no))
    (hlt : yes + no < s.getMaxVotersPerClaim) :
    ∃ st s', voteOnClaim t b.voter claimId b.vote = .ok (st, s') := by
  have hcap := hs.cap
  have hseq : t.sequence = b.ledger := hf.sequence
  have hmax : t.getMaxVotersPerClaim = s.getMaxVotersPerClaim := by
    simp only [State.getMaxVotersPerClaim, hf.get .maxVotersPerClaim rfl, State.get_inLedger]
  have hvoters : t.get (.claimVoters claimId) = s.get (.claimVoters claimId) :=
    hf.get (.claimVoters claimId) rfl
  have hown : t.resolveVoteDelegationTarget b.voter t.sequence = .ok b.voter := by
    have hnone := activeDelegate_eq_none_of_le hledger (resolve_eq_self_iff.mp hel.ownVote)
    rw [resolve_eq_self_iff, hseq, ← hnone]
    simp only [State.activeDelegate, State.getVoteDelegation, State.getVoteDelegations,
      hf.get .voteDelegations rfl, State.get_inLedger]
  have hmember : b.voter ∈ t.getClaimVoters claimId := by
    rw [State.getClaimVoters, hvoters]
    exact hel.member
  have hsnapshot : t.hasClaimVoters claimId = true := by
    cases hget : t.get (.claimVoters claimId) with
    | none => simp [State.getClaimVoters, hget] at hmember
    | some voters => simp [State.hasClaimVoters, hget]
  have hcheck : t.checkBallot b.voter claimId (claim.withTallies yes no) = .ok () := by
    refine checkBallot_eq_ok.mpr ⟨hterm, hel.notClaimant, ?_, hsnapshot, hmember, ?_,
      ?_, hown, hfresh⟩
    · rw [hseq]
      exact decide_eq_true hdead
    · change yes + no ≤ U32_MAX
      omega
    · change yes + no < t.getMaxVotersPerClaim
      omega
  have hweight := votingPowerFor_of_frame hs hf claimId b.voter
  have hopen : t.assertClaimsNotPaused = .ok () := by
    rw [← hpause]
    simp only [State.assertClaimsNotPaused, State.getPauseFlags, hf.get .paused rfl,
      State.get_inLedger]
  obtain ⟨yes', no', htally, -, hsum⟩ :=
    tally_withTallies claim yes no b.vote (by omega)
  refine exists_voteOnClaim hopen hrecord hcheck hweight ?_ ?_ (by omega)
  · rw [htally]
    change yes' + no' ≤ U32_MAX
    omega
  · exact bucketsFilled_of_same (hf.sameKind rfl) hs.buckets

/-- **A ballot moves the claim as it moves the poll.** -/
theorem tracks_vote (hs : VoteFacts s) (hkey : claim.claimId = claimId)
    (hpause : s.assertClaimsNotPaused = .ok ()) (hterm : claim.status.isTerminal = false)
    (hsafe : claim.votingDeadlineLedger ≤ MAX_SAFE_LEDGER) {b : Submission} {p : Poll.Stage}
    (hauth : env.auths b.voter = true) (hel : s.Eligible claimId claim b.voter)
    (hledger : s.sequence ≤ b.ledger) (hdead : b.ledger ≤ claim.votingDeadlineLedger)
    (hfresh : t.getVote claimId b.voter = none) (ht : Tracks s claimId claim t p) :
    Tracks s claimId claim (t.attempt env b.ledger (.voteOnClaim b.voter claimId b.vote))
      ((s.pollRule claimId claim).cast p b.vote.inFavour) := by
  cases ht with
  | decided carried c hrecord hstatus =>
    exact tracks_vote_decided (.decided carried c hrecord hstatus)
  | running yes no hframe hrecord hfit =>
    by_cases hfull : (s.pollRule claimId claim).cap ≤ yes + no
    · rw [Poll.Rule.cast, if_pos hfull]
      exact tracks_vote_full (.running yes no hframe hrecord hfit) hfull
    rw [Poll.Rule.cast, if_neg hfull]
    have hcap := hs.cap
    have hlt : yes + no < s.getMaxVotersPerClaim := Nat.lt_of_not_le hfull
    have hf := hframe.inLedger b.ledger
    obtain ⟨st, s', hok⟩ := exists_vote_of_running (t := t.inLedger b.ledger) hs hpause
      hterm hsafe hel hledger hdead hfresh hf hrecord hlt
    rw [attempt_of_ok (exec_voteOnClaim.mpr ⟨hauth, st, hok⟩)]
    -- the ballot was counted with weight one
    obtain ⟨c, w, hc, -, hw, hcases⟩ := voteOnClaim_cases hok
    rw [show (t.inLedger b.ledger).getClaim claimId = some (claim.withTallies yes no) from hrecord]
      at hc
    cases hc
    rw [votingPowerFor_of_frame hs hf] at hw
    cases hw
    obtain ⟨yes', no', htally, hstage, hsum⟩ :=
      tally_withTallies claim yes no b.vote (by omega)
    rw [htally, ballotOutcome_eq, pollRule_of_frame hf] at hcases
    rw [hstage, Poll.Rule.settle]
    rcases hcases with ⟨hnone, rfl⟩ | ⟨outcome, hsome, hclosed⟩
    · have hbelow : ¬ (s.pollRule claimId claim).quorum ≤ yes' + no' := by
        intro hmet
        rw [if_pos hmet] at hnone
        cases hnone
      rw [if_neg hbelow]
      refine .running yes' no' ?_ ?_ (by omega)
      · rw [State.setClaim, State.setVote, Frame.set_iff (by simp), Frame.set_iff (by simp)]
        exact hf
      · exact getClaim_of_write_self (.refl _ _) hkey.symm
    · have hmet : (s.pollRule claimId claim).quorum ≤ yes' + no' := by
        by_contra hbelow
        rw [if_neg hbelow] at hsome
        cases hsome
      rw [if_pos hmet] at hsome ⊢
      cases hsome
      obtain ⟨x, y, z, hrec⟩ := hclosed.record
      exact .decided _ _ (getClaim_of_write_self hrec hkey.symm) rfl

theorem tracks_submitAll (hs : VoteFacts s) (hkey : claim.claimId = claimId)
    (hpause : s.assertClaimsNotPaused = .ok ()) (hterm : claim.status.isTerminal = false)
    (hsafe : claim.votingDeadlineLedger ≤ MAX_SAFE_LEDGER) (subs : List Submission) :
    ∀ (t : State) (p : Poll.Stage),
      (∀ b ∈ subs, env.auths b.voter = true ∧ s.Eligible claimId claim b.voter ∧
        s.sequence ≤ b.ledger ∧ b.ledger ≤ claim.votingDeadlineLedger) →
      (subs.map (·.voter)).Nodup → (∀ b ∈ subs, t.getVote claimId b.voter = none) →
      Tracks s claimId claim t p →
      Tracks s claimId claim (t.submitAll env claimId subs)
        ((subs.map (·.vote.inFavour)).foldl (s.pollRule claimId claim).cast p) := by
  induction subs with
  | nil =>
    intro t p _ _ _ ht
    exact ht
  | cons b subs ih =>
    intro t p hall hnodup hfresh ht
    rw [List.map_cons, List.nodup_cons] at hnodup
    obtain ⟨hauth, hel, hledger, hdead⟩ := hall b (by simp)
    have hstep := tracks_vote hs hkey hpause hterm hsafe hauth hel hledger hdead
      (hfresh b (by simp)) ht
    refine ih _ _ (fun b' hb' => hall b' (by simp [hb'])) hnodup.2 ?_ hstep
    intro b' hb'
    have hne : b'.voter ≠ b.voter := by
      intro heq
      exact hnodup.1 (heq ▸ List.mem_map_of_mem hb')
    rw [getVote_attempt_vote hne]
    exact hfresh b' (by simp [hb'])

/-- A claim that can be finalized gets the status that its tallies decide. -/
theorem claimStatus_finalize {c : Claim} {n : Nat} (hrecord : t.getClaim claimId = some c)
    (hkey : c.claimId = claimId) (hpause : t.assertClaimsNotPaused = .ok ())
    (hterm : c.status.isTerminal = false) (hfit : c.approveVotes + c.rejectVotes ≤ U32_MAX)
    (hbuckets : t.BucketsFilled) (hdead : c.votingDeadlineLedger < n)
    (hsafe : n ≤ MAX_SAFE_LEDGER) :
    (t.attempt env n (.finalizeClaim claimId)).claimStatus claimId =
      some (t.deadlineOutcome claimId c) := by
  obtain ⟨st, s', hok⟩ := exists_finalizeClaimInner (s := t.inLedger n) hrecord hterm
    (decide_eq_true hdead) hfit hbuckets (windowsFit_of_safe hsafe)
  have hexec : (ClaimCall.finalizeClaim claimId).exec env (t.inLedger n) = .ok s' :=
    exec_finalizeClaim.mpr ⟨hpause, st, hok⟩
  rw [attempt_of_ok hexec]
  obtain ⟨c', hc', -, hclosed⟩ := finalizeClaimInner_cases hok
  rw [show (t.inLedger n).getClaim claimId = some c from hrecord] at hc'
  cases hc'
  obtain ⟨x, y, z, hrec⟩ := hclosed.record
  rw [State.claimStatus, getClaim_of_write_self hrec hkey.symm]
  rfl

theorem claimStatus_finalize_refused {c : Claim} {n : Nat} (hrecord : t.getClaim claimId = some c)
    (h : t.assertClaimsNotPaused = .ok () → c.status.isTerminal = false →
      ¬ c.approveVotes + c.rejectVotes ≤ U32_MAX) :
    (t.attempt env n (.finalizeClaim claimId)).claimStatus claimId = some c.status := by
  rw [attempt_of_refused]
  · rw [State.claimStatus, show (t.inLedger n).getClaim claimId = some c from hrecord]
    rfl
  · intro s' hexec
    obtain ⟨hpause, st, hfin⟩ := exec_finalizeClaim.mp hexec
    obtain ⟨c', claim', hc', hterm, -, hfit, -⟩ := finalizeClaimInner_eq_ok hfin
    rw [show (t.inLedger n).getClaim claimId = some c from hrecord] at hc'
    cases hc'
    exact h hpause hterm hfit

/-- **The final status is the outcome of the poll.** -/
theorem claimStatus_of_tracks (hs : VoteFacts s) (hkey : claim.claimId = claimId)
    (hpause : s.assertClaimsNotPaused = .ok ()) (hterm : claim.status.isTerminal = false)
    {p : Poll.Stage} {n : Nat} (hdead : claim.votingDeadlineLedger < n)
    (hsafe : n ≤ MAX_SAFE_LEDGER)
    (ht : Tracks s claimId claim t p) :
    (t.attempt env n (.finalizeClaim claimId)).claimStatus claimId =
      some (statusOf ((s.pollRule claimId claim).finish p)) := by
  cases ht with
  | decided b c hrecord hstatus =>
    rw [claimStatus_finalize_refused hrecord, hstatus]
    · rfl
    · intro _ hopen
      rw [hstatus, isTerminal_statusOf] at hopen
      cases hopen
  | running yes no hframe hrecord hfit =>
    have hcap := hs.cap
    have hopen : t.assertClaimsNotPaused = .ok () := by
      rw [← hpause]
      simp only [State.assertClaimsNotPaused, State.getPauseFlags, hframe.get .paused rfl,
        State.get_inLedger]
    have hle : yes + no ≤ U32_MAX := by omega
    rw [claimStatus_finalize hrecord hkey hopen hterm hle
      (bucketsFilled_of_same (hframe.sameKind rfl) hs.buckets) hdead hsafe, deadlineOutcome_eq,
      pollRule_of_frame hframe]

end Simulation

/-! ## Orders -/

section Orders

variable {env : Env} {s : State} {claimId : Nat} {claim : Claim} {ballots : List Ballot}

/-- The directions of the ballots, in the order of submission. -/
def Order.directions {deadline : Nat} (o : Order s deadline ballots) : List Bool :=
  o.submissions.map (·.vote.inFavour)

theorem Order.directions_perm {deadline : Nat} (o : Order s deadline ballots) :
    o.directions.Perm (ballots.map (·.vote.inFavour)) := by
  have h := o.perm.map (·.vote.inFavour)
  rwa [List.map_map] at h

/-- What the orders of eligible ballots have in common. -/
structure Fair (env : Env) (s : State) (claimId : Nat) (claim : Claim)
    (ballots : List Ballot) : Prop where
  auth : ∀ b ∈ ballots, env.auths b.voter = true
  eligible : ∀ b ∈ ballots, s.Eligible claimId claim b.voter
  distinct : (ballots.map (·.voter)).Nodup

/-- An order in a poll that takes ballots ends with the outcome of the poll. -/
theorem claimStatus_run (hs : VoteFacts s) (hclaim : s.getClaim claimId = some claim)
    (hpause : s.assertClaimsNotPaused = .ok ()) (hterm : claim.status.isTerminal = false)
    (hroom : claim.approveVotes + claim.rejectVotes < s.getMaxVotersPerClaim)
    (hfair : Fair env s claimId claim ballots) (o : Order s claim.votingDeadlineLedger ballots) :
    (o.run env claimId).claimStatus claimId =
      some (statusOf ((s.pollRule claimId claim).outcome
        (.running claim.approveVotes claim.rejectVotes) o.directions)) := by
  have hkey : claim.claimId = claimId := (hs.keyed claimId claim hclaim).1
  have hdead := o.afterDeadline
  have hclosing := o.safe
  have hmem : ∀ b ∈ o.submissions, b.toBallot ∈ ballots := by
    intro b hb
    exact o.perm.subset (List.mem_map_of_mem hb)
  have hledger : ∀ b ∈ o.submissions, s.sequence ≤ b.ledger := by
    intro b hb
    exact (List.pairwise_cons.mp o.ledgers).1 b.ledger (List.mem_map_of_mem hb)
  have hnodup : (o.submissions.map (·.voter)).Nodup := by
    have h := (o.perm.map (·.voter)).nodup_iff.mpr hfair.distinct
    rwa [List.map_map] at h
  have hstart : Tracks s claimId claim s (.running claim.approveVotes claim.rejectVotes) :=
    .running _ _ (.refl _ s) hclaim (by omega)
  have htracks := tracks_submitAll hs hkey hpause hterm (by omega) o.submissions s _
    (fun b hb => ⟨hfair.auth _ (hmem b hb), hfair.eligible _ (hmem b hb), hledger b hb,
      o.beforeDeadline b hb⟩) hnodup (fun b hb => (hfair.eligible _ (hmem b hb)).fresh) hstart
  exact claimStatus_of_tracks hs hkey hpause hterm hdead hclosing htracks

/-- When no ballot can be taken, submitting them changes nothing but the ledger. -/
theorem submitAll_of_refused (env : Env) (hclaim : s.getClaim claimId = some claim)
    (h : s.assertClaimsNotPaused = .ok () → claim.status.isTerminal = false →
      s.getMaxVotersPerClaim ≤ claim.approveVotes + claim.rejectVotes) (subs : List Submission) :
    ∀ m, ∃ n, (s.inLedger m).submitAll env claimId subs = s.inLedger n := by
  induction subs with
  | nil =>
    intro m
    exact ⟨m, rfl⟩
  | cons b subs ih =>
    intro m
    have hrefused : (s.inLedger m).attempt env b.ledger (.voteOnClaim b.voter claimId b.vote) =
        s.inLedger b.ledger := by
      rw [attempt_vote_refused]
      · rfl
      · intro c hc hpause hcheck
        rw [show (s.inLedger m).getClaim claimId = some claim from hclaim] at hc
        cases hc
        have hfacts := checkBallot_eq_ok.mp hcheck
        have hfull := h hpause hfacts.1
        have hlt : claim.approveVotes + claim.rejectVotes < s.getMaxVotersPerClaim :=
          hfacts.2.2.2.2.2.2.1
        omega
    obtain ⟨n, hn⟩ := ih b.ledger
    refine ⟨n, ?_⟩
    rw [← hn, ← hrefused]
    rfl

/-- The status after the deadline does not depend on when the claim is finalized. -/
theorem claimStatus_finalize_eq (hs : VoteFacts s) (hclaim : s.getClaim claimId = some claim)
    {n n' : Nat} (hn : claim.votingDeadlineLedger < n) (hsafe : n ≤ MAX_SAFE_LEDGER)
    (hn' : claim.votingDeadlineLedger < n') (hsafe' : n' ≤ MAX_SAFE_LEDGER) :
    (s.attempt env n (.finalizeClaim claimId)).claimStatus claimId =
      (s.attempt env n' (.finalizeClaim claimId)).claimStatus claimId := by
  have hkey : claim.claimId = claimId := (hs.keyed claimId claim hclaim).1
  by_cases hok : s.assertClaimsNotPaused = .ok () ∧ claim.status.isTerminal = false ∧
      claim.approveVotes + claim.rejectVotes ≤ U32_MAX
  · obtain ⟨hpause, hterm, hfit⟩ := hok
    rw [claimStatus_finalize hclaim hkey hpause hterm hfit hs.buckets hn hsafe,
      claimStatus_finalize hclaim hkey hpause hterm hfit hs.buckets hn' hsafe']
  · have hrefused : s.assertClaimsNotPaused = .ok () → claim.status.isTerminal = false →
        ¬ claim.approveVotes + claim.rejectVotes ≤ U32_MAX :=
      fun hpause hterm hfit => hok ⟨hpause, hterm, hfit⟩
    rw [claimStatus_finalize_refused hclaim hrefused, claimStatus_finalize_refused hclaim hrefused]

/-- Every order of the directions comes from an order of the ballots. -/
theorem exists_perm_of_directions {l : List Bool} (h : l.Perm (ballots.map (·.vote.inFavour))) :
    ∃ ballots' : List Ballot, ballots'.Perm ballots ∧ ballots'.map (·.vote.inFavour) = l := by
  obtain ⟨ballots', hl, hperm⟩ :=
    (congrFun₂ (List.eq_map_comp_perm fun b : Ballot => b.vote.inFavour) l ballots).mpr h
  exact ⟨ballots', hperm, hl.symm⟩

/-- All ballots in the ledger of `s`, and the claim finalized right after the deadline. -/
def orderNow (deadline : Nat) (hopen : s.sequence ≤ deadline) (hsafe : deadline < MAX_SAFE_LEDGER)
    (ballots' : List Ballot) (hperm : ballots'.Perm ballots) : Order s deadline ballots where
  submissions := ballots'.map fun b => ⟨b, s.sequence⟩
  closing := deadline + 1
  perm := by
    rw [List.map_map]
    exact (List.map_id ballots').symm ▸ hperm
  ledgers := by
    rw [List.map_map, List.pairwise_cons]
    refine ⟨?_, List.pairwise_map.mpr (List.pairwise_of_forall fun _ _ => le_refl _)⟩
    intro n hn
    obtain ⟨b, -, rfl⟩ := List.mem_map.mp hn
    exact le_refl _
  beforeDeadline := by
    intro b hb
    obtain ⟨b', -, rfl⟩ := List.mem_map.mp hb
    exact hopen
  afterDeadline := Nat.lt_succ_self _
  safe := hsafe

theorem directions_orderNow {deadline : Nat} {hopen : s.sequence ≤ deadline}
    {hsafe : deadline < MAX_SAFE_LEDGER} {ballots' : List Ballot} {hperm : ballots'.Perm ballots} :
    (orderNow deadline hopen hsafe ballots' hperm).directions =
      ballots'.map (·.vote.inFavour) := by
  rw [Order.directions, orderNow, List.map_map]
  rfl

theorem statusOf_injective : Function.Injective statusOf := by
  intro a b h
  cases a <;> cases b <;> first | rfl | cases h

/-- **When the order of the ballots does not matter.**  The contract is paused, or the claim is
decided, or the poll of the claim is steady for these ballots. -/
def State.OrderFree (s : State) (claimId : Nat) (claim : Claim) (inFavour against : Nat) : Prop :=
  s.assertClaimsNotPaused ≠ .ok () ∨ claim.status.isTerminal = true ∨
    (s.pollRule claimId claim).Steady claim.approveVotes claim.rejectVotes inFavour against

theorem count_directions (ballots : List Ballot) :
    (ballots.map (·.vote.inFavour)).count true = ballots.countP (·.vote = .approve) ∧
      (ballots.map (·.vote.inFavour)).count false = ballots.countP (·.vote = .reject) := by
  simp only [List.count_eq_countP, List.countP_map]
  constructor
  · refine List.countP_congr fun b _ => ?_
    cases hb : b.vote <;> simp [hb, VoteOption.inFavour]
  · refine List.countP_congr fun b _ => ?_
    cases hb : b.vote <;> simp [hb, VoteOption.inFavour]

theorem same_status_of_refused (hs : VoteFacts s) (hclaim : s.getClaim claimId = some claim)
    (h : s.assertClaimsNotPaused = .ok () → claim.status.isTerminal = false →
      s.getMaxVotersPerClaim ≤ claim.approveVotes + claim.rejectVotes)
    (o o' : Order s claim.votingDeadlineLedger ballots) :
    (o.run env claimId).claimStatus claimId = (o'.run env claimId).claimStatus claimId := by
  obtain ⟨n, hn⟩ := submitAll_of_refused env hclaim h o.submissions s.sequence
  obtain ⟨n', hn'⟩ := submitAll_of_refused env hclaim h o'.submissions s.sequence
  have hrun : o.run env claimId = s.attempt env o.closing (.finalizeClaim claimId) := by
    rw [Order.run, show s.submitAll env claimId o.submissions = s.inLedger n from hn]
    rfl
  have hrun' : o'.run env claimId = s.attempt env o'.closing (.finalizeClaim claimId) := by
    rw [Order.run, show s.submitAll env claimId o'.submissions = s.inLedger n' from hn']
    rfl
  rw [hrun, hrun']
  exact claimStatus_finalize_eq hs hclaim o.afterDeadline o.safe o'.afterDeadline o'.safe

/-- **Any two orders end with the same status exactly when no order can tip the poll**, in every
reached state, for every stored claim with an open voting window and every list of eligible
ballots. -/
theorem same_status_iff {host : Host} (hreach : (contract host).Reach always s)
    (hclaim : s.getClaim claimId = some claim) (hopen : s.sequence ≤ claim.votingDeadlineLedger)
    (hsafe : claim.votingDeadlineLedger < MAX_SAFE_LEDGER)
    (hfair : Fair env s claimId claim ballots) :
    (∀ o o' : Order s claim.votingDeadlineLedger ballots,
      (o.run env claimId).claimStatus claimId = (o'.run env claimId).claimStatus claimId) ↔
      s.OrderFree claimId claim (ballots.countP (·.vote = .approve))
        (ballots.countP (·.vote = .reject)) := by
  have hs := voteFacts_of_reach hreach
  have hsteady := (s.pollRule claimId claim).outcome_perm_iff claim.approveVotes claim.rejectVotes
    (ballots.map (·.vote.inFavour))
  rw [(count_directions ballots).1, (count_directions ballots).2] at hsteady
  by_cases hopens : s.assertClaimsNotPaused = .ok () ∧ claim.status.isTerminal = false ∧
      claim.approveVotes + claim.rejectVotes < s.getMaxVotersPerClaim
  · obtain ⟨hpause, hterm, hroom⟩ := hopens
    have hrun : ∀ o : Order s claim.votingDeadlineLedger ballots, _ :=
      fun o => claimStatus_run hs hclaim hpause hterm hroom hfair o
    have hfree : s.OrderFree claimId claim (ballots.countP (·.vote = .approve))
        (ballots.countP (·.vote = .reject)) ↔ (s.pollRule claimId claim).Steady claim.approveVotes
          claim.rejectVotes (ballots.countP (·.vote = .approve))
          (ballots.countP (·.vote = .reject)) := by
      simp [State.OrderFree, hpause, hterm]
    rw [hfree, ← hsteady]
    constructor
    · intro h l₁ l₂ hl₁ hl₂
      obtain ⟨ballots₁, hperm₁, hmap₁⟩ := exists_perm_of_directions hl₁
      obtain ⟨ballots₂, hperm₂, hmap₂⟩ := exists_perm_of_directions hl₂
      have heq := h (orderNow _ hopen hsafe ballots₁ hperm₁)
        (orderNow _ hopen hsafe ballots₂ hperm₂)
      rw [hrun, hrun, directions_orderNow, directions_orderNow, hmap₁, hmap₂] at heq
      exact statusOf_injective (Option.some.inj heq)
    · intro h o o'
      rw [hrun o, hrun o', h _ _ o.directions_perm o'.directions_perm]
  · -- no ballot can be taken
    have hrefused : s.assertClaimsNotPaused = .ok () → claim.status.isTerminal = false →
        s.getMaxVotersPerClaim ≤ claim.approveVotes + claim.rejectVotes := by
      intro hpause hterm
      by_contra hlt
      exact hopens ⟨hpause, hterm, by omega⟩
    refine iff_of_true (same_status_of_refused hs hclaim hrefused) ?_
    by_cases hpause : s.assertClaimsNotPaused = .ok ()
    · cases hterm : claim.status.isTerminal with
      | true => exact .inr (.inl hterm)
      | false =>
        have hfull := hrefused hpause hterm
        have hneed : 1 ≤ (s.pollRule claimId claim).need claim.approveVotes claim.rejectVotes :=
          le_max_left _ _
        refine .inr (.inr (.inr (.inl ?_)))
        change s.getMaxVotersPerClaim < _
        omega
    · exact .inl hpause

end Orders

/-! ## Two orders -/

/-- Five accounts are insured, and account 1 files a claim. -/
def electorateTrace : List Label :=
  demoSetup ++ [demoBind 4 .auto 10000000, demoBind 5 .auto 10000000, demoFile 1 1 1000]

instance (s : State) (claimId : Nat) (claim : Claim) (voter : Address) :
    Decidable (s.Eligible claimId claim voter) :=
  decidable_of_iff (voter ≠ claim.claimant ∧ voter ∈ s.getClaimVoters claimId ∧
      s.resolveVoteDelegationTarget voter s.sequence = .ok voter ∧ s.getVote claimId voter = none)
    ⟨fun ⟨h₁, h₂, h₃, h₄⟩ => ⟨h₁, h₂, h₃, h₄⟩, fun ⟨h₁, h₂, h₃, h₄⟩ => ⟨h₁, h₂, h₃, h₄⟩⟩

/-- The first claim has an open window, and the voters of the ballots are eligible. -/
def State.readyFor (s : State) (ballots : List Ballot) : Bool :=
  match s.getClaim 1 with
  | none => false
  | some claim => decide (s.sequence ≤ claim.votingDeadlineLedger ∧
      claim.votingDeadlineLedger < MAX_SAFE_LEDGER ∧ ∀ b ∈ ballots, s.Eligible 1 claim b.voter)

/-- The status of the first claim after the ballots are submitted at once, in this order. -/
def State.statusAfter (s : State) (ballots : List Ballot) : Option ClaimStatus :=
  match s.getClaim 1 with
  | none => none
  | some claim =>
    ((s.submitAll demoEnv 1 (ballots.map fun b => ⟨b, s.sequence⟩)).attempt demoEnv
      (claim.votingDeadlineLedger + 1) (.finalizeClaim 1)).claimStatus 1

theorem readyFor_eq_true {s : State} {ballots : List Ballot} (h : s.readyFor ballots = true) :
    ∃ claim, s.getClaim 1 = some claim ∧ s.sequence ≤ claim.votingDeadlineLedger ∧
      claim.votingDeadlineLedger < MAX_SAFE_LEDGER ∧ ∀ b ∈ ballots, s.Eligible 1 claim b.voter := by
  unfold State.readyFor at h
  split at h
  · cases h
  · rename_i claim hclaim
    exact ⟨claim, hclaim, of_decide_eq_true h⟩

/-- Three approvals, in an electorate of four with a quorum of two. -/
def unanimousBallots : List Ballot := [⟨2, .approve⟩, ⟨3, .approve⟩, ⟨4, .approve⟩]

/-- Any order of three approvals ends alike. -/
theorem same_status_unanimous : ∃ (s : State) (claim : Claim), (contract demoHost).Reach always s ∧
    s.getClaim 1 = some claim ∧ Fair demoEnv s 1 claim unanimousBallots ∧
    ∀ o o' : Order s claim.votingDeadlineLedger unanimousBallots,
      (o.run demoEnv 1).claimStatus 1 = (o'.run demoEnv 1).claimStatus 1 := by
  obtain ⟨s, hreach, hfacts⟩ := exists_of_follow always_of_noCheck (deployed 0)
    electorateTrace
    (f := fun s => (s.readyFor unanimousBallots, (s.getClaim 1).map fun claim : Claim =>
      (claim.approveVotes, claim.rejectVotes, (s.pollRule 1 claim).quorum)))
    (a := (true, some (0, 0, 2))) (fresh_deployed (by decide))
    (by simp [electorateTrace, demoSetup, demoInit, demoBind, demoFile]) (by decide +kernel)
  obtain ⟨hready, htallies⟩ := Prod.mk.inj hfacts
  obtain ⟨claim, hclaim, hopen, hsafe, hel⟩ := readyFor_eq_true hready
  rw [hclaim] at htallies
  simp only [Option.map_some, Option.some.injEq, Prod.mk.injEq] at htallies
  obtain ⟨hyes, hno, hquorum⟩ := htallies
  have hfair : Fair demoEnv s 1 claim unanimousBallots := ⟨by decide, hel, by decide⟩
  refine ⟨s, claim, hreach, hclaim, hfair,
    (same_status_iff hreach hclaim hopen hsafe hfair).mpr (.inr (.inr ?_))⟩
  have hneed : (s.pollRule 1 claim).need 0 0 = 2 := by
    unfold Poll.Rule.need
    rw [hquorum]
    rfl
  rw [hyes, hno]
  refine .inr (.inr (.inr ?_))
  rw [hneed]
  decide

/-- Two approvals and two rejections, in an electorate of four with a quorum of two. -/
def splitBallots : List Ballot := [⟨2, .approve⟩, ⟨3, .approve⟩, ⟨4, .reject⟩, ⟨5, .reject⟩]

/-- **The order decides.**  Two approvals and two rejections end with `Approved` when the
approvals come first, and with `Rejected` when the rejections do. -/
theorem status_differs_by_order : ∃ (s : State) (claim : Claim)
    (o o' : Order s claim.votingDeadlineLedger splitBallots), (contract demoHost).Reach always s ∧
    s.getClaim 1 = some claim ∧ Fair demoEnv s 1 claim splitBallots ∧
    (o.run demoEnv 1).claimStatus 1 = some .approved ∧
    (o'.run demoEnv 1).claimStatus 1 = some .rejected := by
  obtain ⟨s, hreach, hfacts⟩ := exists_of_follow always_of_noCheck (deployed 0)
    electorateTrace
    (f := fun s => (s.readyFor splitBallots, s.statusAfter splitBallots,
      s.statusAfter splitBallots.reverse))
    (a := (true, some .approved, some .rejected)) (fresh_deployed (by decide))
    (by simp [electorateTrace, demoSetup, demoInit, demoBind, demoFile]) (by decide +kernel)
  obtain ⟨hready, hstatuses⟩ := Prod.mk.inj hfacts
  obtain ⟨happroved, hrejected⟩ := Prod.mk.inj hstatuses
  obtain ⟨claim, hclaim, hopen, hsafe, hel⟩ := readyFor_eq_true hready
  simp only [State.statusAfter, hclaim] at happroved hrejected
  exact ⟨s, claim, orderNow _ hopen hsafe splitBallots (.refl _),
    orderNow _ hopen hsafe splitBallots.reverse (List.reverse_perm _), hreach, hclaim,
    ⟨by decide, hel, by decide⟩, happroved, hrejected⟩

end NiffyInsure
