import NiffyInsure.Ballots
import NiffyInsure.ClaimEdit
import NiffyInsure.QuorumThreshold
import NiffyInsure.Trace
import NiffyInsure.VotingRules

/-!
# Open rounds are below the quorum

A ballot that brings a round to its quorum closes it.  A round that is open has therefore not
reached the quorum, so that the deadline can only reject: as long as the quorum of a claim is not
lowered under an open round, an approval comes from a ballot and from nowhere else.

* `OpenTally`: the tallies of an open round, below the quorum, and zero without voters.
* `RoundStep`: what a call does to the rounds of one claim.
* `roundsStep_of_claimCall`: every claim call takes such steps.
* `open_rounds_below_quorum`: the property over every run without revealed ballots in which the
  base round is not run on an appealed claim.
-/

namespace NiffyInsure

open Machine

/-! ## The quorum as a number of ballots -/

theorem ValidQuorum.le {quorumBps : Nat} (hq : ValidQuorum quorumBps) : quorumBps ≤ 10000 := by
  rw [← QUORUM_BPS_MAX]
  exact hq.2

/-- The tallies of a round that is open: below the quorum, and zero if nobody can vote. -/
structure OpenTally (approve reject eligible quorumBps : Nat) : Prop where
  below : 0 < eligible → approve + reject < eligible * quorumBps ⌈/⌉ 10000
  unheard : eligible = 0 → approve = 0 ∧ reject = 0

namespace OpenTally

variable {approve reject eligible quorumBps quorumBps' : Nat}

theorem zero (hq : ValidQuorum quorumBps) : OpenTally 0 0 eligible quorumBps := by
  refine ⟨fun hpos => ?_, fun _ => ⟨rfl, rfl⟩⟩
  have hq' : 0 < quorumBps := hq.1
  have hmul : 0 < eligible * quorumBps := Nat.mul_pos hpos hq'
  rw [Nat.ceilDiv_eq_add_pred_div]
  exact Nat.div_pos (by omega) (by decide)

theorem mono (h : OpenTally approve reject eligible quorumBps) (hle : quorumBps ≤ quorumBps') :
    OpenTally approve reject eligible quorumBps' := by
  refine ⟨fun hpos => (h.below hpos).trans_le ?_, h.unheard⟩
  have hmul : eligible * quorumBps ≤ eligible * quorumBps' := Nat.mul_le_mul_left _ hle
  rw [Nat.ceilDiv_eq_add_pred_div, Nat.ceilDiv_eq_add_pred_div]
  exact Nat.div_le_div_right (by omega)

theorem of_not_met (hpos : 0 < eligible) (hle : eligible ≤ U32_MAX) (hq : ValidQuorum quorumBps)
    (h : participationQuorumMet (approve + reject) eligible quorumBps = false) :
    OpenTally approve reject eligible quorumBps := by
  refine ⟨fun _ => ?_, fun hzero => ?_⟩
  · rw [participationQuorumMet, requiredCastForQuorum_eq_ceilDiv hle hq.le,
      decide_eq_false_iff_not] at h
    omega
  · omega

/-- **The deadline of an open round does not approve.** -/
theorem not_approved (h : OpenTally approve reject eligible quorumBps) (hle : eligible ≤ U32_MAX)
    (hq : ValidQuorum quorumBps) :
    ¬ (participationQuorumMet (approve + reject) eligible quorumBps = true ∧ reject < approve) := by
  rintro ⟨hmet, hlt⟩
  by_cases hpos : 0 < eligible
  · rw [participationQuorumMet, requiredCastForQuorum_eq_ceilDiv hle hq.le,
      decide_eq_true_eq] at hmet
    have hbelow := h.below hpos
    omega
  · obtain ⟨ha, -⟩ := h.unheard (by omega)
    omega

end OpenTally

/-! ## The rounds of a claim -/

/-- The base round of the claim `id`, as far as it has come. -/
def State.BaseOpen (s : State) (id : Nat) (c : Claim) : Prop :=
  OpenTally c.approveVotes c.rejectVotes c.eligibleVoterCount (s.effectiveQuorumBps id)

/-- The appeal round of the claim `id`, as far as it has come. -/
def State.AppealOpen (s : State) (id : Nat) (c : Claim) : Prop :=
  OpenTally c.appealApproveVotes c.appealRejectVotes (s.getAppealVoters id).length
    (s.getAppealClaimQuorumBps id)

/-- The number of ballots that the quorum of the base round takes. -/
def State.baseQuorum (s : State) (id : Nat) (c : Claim) : Nat :=
  c.eligibleVoterCount * s.effectiveQuorumBps id ⌈/⌉ 10000

/-- The number of ballots that the quorum of the appeal round takes. -/
def State.appealQuorum (s : State) (id : Nat) : Nat :=
  (s.getAppealVoters id).length * s.getAppealClaimQuorumBps id ⌈/⌉ 10000

/-- Every open round is below its quorum, and runs with the electorate it began with. -/
structure State.RoundsOpen (s : State) : Prop where
  voters : ∀ id c, s.getClaim id = some c →
    c.eligibleVoterCount = (s.getClaimVoters id).length ∧ c.eligibleVoterCount ≤ U32_MAX
  base : ∀ id c, s.getClaim id = some c → c.status = .processing → s.BaseOpen id c
  snapshot : ∀ id c, s.getClaim id = some c → c.status = .underAppeal →
    s.hasAppealVoters id = true ∧ (s.getAppealVoters id).length ≤ U32_MAX
  appeal : ∀ id c, s.getClaim id = some c → c.status = .underAppeal → s.AppealOpen id c

/-- Neither in a round nor approved. -/
def ClaimStatus.Concluded (st : ClaimStatus) : Prop :=
  st ≠ .processing ∧ st ≠ .underAppeal ∧ st ≠ .approved ∧ st ≠ .appealApproved

instance (st : ClaimStatus) : Decidable st.Concluded :=
  inferInstanceAs (Decidable (_ ∧ _ ∧ _ ∧ _))

/-- Status and tallies as they were. -/
structure Claim.SameRounds (c c' : Claim) : Prop where
  status : c'.status = c.status
  approve : c'.approveVotes = c.approveVotes
  reject : c'.rejectVotes = c.rejectVotes
  appealApprove : c'.appealApproveVotes = c.appealApproveVotes
  appealReject : c'.appealRejectVotes = c.appealRejectVotes

/-- **What a step does to the rounds of one claim.** -/
inductive RoundStep (s s' : State) (l : Label) (id : Nat) (c c' : Claim) : Prop
  | same (hsame : c.SameRounds c')
  | concluded (hst : c'.status.Concluded)
  -- a ballot that leaves the base round open, and one that approves the claim
  | ballot (hst : c.status = .processing) (hst' : c'.status = .processing)
      (hopen : s.BaseOpen id c')
  | approved (env : Env) (voter : Address) (vote : VoteOption)
      (hl : l = .call env (.claim (.voteOnClaim voter id vote))) (hst : c.status = .processing)
      (hst' : c'.status = .approved) (hbelow : c.approveVotes + c.rejectVotes < s.baseQuorum id c)
      (hmet : s.baseQuorum id c ≤ c'.approveVotes + c'.rejectVotes)
      (hlt : c'.rejectVotes < c'.approveVotes)
  -- an appeal that is opened, and its ballots
  | opened (hst' : c'.status = .underAppeal) (hopen : s'.AppealOpen id c')
      (hvoters : s'.hasAppealVoters id = true ∧ (s'.getAppealVoters id).length ≤ U32_MAX)
  | appealBallot (hst : c.status = .underAppeal) (hst' : c'.status = .underAppeal)
      (hopen : s.AppealOpen id c')
  | appealApproved (env : Env) (voter : Address) (vote : VoteOption)
      (hl : l = .call env (.claim (.voteOnAppeal voter id vote))) (hst : c.status = .underAppeal)
      (hst' : c'.status = .appealApproved)
      (hbelow : c.appealApproveVotes + c.appealRejectVotes < s.appealQuorum id)
      (hmet : s.appealQuorum id ≤ c'.appealApproveVotes + c'.appealRejectVotes)
      (hlt : c'.appealRejectVotes < c'.appealApproveVotes)

/-- What a step does to the rounds: it moves the filed claims, files new ones, and leaves the
electorates of the rounds that have begun alone. -/
structure RoundsStep (s s' : State) (l : Label) : Prop where
  moved : ∀ id c, s.getClaim id = some c → ∃ c', s'.getClaim id = some c' ∧
    c'.eligibleVoterCount = c.eligibleVoterCount ∧ RoundStep s s' l id c c'
  filed : ∀ id c', s.getClaim id = none → s'.getClaim id = some c' → c'.status = .processing ∧
    c'.approveVotes = 0 ∧ c'.rejectVotes = 0 ∧
    c'.eligibleVoterCount = (s'.getClaimVoters id).length ∧ c'.eligibleVoterCount ≤ U32_MAX
  voters : ∀ id c, s.getClaim id = some c → s'.getClaimVoters id = s.getClaimVoters id
  appeal : ∀ id c, s.getClaim id = some c → c.status = .underAppeal →
    s'.get (.appealVoters id) = s.get (.appealVoters id) ∧
      s'.get (.appealClaimQuorumBps id) = s.get (.appealClaimQuorumBps id)

namespace RoundsStep

variable {s s' : State} {l : Label} {claimId : Nat} {c c' : Claim}

theorem appealOpen_of_same
    (hvoters : s'.get (.appealVoters claimId) = s.get (.appealVoters claimId))
    (hquorum : s'.get (.appealClaimQuorumBps claimId) = s.get (.appealClaimQuorumBps claimId)) :
    s'.AppealOpen claimId c ↔ s.AppealOpen claimId c := by
  rw [State.AppealOpen, State.getAppealVoters, hvoters, State.getAppealClaimQuorumBps, hquorum]
  rfl

theorem appealed_of_round (h : RoundStep s s' l claimId c c') (hst : c'.status = .underAppeal) :
    (c.status = .underAppeal ∧ (s.AppealOpen claimId c → s.AppealOpen claimId c')) ∨
      ((s'.hasAppealVoters claimId = true ∧ (s'.getAppealVoters claimId).length ≤ U32_MAX) ∧
        s'.AppealOpen claimId c') := by
  cases h with
  | same hsame =>
    refine Or.inl ⟨hsame.status.symm.trans hst, fun hopen => ?_⟩
    rw [State.AppealOpen, hsame.appealApprove, hsame.appealReject]
    exact hopen
  | appealBallot hst₀ _ hopen => exact Or.inl ⟨hst₀, fun _ => hopen⟩
  | opened _ hopen hvoters => exact Or.inr ⟨hvoters, hopen⟩
  | concluded hend => exact absurd hst hend.2.1
  | ballot _ hst' => cases hst'.symm.trans hst
  | approved _ _ _ _ _ hst' => cases hst'.symm.trans hst
  | appealApproved _ _ _ _ _ hst' => cases hst'.symm.trans hst

/-- **A step that does not lower a quorum keeps the open rounds below theirs.** -/
theorem roundsOpen (h : RoundsStep s s' l) (hvalid : s'.RulesValid)
    (hmono : ∀ id c, s.getClaim id = some c → s.effectiveQuorumBps id ≤ s'.effectiveQuorumBps id)
    (hs : s.RoundsOpen) : s'.RoundsOpen := by
  have hback : ∀ id c', s'.getClaim id = some c' → s.getClaim id = none ∨ ∃ c,
      s.getClaim id = some c ∧ c'.eligibleVoterCount = c.eligibleVoterCount ∧
        RoundStep s s' l id c c' := by
    intro id c' hc'
    cases hc : s.getClaim id with
    | none => exact Or.inl rfl
    | some c =>
      obtain ⟨c'', hc'', hE, hround⟩ := h.moved id c hc
      rw [hc', Option.some.injEq] at hc''
      subst hc''
      exact Or.inr ⟨c, rfl, hE, hround⟩
  constructor
  · intro id c' hc'
    rcases hback id c' hc' with hnone | ⟨c, hc, hE, -⟩
    · exact (h.filed id c' hnone hc').2.2.2
    · rw [hE, h.voters id c hc]
      exact hs.voters id c hc
  · intro id c' hc' hst
    rcases hback id c' hc' with hnone | ⟨c, hc, hE, hround⟩
    · obtain ⟨-, ha, hr, -⟩ := h.filed id c' hnone hc'
      rw [State.BaseOpen, ha, hr]
      exact .zero (hvalid.effective id)
    · cases hround with
      | same hsame =>
        rw [State.BaseOpen, hsame.approve, hsame.reject, hE]
        exact (hs.base id c hc (hsame.status.symm.trans hst)).mono (hmono id c hc)
      | ballot _ _ hopen => exact hopen.mono (hmono id c hc)
      | concluded hend => exact absurd hst hend.1
      | approved _ _ _ _ _ hst' => cases hst'.symm.trans hst
      | opened hst' => cases hst'.symm.trans hst
      | appealBallot _ hst' => cases hst'.symm.trans hst
      | appealApproved _ _ _ _ _ hst' => cases hst'.symm.trans hst
  · intro id c' hc' hst
    rcases hback id c' hc' with hnone | ⟨c, hc, -, hround⟩
    · cases (h.filed id c' hnone hc').1.symm.trans hst
    · rcases appealed_of_round hround hst with ⟨hst₀, -⟩ | ⟨hvoters, -⟩
      · obtain ⟨hsnap, -⟩ := h.appeal id c hc hst₀
        rw [State.hasAppealVoters, State.getAppealVoters, hsnap]
        exact hs.snapshot id c hc hst₀
      · exact hvoters
  · intro id c' hc' hst
    rcases hback id c' hc' with hnone | ⟨c, hc, -, hround⟩
    · cases (h.filed id c' hnone hc').1.symm.trans hst
    · rcases appealed_of_round hround hst with ⟨hst₀, hopen⟩ | ⟨-, hopen⟩
      · obtain ⟨hsnap, hquorum⟩ := h.appeal id c hc hst₀
        rw [appealOpen_of_same hsnap hquorum]
        exact hopen (hs.appeal id c hc hst₀)
      · exact hopen

theorem of_same (hclaim : SameKind .claim s s') (hvoters : SameKind .claimVoters s s')
    (hsnap : SameKind .appealVoters s s') (hquorum : SameKind .claimQuorum s s') :
    RoundsStep s s' l where
  moved id c hc := ⟨c, (getClaim_of_same hclaim id).trans hc, rfl, .same ⟨rfl, rfl, rfl, rfl, rfl⟩⟩
  filed id c' hnone hc' := by
    rw [getClaim_of_same hclaim, hnone] at hc'
    cases hc'
  voters id _ _ := getClaimVoters_of_same hvoters id
  appeal id _ _ _ := ⟨hsnap _ rfl, hquorum _ rfl⟩

theorem of_write (hk : s.ClaimsKeyed) (hc : s.getClaim claimId = some c)
    (hwrite : SameKind .claim (s.setClaim c') s') (hid : c'.claimId = c.claimId)
    (hE : c'.eligibleVoterCount = c.eligibleVoterCount) (hround : RoundStep s s' l claimId c c')
    (hvoters : SameKind .claimVoters s s')
    (happeal : ∀ id c, s.getClaim id = some c → c.status = .underAppeal →
      s'.get (.appealVoters id) = s.get (.appealVoters id) ∧
        s'.get (.appealClaimQuorumBps id) = s.get (.appealClaimQuorumBps id)) :
    RoundsStep s s' l := by
  have hget : ∀ id, s'.getClaim id = if id = claimId then some c' else s.getClaim id := by
    intro id
    rw [getClaim_of_write hwrite, hid, (hk claimId c hc).1]
  refine ⟨fun id d hd => ?_, fun id d' hnone hd' => ?_, fun id _ _ => ?_, happeal⟩
  · rw [hget]
    by_cases heq : id = claimId
    · subst heq
      rw [hc, Option.some.injEq] at hd
      subst hd
      exact ⟨c', if_pos rfl, hE, hround⟩
    · exact ⟨d, by rw [if_neg heq, hd], rfl, .same ⟨rfl, rfl, rfl, rfl, rfl⟩⟩
  · rw [hget] at hd'
    split at hd'
    · rename_i heq
      rw [heq, hc] at hnone
      cases hnone
    · rw [hnone] at hd'
      cases hd'
  · exact getClaimVoters_of_same hvoters id

theorem of_record {env : Env} {call : ClaimCall} (hf : Frame call.kinds s s') (hk : s.ClaimsKeyed)
    (hc : s.getClaim claimId = some c) (hwrite : SameKind .claim (s.setClaim c') s')
    (hid : c'.claimId = c.claimId) (hE : c'.eligibleVoterCount = c.eligibleVoterCount)
    (hround : RoundStep s s' (.call env (.claim call)) claimId c c')
    (hvoters : call.kinds.contains .claimVoters = false)
    (hsnap : call.kinds.contains .appealVoters = false)
    (hquorum : call.kinds.contains .claimQuorum = false) :
    RoundsStep s s' (.call env (.claim call)) :=
  .of_write hk hc hwrite hid hE hround (hf.sameKind hvoters)
    fun _ _ _ _ => ⟨hf.get _ hsnap, hf.get _ hquorum⟩

end RoundsStep

/-! ## The calls of the rounds -/

section Rounds

variable {env : Env} {s s' : State} {claimId : Nat} {c : Claim}

/-- What is known of a reached state. -/
structure RoundFacts (s : State) : Prop where
  keyed : s.ClaimsKeyed
  live : s.ClaimsLive
  rules : s.RulesValid
  cap : s.getMaxVotersPerClaim ≤ U32_MAX
  registry : s.RegistrySound

theorem roundFacts_of_reach {host : Host} (h : (contract host).Reach always s) : RoundFacts s :=
  ⟨claimsKeyed_of_reach h, live_of_reach h, rulesValid_of_reach h, maxVoters_of_reach h,
    registrySound_of_reach h⟩

theorem eligible_tally (c : Claim) (vote : VoteOption) (w : Nat) :
    (c.tally vote w).eligibleVoterCount = c.eligibleVoterCount := by
  cases vote <;> rfl

theorem eligible_tallyAppeal (c : Claim) (vote : VoteOption) (w : Nat) :
    (c.tallyAppeal vote w).eligibleVoterCount = c.eligibleVoterCount := by
  cases vote <;> rfl

theorem resolvePlurality_eq_none {approve reject eligible quorumBps : Nat}
    (h : resolvePluralityIfQuorumMet approve reject (approve + reject) eligible quorumBps = none) :
    participationQuorumMet (approve + reject) eligible quorumBps = false := by
  unfold resolvePluralityIfQuorumMet at h
  split at h
  · split at h <;> cases h
  · rename_i hno
    exact Bool.eq_false_of_not_eq_true hno

theorem resolvePlurality_eq_approved {approve reject eligible quorumBps : Nat}
    (h : resolvePluralityIfQuorumMet approve reject (approve + reject) eligible quorumBps =
      some .approved) :
    participationQuorumMet (approve + reject) eligible quorumBps = true ∧ reject < approve := by
  unfold resolvePluralityIfQuorumMet at h
  split at h
  · rename_i hmet
    split at h
    · rename_i hlt
      exact ⟨hmet, hlt⟩
    · cases h
  · cases h

/-- **A ballot of the base round** leaves it open, or brings it to its quorum. -/
theorem roundsStep_of_voteOnClaim {voter : Address} {vote : VoteOption} {st : ClaimStatus}
    (hfacts : RoundFacts s) (hs : s.RoundsOpen)
    (hok : ∀ c, s.getClaim claimId = some c → c.status ≠ .underAppeal)
    (hf : Frame (ClaimCall.voteOnClaim voter claimId vote).kinds s s')
    (h : voteOnClaim s voter claimId vote = .ok (st, s')) :
    RoundsStep s s' (.call env (.claim (.voteOnClaim voter claimId vote))) := by
  obtain ⟨claim, w, hclaim, hcheck, -, hcase⟩ := voteOnClaim_cases h
  have hcheck := checkBallot_eq_ok.mp hcheck
  have hproc : claim.status = .processing :=
    eq_processing_of_live (hfacts.live claimId claim hclaim) hcheck.1 (hok claim hclaim)
  obtain ⟨hlen, hmax⟩ := hs.voters claimId claim hclaim
  have hpos : 0 < claim.eligibleVoterCount := by
    rw [hlen]
    exact List.length_pos_of_mem hcheck.2.2.2.2.1
  have hvalid := hfacts.rules.effective claimId
  rcases hcase with ⟨hnone, rfl⟩ | ⟨outcome, hout, hclosed⟩
  · refine .of_record hf hfacts.keyed hclaim (SameKind.set (by simp) _ _)
      (tallies_tally claim vote w).1 (eligible_tally claim vote w) (.ballot hproc ?_ ?_) rfl rfl rfl
    · rw [status_tally]
      exact hproc
    · have hopen := resolvePlurality_eq_none hnone
      rw [eligible_tally] at hopen
      rw [State.BaseOpen, eligible_tally]
      exact .of_not_met hpos hmax hvalid hopen
  · obtain ⟨x, y, z, hrec⟩ := hclosed.record
    refine .of_record hf hfacts.keyed hclaim (SameKind.trans (SameKind.set (by simp) _ _) hrec)
      (tallies_tally claim vote w).1 (eligible_tally claim vote w) ?_ rfl rfl rfl
    rcases State.ballotOutcome_eq_some hout with rfl | rfl
    · obtain ⟨hmet, hlt⟩ := resolvePlurality_eq_approved hout
      rw [participationQuorumMet, eligible_tally, requiredCastForQuorum_eq_ceilDiv hmax hvalid.le,
        decide_eq_true_eq] at hmet
      exact .approved env voter vote rfl hproc rfl
        ((hs.base claimId claim hclaim hproc).below hpos) hmet hlt
    · exact .concluded (show ClaimStatus.rejected.Concluded by decide)

/-! ### The deadline of the base round -/

/-- Some claims were rejected, and that is all. -/
structure Ended (s s' : State) : Prop where
  moved : ∀ id c, s.getClaim id = some c → ∃ c', s'.getClaim id = some c' ∧
    c'.eligibleVoterCount = c.eligibleVoterCount ∧ (c' = c ∨ c'.status = .rejected)
  unfiled : ∀ id, s.getClaim id = none → s'.getClaim id = none

theorem Ended.refl (s : State) : Ended s s :=
  ⟨fun _ c hc => ⟨c, hc, rfl, Or.inl rfl⟩, fun _ hnone => hnone⟩

theorem Ended.trans {s'' : State} (h : Ended s s') (h' : Ended s' s'') : Ended s s'' where
  moved id c hc := by
    obtain ⟨c', hc', hE, hor⟩ := h.moved id c hc
    obtain ⟨c'', hc'', hE', hor'⟩ := h'.moved id c' hc'
    refine ⟨c'', hc'', hE'.trans hE, ?_⟩
    rcases hor' with rfl | hrej
    · exact hor
    · exact Or.inr hrej
  unfiled id hnone := h'.unfiled id (h.unfiled id hnone)

theorem Ended.roundsStep {l : Label} (h : Ended s s') (hf : Frame roundKinds s s') :
    RoundsStep s s' l where
  moved id c hc := by
    obtain ⟨c', hc', hE, rfl | hrej⟩ := h.moved id c hc
    · exact ⟨c', hc', rfl, .same ⟨rfl, rfl, rfl, rfl, rfl⟩⟩
    · refine ⟨c', hc', hE, .concluded ?_⟩
      rw [hrej]
      decide
  filed id c' hnone hc' := by
    rw [h.unfiled id hnone] at hc'
    cases hc'
  voters id _ _ := getClaimVoters_of_same (hf.sameKind rfl) id
  appeal id _ _ _ := ⟨hf.get _ rfl, hf.get _ rfl⟩

theorem deadlineOutcome_of_open (hrules : s.RulesValid) (hs : s.RoundsOpen)
    (hc : s.getClaim claimId = some c) (hproc : c.status = .processing) :
    s.deadlineOutcome claimId c = .rejected :=
  if_neg ((hs.base claimId c hc hproc).not_approved (hs.voters claimId c hc).2
    (hrules.effective claimId))

/-- **After its deadline an open round is rejected.** -/
theorem ended_of_finalizeClaimInner {st : ClaimStatus} (hk : s.ClaimsKeyed) (hrules : s.RulesValid)
    (hs : s.RoundsOpen) (hproc : ∀ c, s.getClaim claimId = some c → c.status.isTerminal = false →
      c.status = .processing)
    (h : finalizeClaimInner s claimId = .ok (st, s')) :
    st = .rejected ∧ Ended s s' := by
  have hst : ∀ c, s.getClaim claimId = some c → c.status.isTerminal = false →
      s.deadlineOutcome claimId c = .rejected := fun c hc hterm =>
    deadlineOutcome_of_open hrules hs hc (hproc c hc hterm)
  obtain ⟨claim, hclaim, hterm, hclosed⟩ := finalizeClaimInner_cases h
  obtain ⟨claim₀, -, hclaim₀, hterm₀, -, -, hres, -⟩ := finalizeClaimInner_eq_ok h
  rw [hst claim hclaim hterm] at hclosed
  obtain ⟨x, y, z, hrec⟩ := hclosed.record
  have hget : ∀ id, s'.getClaim id =
      if id = claimId then some (claim.closed .rejected s.sequence x y z) else s.getClaim id := by
    intro id
    rw [getClaim_of_write hrec]
    change (if id = claim.claimId then _ else _) = _
    rw [(hk claimId claim hclaim).1]
  refine ⟨hres.trans (hst claim₀ hclaim₀ hterm₀), fun id c hc => ?_, fun id hnone => ?_⟩
  · rw [hget]
    by_cases heq : id = claimId
    · subst heq
      rw [hclaim, Option.some.injEq] at hc
      subst hc
      exact ⟨_, if_pos rfl, rfl, Or.inr rfl⟩
    · exact ⟨c, by rw [if_neg heq, hc], rfl, Or.inl rfl⟩
  · rw [hget, if_neg ?_, hnone]
    rintro rfl
    rw [hclaim] at hnone
    cases hnone

theorem ended_of_finalizeBatchLoop {ids : List Nat} {n m : Nat} (hk : s.ClaimsKeyed)
    (hrules : s.RulesValid) (hs : s.RoundsOpen) (h : finalizeBatchLoop ids s 0 0 = .ok (n, m, s')) :
    Ended s s' := by
  have hall : s'.ClaimsKeyed ∧ s'.RulesValid ∧ s'.RoundsOpen ∧ Ended s s' := by
    refine finalizeBatchLoop_keeps (I := fun u => u.ClaimsKeyed ∧ u.RulesValid ∧ u.RoundsOpen ∧
      Ended s u) ?_ _ s 0 0 h ⟨hk, hrules, hs, .refl s⟩
    rintro u u' id st hel h₁ ⟨hku, hrules₁, hu, hended⟩
    have hf := frame_finalizeClaimInner h₁
    obtain ⟨d, hd, hproc, -⟩ := isBatchEligible_iff.mp hel
    obtain ⟨-, hone⟩ := ended_of_finalizeClaimInner hku hrules₁ hu
      (fun c hc _ => by rw [hd, Option.some.injEq] at hc; rw [← hc]; exact hproc) h₁
    have hrules₂ := hrules₁.of_same (hf.sameKind rfl) (hf.sameKind rfl) (hf.sameKind rfl)
    refine ⟨claimsKeyed_of_rewrites (rewrites_of_finalizeClaimInner h₁) (hf.sameKind rfl) hku,
      hrules₂, ?_, hended.trans hone⟩
    refine (hone.roundsStep (l := .closeLedger 0) hf).roundsOpen hrules₂ (fun i _ _ => ?_) hu
    exact (effectiveQuorumBps_of_frame hf rfl rfl rfl).ge
  exact hall.2.2.2

/-! ### The appeal round -/

/-- **A ballot of the appeal round** leaves it open, or brings it to its quorum. -/
theorem roundsStep_of_voteOnAppeal {voter : Address} {vote : VoteOption} {st : ClaimStatus}
    (hfacts : RoundFacts s) (hs : s.RoundsOpen)
    (hf : Frame (ClaimCall.voteOnAppeal voter claimId vote).kinds s s')
    (h : voteOnAppeal s voter claimId vote = .ok (st, s')) :
    RoundsStep s s' (.call env (.claim (.voteOnAppeal voter claimId vote))) := by
  obtain ⟨claim, hclaim, hst, hmem, hcase⟩ := voteOnAppeal_cases h
  have hpos : 0 < (s.getAppealVoters claimId).length := List.length_pos_of_mem hmem
  have hmax := (hs.snapshot claimId claim hclaim hst).2
  have hvalid := hfacts.rules.appeals claimId
  have hid := claimId_tallyAppeal claim vote 1
  have hE := eligible_tallyAppeal claim vote 1
  rcases hcase with ⟨hnone, rfl⟩ | ⟨outcome, claim', s₂, hout, h₂, rfl⟩
  · refine .of_record hf hfacts.keyed hclaim (SameKind.set (by simp) _ _) hid hE
      (.appealBallot hst ?_ ?_) rfl rfl rfl
    · rw [status_tallyAppeal]
      exact hst
    · exact .of_not_met hpos hmax hvalid
        (resolvePlurality_eq_none (Option.map_eq_none_iff.mp hnone))
  · have hf₂ := frame_finalizeAppealOutcome h₂
    obtain ⟨⟨x, y, rfl⟩, -⟩ := finalizeAppealOutcome_eq_ok h₂
    refine .of_record hf hfacts.keyed hclaim (SameKind.set ?_ _ _) hid hE ?_ rfl rfl rfl
    · refine SameKind.trans ?_ (hf₂.sameKind rfl)
      simp
    · obtain ⟨raw, hraw, rfl⟩ := Option.map_eq_some_iff.mp hout
      by_cases happ : raw = .approved
      · subst happ
        obtain ⟨hmet, hlt⟩ := resolvePlurality_eq_approved hraw
        rw [participationQuorumMet, requiredCastForQuorum_eq_ceilDiv hmax hvalid.le,
          decide_eq_true_eq] at hmet
        exact .appealApproved env voter vote rfl hst rfl
          ((hs.appeal claimId claim hclaim hst).below hpos) hmet hlt
      · rw [if_neg happ]
        exact .concluded (show ClaimStatus.appealRejected.Concluded by decide)

theorem appealDeadlineOutcome_of_open (hrules : s.RulesValid) (hs : s.RoundsOpen)
    (hc : s.getClaim claimId = some c) (hst : c.status = .underAppeal) :
    s.appealDeadlineOutcome claimId c = .appealRejected := by
  obtain ⟨hsnap, hmax⟩ := hs.snapshot claimId c hc hst
  rw [State.appealDeadlineOutcome, State.appealElectorate, if_pos hsnap]
  exact if_neg ((hs.appeal claimId c hc hst).not_approved hmax (hrules.appeals claimId))

/-- **After its deadline an open appeal is rejected.** -/
theorem finalizeAppeal_of_open {st : ClaimStatus} (hrules : s.RulesValid) (hs : s.RoundsOpen)
    (h : finalizeAppeal s claimId = .ok (st, s')) :
    st = .appealRejected ∧ ∃ c c', s.getClaim claimId = some c ∧
      SameKind .claim (s.setClaim c') s' ∧ c'.claimId = c.claimId ∧
      c'.eligibleVoterCount = c.eligibleVoterCount ∧ c'.status = .appealRejected := by
  obtain ⟨claim, claim', s₁, hclaim, hst, h₁, rfl, hres⟩ := finalizeAppeal_cases h
  rw [appealDeadlineOutcome_of_open hrules hs hclaim hst] at h₁
  have hf₁ := frame_finalizeAppealOutcome h₁
  obtain ⟨⟨x, y, rfl⟩, -⟩ := finalizeAppealOutcome_eq_ok h₁
  exact ⟨hres, claim, _, hclaim, SameKind.set (hf₁.sameKind rfl) _ _, rfl, rfl, rfl⟩

theorem appeal_of_openAppeal {claimant : Address} (h : openAppeal s claimant claimId = .ok s') :
    SameKind .appealVoters (s.set (.appealVoters claimId) s.getVoters) s' := by
  simp only [openAppeal, bind_eq_ok, pure_eq_ok] at h
  obtain ⟨deadline, -, -, -, claim, -, -, -, -, -, -, -, -, -, rfl⟩ := h
  have hvoters : (s.set (.appealClaimQuorumBps claimId)
      (max s.getElevatedQuorumBps APPEAL_ELEVATED_QUORUM_BPS)).getVoters = s.getVoters :=
    getVoters_of_same (by simp)
  rw [SameKind.emit_iff, SameKind.emit_iff, SameKind.set_iff rfl, SameKind.set_iff rfl,
    State.snapshotAppealVoters, hvoters]
  refine SameKind.set ?_ _ _
  simp

theorem roundsStep_of_openAppeal {claimant : Address} (hfacts : RoundFacts s)
    (hf : Frame (ClaimCall.openAppeal claimant claimId).kinds s s')
    (h : openAppeal s claimant claimId = .ok s') :
    RoundsStep s s' (.call env (.claim (.openAppeal claimant claimId))) := by
  obtain ⟨claim, deadline, hclaim, hst, hrec, -⟩ := openAppeal_eq_ok h
  have hsnap := appeal_of_openAppeal h
  have hquorum := claimQuorum_of_openAppeal h
  have hvoters : s'.getAppealVoters claimId = s.getVoters := by
    rw [State.getAppealVoters, hsnap _ rfl, State.get_set_self]
    rfl
  refine .of_write hfacts.keyed hclaim hrec rfl rfl (.opened rfl ?_ ⟨?_, ?_⟩) (hf.sameKind rfl) ?_
  · rw [State.AppealOpen, State.getAppealClaimQuorumBps, hquorum _ rfl, State.get_set_self]
    exact .zero (hfacts.rules.elevated.max validQuorum_appeal)
  · rw [State.hasAppealVoters, hsnap _ rfl, State.get_set_self]
    rfl
  · have hcap := hfacts.registry.within_cap
    have hmax : MAX_ELIGIBLE_VOTERS ≤ U32_MAX := by decide
    rw [hvoters]
    omega
  · intro id c hc hst'
    have hne : id ≠ claimId := by
      rintro rfl
      rw [hclaim, Option.some.injEq] at hc
      rw [← hc, hst] at hst'
      cases hst'
    rw [hsnap _ rfl, hquorum _ rfl, State.get_set_of_ne _ _ (by simpa using hne),
      State.get_set_of_ne _ _ (by simpa using hne)]
    exact ⟨rfl, rfl⟩

theorem roundsStep_of_fileClaim {holder : Address} {policyId : Nat} {amount : Int} {details : Str}
    {evidence : List ClaimEvidenceEntry} {expectedNonce : Option Nat} {l : Label}
    (hfacts : RoundFacts s) (hf : Frame (ClaimCall.fileClaim holder policyId amount details evidence
      expectedNonce).kinds s s')
    (h : fileClaim env s holder policyId amount details evidence expectedNonce =
      .ok (claimId, s')) :
    RoundsStep s s' l := by
  obtain ⟨policy, voters, deadline, -, -, -, rfl, -, hlen, hrec, -, hvoters, -⟩ := fileClaim_eq_ok h
  have hquorum := claimQuorum_of_fileClaim h
  have hget := getClaim_of_write hrec
  have hold : ∀ id c, s.getClaim id = some c → id ≠ s.getClaimCounter + 1 := by
    intro id c hc
    have hle := (hfacts.keyed id c hc).2
    omega
  have hcap := hfacts.cap
  refine ⟨fun id c hc => ?_, fun id c' hnone hc' => ?_, fun id c hc => ?_, fun id c hc _ => ?_⟩
  · refine ⟨c, ?_, rfl, .same ⟨rfl, rfl, rfl, rfl, rfl⟩⟩
    rw [hget]
    exact (if_neg (hold id c hc)).trans hc
  · rw [hget] at hc'
    split at hc'
    · rename_i heq
      cases hc'
      have hset : s'.getClaimVoters id = voters := by
        change id = s.getClaimCounter + 1 at heq
        rw [State.getClaimVoters, hvoters _ rfl, heq, State.get_set_self]
        rfl
      rw [hset]
      exact ⟨rfl, rfl, rfl, rfl, hlen.trans hcap⟩
    · rw [hnone] at hc'
      cases hc'
  · rw [State.getClaimVoters, hvoters _ rfl, State.get_set_of_ne _ _ (by simpa using hold id c hc)]
  · rw [hf.get (.appealVoters id) rfl, hquorum _ rfl, State.get_set_of_ne _ _ (by simp)]
    exact ⟨rfl, rfl⟩

end Rounds


/-! ## All calls -/

/-- No ballot is revealed, and the base round is not run on a claim under appeal. -/
def RoundsApart (s : State) : Label → Prop
  | .call _ (.claim (.revealVote ..)) => False
  | .call _ (.claim (.voteOnClaim _ id _)) => ∀ c, s.getClaim id = some c → c.status ≠ .underAppeal
  | .call _ (.claim (.finalizeClaim id)) => ∀ c, s.getClaim id = some c → c.status ≠ .underAppeal
  | _ => True

section Calls

variable {env : Env} {s s' : State}

/-- **What a claim call does to the rounds.** -/
theorem roundsStep_of_claimCall {c : ClaimCall} (hfacts : RoundFacts s) (hs : s.RoundsOpen)
    (hok : RoundsApart s (.call env (.claim c))) (h : c.exec env s = .ok s') :
    RoundsStep s s' (.call env (.claim c)) := by
  have hran := ran_of_exec h
  have hf := frame_claimCall h
  have hk := hfacts.keyed
  cases c with
  | fileClaim =>
    obtain ⟨id, hran⟩ := hran
    exact roundsStep_of_fileClaim hfacts hf hran
  | withdrawClaim claimant id =>
    obtain ⟨claim, hclaim, -, -, -, hrec, -⟩ := withdrawClaim_eq_ok hran
    exact .of_record hf hk hclaim hrec rfl rfl
      (.concluded (show ClaimStatus.withdrawn.Concluded by decide)) rfl rfl rfl
  | addClaimEvidence claimant id newEvidence =>
    obtain ⟨claim, hclaim, -, hrec⟩ := addClaimEvidence_eq_ok hran
    exact .of_record hf hk hclaim hrec rfl rfl (.same ⟨rfl, rfl, rfl, rfl, rfl⟩) rfl rfl rfl
  | voteOnClaim voter id vote =>
    obtain ⟨st, hran⟩ := hran
    exact roundsStep_of_voteOnClaim hfacts hs hok hf hran
  | finalizeClaim id =>
    obtain ⟨st, hran⟩ := hran
    obtain ⟨-, hended⟩ := ended_of_finalizeClaimInner hk hfacts.rules hs (fun c hc hterm =>
      eq_processing_of_live (hfacts.live id c hc) hterm (hok c hc)) hran
    exact hended.roundsStep hf
  | processDeadline id =>
    obtain ⟨⟨claim, hclaim, hproc⟩, st, hran⟩ := hran
    obtain ⟨-, hended⟩ := ended_of_finalizeClaimInner hk hfacts.rules hs (fun c hc _ => by
      rw [hclaim, Option.some.injEq] at hc
      rw [← hc]
      exact hproc) hran
    exact hended.roundsStep hf
  | finalizeExpiredBatch ids =>
    obtain ⟨n, m, u, hloop, rfl⟩ := hran
    have hended := ended_of_finalizeBatchLoop hk hfacts.rules hs hloop
    exact Ended.roundsStep ⟨hended.moved, hended.unfiled⟩ hf
  | escalateClaim id deadline =>
    obtain ⟨claim, hclaim, -, hrec⟩ := escalateClaim_eq_ok hran
    exact .of_record hf hk hclaim hrec rfl rfl (.same ⟨rfl, rfl, rfl, rfl, rfl⟩) rfl rfl rfl
  | processClaim id =>
    obtain ⟨claim, failed, hclaim, -, -, -, hrec, -⟩ := processClaim_eq_ok hran
    cases failed with
    | true =>
      exact .of_record hf hk hclaim hrec rfl rfl
        (.concluded (show ClaimStatus.payoutFailed.Concluded by decide)) rfl rfl rfl
    | false =>
      exact .of_record hf hk hclaim hrec rfl rfl
        (.concluded (show ClaimStatus.paid.Concluded by decide)) rfl rfl rfl
  | processPayoutTimeout id =>
    obtain ⟨st, hran⟩ := hran
    obtain ⟨claim, hclaim, -, hrec, -⟩ := processPayoutTimeout_eq_ok hran
    exact .of_record hf hk hclaim hrec rfl rfl
      (.concluded (show ClaimStatus.payoutTimeout.Concluded by decide)) rfl rfl rfl
  | disputeClaim id =>
    obtain ⟨claim, hclaim, -, hrec⟩ := disputeClaim_eq_ok hran
    exact .of_record hf hk hclaim hrec rfl rfl
      (.concluded (show ClaimStatus.disputed.Concluded by decide)) rfl rfl rfl
  | disburseInstallment id amount =>
    obtain ⟨claim, p, hclaim, -, -, -, -, -, -, hdone, hmore⟩ := disburseInstallment_eq_ok hran
    by_cases hcomp : claim.Completes amount
    · exact .of_record hf hk hclaim (hdone hcomp).1 rfl rfl
        (.concluded (show ClaimStatus.paid.Concluded by decide)) rfl rfl rfl
    · exact .of_record hf hk hclaim (hmore hcomp).1 rfl rfl
        (.same ⟨rfl, rfl, rfl, rfl, rfl⟩) rfl rfl rfl
  | openAppeal claimant id => exact roundsStep_of_openAppeal hfacts hf hran
  | voteOnAppeal voter id vote =>
    obtain ⟨st, hran⟩ := hran
    exact roundsStep_of_voteOnAppeal hfacts hs hf hran
  | finalizeAppeal id =>
    obtain ⟨st, hran⟩ := hran
    obtain ⟨-, c, c', hc, hrec, hid, hE, hst⟩ := finalizeAppeal_of_open hfacts.rules hs hran
    refine .of_record hf hk hc hrec hid hE (.concluded ?_) rfl rfl rfl
    rw [hst]
    decide
  | revealVote => exact hok.elim
  | refreshSnapshot | setClaimFraudScore | setCommitRevealPhases | commitVote | delegateVote =>
    exact .of_same (hf.sameKind rfl) (hf.sameKind rfl) (hf.sameKind rfl) (hf.sameKind rfl)

theorem roundsStep_of_step {host : Host} {l : Label} (hfacts : RoundFacts s) (hs : s.RoundsOpen)
    (hok : RoundsApart s l) (hstep : (contract host).step s l s') : RoundsStep s s' l := by
  cases l with
  | closeLedger n =>
    obtain ⟨-, -, rfl⟩ := hstep
    exact .of_same (fun _ _ => rfl) (fun _ _ => rfl) (fun _ _ => rfl) fun _ _ => rfl
  | tokens b a =>
    obtain ⟨-, rfl⟩ := hstep
    exact .of_same (fun _ _ => rfl) (fun _ _ => rfl) (fun _ _ => rfl) fun _ _ => rfl
  | call env c =>
    have hf := frame_exec hstep.2
    cases c with
    | claim c => exact roundsStep_of_claimCall hfacts hs hok hstep.2
    | policy c =>
      exact .of_same (hf.sameKind (c.untouched rfl)) (hf.sameKind (c.untouched rfl))
        (hf.sameKind (c.untouched rfl)) (hf.sameKind (c.untouched rfl))
    | treasury c =>
      exact .of_same (hf.sameKind (c.untouched rfl)) (hf.sameKind (c.untouched rfl))
        (hf.sameKind (c.untouched rfl)) (hf.sameKind (c.untouched rfl))
    | setting c =>
      exact .of_same (hf.sameKind rfl) (hf.sameKind rfl) (hf.sameKind rfl) (hf.sameKind rfl)
    | governance c =>
      exact .of_same (hf.sameKind (c.untouched rfl)) (hf.sameKind (c.untouched rfl))
        (hf.sameKind (c.untouched rfl)) (hf.sameKind (c.untouched rfl))

end Calls

/-! ## Along a run -/

/-- The step does not lower the effective quorum of a claim. -/
def QuorumKept (host : Host) (s : State) (l : Label) : Prop :=
  ∀ s', (contract host).step s l s' → ∀ id c, s.getClaim id = some c →
    s.effectiveQuorumBps id ≤ s'.effectiveQuorumBps id

/-- The condition on the steps of a run. -/
def KeepsRounds (host : Host) (s : State) (l : Label) : Prop :=
  RoundsApart s l ∧ QuorumKept host s l

section Runs

variable {host : Host} {s s' : State}

theorem roundsOpen_of_reach (h : (contract host).Reach (KeepsRounds host) s) : s.RoundsOpen := by
  refine h.invariant_with (J := RoundFacts) (I := State.RoundsOpen)
    (fun s hs => roundFacts_of_reach hs.to_always) ?_ ?_
  · intro s hs
    have hnone : ∀ id, s.getClaim id = none := fun id => State.Fresh.get host hs _
    refine ⟨fun id c hc => ?_, fun id c hc => ?_, fun id c hc => ?_, fun id c hc => ?_⟩ <;>
      rw [hnone] at hc <;> cases hc
  · rintro s l s' hfacts ⟨hapart, hkept⟩ hstep hs
    exact (roundsStep_of_step hfacts hs hapart hstep).roundsOpen
      (rulesValid_of_step hstep hfacts.rules) (hkept s' hstep) hs

/-- The claim is in the status after the step, and was not before it. -/
def Enters (s s' : State) (id : Nat) (st : ClaimStatus) (c' : Claim) : Prop :=
  s'.getClaim id = some c' ∧ c'.status = st ∧ ∀ c, s.getClaim id = some c → c.status ≠ st

/-- A claim that enters `Approved` or `AppealApproved` does so by a ballot that completes the
quorum with a majority of approvals. -/
theorem enters_of_roundsStep {l : Label} {id : Nat} {c' : Claim} (h : RoundsStep s s' l) :
    (Enters s s' id .approved c' → ∃ env voter vote c,
      l = .call env (.claim (.voteOnClaim voter id vote)) ∧ s.getClaim id = some c ∧
      c.status = .processing ∧ c.approveVotes + c.rejectVotes < s.baseQuorum id c ∧
      s.baseQuorum id c ≤ c'.approveVotes + c'.rejectVotes ∧ c'.rejectVotes < c'.approveVotes) ∧
    (Enters s s' id .appealApproved c' → ∃ env voter vote c,
      l = .call env (.claim (.voteOnAppeal voter id vote)) ∧ s.getClaim id = some c ∧
      c.status = .underAppeal ∧ c.appealApproveVotes + c.appealRejectVotes < s.appealQuorum id ∧
      s.appealQuorum id ≤ c'.appealApproveVotes + c'.appealRejectVotes ∧
      c'.appealRejectVotes < c'.appealApproveVotes) := by
  have hback : ∀ {st}, st = .approved ∨ st = .appealApproved → Enters s s' id st c' →
      ∃ c, s.getClaim id = some c ∧ c.status ≠ c'.status ∧ ¬ c'.status.Concluded ∧
        RoundStep s s' l id c c' := by
    rintro st hst ⟨hc', rfl, hnew⟩
    cases hc : s.getClaim id with
    | none =>
      have hproc := (h.filed id c' hc hc').1
      rw [hproc] at hst
      rcases hst with hst | hst <;> cases hst
    | some c =>
      obtain ⟨c'', hc'', -, hround⟩ := h.moved id c hc
      rw [hc', Option.some.injEq] at hc''
      subst hc''
      refine ⟨c, rfl, hnew c hc, fun hend => ?_, hround⟩
      rcases hst with hst | hst
      · exact hend.2.2.1 hst
      · exact hend.2.2.2 hst
  constructor
  · intro henters
    obtain ⟨c, hc, hne, hopen, hround⟩ := hback (Or.inl rfl) henters
    have hst := henters.2.1
    cases hround with
    | approved env voter vote hl hproc _ hbelow hmet hlt =>
      exact ⟨env, voter, vote, c, hl, hc, hproc, hbelow, hmet, hlt⟩
    | same hsame => exact absurd hsame.status.symm hne
    | concluded hend => exact absurd hend hopen
    | ballot _ hst' => cases hst'.symm.trans hst
    | opened hst' => cases hst'.symm.trans hst
    | appealBallot _ hst' => cases hst'.symm.trans hst
    | appealApproved _ _ _ _ _ hst' => cases hst'.symm.trans hst
  · intro henters
    obtain ⟨c, hc, hne, hopen, hround⟩ := hback (Or.inr rfl) henters
    have hst := henters.2.1
    cases hround with
    | appealApproved env voter vote hl hst₀ _ hbelow hmet hlt =>
      exact ⟨env, voter, vote, c, hl, hc, hst₀, hbelow, hmet, hlt⟩
    | same hsame => exact absurd hsame.status.symm hne
    | concluded hend => exact absurd hend hopen
    | ballot _ hst' => cases hst'.symm.trans hst
    | opened hst' => cases hst'.symm.trans hst
    | appealBallot _ hst' => cases hst'.symm.trans hst
    | approved _ _ _ _ _ hst' => cases hst'.symm.trans hst

/-- **Open rounds are below their quorum.**  In every run without revealed ballots in which no step
lowers the effective quorum of a claim and the base round is not run on a claim under appeal:

* a claim in `Processing` that has voters, and an appeal that has voters, is below its quorum;
* a claim becomes `Approved` or `AppealApproved` by a ballot that completes the quorum, with more
  approvals than rejections;
* `finalize_claim` and `process_deadline` reject, and so does `finalize_appeal`. -/
theorem open_rounds_below_quorum (h : (contract host).Reach (KeepsRounds host) s) :
    (∀ id c, s.getClaim id = some c → c.status = .processing → 0 < c.eligibleVoterCount →
      c.approveVotes + c.rejectVotes <
        c.eligibleVoterCount * s.effectiveQuorumBps id ⌈/⌉ 10000) ∧
    (∀ id c, s.getClaim id = some c → c.status = .underAppeal → s.getAppealVoters id ≠ [] →
      c.appealApproveVotes + c.appealRejectVotes <
        (s.getAppealVoters id).length * s.getAppealClaimQuorumBps id ⌈/⌉ 10000) ∧
    (∀ l s', KeepsRounds host s l → (contract host).step s l s' → ∀ id c',
      (Enters s s' id .approved c' → ∃ env voter vote c,
        l = .call env (.claim (.voteOnClaim voter id vote)) ∧ s.getClaim id = some c ∧
        c.status = .processing ∧ c.approveVotes + c.rejectVotes < s.baseQuorum id c ∧
        s.baseQuorum id c ≤ c'.approveVotes + c'.rejectVotes ∧ c'.rejectVotes < c'.approveVotes) ∧
      (Enters s s' id .appealApproved c' → ∃ env voter vote c,
        l = .call env (.claim (.voteOnAppeal voter id vote)) ∧ s.getClaim id = some c ∧
        c.status = .underAppeal ∧ c.appealApproveVotes + c.appealRejectVotes < s.appealQuorum id ∧
        s.appealQuorum id ≤ c'.appealApproveVotes + c'.appealRejectVotes ∧
        c'.appealRejectVotes < c'.appealApproveVotes)) ∧
    ∀ id st s', ((∀ c, s.getClaim id = some c → c.status ≠ .underAppeal) →
        finalizeClaim s id = .ok (st, s') → st = .rejected) ∧
      (processDeadline s id = .ok (st, s') → st = .rejected) ∧
      (finalizeAppeal s id = .ok (st, s') → st = .appealRejected) := by
  have hs := roundsOpen_of_reach h
  have hfacts := roundFacts_of_reach h.to_always
  refine ⟨fun id c hc hst hpos => (hs.base id c hc hst).below hpos, fun id c hc hst hne => ?_,
    fun l s' hok hstep id c' => ?_, fun id st s' =>
    ⟨fun hok hfin => ?_, fun hfin => ?_, fun hfin => ?_⟩⟩
  · exact (hs.appeal id c hc hst).below (List.length_pos_of_ne_nil hne)
  · exact enters_of_roundsStep (roundsStep_of_step hfacts hs hok.1 hstep)
  · obtain ⟨-, -, hfin⟩ := bind_eq_ok.mp hfin
    refine (ended_of_finalizeClaimInner hfacts.keyed hfacts.rules hs (fun c hc hterm => ?_) hfin).1
    exact eq_processing_of_live (hfacts.live id c hc) hterm (hok c hc)
  · simp only [processDeadline, bind_eq_ok, okOr_eq_ok, ensure_eq_ok] at hfin
    obtain ⟨-, -, claim, hclaim, -, -, -, hproc, hfin⟩ := hfin
    refine (ended_of_finalizeClaimInner hfacts.keyed hfacts.rules hs (fun c hc _ => ?_) hfin).1
    rw [hclaim, Option.some.injEq] at hc
    rw [← hc]
    exact hproc
  · exact (finalizeAppeal_of_open hfacts.rules hs hfin).1

end Runs

/-- `RoundsApart`, computed. -/
def roundsApartCheck (s : State) : Label → Bool
  | .call _ (.claim (.revealVote ..)) => false
  | .call _ (.claim (.voteOnClaim _ id _)) => decide (∀ c ∈ s.getClaim id, c.status ≠ .underAppeal)
  | .call _ (.claim (.finalizeClaim id)) => decide (∀ c ∈ s.getClaim id, c.status ≠ .underAppeal)
  | _ => true

/-- `QuorumKept`, computed. -/
def quorumKeptCheck (s : State) : Label → Bool
  | .call env c =>
    match c.exec env s with
    | .ok s' => s.storage.entries.all fun e =>
      match e with
      | ⟨.claim id, _⟩ => decide (s.effectiveQuorumBps id ≤ s'.effectiveQuorumBps id)
      | _ => true
    | .error _ => true
  | _ => true

theorem roundsApart_of_check (s : State) (l : Label) (h : roundsApartCheck s l = true) :
    RoundsApart s l := by
  unfold roundsApartCheck at h
  unfold RoundsApart
  split at h
  · cases h
  · exact of_decide_eq_true h
  · exact of_decide_eq_true h
  · trivial

theorem quorumKept_of_check (s : State) (l : Label) (h : quorumKeptCheck s l = true) :
    QuorumKept demoHost s l := by
  intro s' hstep id c hc
  cases l with
  | closeLedger n =>
    obtain ⟨-, -, rfl⟩ := hstep
    exact le_rfl
  | tokens b a =>
    obtain ⟨-, rfl⟩ := hstep
    exact le_rfl
  | call env call =>
    simp only [quorumKeptCheck, hstep.2] at h
    exact of_decide_eq_true (List.all_eq_true.mp h ⟨.claim id, c⟩ (AList.mem_lookup_iff.mp hc))

theorem keepsRounds_of_check (s : State) (l : Label)
    (h : (roundsApartCheck s l && quorumKeptCheck s l) = true) : KeepsRounds demoHost s l := by
  obtain ⟨hapart, hkept⟩ := Bool.and_eq_true_iff.mp h
  exact ⟨roundsApart_of_check s l hapart, quorumKept_of_check s l hkept⟩

/-- Five accounts are insured, the first files a claim, and the second approves it. -/
def firstBallot : List Label :=
  demoSetup ++ [demoBind 4 .auto 10000000, demoBind 5 .auto 10000000, demoFile 1 1 1000,
    demoCall (.claim (.voteOnClaim 2 1 .approve))]

/-- One ballot of four leaves the round open: the quorum takes two. -/
theorem open_rounds_below_quorum_of_ballot : ∃ s c,
    (contract demoHost).Reach (KeepsRounds demoHost) s ∧ s.getClaim 1 = some c ∧
      c.status = .processing ∧ c.eligibleVoterCount = 4 ∧ c.approveVotes = 1 ∧
      c.approveVotes + c.rejectVotes < c.eligibleVoterCount * s.effectiveQuorumBps 1 ⌈/⌉ 10000 := by
  obtain ⟨s, hreach, hval⟩ := exists_of_follow keepsRounds_of_check (deployed 0) firstBallot
    (f := fun s => (s.getClaim 1).map fun c => (c.status, c.eligibleVoterCount, c.approveVotes))
    (a := some (.processing, 4, 1)) (fresh_deployed (by decide))
    (by simp [firstBallot, demoSetup, demoInit, demoBind, demoFile]) (by decide +kernel)
  simp only [Option.map_eq_some_iff, Prod.mk.injEq] at hval
  obtain ⟨c, hc, hst, hE, ha⟩ := hval
  refine ⟨s, c, hreach, hc, hst, hE, ha, ?_⟩
  exact (open_rounds_below_quorum hreach).1 1 c hc hst (by omega)

end NiffyInsure
