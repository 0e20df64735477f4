import NiffyInsure.Ballots
import NiffyInsure.Expiry

/-!
# The cap on voters

`vote_on_claim` refuses a ballot with `VoterCapReached` when the tallies of the claim reach
`max_voters_per_claim`.  In a build with the `governance-token` feature a ballot weighs as much as
its voter has active policies, so that the tallies may run ahead of the ballots.

* `ArmedState`, `armedContract`: the contract of that build, with the runtime flag of the weighting.
* `TalliesKept`: what the calls that count no ballot leave of the tallies.
* `VoterCapHolds`: a step takes the tallies of an open claim to the cap with so many voters only.
* `voterCap_of_reach`: in every run that meets this, the cap is reached by voters.
* `voterCapHolds_of_reach`: every run of the contract without weighting meets it.
-/

namespace NiffyInsure

open Machine

/-! ## The contract with weighting -/

/-- The state of a contract that is built with the `governance-token` feature:
`GovernanceTokenRuntimeEnabled` is the flag. -/
structure ArmedState where
  base : State
  armed : Bool

section Exec

variable (env : Env)

/-- A call, with the ballots of both rounds weighed. -/
def Call.execArmed (armed : Bool) (s : State) : Call → Result State
  | .claim (.voteOnClaim voter claimId vote) => do
    requireAuth env voter
    dropValue (voteOnClaimWith s (·.defaultWeight armed voter) voter claimId vote)
  | .claim (.voteOnAppeal voter claimId vote) => do
    requireAuth env voter
    dropValue (voteOnAppealWith s (·.defaultWeight armed voter) voter claimId vote)
  | c => c.exec env s

/-- `gov_set_token_runtime_enabled`. -/
def govSetTokenRuntimeEnabled (w : ArmedState) (admin : Address) (enabled : Bool) :
    Result ArmedState := do
  requireAuth env admin
  let stored ← okOr (w.base.get .admin) .trap
  ensure (admin = stored) .trap
  pure { w with armed := enabled }

end Exec

/-- What can happen next: a step of the contract, or a write of the flag. -/
inductive ArmedLabel where
  | base (l : Label)
  | govSetTokenRuntimeEnabled (env : Env) (admin : Address) (enabled : Bool)

/-- One step of the deployed contract. -/
def ArmedState.Step (host : Host) (w : ArmedState) : ArmedLabel → ArmedState → Prop
  | .base (.call env c), w' => env.toHost = host ∧ c.execArmed env w.armed w.base = .ok w'.base ∧
    w'.armed = w.armed
  | .base l, w' => State.Step host w.base l w'.base ∧ w'.armed = w.armed
  | .govSetTokenRuntimeEnabled env admin enabled, w' => env.toHost = host ∧
    NiffyInsure.govSetTokenRuntimeEnabled env w admin enabled = .ok w'

/-- The machine of the contract with weighting, which is not armed at first. -/
def armedContract (host : Host) : Machine ArmedState ArmedLabel where
  init w := w.base.Fresh host ∧ w.armed = false
  step := ArmedState.Step host

theorem execArmed_eq {env : Env} {armed : Bool} {s : State} {c : Call}
    (hvote : ∀ voter id vote, c ≠ .claim (.voteOnClaim voter id vote))
    (happeal : ∀ voter id vote, c ≠ .claim (.voteOnAppeal voter id vote)) :
    c.execArmed env armed s = c.exec env s := by
  unfold Call.execArmed
  split
  · rename_i voter id vote
    exact absurd rfl (hvote voter id vote)
  · rename_i voter id vote
    exact absurd rfl (happeal voter id vote)
  · rfl

/-- **Without weighting the feature changes nothing.** -/
theorem execArmed_disarmed {env : Env} {s : State} (c : Call) :
    c.execArmed env false s = c.exec env s := by
  unfold Call.execArmed
  split <;> rfl

/-! ## Ballots and tallies -/

/-- The ballots that are counted on a claim, with their weights. -/
def Claim.cast (claim : Claim) : Nat := claim.approveVotes + claim.rejectVotes

/-- At least `n` addresses have a stored vote on the claim. -/
def State.HasVotes (s : State) (claimId n : Nat) : Prop :=
  ∃ voters : Finset Address, n ≤ voters.card ∧ ∀ v ∈ voters, s.getVote claimId v ≠ none

section Votes

variable {s s' : State} {claimId n : Nat}

theorem hasVotes_zero (s : State) (claimId : Nat) : s.HasVotes claimId 0 :=
  ⟨∅, Nat.zero_le _, fun v hv => absurd hv (Finset.notMem_empty v)⟩

theorem State.HasVotes.mono {m : Nat} (h : s.HasVotes claimId n) (hm : m ≤ n) :
    s.HasVotes claimId m := by
  obtain ⟨voters, hcard, hvoted⟩ := h
  exact ⟨voters, le_trans hm hcard, hvoted⟩

theorem State.HasVotes.of_same (h : s.HasVotes claimId n) (hvote : SameKind .vote s s') :
    s'.HasVotes claimId n := by
  obtain ⟨voters, hcard, hvoted⟩ := h
  refine ⟨voters, hcard, fun v hv => ?_⟩
  rw [getVote_of_same hvote]
  exact hvoted v hv

theorem getVote_of_ballot {id : Nat} {voter : Address} {vote : VoteOption}
    (hvote : SameKind .vote (s.setVote id voter vote) s') (claimId : Nat) (v : Address) :
    s'.getVote claimId v = if claimId = id ∧ v = voter then some vote else s.getVote claimId v := by
  rw [getVote_of_same hvote]
  by_cases hkey : claimId = id ∧ v = voter
  · obtain ⟨rfl, rfl⟩ := hkey
    rw [if_pos ⟨rfl, rfl⟩]
    exact State.get_set_self _ _
  · rw [if_neg hkey]
    exact State.get_set_of_ne _ _ (by simpa using hkey)

theorem State.HasVotes.of_ballot {id : Nat} {voter : Address} {vote : VoteOption}
    (h : s.HasVotes claimId n) (hvote : SameKind .vote (s.setVote id voter vote) s') :
    s'.HasVotes claimId n := by
  obtain ⟨voters, hcard, hvoted⟩ := h
  refine ⟨voters, hcard, fun v hv => ?_⟩
  rw [getVote_of_ballot hvote]
  split
  · exact Option.some_ne_none vote
  · exact hvoted v hv

theorem State.HasVotes.add {voter : Address} {vote : VoteOption} (h : s.HasVotes claimId n)
    (hnone : s.getVote claimId voter = none)
    (hvote : SameKind .vote (s.setVote claimId voter vote) s') : s'.HasVotes claimId (n + 1) := by
  obtain ⟨voters, hcard, hvoted⟩ := h
  have hnew : voter ∉ voters := fun hmem => hvoted voter hmem hnone
  refine ⟨insert voter voters, ?_, fun v hv => ?_⟩
  · rw [Finset.card_insert_of_notMem hnew]
    omega
  · rw [getVote_of_ballot hvote]
    rcases Finset.mem_insert.mp hv with rfl | hmem
    · rw [if_pos ⟨rfl, rfl⟩]
      exact Option.some_ne_none vote
    · split
      · exact Option.some_ne_none vote
      · exact hvoted v hmem

theorem cast_tally_le (claim : Claim) (vote : VoteOption) (w : Nat) :
    (claim.tally vote w).cast ≤ claim.cast + w := by
  have hsat : ∀ a, saturatingAdd32 a w ≤ a + w := fun a => Nat.min_le_left _ _
  cases vote with
  | approve =>
    show saturatingAdd32 claim.approveVotes w + claim.rejectVotes ≤ _
    have := hsat claim.approveVotes
    unfold Claim.cast
    omega
  | reject =>
    show claim.approveVotes + saturatingAdd32 claim.rejectVotes w ≤ _
    have := hsat claim.rejectVotes
    unfold Claim.cast
    omega

end Votes

/-! ## Calls that count no ballot -/

/-- The votes stay, and so do the tallies of every claim; no claim is open again but those that
`reopened` names. -/
structure TalliesKept (reopened : Nat → Prop) (s s' : State) : Prop where
  votes : SameKind .vote s s'
  claims : ∀ id claim', s'.getClaim id = some claim' → claim'.cast = 0 ∨
    ∃ claim, s.getClaim id = some claim ∧ claim'.cast = claim.cast ∧
      (claim'.status.isTerminal = false → claim.status.isTerminal = false ∨ reopened id)

/-- The claim that the call opens again. -/
def ClaimCall.reopens : ClaimCall → Nat → Prop
  | .openAppeal _ claimId => fun id => id = claimId
  | _ => fun _ => False

/-- The call counts a ballot of the base round. -/
def ClaimCall.countsBallot : ClaimCall → Bool
  | .voteOnClaim .. | .revealVote .. => true
  | _ => false

section Quiet

variable {env : Env} {s s' s'' : State} {reopened : Nat → Prop}

theorem TalliesKept.of_same (hclaim : SameKind .claim s s') (hvote : SameKind .vote s s') :
    TalliesKept reopened s s' where
  votes := hvote
  claims id claim' h := by
    rw [getClaim_of_same hclaim] at h
    exact .inr ⟨claim', h, rfl, .inl⟩

theorem TalliesKept.trans (h : TalliesKept reopened s s') (h' : TalliesKept reopened s' s'') :
    TalliesKept reopened s s'' where
  votes := h.votes.trans h'.votes
  claims id claim'' hclaim'' := by
    rcases h'.claims id claim'' hclaim'' with hzero | ⟨claim', hclaim', hcast', hopen'⟩
    · exact .inl hzero
    · rcases h.claims id claim' hclaim' with hzero | ⟨claim, hclaim, hcast, hopen⟩
      · exact .inl (hcast'.trans hzero)
      · refine .inr ⟨claim, hclaim, hcast'.trans hcast, fun hst => ?_⟩
        rcases hopen' hst with hst' | hid
        · exact hopen hst'
        · exact .inr hid

theorem TalliesKept.of_write (hk : s.ClaimsKeyed) {claimId : Nat} {claim claim' : Claim}
    (hclaim : s.getClaim claimId = some claim) (hwrite : SameKind .claim (s.setClaim claim') s')
    (hid : claim'.claimId = claim.claimId) (hcast : claim'.cast = claim.cast)
    (hst : claim'.status.isTerminal = false → claim.status.isTerminal = false ∨ reopened claimId)
    (hvote : SameKind .vote s s') : TalliesKept reopened s s' where
  votes := hvote
  claims id c h := by
    have hkey : claim'.claimId = claimId := by rw [hid, (hk _ _ hclaim).1]
    rw [getClaim_of_write hwrite, hkey] at h
    split at h
    · rename_i heq
      subst heq
      cases h
      exact .inr ⟨claim, hclaim, hcast, hst⟩
    · exact .inr ⟨c, h, rfl, .inl⟩

theorem talliesKept_of_finalizeClaimInner {claimId : Nat} {st : ClaimStatus} (hk : s.ClaimsKeyed)
    (h : finalizeClaimInner s claimId = .ok (st, s')) : TalliesKept reopened s s' := by
  have hf := frame_finalizeClaimInner h
  obtain ⟨claim, hclaim, -, hclosed⟩ := finalizeClaimInner_cases h
  obtain ⟨x, y, z, hrec⟩ := hclosed.record
  refine .of_write hk hclaim hrec rfl rfl (fun hst => ?_) (hf.sameKind rfl)
  rcases s.deadlineOutcome_cases claimId claim with hout | hout <;> rw [hout] at hst <;> cases hst

theorem AppealStep.talliesKept {claimId : Nat} {claim claim' : Claim}
    (happeal : AppealStep s s' claim') (hk : s.ClaimsKeyed)
    (hclaim : s.getClaim claimId = some claim)
    (hst : claim.status = .underAppeal) (hid : claim'.claimId = claim.claimId)
    (hcast : claim'.cast = claim.cast) (hvote : SameKind .vote s s') :
    TalliesKept reopened s s' := by
  have hopen : claim.status.isTerminal = false := by
    rw [hst]
    rfl
  cases happeal with
  | voting hrec _ => exact .of_write hk hclaim hrec hid hcast (fun _ => .inl hopen) hvote
  | decided outcome x y hout hrec _ =>
    exact .of_write hk hclaim hrec hid hcast (fun _ => .inl hopen) hvote

theorem cast_tallyAppeal (claim : Claim) (vote : VoteOption) (w : Nat) :
    (claim.tallyAppeal vote w).cast = claim.cast := by
  cases vote <;> rfl

theorem talliesKept_of_voteOnAppealWith {weight : State → Nat} {voter : Address} {claimId : Nat}
    {vote : VoteOption} {st : ClaimStatus} (hk : s.ClaimsKeyed)
    (h : voteOnAppealWith s weight voter claimId vote = .ok (st, s')) :
    TalliesKept reopened s s' := by
  have hf := frame_voteOnAppealWith h
  obtain ⟨claim, w, -, hclaim, hst, happeal⟩ := voteOnAppealWith_eq_ok h
  exact happeal.talliesKept hk hclaim hst (claimId_tallyAppeal ..) (cast_tallyAppeal ..)
    (hf.sameKind rfl)

/-- **A claim call that counts no ballot leaves the tallies alone.** -/
theorem talliesKept_of_claimCall {c : ClaimCall} (hk : s.ClaimsKeyed) (h : c.exec env s = .ok s')
    (hc : c.countsBallot = false) : TalliesKept c.reopens s s' := by
  have hran := ran_of_exec h
  have hf := frame_claimCall h
  cases c with
  | fileClaim =>
    obtain ⟨claimId, hran⟩ := hran
    obtain ⟨policy, voters, deadline, -, -, -, -, -, -, hrec, -⟩ := fileClaim_eq_ok hran
    refine ⟨hf.sameKind rfl, fun id claim' hclaim' => ?_⟩
    rw [getClaim_of_write hrec] at hclaim'
    split at hclaim'
    · cases hclaim'
      exact .inl rfl
    · exact .inr ⟨claim', hclaim', rfl, .inl⟩
  | withdrawClaim =>
    obtain ⟨claim, hclaim, -, -, -, hrec, -⟩ := withdrawClaim_eq_ok hran
    exact .of_write hk hclaim hrec rfl rfl (fun hst => by cases hst) (hf.sameKind rfl)
  | addClaimEvidence =>
    obtain ⟨claim, hclaim, -, hrec⟩ := addClaimEvidence_eq_ok hran
    exact .of_write hk hclaim hrec rfl rfl .inl (hf.sameKind rfl)
  | finalizeClaim =>
    obtain ⟨st, hran⟩ := hran
    exact talliesKept_of_finalizeClaimInner hk hran
  | processDeadline =>
    obtain ⟨-, st, hran⟩ := hran
    exact talliesKept_of_finalizeClaimInner hk hran
  | finalizeExpiredBatch =>
    obtain ⟨n, m, t, hloop, rfl⟩ := hran
    have hboth := finalizeBatchLoop_keeps
      (I := fun t => t.ClaimsKeyed ∧ TalliesKept (fun _ => False) s t) ?_ _ s 0 0 hloop
      ⟨hk, .of_same (.refl _ s) (.refl _ s)⟩
    · exact hboth.2.trans (.of_same (by simp) (by simp))
    · rintro t t' claimId st - hfin ⟨hkt, ht⟩
      exact ⟨claimsKeyed_of_rewrites (rewrites_of_finalizeClaimInner hfin)
        ((frame_finalizeClaimInner hfin).sameKind rfl) hkt,
        ht.trans (talliesKept_of_finalizeClaimInner hkt hfin)⟩
  | escalateClaim =>
    obtain ⟨claim, hclaim, -, hrec⟩ := escalateClaim_eq_ok hran
    exact .of_write hk hclaim hrec rfl rfl .inl (hf.sameKind rfl)
  | processClaim =>
    obtain ⟨claim, failed, hclaim, -, -, -, hrec, -⟩ := processClaim_eq_ok hran
    cases failed with
    | false => exact .of_write hk hclaim hrec rfl rfl (fun hst => by cases hst) (hf.sameKind rfl)
    | true => exact .of_write hk hclaim hrec rfl rfl (fun hst => by cases hst) (hf.sameKind rfl)
  | processPayoutTimeout =>
    obtain ⟨st, hran⟩ := hran
    obtain ⟨claim, hclaim, -, hrec, -⟩ := processPayoutTimeout_eq_ok hran
    exact .of_write hk hclaim hrec rfl rfl (fun hst => by cases hst) (hf.sameKind rfl)
  | disputeClaim =>
    obtain ⟨claim, hclaim, -, hrec⟩ := disputeClaim_eq_ok hran
    exact .of_write hk hclaim hrec rfl rfl (fun hst => by cases hst) (hf.sameKind rfl)
  | disburseInstallment claimId amount =>
    obtain ⟨claim, p, hclaim, -, -, -, -, -, -, hlast, hmore⟩ := disburseInstallment_eq_ok hran
    by_cases hcomp : claim.Completes amount
    · exact .of_write hk hclaim (hlast hcomp).1 rfl rfl (fun hst => by cases hst) (hf.sameKind rfl)
    · exact .of_write hk hclaim (hmore hcomp).1 rfl rfl .inl (hf.sameKind rfl)
  | openAppeal _ claimId =>
    obtain ⟨claim, deadline, hclaim, -, hrec, -⟩ := openAppeal_eq_ok hran
    exact .of_write hk hclaim hrec rfl rfl (fun _ => .inr rfl) (hf.sameKind rfl)
  | voteOnAppeal voter claimId vote =>
    obtain ⟨st, hran⟩ := hran
    rw [voteOnAppeal_eq] at hran
    exact talliesKept_of_voteOnAppealWith hk hran
  | finalizeAppeal =>
    obtain ⟨st, hran⟩ := hran
    obtain ⟨claim, hclaim, hst, happeal⟩ := finalizeAppeal_eq_ok hran
    exact happeal.talliesKept hk hclaim hst rfl rfl (hf.sameKind rfl)
  | voteOnClaim | revealVote => cases hc
  | refreshSnapshot | setClaimFraudScore | setCommitRevealPhases | commitVote | delegateVote =>
    exact .of_same (hf.sameKind rfl) (hf.sameKind rfl)

end Quiet

/-! ## The cap -/

section Steps

variable {env : Env} {s s' : State} {claimId : Nat}

/-- Tallies that reach the cap are those of at least `cap` voters. -/
def State.Covered (s : State) (claimId tallies cap : Nat) : Prop :=
  cap ≤ tallies → s.HasVotes claimId cap

/-- The condition on a step.  A ballot of `vote_on_claim` that takes the tallies to the cap is at
least the last of so many, or meets the quorum, which decides the claim.  The other steps that could
leave the tallies of an open claim at the cap (a revealed ballot, an appeal, a new cap) leave them
there with so many voters. -/
def VoterCapHolds (w : ArmedState) : ArmedLabel → Prop
  | .base (.call _ (.claim (.voteOnClaim voter claimId vote))) =>
    ∀ claim weight, w.base.getClaim claimId = some claim →
      w.base.votingPowerFor claimId voter (w.base.defaultWeight w.armed voter) = .ok weight →
      claim.cast + weight < w.base.getMaxVotersPerClaim ∨
        w.base.HasVotes claimId (w.base.getMaxVotersPerClaim - 1) ∨
        participationQuorumMet (claim.tally vote weight).cast claim.eligibleVoterCount
          (w.base.effectiveQuorumBps claimId) = true
  | .base (.call _ (.claim (.revealVote _ claimId _ _))) =>
    ∀ claim, w.base.getClaim claimId = some claim → claim.status.isTerminal = false →
      claim.cast + 1 < w.base.getMaxVotersPerClaim ∨
        w.base.HasVotes claimId (w.base.getMaxVotersPerClaim - 1)
  | .base (.call _ (.claim (.openAppeal _ claimId))) =>
    ∀ claim, w.base.getClaim claimId = some claim →
      w.base.Covered claimId claim.cast w.base.getMaxVotersPerClaim
  | .base (.call _ (.setting (.adminSetMaxVotersPerClaim cap))) =>
    ∀ claimId claim, w.base.getClaim claimId = some claim → claim.status.isTerminal = false →
      w.base.Covered claimId claim.cast cap.toNat
  | _ => True

/-- The tallies of an open claim are at the cap with so many voters only. -/
structure State.CapKept (s : State) : Prop where
  keyed : s.ClaimsKeyed
  covered : ∀ id claim, s.getClaim id = some claim → claim.status.isTerminal = false →
    s.Covered id claim.cast s.getMaxVotersPerClaim

theorem State.Covered.of_same {tallies cap : Nat} (h : s.Covered claimId tallies cap)
    (hvote : SameKind .vote s s') : s'.Covered claimId tallies cap :=
  fun hle => (h hle).of_same hvote

theorem getMaxVotersPerClaim_of_same (h : SameKind .maxVoters s s') :
    s'.getMaxVotersPerClaim = s.getMaxVotersPerClaim := by
  rw [State.getMaxVotersPerClaim, h .maxVotersPerClaim rfl]

theorem State.CapKept.of_talliesKept {reopened : Nat → Prop} (hs : s.CapKept)
    (h : TalliesKept reopened s s') (hcap : SameKind .maxVoters s s') (hk : s'.ClaimsKeyed)
    (hopen : ∀ id claim, reopened id → s.getClaim id = some claim →
      s.Covered id claim.cast s.getMaxVotersPerClaim) : s'.CapKept where
  keyed := hk
  covered id claim' hclaim' hst := by
    rw [getMaxVotersPerClaim_of_same hcap]
    rcases h.claims id claim' hclaim' with hzero | ⟨claim, hclaim, hcast, hor⟩
    · intro hle
      exact (hasVotes_zero s' id).mono (by omega)
    · rw [hcast]
      rcases hor hst with hold | hid
      · exact (hs.covered id claim hclaim hold).of_same h.votes
      · exact (hopen id claim hid hclaim).of_same h.votes

/-- What a ballot of the base round that weighs `weight` leaves: the voter has voted, who had not,
and its claim has the tallies with the ballot. -/
structure BallotCounted (claimId : Nat) (voter : Address) (vote : VoteOption) (weight : Nat)
    (claim claim' : Claim) (s s' : State) : Prop where
  found : s.getClaim claimId = some claim
  fresh : s.getVote claimId voter = none
  id : claim'.claimId = claim.claimId
  cast : claim'.cast ≤ claim.cast + weight
  write : SameKind .claim (s.setClaim claim') s'
  votes : SameKind .vote (s.setVote claimId voter vote) s'

section Counted

variable {voter : Address} {vote : VoteOption} {weight : Nat} {claim claim' : Claim}

/-- Every claim that is stored then is the claim of the ballot, or was stored before. -/
theorem BallotCounted.stored (h : BallotCounted claimId voter vote weight claim claim' s s')
    (hk : s.ClaimsKeyed) {id : Nat} {c : Claim} (hc : s'.getClaim id = some c) :
    (id = claimId ∧ c = claim') ∨ s.getClaim id = some c := by
  have hkey : claim'.claimId = claimId := by rw [h.id, (hk _ _ h.found).1]
  rw [getClaim_of_write h.write, hkey] at hc
  split at hc
  · rename_i heq
    cases hc
    exact .inl ⟨heq, rfl⟩
  · exact .inr hc

theorem BallotCounted.covered (h : BallotCounted claimId voter vote weight claim claim' s s')
    {cap : Nat} (hor : claim.cast + weight < cap ∨ s.HasVotes claimId (cap - 1)) :
    s'.Covered claimId claim'.cast cap := by
  intro hcap
  have hcast := h.cast
  rcases hor with hlt | hvotes
  · omega
  · exact (hvotes.add h.fresh h.votes).mono (by omega)

theorem State.CapKept.of_ballot (hs : s.CapKept)
    (h : BallotCounted claimId voter vote weight claim claim' s s')
    (hcap : SameKind .maxVoters s s') (hk : s'.ClaimsKeyed)
    (hnew : claim'.status.isTerminal = false →
      s'.Covered claimId claim'.cast s.getMaxVotersPerClaim) : s'.CapKept where
  keyed := hk
  covered id c hc hst := by
    rw [getMaxVotersPerClaim_of_same hcap]
    rcases h.stored hs.keyed hc with ⟨rfl, rfl⟩ | hold
    · exact hnew hst
    · intro hle
      exact (hs.covered id c hold hst hle).of_ballot h.votes

end Counted

theorem defaultWeight_setVote (s : State) (armed : Bool) (voter : Address) (vote : VoteOption) :
    (s.setVote claimId voter vote).defaultWeight armed voter = s.defaultWeight armed voter := by
  simp [State.defaultWeight, State.getActivePolicyCount]

/-- A ballot that is counted, with its weight: the claim is open afterwards only if the tallies miss
the quorum. -/
theorem ballotCounted_of_voteOnClaimWith (armed : Bool) {voter : Address} {vote : VoteOption}
    {st : ClaimStatus}
    (h : voteOnClaimWith s (·.defaultWeight armed voter) voter claimId vote = .ok (st, s')) :
    ∃ claim claim' weight, BallotCounted claimId voter vote weight claim claim' s s' ∧
      s.votingPowerFor claimId voter (s.defaultWeight armed voter) = .ok weight ∧
      (claim'.status.isTerminal = false →
        participationQuorumMet (claim.tally vote weight).cast claim.eligibleVoterCount
          (s.effectiveQuorumBps claimId) = false) := by
  obtain ⟨claim, w, hclaim, hcheck, hw, hcase⟩ := voteOnClaimWith_cases h
  obtain ⟨-, -, -, -, -, -, -, -, hnone⟩ := checkBallot_eq_ok.mp hcheck
  rw [defaultWeight_setVote] at hw
  have hcast := cast_tally_le claim vote w
  have hballot : ∀ c : Claim, SameKind .claim (s.setClaim c)
      ((s.setVote claimId voter vote).setClaim c) := fun c => SameKind.set (by simp) _ _
  rcases hcase with ⟨hopen, rfl⟩ | ⟨outcome, hout, hclosed⟩
  · have hvote : SameKind .vote (s.setVote claimId voter vote)
        ((s.setVote claimId voter vote).setClaim (claim.tally vote w)) := by
      rw [SameKind.set_iff rfl]
      exact .refl _ _
    refine ⟨claim, claim.tally vote w, w,
      ⟨hclaim, hnone, claimId_tally claim vote w, hcast, hballot _, hvote⟩, hw, fun _ => ?_⟩
    have heligible : (claim.tally vote w).eligibleVoterCount = claim.eligibleVoterCount := by
      cases vote <;> rfl
    rw [State.ballotOutcome, resolvePluralityIfQuorumMet, heligible] at hopen
    refine Bool.eq_false_iff.mpr fun hquorum => ?_
    rw [Claim.cast] at hquorum
    rw [if_pos hquorum] at hopen
    split at hopen <;> cases hopen
  · obtain ⟨x, y, z, hrec⟩ := hclosed.record
    have hid : ((claim.tally vote w).closed outcome s.sequence x y z).claimId = claim.claimId :=
      claimId_tally claim vote w
    refine ⟨claim, _, w, ⟨hclaim, hnone, hid, hcast, (hballot _).trans hrec,
      hclosed.frame.sameKind rfl⟩, hw, fun hst => ?_⟩
    rcases State.ballotOutcome_eq_some hout with rfl | rfl <;> cases hst

theorem ballotCounted_of_revealVote {voter : Address} {vote : VoteOption} {salt : Bytes32}
    (h : revealVote env s voter claimId vote salt = .ok s') :
    ∃ claim, BallotCounted claimId voter vote 1 claim (claim.tally vote 1) s s' := by
  obtain ⟨claim, hclaim, hnone, hrec, hvote⟩ := revealVote_eq_ok h
  exact ⟨claim, hclaim, hnone, claimId_tally claim vote 1, cast_tally_le claim vote 1, hrec, hvote⟩

/-- A ballot that is counted keeps the tallies covered, on the condition of `VoterCapHolds`. -/
theorem capKept_of_voteOnClaimWith {armed : Bool} {voter : Address} {vote : VoteOption}
    {st : ClaimStatus} (hs : s.CapKept)
    (hok : ∀ claim weight, s.getClaim claimId = some claim →
      s.votingPowerFor claimId voter (s.defaultWeight armed voter) = .ok weight →
      claim.cast + weight < s.getMaxVotersPerClaim ∨
        s.HasVotes claimId (s.getMaxVotersPerClaim - 1) ∨
        participationQuorumMet (claim.tally vote weight).cast claim.eligibleVoterCount
          (s.effectiveQuorumBps claimId) = true)
    (h : voteOnClaimWith s (·.defaultWeight armed voter) voter claimId vote = .ok (st, s')) :
    s'.CapKept := by
  have hf := frame_voteOnClaimWith h
  have hk := claimsKeyed_of_rewrites (rewrites_of_voteOnClaimWith h) (hf.sameKind rfl) hs.keyed
  obtain ⟨claim, claim', weight, hcounted, hw, hmissed⟩ := ballotCounted_of_voteOnClaimWith armed h
  refine hs.of_ballot hcounted (hf.sameKind rfl) hk fun hst => ?_
  rcases hok claim weight hcounted.found hw with hlt | hvotes | hquorum
  · exact hcounted.covered (.inl hlt)
  · exact hcounted.covered (.inr hvotes)
  · -- the ballot would have decided the claim
    rw [hmissed hst] at hquorum
    cases hquorum

theorem capKept_of_revealVote {voter : Address} {vote : VoteOption} {salt : Bytes32}
    (hs : s.CapKept)
    (hok : ∀ claim, s.getClaim claimId = some claim → claim.status.isTerminal = false →
      claim.cast + 1 < s.getMaxVotersPerClaim ∨ s.HasVotes claimId (s.getMaxVotersPerClaim - 1))
    (h : revealVote env s voter claimId vote salt = .ok s') : s'.CapKept := by
  have hf := frame_revealVote h
  obtain ⟨claim, hcounted⟩ := ballotCounted_of_revealVote h
  have hk := claimsKeyed_of_rewrites (.of_write hcounted.found hcounted.write hcounted.id)
    (hf.sameKind rfl) hs.keyed
  refine hs.of_ballot hcounted (hf.sameKind rfl) hk fun hst => ?_
  rw [status_tally] at hst
  exact hcounted.covered (hok claim hcounted.found hst)

theorem capKept_of_setting {c : Setting} (hs : s.CapKept)
    (hok : ∀ cap, c = .adminSetMaxVotersPerClaim cap → ∀ id claim, s.getClaim id = some claim →
      claim.status.isTerminal = false → s.Covered id claim.cast cap.toNat)
    (h : c.exec env s = .ok s') : s'.CapKept := by
  have hf := frame_settingOf h
  have hk : s'.ClaimsKeyed := claimsKeyed_of_exec (c := .setting c) h hs.keyed
  cases c with
  | adminSetMaxVotersPerClaim cap =>
    have hclaims : SameKind .claim s s' := hf.sameKind rfl
    have hvotes : SameKind .vote s s' := hf.sameKind rfl
    obtain ⟨s₁, -, -, rfl⟩ := configure_eq_ok h
    have hget : (s₁.writeAll [⟨.maxVotersPerClaim, some cap.toNat⟩]).getMaxVotersPerClaim =
        cap.toNat := by
      simp [State.writeAll, State.setOrRemove, State.getMaxVotersPerClaim]
    refine ⟨hk, fun id claim hclaim hst => ?_⟩
    rw [hget]
    rw [getClaim_of_same hclaims] at hclaim
    exact (hok cap rfl id claim hclaim hst).of_same hvotes
  | _ =>
    have hkept : TalliesKept (fun _ => False) s s' := .of_same (hf.sameKind rfl) (hf.sameKind rfl)
    exact hs.of_talliesKept hkept (hf.sameKind rfl) hk fun _ _ hfalse => hfalse.elim

end Steps

/-! ## The refusal -/

section Refusal

variable {s : State} {claimId : Nat} {voter : Address} {e : Fault}

theorem resolveVoteDelegationTarget_eq_error {now : Nat}
    (h : s.resolveVoteDelegationTarget voter now = .error e) :
    e = .error .circularDelegation ∨ e = .trap := by
  unfold State.resolveVoteDelegationTarget at h
  split at h <;> cases h
  · exact .inl rfl
  · exact .inr rfl

theorem votingPowerFor_eq_error {default : Nat}
    (h : s.votingPowerFor claimId voter default = .error e) :
    e = .error .corruptSnapshotEntry := by
  unfold State.votingPowerFor at h
  split at h
  · rcases bind_eq_error.mp h with h | ⟨-, -, h⟩
    · exact (ensure_eq_error.mp h).2.symm
    · exact absurd h pure_ne_error
  · cases h

theorem checkBallot_voterCapReached {claim : Claim}
    (h : s.checkBallot voter claimId claim = .error (.error .voterCapReached)) :
    claim.status.isTerminal = false ∧ s.getMaxVotersPerClaim ≤ claim.cast := by
  unfold State.checkBallot at h
  rcases bind_eq_error.mp h with h | ⟨_, hst, h⟩
  · cases (ensure_eq_error.mp h).2
  refine ⟨ensure_eq_ok.mp hst, ?_⟩
  rcases bind_eq_error.mp h with h | ⟨-, -, h⟩
  · cases (ensure_eq_error.mp h).2
  rcases bind_eq_error.mp h with h | ⟨-, -, h⟩
  · cases (ensure_eq_error.mp h).2
  rcases bind_eq_error.mp h with h | ⟨-, -, h⟩
  · cases (ensure_eq_error.mp h).2
  rcases bind_eq_error.mp h with h | ⟨-, -, h⟩
  · cases (ensure_eq_error.mp h).2
  rcases bind_eq_error.mp h with h | ⟨cast, hcast, h⟩
  · cases add32_eq_error h
  rcases bind_eq_error.mp h with h | ⟨-, -, h⟩
  · rw [Claim.cast, ← (add32_eq_ok.mp hcast).2]
    exact (not_not.mp (ensure_eq_error.mp h).1).1
  rcases bind_eq_error.mp h with h | ⟨target, -, h⟩
  · rcases resolveVoteDelegationTarget_eq_error h with h | h <;> cases h
  rcases bind_eq_error.mp h with h | ⟨-, -, h⟩
  · cases (ensure_eq_error.mp h).2
  · cases (ensure_eq_error.mp h).2

theorem voteOnClaimWith_voterCapReached {weight : State → Nat} {vote : VoteOption}
    (h : voteOnClaimWith s weight voter claimId vote = .error (.error .voterCapReached)) :
    ∃ claim, s.getClaim claimId = some claim ∧ claim.status.isTerminal = false ∧
      s.getMaxVotersPerClaim ≤ claim.cast := by
  unfold voteOnClaimWith at h
  rcases bind_eq_error.mp h with h | ⟨-, -, h⟩
  · cases (ensure_eq_error.mp h).2
  rcases bind_eq_error.mp h with h | ⟨claim, hclaim, h⟩
  · cases (okOr_eq_error.mp h).2
  rcases bind_eq_error.mp h with h | ⟨-, -, h⟩
  · exact ⟨claim, okOr_eq_ok.mp hclaim, checkBallot_voterCapReached h⟩
  rcases bind_eq_error.mp h with h | ⟨w, -, h⟩
  · cases votingPowerFor_eq_error h
  rcases bind_eq_error.mp h with h | ⟨cast, -, h⟩
  · cases add32_eq_error h
  split at h
  · exact absurd h pure_ne_error
  · rcases bind_eq_error.mp h with h | ⟨claim', -, h⟩
    · cases decide_eq_error h
    rcases bind_eq_error.mp h with h | ⟨s', -, h⟩
    · cases closeRound_eq_error h
    · exact absurd h pure_ne_error

/-- **Where the tallies are covered the cap counts voters.** -/
theorem State.CapKept.hasVotes (hs : s.CapKept) {weight : State → Nat} {vote : VoteOption}
    (h : voteOnClaimWith s weight voter claimId vote = .error (.error .voterCapReached)) :
    s.HasVotes claimId s.getMaxVotersPerClaim := by
  obtain ⟨claim, hclaim, hst, hcap⟩ := voteOnClaimWith_voterCapReached h
  exact hs.covered claimId claim hclaim hst hcap

end Refusal

/-! ## Runs -/

section Runs

variable {host : Host} {env : Env} {s s' : State} {armed : Bool}

theorem capKept_of_exec {c : Call} (hs : s.CapKept)
    (hquiet : ∀ d, c = .claim d → d.countsBallot = false)
    (hok : VoterCapHolds ⟨s, armed⟩ (.base (.call env c))) (h : c.exec env s = .ok s') :
    s'.CapKept := by
  have hk : s'.ClaimsKeyed := claimsKeyed_of_exec h hs.keyed
  have hf := frame_exec h
  have hother : SameKind .claim s s' → SameKind .vote s s' → SameKind .maxVoters s s' →
      s'.CapKept := by
    intro hclaim hvote hcap
    have hkept : TalliesKept (fun _ => False) s s' := .of_same hclaim hvote
    exact hs.of_talliesKept hkept hcap hk fun _ _ hfalse => hfalse.elim
  cases c with
  | claim d =>
    have hkept := talliesKept_of_claimCall hs.keyed h (hquiet d rfl)
    refine hs.of_talliesKept hkept (hf.sameKind (d.untouched rfl)) hk ?_
    intro id claim hid hclaim
    cases d with
    | openAppeal claimant claimId =>
      obtain rfl : id = claimId := hid
      exact hok claim hclaim
    | _ => exact absurd hid not_false
  | setting d =>
    refine capKept_of_setting hs ?_ h
    rintro cap rfl
    exact hok
  | policy d =>
    exact hother (hf.sameKind (d.untouched rfl)) (hf.sameKind (d.untouched rfl))
      (hf.sameKind (d.untouched rfl))
  | treasury d =>
    exact hother (hf.sameKind (d.untouched rfl)) (hf.sameKind (d.untouched rfl))
      (hf.sameKind (d.untouched rfl))
  | governance d =>
    exact hother (hf.sameKind (d.untouched rfl)) (hf.sameKind (d.untouched rfl))
      (hf.sameKind (d.untouched rfl))

/-- **A call that meets the condition keeps the tallies covered.** -/
theorem capKept_of_execArmed {c : Call} (hs : s.CapKept)
    (hok : VoterCapHolds ⟨s, armed⟩ (.base (.call env c))) (h : c.execArmed env armed s = .ok s') :
    s'.CapKept := by
  by_cases hvote : ∃ voter id vote, c = .claim (.voteOnClaim voter id vote)
  · obtain ⟨voter, id, vote, rfl⟩ := hvote
    obtain ⟨-, -, h⟩ := bind_eq_ok.mp h
    obtain ⟨st, h⟩ := dropValue_eq_ok.mp h
    exact capKept_of_voteOnClaimWith hs hok h
  by_cases happeal : ∃ voter id vote, c = .claim (.voteOnAppeal voter id vote)
  · obtain ⟨voter, id, vote, rfl⟩ := happeal
    obtain ⟨-, -, h⟩ := bind_eq_ok.mp h
    obtain ⟨st, h⟩ := dropValue_eq_ok.mp h
    have hf := frame_voteOnAppealWith h
    obtain ⟨claim, w, -, hclaim, -, hstep⟩ := voteOnAppealWith_eq_ok h
    have hk := claimsKeyed_of_rewrites (hstep.rewrites hclaim (claimId_tallyAppeal ..))
      (hf.sameKind rfl) hs.keyed
    have hkept : TalliesKept (fun _ => False) s s' := talliesKept_of_voteOnAppealWith hs.keyed h
    exact hs.of_talliesKept hkept (hf.sameKind rfl) hk fun _ _ hfalse => hfalse.elim
  · rw [execArmed_eq (fun voter id vote hc => hvote ⟨voter, id, vote, hc⟩)
      (fun voter id vote hc => happeal ⟨voter, id, vote, hc⟩)] at h
    by_cases hreveal : ∃ voter id vote salt, c = .claim (.revealVote voter id vote salt)
    · obtain ⟨voter, id, vote, salt, rfl⟩ := hreveal
      exact capKept_of_revealVote hs hok h
    · refine capKept_of_exec hs ?_ hok h
      rintro d rfl
      cases d with
      | voteOnClaim voter id vote => exact absurd ⟨voter, id, vote, rfl⟩ hvote
      | revealVote voter id vote salt => exact absurd ⟨voter, id, vote, salt, rfl⟩ hreveal
      | _ => rfl

theorem State.CapKept.of_storage (hs : s.CapKept) (hstorage : s'.storage = s.storage) :
    s'.CapKept := by
  have hget : ∀ k, s'.get k = s.get k := fun k => by rw [State.get, State.get, hstorage]
  have hkept : TalliesKept (fun _ => False) s s' := .of_same (fun k _ => hget k) (fun k _ => hget k)
  refine hs.of_talliesKept hkept (fun k _ => hget k) ?_ fun _ _ hfalse => hfalse.elim
  exact claimsKeyed_of_rewrites (.inl fun k _ => hget k) (fun k _ => hget k) hs.keyed

theorem capKept_of_step (w : ArmedState) (l : ArmedLabel) (w' : ArmedState)
    (hok : VoterCapHolds w l) (hstep : (armedContract host).step w l w') (hs : w.base.CapKept) :
    w'.base.CapKept := by
  obtain ⟨s, armed⟩ := w
  cases l with
  | govSetTokenRuntimeEnabled env admin enabled =>
    obtain ⟨-, h⟩ := hstep
    unfold govSetTokenRuntimeEnabled at h
    simp only [bind_eq_ok] at h
    obtain ⟨-, -, stored, -, -, -, h⟩ := h
    cases h
    exact hs
  | base l =>
    cases l with
    | call env c =>
      obtain ⟨-, h, -⟩ := hstep
      exact capKept_of_execArmed hs hok h
    | closeLedger n =>
      obtain ⟨⟨-, -, hbase⟩, -⟩ := hstep
      exact hs.of_storage (by rw [hbase])
    | tokens b a =>
      obtain ⟨⟨-, hbase⟩, -⟩ := hstep
      exact hs.of_storage (by rw [hbase])

/-- **The cap counts voters where the weights leave it to.**  In every run of the contract with
weighting whose steps all meet `VoterCapHolds`, a ballot of any voter is refused with
`VoterCapReached` only when `max_voters_per_claim` addresses have a vote on the claim. -/
theorem voterCap_of_reach {w : ArmedState} (h : (armedContract host).Reach VoterCapHolds w)
    (voter : Address) (claimId : Nat) (vote : VoteOption)
    (hcap : voteOnClaimWith w.base (·.defaultWeight w.armed voter) voter claimId vote =
      .error (.error .voterCapReached)) :
    w.base.HasVotes claimId w.base.getMaxVotersPerClaim := by
  have hkept : w.base.CapKept := by
    refine h.invariant (I := fun w => w.base.CapKept) ?_ ?_
    · rintro w ⟨hfresh, -⟩
      refine ⟨claimsKeyed_of_fresh w.base hfresh, fun id claim hclaim => ?_⟩
      have hnone : w.base.getClaim id = none := State.Fresh.get host hfresh _
      rw [hnone] at hclaim
      cases hclaim
    · intro w l w' hok hstep hs
      exact capKept_of_step w l w' hok hstep hs
  exact hkept.hasVotes hcap

end Runs

/-! ## Without weighting -/

/-- The tallies of every claim are those of its voters. -/
def State.TalliesVoted (s : State) : Prop :=
  ∀ id claim, s.getClaim id = some claim → s.HasVotes id claim.cast

section Unweighted

variable {host : Host} {env : Env} {s s' : State}

theorem State.TalliesVoted.of_talliesKept {reopened : Nat → Prop} (hs : s.TalliesVoted)
    (h : TalliesKept reopened s s') : s'.TalliesVoted := by
  intro id claim' hclaim'
  rcases h.claims id claim' hclaim' with hzero | ⟨claim, hclaim, hcast, -⟩
  · rw [hzero]
    exact hasVotes_zero s' id
  · rw [hcast]
    exact (hs id claim hclaim).of_same h.votes

/-- A ballot that weighs one keeps the tallies those of the voters. -/
theorem State.TalliesVoted.of_ballot {claimId : Nat} {voter : Address} {vote : VoteOption}
    {claim claim' : Claim} (hs : s.TalliesVoted) (hk : s.ClaimsKeyed)
    (h : BallotCounted claimId voter vote 1 claim claim' s s') : s'.TalliesVoted := by
  intro id c hc
  rcases h.stored hk hc with ⟨rfl, rfl⟩ | hold
  · exact ((hs _ claim h.found).add h.fresh h.votes).mono h.cast
  · exact (hs id c hold).of_ballot h.votes

theorem talliesVoted_of_exec {c : Call} (hs : s.TalliesVoted) (hfacts : BallotFacts s)
    (h : c.exec env s = .ok s') : s'.TalliesVoted := by
  have hf := frame_exec h
  have hother : SameKind .claim s s' → SameKind .vote s s' → s'.TalliesVoted :=
    fun hclaim hvote => hs.of_talliesKept (TalliesKept.of_same hclaim hvote : TalliesKept
      (fun _ => False) s s')
  cases c with
  | policy d => exact hother (hf.sameKind (d.untouched rfl)) (hf.sameKind (d.untouched rfl))
  | treasury d => exact hother (hf.sameKind (d.untouched rfl)) (hf.sameKind (d.untouched rfl))
  | setting d => exact hother (hf.sameKind rfl) (hf.sameKind rfl)
  | governance d => exact hother (hf.sameKind (d.untouched rfl)) (hf.sameKind (d.untouched rfl))
  | claim d =>
    by_cases hballot : d.countsBallot = false
    · exact hs.of_talliesKept (talliesKept_of_claimCall hfacts.keyed h hballot)
    have hran := ran_of_exec h
    cases d with
    | voteOnClaim voter claimId vote =>
      obtain ⟨st, hran⟩ := hran
      rw [voteOnClaim_eq] at hran
      obtain ⟨claim, claim', weight, hcounted, hw, -⟩ :=
        ballotCounted_of_voteOnClaimWith false hran
      cases (hfacts.weight claimId voter).symm.trans hw
      exact hs.of_ballot hfacts.keyed hcounted
    | revealVote voter claimId vote salt =>
      obtain ⟨claim, hcounted⟩ := ballotCounted_of_revealVote hran
      exact hs.of_ballot hfacts.keyed hcounted
    | _ => exact absurd rfl hballot

theorem talliesVoted_of_reach (h : (contract host).Reach always s) : s.TalliesVoted := by
  refine h.invariant_with (J := BallotFacts) (I := State.TalliesVoted)
    (fun s hs => ballotFacts_of_reach hs) ?_ ?_
  · intro s hs id claim hclaim
    have hnone : s.getClaim id = none := State.Fresh.get host hs _
    rw [hnone] at hclaim
    cases hclaim
  · intro s l s' hfacts _ hstep hs
    cases l with
    | call env c => exact talliesVoted_of_exec hs hfacts hstep.2
    | closeLedger n =>
      obtain ⟨-, -, rfl⟩ := hstep
      exact hs
    | tokens b a =>
      obtain ⟨-, rfl⟩ := hstep
      exact hs

/-- Where the tallies are those of the voters, every step of the contract without weighting meets
the condition. -/
theorem voterCapHolds_of_talliesVoted (hs : s.TalliesVoted) (hfacts : BallotFacts s) (l : Label) :
    VoterCapHolds ⟨s, false⟩ (.base l) := by
  have hlast : ∀ id claim, s.getClaim id = some claim →
      claim.cast + 1 < s.getMaxVotersPerClaim ∨ s.HasVotes id (s.getMaxVotersPerClaim - 1) := by
    intro id claim hclaim
    by_cases hlt : claim.cast + 1 < s.getMaxVotersPerClaim
    · exact .inl hlt
    · exact .inr ((hs id claim hclaim).mono (by omega))
  unfold VoterCapHolds
  split
  · intro claim weight hclaim hweight
    have hone := (hfacts.weight _ _).symm.trans hweight
    cases hone
    exact (hlast _ claim hclaim).imp_right .inl
  · intro claim hclaim _
    exact hlast _ claim hclaim
  · intro claim hclaim hle
    exact (hs _ claim hclaim).mono hle
  · intro claimId claim hclaim _ hle
    exact (hs claimId claim hclaim).mono hle
  · trivial

/-- **Without weighting the cap counts voters.**  Every run of the contract is one of the contract
with weighting that meets the condition. -/
theorem voterCapHolds_of_reach (h : (contract host).Reach always s) :
    (armedContract host).Reach VoterCapHolds ⟨s, false⟩ := by
  refine h.invariant_with (J := fun s => (contract host).Reach always s)
    (I := fun s => (armedContract host).Reach VoterCapHolds ⟨s, false⟩) (fun s hs => hs) ?_ ?_
  · intro s hs
    exact .of_init ⟨hs, rfl⟩
  · intro s l s' hs _ hstep hreach
    refine hreach.tail (l := .base l) ?_ ?_
    · exact voterCapHolds_of_talliesVoted (talliesVoted_of_reach hs) (ballotFacts_of_reach hs) l
    · cases l with
      | call env c =>
        refine ⟨hstep.1, ?_, rfl⟩
        rw [execArmed_disarmed]
        exact hstep.2
      | closeLedger n => exact ⟨hstep, rfl⟩
      | tokens b a => exact ⟨hstep, rfl⟩

end Unweighted

/-! ## A ballot that weighs two -/

/-- Execute calls while weighting is armed. -/
def State.followArmed : State → List Call → Result State
  | s, [] => .ok s
  | s, c :: rest => do
    let s' ← c.execArmed demoEnv true s
    s'.followArmed rest

theorem reach_of_followArmed {t : State} : ∀ (calls : List Call) (s : State),
    (armedContract demoHost).Reach always ⟨s, true⟩ → s.followArmed calls = .ok t →
      (armedContract demoHost).Reach always ⟨t, true⟩ := by
  intro calls
  induction calls with
  | nil =>
    intro s hs h
    cases h
    exact hs
  | cons c rest ih =>
    intro s hs h
    obtain ⟨s', hexec, hrest⟩ := bind_eq_ok.mp h
    exact ih s' (hs.tail (l := .base (demoCall c)) trivial ⟨rfl, hexec, rfl⟩) hrest

theorem reach_armed {ok : ArmedState → ArmedLabel → Prop} {s : State}
    (h : (armedContract demoHost).Reach ok ⟨s, false⟩) (hadmin : s.get .admin = some adminAddress)
    (hok : ok ⟨s, false⟩ (.govSetTokenRuntimeEnabled demoEnv adminAddress true)) :
    (armedContract demoHost).Reach ok ⟨s, true⟩ := by
  refine h.tail hok ⟨rfl, ?_⟩
  unfold govSetTokenRuntimeEnabled
  rw [hadmin]
  rfl

/-- Account 2 has two policies, and the claim of account 1 waits for the ballots of three
voters. -/
def weighedTrace : List Label :=
  demoSetup ++ [demoBind 2 .health 10000000, demoBind 4 .auto 10000000,
    demoCall (.setting (.adminSetQuorumBps 10000)), demoFile 1 1 1000]

/-- Weighting is armed, a ballot is counted that weighs one, and the cap is one voter: the next
voter is refused. -/
theorem voterCap_one_voter :
    ∃ s, (armedContract demoHost).Reach VoterCapHolds ⟨s, true⟩ ∧ s.getMaxVotersPerClaim = 1 ∧
      voteOnClaimWith s (·.defaultWeight true 2) 2 1 .reject = .error (.error .voterCapReached) ∧
      s.HasVotes 1 1 := by
  obtain ⟨s, hreach, hval⟩ := exists_of_follow always_of_noCheck (deployed 0)
    (weighedTrace ++ [demoCall (.claim (.voteOnClaim 3 1 .approve)),
      demoCall (.setting (.adminSetMaxVotersPerClaim 1))])
    (f := fun s => decide (s.get .admin = some adminAddress ∧ s.getMaxVotersPerClaim = 1 ∧
      (voteOnClaimWith s (·.defaultWeight true 2) 2 1 .reject).fault =
        some (.error .voterCapReached))) (a := true)
    (fresh_deployed (by decide)) (by simp [weighedTrace, demoSetup, demoInit, demoBind, demoFile])
    (by decide +kernel)
  obtain ⟨hadmin, hmax, hfault⟩ := of_decide_eq_true hval
  have harmed := reach_armed (voterCapHolds_of_reach hreach) hadmin trivial
  have hcap := eq_error_of_fault hfault
  have hvotes := voterCap_of_reach harmed 2 1 .reject hcap
  exact ⟨s, harmed, hmax, hcap, hmax ▸ hvotes⟩

/-- The key is no ballot of anybody else. -/
def DataKey.votedBy (voter : Address) : DataKey → Bool
  | .vote _ v => v == voter
  | _ => true

/-- **A ballot that weighs two reaches a cap of two voters.**  Account 2 votes with its two
policies; the cap is set to two, and account 3 is refused, though account 2 alone has voted. -/
theorem not_voterCap :
    ¬ ∀ w, (armedContract demoHost).Reach always w → ∀ voter claimId vote,
      voteOnClaimWith w.base (·.defaultWeight w.armed voter) voter claimId vote =
        .error (.error .voterCapReached) →
      w.base.HasVotes claimId w.base.getMaxVotersPerClaim := by
  intro hall
  obtain ⟨s, hreach, hval⟩ := exists_of_follow always_of_noCheck (deployed 0) weighedTrace
    (f := fun s => decide (s.get .admin = some adminAddress ∧
      (s.followArmed [.claim (.voteOnClaim 2 1 .approve),
        .setting (.adminSetMaxVotersPerClaim 2)]).map (fun t => decide (
          t.getMaxVotersPerClaim = 2 ∧
          t.storage.keys.all (DataKey.votedBy 2) = true ∧
          (voteOnClaimWith t (·.defaultWeight true 3) 3 1 .approve).fault =
            some (.error .voterCapReached))) = .ok true)) (a := true)
    (fresh_deployed (by decide)) (by simp [weighedTrace, demoSetup, demoInit, demoBind, demoFile])
    (by decide +kernel)
  obtain ⟨hadmin, hrun⟩ := of_decide_eq_true hval
  obtain ⟨t, hfollow, hval⟩ := exists_of_map_eq_ok hrun
  obtain ⟨hmax, hkeys, hfault⟩ := of_decide_eq_true hval
  have harmed := reach_armed (voterCapHolds_of_reach hreach).to_always hadmin trivial
  have ht := reach_of_followArmed _ s harmed hfollow
  obtain ⟨voters, hcard, hvoted⟩ := hall _ ht 3 1 .approve (eq_error_of_fault hfault)
  have hsub : voters ⊆ {2} := by
    intro v hv
    by_contra hne
    rw [Finset.mem_singleton] at hne
    refine hvoted v hv (get_eq_none_of_keys hkeys ?_)
    simpa [DataKey.votedBy] using hne
  have hle := Finset.card_le_card hsub
  rw [Finset.card_singleton] at hle
  rw [hmax] at hcard
  omega

end NiffyInsure
