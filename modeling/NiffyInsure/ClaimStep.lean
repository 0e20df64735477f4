import NiffyInsure.ClaimSpec

/-!
# Claims along a run

What the steps of a run do to the stored claims.

* `ran_of_exec`: a successful claim call is a successful run of its function.
* `Closed`: the end of the base round, by a ballot (`voteOnClaim_cases`) or after the
  deadline (`finalizeClaimInner_cases`).
* `finalizeBatchLoop_keeps`: what one finalisation keeps, the batch keeps.
* `claimsKeyed_of_reach`: a claim is stored under its own id, and no id beyond the counter
  is in use.
-/

namespace NiffyInsure

open Machine

/-! ## The function behind a call -/

/-- The function of the call, run from `s` to `s'`. -/
def ClaimCall.Ran (env : Env) (s s' : State) : ClaimCall → Prop
  | .fileClaim holder policyId amount details evidence expectedNonce => ∃ claimId,
    NiffyInsure.fileClaim env s holder policyId amount details evidence expectedNonce =
      .ok (claimId, s')
  | .withdrawClaim claimant claimId => NiffyInsure.withdrawClaim env s claimant claimId = .ok s'
  | .addClaimEvidence claimant claimId newEvidence =>
    NiffyInsure.addClaimEvidence s claimant claimId newEvidence = .ok s'
  | .voteOnClaim voter claimId vote => ∃ st,
    NiffyInsure.voteOnClaim s voter claimId vote = .ok (st, s')
  | .finalizeClaim claimId => ∃ st, finalizeClaimInner s claimId = .ok (st, s')
  | .processDeadline claimId => (∃ claim, s.getClaim claimId = some claim ∧
    claim.status = .processing) ∧ ∃ st, finalizeClaimInner s claimId = .ok (st, s')
  | .finalizeExpiredBatch claimIds => ∃ n m t, finalizeBatchLoop claimIds s 0 0 = .ok (n, m, t) ∧
    s' = t.emit (.batchFinalized n m s.sequence)
  | .escalateClaim claimId newDeadline => NiffyInsure.escalateClaim s claimId newDeadline = .ok s'
  | .processClaim claimId => NiffyInsure.processClaim env s claimId = .ok s'
  | .processPayoutTimeout claimId => ∃ st,
    NiffyInsure.processPayoutTimeout s claimId = .ok (st, s')
  | .disputeClaim claimId => NiffyInsure.disputeClaim s claimId = .ok s'
  | .disburseInstallment claimId amount =>
    NiffyInsure.disburseInstallment env s claimId amount = .ok s'
  | .openAppeal claimant claimId => NiffyInsure.openAppeal s claimant claimId = .ok s'
  | .voteOnAppeal voter claimId vote => ∃ st,
    NiffyInsure.voteOnAppeal s voter claimId vote = .ok (st, s')
  | .finalizeAppeal claimId => ∃ st, NiffyInsure.finalizeAppeal s claimId = .ok (st, s')
  | .revealVote voter claimId vote salt =>
    NiffyInsure.revealVote env s voter claimId vote salt = .ok s'
  | .refreshSnapshot _ | .setClaimFraudScore .. | .setCommitRevealPhases .. | .commitVote ..
  | .delegateVote .. => True

section Ran

variable {env : Env} {s s' : State}

theorem ran_of_exec {c : ClaimCall} (h : c.exec env s = .ok s') : c.Ran env s s' := by
  cases c with
  | fileClaim | voteOnClaim | voteOnAppeal =>
    obtain ⟨-, -, h⟩ := bind_eq_ok.mp h
    exact dropValue_eq_ok.mp h
  | withdrawClaim | addClaimEvidence | escalateClaim | processClaim | disputeClaim
  | disburseInstallment | openAppeal =>
    obtain ⟨-, -, h⟩ := bind_eq_ok.mp h
    exact h
  | finalizeClaim =>
    obtain ⟨st, h⟩ := dropValue_eq_ok.mp h
    obtain ⟨-, -, h⟩ := bind_eq_ok.mp h
    exact ⟨st, h⟩
  | processDeadline =>
    obtain ⟨st, h⟩ := dropValue_eq_ok.mp h
    simp only [processDeadline, bind_eq_ok, okOr_eq_ok, ensure_eq_ok] at h
    obtain ⟨-, -, claim, hclaim, -, -, -, hst, h⟩ := h
    exact ⟨⟨claim, hclaim, hst⟩, st, h⟩
  | finalizeExpiredBatch =>
    obtain ⟨n, m, h⟩ := map_batch_eq_ok.mp h
    simp only [finalizeExpiredBatch, bind_eq_ok, Prod.exists, pure_eq_ok, Prod.mk.injEq] at h
    obtain ⟨-, -, -, -, p, q, t, ht, rfl, rfl, rfl⟩ := h
    exact ⟨p, q, t, ht, rfl⟩
  | processPayoutTimeout | finalizeAppeal => exact dropValue_eq_ok.mp h
  | revealVote => exact h
  | _ => trivial

end Ran

/-! ## The base round -/

section BaseRound

variable {s s' : State} {claimId : Nat}

/-- The base round on `claim` ended with `outcome`. -/
structure Closed (s s' : State) (claim : Claim) (outcome : ClaimStatus) : Prop where
  record : ∃ appealOpen payoutDeadline dispute, SameKind .claim
    (s.setClaim (claim.closed outcome s.sequence appealOpen payoutDeadline dispute)) s'
  flag : SameKind .openClaim (s.setOpenClaim claim.claimant claim.policyId false) s'
  strike : outcome = .rejected → StrikesAt s s' claim.claimant claim.policyId
  policy : outcome ≠ .rejected → SameKind .policy s s'
  frame : Frame roundKinds s s'

theorem closed_of_closeRound {before outcome : ClaimStatus} {claim claim' : Claim} {b : Bool}
    (hdec : claim.decide outcome s.sequence b = .ok claim')
    (h : closeRound s claimId before claim' = .ok s') : Closed s s' claim outcome := by
  obtain ⟨x, y, z, rfl⟩ := decide_eq_ok hdec
  obtain ⟨hrec, hflag, hstrike, hpolicy⟩ := closeRound_eq_ok h
  exact ⟨⟨x, y, z, hrec⟩, hflag, hstrike, hpolicy, frame_closeRound h⟩

/-- **What an accepted ballot does.**  It is counted, and the round goes on or is closed by
the new tallies. -/
theorem voteOnClaimWith_cases {weight : State → Nat} {voter : Address} {vote : VoteOption}
    {st : ClaimStatus} (h : voteOnClaimWith s weight voter claimId vote = .ok (st, s')) :
    ∃ claim w, s.getClaim claimId = some claim ∧ s.checkBallot voter claimId claim = .ok () ∧
      s.votingPowerFor claimId voter (weight (s.setVote claimId voter vote)) = .ok w ∧
      ((s.ballotOutcome claimId (claim.tally vote w) = none ∧
          s' = (s.setVote claimId voter vote).setClaim (claim.tally vote w)) ∨
        ∃ outcome, s.ballotOutcome claimId (claim.tally vote w) = some outcome ∧
          Closed (s.setVote claimId voter vote) s' (claim.tally vote w) outcome) := by
  obtain ⟨claim, w, hclaim, hcheck, hw, ⟨hnone, -, hs'⟩ | ⟨outcome, claim', hsome, -,
      hdec, hclose⟩⟩ :=
    voteOnClaimWith_eq_ok h
  · exact ⟨claim, w, hclaim, hcheck, hw, .inl ⟨hnone, hs'⟩⟩
  · exact ⟨claim, w, hclaim, hcheck, hw, .inr ⟨outcome, hsome, closed_of_closeRound hdec hclose⟩⟩

theorem voteOnClaim_cases {voter : Address} {vote : VoteOption} {st : ClaimStatus}
    (h : voteOnClaim s voter claimId vote = .ok (st, s')) :
    ∃ claim w, s.getClaim claimId = some claim ∧ s.checkBallot voter claimId claim = .ok () ∧
      s.votingPowerFor claimId voter 1 = .ok w ∧
      ((s.ballotOutcome claimId (claim.tally vote w) = none ∧
          s' = (s.setVote claimId voter vote).setClaim (claim.tally vote w)) ∨
        ∃ outcome, s.ballotOutcome claimId (claim.tally vote w) = some outcome ∧
          Closed (s.setVote claimId voter vote) s' (claim.tally vote w) outcome) :=
  voteOnClaimWith_cases (voteOnClaim_eq s voter claimId vote ▸ h)

theorem finalizeClaimInner_cases {st : ClaimStatus}
    (h : finalizeClaimInner s claimId = .ok (st, s')) :
    ∃ claim, s.getClaim claimId = some claim ∧ claim.status.isTerminal = false ∧
      Closed s s' claim (s.deadlineOutcome claimId claim) := by
  obtain ⟨claim, claim', hclaim, hterm, -, -, -, hdec, hclose⟩ := finalizeClaimInner_eq_ok h
  exact ⟨claim, hclaim, hterm, closed_of_closeRound hdec hclose⟩

/-- The batch finalizes claims in `Processing` only. -/
theorem isBatchEligible_iff :
    s.isBatchEligible claimId = true ↔ ∃ claim, s.getClaim claimId = some claim ∧
      claim.status = .processing ∧
      isClaimPastVotingDeadline s.sequence claim.votingDeadlineLedger = true := by
  unfold State.isBatchEligible
  cases s.getClaim claimId with
  | none => simp
  | some claim => simp

/-- What the finalisation of one eligible claim keeps, the batch keeps. -/
theorem finalizeBatchLoop_keeps {I : State → Prop}
    (hone : ∀ s s' claimId st, s.isBatchEligible claimId = true →
      finalizeClaimInner s claimId = .ok (st, s') → I s → I s') :
    ∀ (ids : List Nat) (s : State) (n m : Nat) {p q : Nat} {t : State},
      finalizeBatchLoop ids s n m = .ok (p, q, t) → I s → I t := by
  intro ids
  induction ids with
  | nil =>
    intro s n m p q t h hs
    cases h
    exact hs
  | cons id rest ih =>
    intro s n m p q t h hs
    unfold finalizeBatchLoop at h
    split at h
    · rename_i hel
      obtain ⟨⟨st, s₁⟩, h₁, h⟩ := bind_eq_ok.mp h
      exact ih s₁ (n + 1) m h (hone s s₁ id st hel h₁ hs)
    · exact ih s n (m + 1) h hs

/-- Only the end of a base round writes policies, the voter registry and the counters of active
policies: what it keeps, and what these are all that matters to, every call on a claim keeps. -/
theorem claimCall_keeps_of_closeRound {I : State → Prop} {env : Env} {c : ClaimCall}
    (hframe : ∀ {ks : List Kind} {s s' : State}, Frame ks s s' → ks.contains .policy = false →
      ks.contains .registry = false → ks.contains .activeCount = false → I s → I s')
    (hclose : ∀ {s s' : State} {claimId : Nat} {before : ClaimStatus} {claim : Claim},
      closeRound s claimId before claim = .ok s' → I s → I s')
    (h : c.exec env s = .ok s') (hs : I s) : I s' := by
  have hfinalize : ∀ {s s' : State} {claimId : Nat} {st : ClaimStatus},
      finalizeClaimInner s claimId = .ok (st, s') → I s → I s' := by
    intro s s' claimId st h hs
    obtain ⟨claim, claim', -, -, -, -, -, -, hend⟩ := finalizeClaimInner_eq_ok h
    exact hclose hend hs
  have hran := ran_of_exec h
  cases c with
  | voteOnClaim voter claimId vote =>
    obtain ⟨st, hran⟩ := hran
    have hf : Frame [.vote] s (s.setVote claimId voter vote) := by simp
    have hvote := hframe hf rfl rfl rfl hs
    obtain ⟨claim, w, -, -, -, ⟨-, -, rfl⟩ | ⟨outcome, claim', -, -, -, hend⟩⟩ :=
      voteOnClaim_eq_ok hran
    · have hf' : Frame [.claim] (s.setVote claimId voter vote)
          ((s.setVote claimId voter vote).setClaim (claim.tally vote w)) := by simp
      exact hframe hf' rfl rfl rfl hvote
    · exact hclose hend hvote
  | finalizeClaim =>
    obtain ⟨st, hran⟩ := hran
    exact hfinalize hran hs
  | processDeadline =>
    obtain ⟨-, st, hran⟩ := hran
    exact hfinalize hran hs
  | finalizeExpiredBatch =>
    obtain ⟨n, m, t, hloop, rfl⟩ := hran
    have hf : Frame [] t (t.emit (.batchFinalized n m s.sequence)) := by simp
    refine hframe hf rfl rfl rfl (finalizeBatchLoop_keeps ?_ _ s 0 0 hloop hs)
    intro s₁ s₂ id st _ h₁
    exact hfinalize h₁
  | _ => exact hframe (frame_claimCall h) rfl rfl rfl hs

end BaseRound

/-! ## What no call writes -/

/-- A kind of keys that no call writes stays empty. -/
theorem get_eq_none_of_reach {host : Host} {s : State} {k : DataKey}
    (hk : ∀ c : Call, c.kinds.contains k.kind = false) (h : (contract host).Reach always s) :
    s.get k = none := by
  refine h.invariant (I := fun s => s.get k = none)
    (fun s hs => State.Fresh.get host hs k) ?_
  intro s l s' _ hstep hs
  cases l with
  | closeLedger n =>
    obtain ⟨-, -, rfl⟩ := hstep
    exact hs
  | tokens b a =>
    obtain ⟨-, rfl⟩ := hstep
    exact hs
  | call env c =>
    rw [(frame_exec hstep.2).get k (hk c)]
    exact hs

theorem votingPowerFor_of_reach {host : Host} {s : State} (h : (contract host).Reach always s)
    (claimId : Nat) (voter : Address) : s.votingPowerFor claimId voter 1 = .ok 1 := by
  have hnone : s.get (.claimVoterPowerOverride claimId voter) = none := by
    refine get_eq_none_of_reach (fun c => ?_) h
    cases c with
    | claim c => cases c <;> rfl
    | policy c => cases c <;> rfl
    | treasury c => cases c <;> rfl
    | setting c => rfl
    | governance c => cases c <;> rfl
  simp only [State.votingPowerFor, hnone]

/-! ## Claims are stored under their ids -/

section Keys

variable {env : Env} {s s' : State}

/-- Reading a claim after a claim was written. -/
theorem getClaim_of_write {claim : Claim} (h : SameKind .claim (s.setClaim claim) s') (id : Nat) :
    s'.getClaim id = if id = claim.claimId then some claim else s.getClaim id := by
  have hget : s'.getClaim id = (s.setClaim claim).getClaim id := h _ rfl
  rw [hget]
  split
  · rename_i heq
    subst heq
    simp [State.getClaim, State.setClaim]
  · rename_i hne
    simp [State.getClaim, State.setClaim, hne]

theorem getClaim_of_write_self {claim : Claim} (h : SameKind .claim (s.setClaim claim) s')
    {id : Nat} (hid : id = claim.claimId) : s'.getClaim id = some claim := by
  rw [getClaim_of_write h, if_pos hid]

theorem getClaim_of_same (h : SameKind .claim s s') (id : Nat) : s'.getClaim id = s.getClaim id :=
  h _ rfl

/-- A claim is stored under its id, and the ids in use are those up to the counter. -/
def State.ClaimsKeyed (s : State) : Prop :=
  ∀ id claim, s.getClaim id = some claim → claim.claimId = id ∧ id ≤ s.getClaimCounter

theorem State.ClaimsKeyed.unfiled (hk : s.ClaimsKeyed) {id : Nat} (h : s.getClaimCounter < id) :
    s.getClaim id = none := by
  cases hc : s.getClaim id with
  | none => rfl
  | some c =>
    have hle := (hk id c hc).2
    omega

theorem getClaimCounter_of_same (h : SameKind .claimCounter s s') :
    s'.getClaimCounter = s.getClaimCounter := by
  simp only [State.getClaimCounter, h .claimCounter rfl]

/-- A stored claim was written over by one with the same id, or no claim was written. -/
def RewritesClaim (s s' : State) : Prop :=
  SameKind .claim s s' ∨ ∃ id claim claim', s.getClaim id = some claim ∧
    claim'.claimId = claim.claimId ∧ SameKind .claim (s.setClaim claim') s'

theorem RewritesClaim.of_write {id : Nat} {claim claim' : Claim}
    (hclaim : s.getClaim id = some claim)
    (hwrite : SameKind .claim (s.setClaim claim') s') (hid : claim'.claimId = claim.claimId) :
    RewritesClaim s s' :=
  .inr ⟨id, claim, claim', hclaim, hid, hwrite⟩

theorem claimsKeyed_of_rewrites (h : RewritesClaim s s') (hcount : SameKind .claimCounter s s')
    (hk : s.ClaimsKeyed) : s'.ClaimsKeyed := by
  intro id c hc
  rw [getClaimCounter_of_same hcount]
  rcases h with hsame | ⟨id₀, claim, claim', hclaim, hid, hwrite⟩
  · exact hk id c (by rwa [getClaim_of_same hsame] at hc)
  · rw [getClaim_of_write hwrite] at hc
    split at hc
    · rename_i heq
      cases hc
      have hold := hk id₀ claim hclaim
      rw [heq, hid, hold.1]
      exact ⟨rfl, hold.2⟩
    · exact hk id c hc

theorem getClaim_eq_none_of_rewrites (hk : s.ClaimsKeyed) (h : RewritesClaim s s') {id : Nat}
    (hnone : s.getClaim id = none) : s'.getClaim id = none := by
  rcases h with hsame | ⟨id₀, claim, claim', hclaim, hid, hwrite⟩
  · rwa [getClaim_of_same hsame]
  · rw [getClaim_of_write hwrite, if_neg ?_]
    · exact hnone
    · intro heq
      rw [heq, hid, (hk id₀ claim hclaim).1, hclaim] at hnone
      cases hnone

theorem Closed.rewrites {claimId : Nat} {claim : Claim} {outcome : ClaimStatus}
    (h : Closed s s' claim outcome) {claim₀ : Claim} (hclaim : s.getClaim claimId = some claim₀)
    (hid : claim.claimId = claim₀.claimId) : RewritesClaim s s' := by
  obtain ⟨x, y, z, hrec⟩ := h.record
  exact .of_write hclaim hrec hid

theorem AppealStep.rewrites {claimId : Nat} {claim claim₀ : Claim} (h : AppealStep s s' claim)
    (hclaim : s.getClaim claimId = some claim₀) (hid : claim.claimId = claim₀.claimId) :
    RewritesClaim s s' := by
  cases h with
  | voting hrec _ => exact .of_write hclaim hrec hid
  | decided outcome x y _ hrec _ => exact .of_write hclaim hrec hid

@[simp] theorem claimId_tally (claim : Claim) (vote : VoteOption) (w : Nat) :
    (claim.tally vote w).claimId = claim.claimId := by
  cases vote <;> rfl

@[simp] theorem claimId_tallyAppeal (claim : Claim) (vote : VoteOption) (w : Nat) :
    (claim.tallyAppeal vote w).claimId = claim.claimId := by
  cases vote <;> rfl

theorem status_tally (claim : Claim) (vote : VoteOption) (w : Nat) :
    (claim.tally vote w).status = claim.status := by
  cases vote <;> rfl

theorem status_tallyAppeal (claim : Claim) (vote : VoteOption) (w : Nat) :
    (claim.tallyAppeal vote w).status = claim.status := by
  cases vote <;> rfl

theorem getClaim_setVote (claimId : Nat) (voter : Address) (vote : VoteOption) (id : Nat) :
    (s.setVote claimId voter vote).getClaim id = s.getClaim id := by
  simp [State.getClaim, State.setVote]

theorem rewrites_of_finalizeClaimInner {claimId : Nat} {st : ClaimStatus}
    (h : finalizeClaimInner s claimId = .ok (st, s')) : RewritesClaim s s' := by
  obtain ⟨claim, hclaim, -, hclosed⟩ := finalizeClaimInner_cases h
  exact hclosed.rewrites hclaim rfl

theorem rewrites_of_voteOnClaimWith {weight : State → Nat} {voter : Address} {claimId : Nat}
    {vote : VoteOption} {st : ClaimStatus}
    (h : voteOnClaimWith s weight voter claimId vote = .ok (st, s')) : RewritesClaim s s' := by
  obtain ⟨claim, w, hclaim, -, -, ⟨-, rfl⟩ | ⟨outcome, -, hclosed⟩⟩ := voteOnClaimWith_cases h
  · exact .of_write hclaim (SameKind.set (by simp) _ _) (claimId_tally claim vote w)
  · obtain ⟨x, y, z, hrec⟩ := hclosed.record
    exact .of_write hclaim (SameKind.trans (SameKind.set (by simp) _ _) hrec)
      (claimId_tally claim vote w)

theorem rewrites_of_voteOnClaim {voter : Address} {claimId : Nat} {vote : VoteOption}
    {st : ClaimStatus} (h : voteOnClaim s voter claimId vote = .ok (st, s')) : RewritesClaim s s' :=
  rewrites_of_voteOnClaimWith (voteOnClaim_eq s voter claimId vote ▸ h)

theorem claimsKeyed_of_fileClaim {holder : Address} {policyId claimId : Nat} {amount : Int}
    {details : Str} {evidence : List ClaimEvidenceEntry} {expectedNonce : Option Nat}
    (h : fileClaim env s holder policyId amount details evidence expectedNonce = .ok (claimId, s'))
    (hk : s.ClaimsKeyed) : s'.ClaimsKeyed := by
  obtain ⟨policy, voters, deadline, -, -, -, hid, -, -, hrec, -, -, hcount⟩ := fileClaim_eq_ok h
  have hcounter : s'.getClaimCounter = claimId := by
    rw [State.getClaimCounter, hcount .claimCounter rfl, State.get_set_self, Option.getD_some]
  intro id c hc
  rw [getClaim_of_write hrec] at hc
  rw [hcounter]
  split at hc
  · rename_i heq
    cases hc
    exact ⟨heq.symm, le_of_eq heq⟩
  · have hold := hk id c hc
    exact ⟨hold.1, by omega⟩

/-- Filing stores a fresh claim, and every other call rewrites one claim at a time. -/
theorem claimsKeyed_of_claimCall {c : ClaimCall} (h : c.exec env s = .ok s') (hk : s.ClaimsKeyed) :
    s'.ClaimsKeyed := by
  have hran := ran_of_exec h
  have hf := frame_claimCall h
  cases c with
  | fileClaim =>
    obtain ⟨id, hran⟩ := hran
    exact claimsKeyed_of_fileClaim hran hk
  | finalizeExpiredBatch =>
    obtain ⟨n, m, t, hloop, rfl⟩ := hran
    change t.ClaimsKeyed
    refine finalizeBatchLoop_keeps ?_ _ s 0 0 hloop hk
    intro s₁ s₂ id st _ h₁ hk₁
    exact claimsKeyed_of_rewrites (rewrites_of_finalizeClaimInner h₁)
      ((frame_finalizeClaimInner h₁).sameKind rfl) hk₁
  | withdrawClaim _ claimId =>
    obtain ⟨claim, hclaim, -, -, -, hrec, -⟩ := withdrawClaim_eq_ok hran
    exact claimsKeyed_of_rewrites (.of_write hclaim hrec rfl) (hf.sameKind rfl) hk
  | addClaimEvidence _ claimId =>
    obtain ⟨claim, hclaim, -, hrec⟩ := addClaimEvidence_eq_ok hran
    exact claimsKeyed_of_rewrites (.of_write hclaim hrec rfl) (hf.sameKind rfl) hk
  | voteOnClaim =>
    obtain ⟨st, hran⟩ := hran
    exact claimsKeyed_of_rewrites (rewrites_of_voteOnClaim hran) (hf.sameKind rfl) hk
  | finalizeClaim =>
    obtain ⟨st, hran⟩ := hran
    exact claimsKeyed_of_rewrites (rewrites_of_finalizeClaimInner hran) (hf.sameKind rfl) hk
  | processDeadline =>
    obtain ⟨-, st, hran⟩ := hran
    exact claimsKeyed_of_rewrites (rewrites_of_finalizeClaimInner hran) (hf.sameKind rfl) hk
  | escalateClaim claimId =>
    obtain ⟨claim, hclaim, -, hrec⟩ := escalateClaim_eq_ok hran
    exact claimsKeyed_of_rewrites (.of_write hclaim hrec rfl) (hf.sameKind rfl) hk
  | processClaim claimId =>
    obtain ⟨claim, failed, hclaim, -, -, -, hrec, -⟩ := processClaim_eq_ok hran
    refine claimsKeyed_of_rewrites (.of_write hclaim hrec ?_) (hf.sameKind rfl) hk
    cases failed <;> rfl
  | processPayoutTimeout claimId =>
    obtain ⟨st, hran⟩ := hran
    obtain ⟨claim, hclaim, -, hrec, -⟩ := processPayoutTimeout_eq_ok hran
    exact claimsKeyed_of_rewrites (.of_write hclaim hrec rfl) (hf.sameKind rfl) hk
  | disputeClaim claimId =>
    obtain ⟨claim, hclaim, -, hrec⟩ := disputeClaim_eq_ok hran
    exact claimsKeyed_of_rewrites (.of_write hclaim hrec rfl) (hf.sameKind rfl) hk
  | disburseInstallment claimId amount =>
    obtain ⟨claim, p, hclaim, -, -, -, -, -, -, hlast, hmore⟩ := disburseInstallment_eq_ok hran
    by_cases hcomp : claim.Completes amount
    · exact claimsKeyed_of_rewrites (.of_write hclaim (hlast hcomp).1 rfl) (hf.sameKind rfl) hk
    · exact claimsKeyed_of_rewrites (.of_write hclaim (hmore hcomp).1 rfl) (hf.sameKind rfl) hk
  | openAppeal _ claimId =>
    obtain ⟨claim, deadline, hclaim, -, hrec, -⟩ := openAppeal_eq_ok hran
    exact claimsKeyed_of_rewrites (.of_write hclaim hrec rfl) (hf.sameKind rfl) hk
  | voteOnAppeal =>
    obtain ⟨st, hran⟩ := hran
    obtain ⟨claim, hclaim, -, happeal⟩ := voteOnAppeal_eq_ok hran
    exact claimsKeyed_of_rewrites (happeal.rewrites hclaim (claimId_tallyAppeal _ _ _))
      (hf.sameKind rfl) hk
  | finalizeAppeal =>
    obtain ⟨st, hran⟩ := hran
    obtain ⟨claim, hclaim, -, happeal⟩ := finalizeAppeal_eq_ok hran
    exact claimsKeyed_of_rewrites (happeal.rewrites hclaim rfl) (hf.sameKind rfl) hk
  | revealVote _ claimId =>
    obtain ⟨claim, hclaim, -, hrec, -⟩ := revealVote_eq_ok hran
    exact claimsKeyed_of_rewrites (.of_write hclaim hrec (claimId_tally _ _ _)) (hf.sameKind rfl) hk
  | refreshSnapshot | setClaimFraudScore | setCommitRevealPhases | commitVote | delegateVote =>
    exact claimsKeyed_of_rewrites (.inl (hf.sameKind rfl)) (hf.sameKind rfl) hk

theorem claimsKeyed_of_exec {c : Call} (h : c.exec env s = .ok s') (hk : s.ClaimsKeyed) :
    s'.ClaimsKeyed := by
  have hf := frame_exec h
  cases c with
  | policy c =>
    exact claimsKeyed_of_rewrites (.inl (hf.sameKind (c.untouched rfl)))
      (hf.sameKind (c.untouched rfl)) hk
  | treasury c =>
    exact claimsKeyed_of_rewrites (.inl (hf.sameKind (c.untouched rfl)))
      (hf.sameKind (c.untouched rfl)) hk
  | setting c => exact claimsKeyed_of_rewrites (.inl (hf.sameKind rfl)) (hf.sameKind rfl) hk
  | governance c =>
    exact claimsKeyed_of_rewrites (.inl (hf.sameKind (c.untouched rfl)))
      (hf.sameKind (c.untouched rfl)) hk
  | claim c => exact claimsKeyed_of_claimCall h hk

end Keys

theorem claimsKeyed_of_fresh {host : Host} (s : State) (h : s.Fresh host) : s.ClaimsKeyed := by
  intro id claim hclaim
  simp [State.getClaim, h.get] at hclaim

/-- **Claims are stored under their ids**, in every run. -/
theorem claimsKeyed_of_reach {host : Host} {s : State} (h : (contract host).Reach always s) :
    s.ClaimsKeyed := by
  refine h.invariant (I := State.ClaimsKeyed) claimsKeyed_of_fresh ?_
  intro s l s' _ hstep hk
  cases l with
  | closeLedger n =>
    obtain ⟨-, -, rfl⟩ := hstep
    exact hk
  | tokens b a =>
    obtain ⟨-, rfl⟩ := hstep
    exact hk
  | call env c => exact claimsKeyed_of_exec hstep.2 hk

end NiffyInsure
