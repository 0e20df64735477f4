import NiffyInsure.ClaimStep
import NiffyInsure.Trace

/-!
# The lifecycle of a claim

The documented transitions of a claim's status are a graph (`ClaimStatus.next`).  The two
base-round functions `vote_on_claim` and `finalize_claim` only refuse a terminal claim, and
a claim under appeal is not terminal: they can still move it to `Approved` or `Rejected`.

* `statusStep_of_claimCall`: what a claim call does to the statuses, where the two
  base-round functions are left to the caller.
* `live_of_reach`: no stored claim is `Pending` or `Appealed`.
* `statuses_on_graph_iff`: a call from a reached state keeps to the graph exactly when it is
  not a deciding base-round call on a claim under appeal.
-/

namespace NiffyInsure

open Machine

/-- The documented transitions. -/
def ClaimStatus.next : ClaimStatus → List ClaimStatus
  | .processing => [.approved, .rejected, .withdrawn]
  | .approved => [.paid, .payoutTimeout, .disputed, .payoutFailed]
  | .rejected => [.underAppeal]
  | .underAppeal => [.appealApproved, .appealRejected]
  | .appealApproved => [.paid, .payoutFailed]
  | .pending | .payoutTimeout | .paid | .appealRejected | .withdrawn | .disputed | .appealed
  | .payoutFailed => []

/-- The status stays, or moves along the graph. -/
def OnGraph (a b : ClaimStatus) : Prop := b = a ∨ b ∈ a.next

/-- The calls that can pay a claim in full. -/
def ClaimCall.pays : ClaimCall → Bool
  | .processClaim .. | .disburseInstallment .. => true
  | _ => false

/-- The status stays, or moves along the graph, and to `Paid` only where the call pays. -/
def ClaimCall.Edge (c : ClaimCall) (a b : ClaimStatus) : Prop :=
  b = a ∨ (b ∈ a.next ∧ (b = .paid → c.pays = true))

/-! ## Steps of the statuses -/

/-- Every stored claim stays stored with a status that `R` allows, and new claims are in
`Processing`. -/
structure StatusStep (R : ClaimStatus → ClaimStatus → Prop) (s s' : State) : Prop where
  moved : ∀ id claim, s.getClaim id = some claim →
    ∃ claim', s'.getClaim id = some claim' ∧ R claim.status claim'.status
  filed : ∀ id claim', s.getClaim id = none → s'.getClaim id = some claim' →
    claim'.status = .processing

namespace StatusStep

variable {R R' : ClaimStatus → ClaimStatus → Prop} {s s' t : State}

theorem mono (h : StatusStep R s s') (hR : ∀ a b, R a b → R' a b) : StatusStep R' s s' where
  moved id claim hclaim := by
    obtain ⟨claim', hclaim', hr⟩ := h.moved id claim hclaim
    exact ⟨claim', hclaim', hR _ _ hr⟩
  filed := h.filed

theorem trans (htrans : ∀ a b c, R a b → R b c → R a c) (h : StatusStep R s s')
    (hnone : ∀ id, s.getClaim id = none → s'.getClaim id = none) (h' : StatusStep R s' t) :
    StatusStep R s t where
  moved id claim hclaim := by
    obtain ⟨claim', hclaim', hr⟩ := h.moved id claim hclaim
    obtain ⟨claim'', hclaim'', hr'⟩ := h'.moved id claim' hclaim'
    exact ⟨claim'', hclaim'', htrans _ _ _ hr hr'⟩
  filed id claim hid := h'.filed id claim (hnone id hid)

theorem of_same (hrefl : ∀ a, R a a) (h : SameKind .claim s s') : StatusStep R s s' where
  moved id claim hclaim := ⟨claim, by rw [getClaim_of_same h, hclaim], hrefl _⟩
  filed id claim hnone hclaim := by
    rw [getClaim_of_same h, hnone] at hclaim
    cases hclaim

theorem of_write (hrefl : ∀ a, R a a) (hk : s.ClaimsKeyed) {claimId : Nat} {claim claim' : Claim}
    (hclaim : s.getClaim claimId = some claim) (hwrite : SameKind .claim (s.setClaim claim') s')
    (hid : claim'.claimId = claim.claimId) (hR : R claim.status claim'.status) :
    StatusStep R s s' where
  moved id c hc := by
    rw [getClaim_of_write hwrite]
    split
    · rename_i heq
      rw [heq, hid, (hk _ _ hclaim).1, hclaim] at hc
      cases hc
      exact ⟨claim', rfl, hR⟩
    · exact ⟨c, hc, hrefl _⟩
  filed id c hnone hc := by
    rw [getClaim_of_write hwrite] at hc
    split at hc
    · rename_i heq
      rw [heq, hid, (hk _ _ hclaim).1, hclaim] at hnone
      cases hnone
    · rw [hnone] at hc
      cases hc

theorem of_edge {c : ClaimCall} (hgraph : ∀ a b, c.Edge a b → R a b) (hk : s.ClaimsKeyed)
    {claimId : Nat} {claim claim' : Claim} {a b : ClaimStatus}
    (hclaim : s.getClaim claimId = some claim) (hwrite : SameKind .claim (s.setClaim claim') s')
    (hid : claim'.claimId = claim.claimId) (ha : claim.status = a) (hb : claim'.status = b)
    (hedge : b ∈ a.next) (hpays : b = .paid → c.pays = true) : StatusStep R s s' := by
  refine .of_write (fun a => hgraph a a (.inl rfl)) hk hclaim hwrite hid ?_
  rw [ha, hb]
  exact hgraph a b (.inr ⟨hedge, hpays⟩)

theorem emit (h : StatusStep R s s') (e : Event) : StatusStep R s (s'.emit e) :=
  ⟨h.moved, h.filed⟩

theorem of_file (hrefl : ∀ a, R a a) (hk : s.ClaimsKeyed) {claim : Claim}
    (hid : claim.claimId = s.getClaimCounter + 1) (hst : claim.status = .processing)
    (hwrite : SameKind .claim (s.setClaim claim) s') : StatusStep R s s' where
  moved id c hc := by
    rw [getClaim_of_write hwrite]
    have hle := (hk id c hc).2
    rw [if_neg (by omega)]
    exact ⟨c, hc, hrefl _⟩
  filed id c hnone hc := by
    rw [getClaim_of_write hwrite] at hc
    split at hc
    · cases hc
      exact hst
    · rw [hnone] at hc
      cases hc

end StatusStep

section Calls

variable {R : ClaimStatus → ClaimStatus → Prop} {env : Env} {s s' : State}

theorem Closed.statusStep (hrefl : ∀ a, R a a) (hk : s.ClaimsKeyed) {claimId : Nat} {claim : Claim}
    {outcome : ClaimStatus} (h : Closed s s' claim outcome)
    (hclaim : s.getClaim claimId = some claim) (hR : R claim.status outcome) :
    StatusStep R s s' := by
  obtain ⟨x, y, z, hrec⟩ := h.record
  exact .of_write hrefl hk hclaim hrec rfl hR

theorem AppealStep.statusStep {c : ClaimCall} (hgraph : ∀ a b, c.Edge a b → R a b)
    (hk : s.ClaimsKeyed) {claimId : Nat} {claim claim₀ : Claim} (h : AppealStep s s' claim)
    (hclaim : s.getClaim claimId = some claim₀) (hst : claim₀.status = .underAppeal)
    (hid : claim.claimId = claim₀.claimId) (hsame : claim.status = claim₀.status) :
    StatusStep R s s' := by
  have hrefl : ∀ a, R a a := fun a => hgraph a a (.inl rfl)
  cases h with
  | voting hrec _ =>
    refine .of_write hrefl hk hclaim hrec hid ?_
    rw [hsame]
    exact hrefl _
  | decided outcome x y hout hrec _ =>
    refine .of_edge hgraph hk hclaim hrec hid hst (b := outcome) rfl ?_ ?_
    · rcases hout with rfl | rfl <;> decide
    · rcases hout with rfl | rfl <;> exact fun h => by cases h

/-- The moves of a batch: out of `Processing`. -/
def BatchMove (a b : ClaimStatus) : Prop :=
  b = a ∨ a = .processing ∧ (b = .approved ∨ b = .rejected)

theorem BatchMove.trans (a b c : ClaimStatus) (h : BatchMove a b) (h' : BatchMove b c) :
    BatchMove a c := by
  rcases h with rfl | ⟨rfl, hb⟩
  · exact h'
  · rcases h' with rfl | ⟨rfl, -⟩
    · exact .inr ⟨rfl, hb⟩
    · rcases hb with hb | hb <;> cases hb

theorem BatchMove.edge {a b : ClaimStatus} (h : BatchMove a b) (c : ClaimCall) : c.Edge a b := by
  rcases h with rfl | ⟨rfl, rfl | rfl⟩
  · exact .inl rfl
  · exact .inr ⟨by decide, fun h => by cases h⟩
  · exact .inr ⟨by decide, fun h => by cases h⟩

theorem statusStep_of_eligible {claimId : Nat} {st : ClaimStatus} (hk : s.ClaimsKeyed)
    (hst : ∃ claim, s.getClaim claimId = some claim ∧ claim.status = .processing)
    (h : finalizeClaimInner s claimId = .ok (st, s')) : StatusStep BatchMove s s' := by
  obtain ⟨claim₀, hclaim₀, hst⟩ := hst
  obtain ⟨claim, hclaim, -, hclosed⟩ := finalizeClaimInner_cases h
  rw [hclaim₀] at hclaim
  cases hclaim
  refine hclosed.statusStep (fun _ => .inl rfl) hk hclaim₀ ?_
  exact .inr ⟨hst, s.deadlineOutcome_cases claimId claim₀⟩

theorem statusStep_of_batch {ids : List Nat} {n m : Nat} (hk : s.ClaimsKeyed)
    (h : finalizeBatchLoop ids s 0 0 = .ok (n, m, s')) : StatusStep BatchMove s s' := by
  have hloop := finalizeBatchLoop_keeps
    (I := fun t => t.ClaimsKeyed ∧ StatusStep BatchMove s t ∧
      ∀ id, s.getClaim id = none → t.getClaim id = none) ?_ ids s 0 0 h
    ⟨hk, .of_same (fun _ => .inl rfl) (.refl _ s), fun _ hid => hid⟩
  · exact hloop.2.1
  · rintro t t' id st hel hfin ⟨hkt, hstep, hnone⟩
    obtain ⟨claim, hclaim, hst, -⟩ := isBatchEligible_iff.mp hel
    have hone := statusStep_of_eligible hkt ⟨claim, hclaim, hst⟩ hfin
    have hrew := rewrites_of_finalizeClaimInner hfin
    refine ⟨?_, hstep.trans BatchMove.trans hnone hone, ?_⟩
    · exact claimsKeyed_of_rewrites hrew ((frame_finalizeClaimInner hfin).sameKind rfl) hkt
    · intro id' hid'
      exact getClaim_eq_none_of_rewrites hkt hrew (hnone id' hid')

/-- **What a claim call does to the statuses.**  Every call keeps to the graph, except that a
ballot that decides and a finalisation move any claim that is not terminal. -/
theorem statusStep_of_claimCall {c : ClaimCall} (h : c.exec env s = .ok s') (hk : s.ClaimsKeyed)
    (hgraph : ∀ a b, c.Edge a b → R a b)
    (hvote : ∀ voter claimId vote claim w outcome, c = .voteOnClaim voter claimId vote →
      s.getClaim claimId = some claim → claim.status.isTerminal = false →
      s.votingPowerFor claimId voter 1 = .ok w →
      s.ballotOutcome claimId (claim.tally vote w) = some outcome → R claim.status outcome)
    (hfinal : ∀ claimId claim, c = .finalizeClaim claimId → s.getClaim claimId = some claim →
      claim.status.isTerminal = false → R claim.status (s.deadlineOutcome claimId claim)) :
    StatusStep R s s' := by
  have hrefl : ∀ a, R a a := fun a => hgraph a a (.inl rfl)
  have hran := ran_of_exec h
  have hf := frame_claimCall h
  cases c with
  | fileClaim =>
    obtain ⟨claimId, hran⟩ := hran
    obtain ⟨policy, voters, deadline, -, -, -, hid, -, -, hrec, -⟩ := fileClaim_eq_ok hran
    exact .of_file hrefl hk hid rfl hrec
  | finalizeExpiredBatch =>
    obtain ⟨n, m, t, hloop, rfl⟩ := hran
    exact ((statusStep_of_batch hk hloop).mono fun a b hab => hgraph a b (hab.edge _)).emit _
  | withdrawClaim =>
    obtain ⟨claim, hclaim, hst, -, -, hrec, -⟩ := withdrawClaim_eq_ok hran
    exact .of_edge hgraph hk hclaim hrec rfl hst (b := .withdrawn) rfl (by decide)
      fun h => by cases h
  | addClaimEvidence =>
    obtain ⟨claim, hclaim, -, hrec⟩ := addClaimEvidence_eq_ok hran
    exact .of_write hrefl hk hclaim hrec rfl (hrefl _)
  | voteOnClaim voter claimId vote =>
    obtain ⟨st, hran⟩ := hran
    obtain ⟨claim, w, hclaim, hcheck, hw, hcase⟩ := voteOnClaim_cases hran
    have hstat := status_tally claim vote w
    rcases hcase with ⟨-, rfl⟩ | ⟨outcome, hout, hclosed⟩
    · refine .of_write hrefl hk hclaim (SameKind.set (by simp) _ _) (claimId_tally ..) ?_
      rw [hstat]
      exact hrefl _
    · obtain ⟨x, y, z, hrec⟩ := hclosed.record
      refine .of_write hrefl hk hclaim (SameKind.trans (SameKind.set (by simp) _ _) hrec)
        (claimId_tally ..) ?_
      exact hvote voter claimId vote claim w outcome rfl hclaim
        (checkBallot_eq_ok.mp hcheck).1 hw hout
  | finalizeClaim claimId =>
    obtain ⟨st, hran⟩ := hran
    obtain ⟨claim, hclaim, hterm, hclosed⟩ := finalizeClaimInner_cases hran
    exact hclosed.statusStep hrefl hk hclaim (hfinal claimId claim rfl hclaim hterm)
  | processDeadline =>
    obtain ⟨hst, st, hran⟩ := hran
    exact (statusStep_of_eligible hk hst hran).mono fun a b hab => hgraph a b (hab.edge _)
  | escalateClaim =>
    obtain ⟨claim, hclaim, -, hrec⟩ := escalateClaim_eq_ok hran
    exact .of_write hrefl hk hclaim hrec rfl (hrefl _)
  | processClaim =>
    obtain ⟨claim, failed, hclaim, hst, -, -, hrec, -⟩ := processClaim_eq_ok hran
    cases failed with
    | false =>
      rcases hst with hst | hst
      · exact .of_edge hgraph hk hclaim hrec rfl hst (b := .paid) rfl (by decide) fun _ => rfl
      · exact .of_edge hgraph hk hclaim hrec rfl hst (b := .paid) rfl (by decide) fun _ => rfl
    | true =>
      rcases hst with hst | hst
      · exact .of_edge hgraph hk hclaim hrec rfl hst (b := .payoutFailed) rfl
          (by decide) fun _ => rfl
      · exact .of_edge hgraph hk hclaim hrec rfl hst (b := .payoutFailed) rfl
          (by decide) fun _ => rfl
  | processPayoutTimeout =>
    obtain ⟨st, hran⟩ := hran
    obtain ⟨claim, hclaim, hst, hrec, -⟩ := processPayoutTimeout_eq_ok hran
    exact .of_edge hgraph hk hclaim hrec rfl hst (b := .payoutTimeout) rfl (by decide)
      fun h => by cases h
  | disputeClaim =>
    obtain ⟨claim, hclaim, hst, hrec⟩ := disputeClaim_eq_ok hran
    exact .of_edge hgraph hk hclaim hrec rfl hst (b := .disputed) rfl (by decide)
      fun h => by cases h
  | disburseInstallment claimId amount =>
    obtain ⟨claim, p, hclaim, hst, -, -, -, -, -, hlast, hmore⟩ := disburseInstallment_eq_ok hran
    by_cases hcomp : claim.Completes amount
    · exact .of_edge hgraph hk hclaim (hlast hcomp).1 rfl hst (b := .paid) rfl
        (by decide) fun _ => rfl
    · exact .of_write hrefl hk hclaim (hmore hcomp).1 rfl (hrefl _)
  | openAppeal =>
    obtain ⟨claim, deadline, hclaim, hst, hrec, -⟩ := openAppeal_eq_ok hran
    exact .of_edge hgraph hk hclaim hrec rfl hst (b := .underAppeal) rfl (by decide)
      fun h => by cases h
  | voteOnAppeal voter claimId vote =>
    obtain ⟨st, hran⟩ := hran
    obtain ⟨claim, hclaim, hst, happeal⟩ := voteOnAppeal_eq_ok hran
    exact happeal.statusStep hgraph hk hclaim hst (claimId_tallyAppeal ..) (status_tallyAppeal ..)
  | finalizeAppeal =>
    obtain ⟨st, hran⟩ := hran
    obtain ⟨claim, hclaim, hst, happeal⟩ := finalizeAppeal_eq_ok hran
    exact happeal.statusStep hgraph hk hclaim hst rfl rfl
  | revealVote voter claimId vote =>
    obtain ⟨claim, hclaim, -, hrec, -⟩ := revealVote_eq_ok hran
    refine .of_write hrefl hk hclaim hrec (claimId_tally ..) ?_
    rw [status_tally]
    exact hrefl _
  | refreshSnapshot | setClaimFraudScore | setCommitRevealPhases | commitVote | delegateVote =>
    exact .of_same hrefl (hf.sameKind rfl)

theorem statusStep_of_exec {c : Call} (h : c.exec env s = .ok s') (hk : s.ClaimsKeyed)
    (hgraph : ∀ a b, OnGraph a b → R a b)
    (hvote : ∀ voter claimId vote claim w outcome, c = .claim (.voteOnClaim voter claimId vote) →
      s.getClaim claimId = some claim → claim.status.isTerminal = false →
      s.votingPowerFor claimId voter 1 = .ok w →
      s.ballotOutcome claimId (claim.tally vote w) = some outcome → R claim.status outcome)
    (hfinal : ∀ claimId claim, c = .claim (.finalizeClaim claimId) →
      s.getClaim claimId = some claim → claim.status.isTerminal = false →
      R claim.status (s.deadlineOutcome claimId claim)) :
    StatusStep R s s' := by
  have hrefl : ∀ a, R a a := fun a => hgraph a a (.inl rfl)
  have hf := frame_exec h
  cases c with
  | policy c => exact .of_same hrefl (hf.sameKind (c.untouched rfl))
  | treasury c => exact .of_same hrefl (hf.sameKind (c.untouched rfl))
  | setting c => exact .of_same hrefl (hf.sameKind rfl)
  | governance c => exact .of_same hrefl (hf.sameKind (c.untouched rfl))
  | claim c =>
    refine statusStep_of_claimCall h hk (fun a b hab => hgraph a b (hab.imp_right And.left)) ?_ ?_
    · intro voter claimId vote claim w outcome hc
      exact hvote voter claimId vote claim w outcome (congrArg Call.claim hc)
    · intro claimId claim hc
      exact hfinal claimId claim (congrArg Call.claim hc)

end Calls

/-! ## The statuses that are in use -/

/-- The two statuses that no call writes. -/
def ClaimStatus.Live (a : ClaimStatus) : Prop := a ≠ .pending ∧ a ≠ .appealed

theorem live_of_mem_next {a b : ClaimStatus} (h : b ∈ a.next) : b.Live := by
  constructor
  · rintro rfl
    cases a <;> simp [ClaimStatus.next] at h
  · rintro rfl
    cases a <;> simp [ClaimStatus.next] at h

/-- No stored claim is `Pending` or `Appealed`. -/
def State.ClaimsLive (s : State) : Prop :=
  ∀ id claim, s.getClaim id = some claim → claim.status.Live

/-- A move along the graph, or one that the base round makes. -/
def Moves (a b : ClaimStatus) : Prop := OnGraph a b ∨ b = .approved ∨ b = .rejected

theorem claimsLive_of_statusStep {s s' : State} (h : StatusStep Moves s s') (hl : s.ClaimsLive) :
    s'.ClaimsLive := by
  intro id claim' hclaim'
  cases hs : s.getClaim id with
  | none =>
    rw [h.filed id claim' hs hclaim']
    exact ⟨by decide, by decide⟩
  | some claim =>
    obtain ⟨c, hc, hmove⟩ := h.moved id claim hs
    rw [hclaim'] at hc
    cases hc
    rcases hmove with (heq | hnext) | heq | heq
    · rw [heq]
      exact hl id claim hs
    · exact live_of_mem_next hnext
    · rw [heq]
      exact ⟨by decide, by decide⟩
    · rw [heq]
      exact ⟨by decide, by decide⟩

theorem live_of_reach {host : Host} {s : State} (h : (contract host).Reach always s) :
    s.ClaimsLive := by
  refine h.invariant_with (J := State.ClaimsKeyed) (I := State.ClaimsLive)
    (fun s hs => claimsKeyed_of_reach hs) ?_ ?_
  · intro s hs id claim hclaim
    have hnone : s.getClaim id = none := State.Fresh.get host hs _
    rw [hnone] at hclaim
    cases hclaim
  · intro s l s' hk _ hstep hl
    cases l with
    | closeLedger n =>
      obtain ⟨-, -, rfl⟩ := hstep
      exact hl
    | tokens b a =>
      obtain ⟨-, rfl⟩ := hstep
      exact hl
    | call env c =>
      refine claimsLive_of_statusStep (statusStep_of_exec hstep.2 hk (fun _ _ => .inl) ?_ ?_) hl
      · intro _ _ _ _ _ _ _ _ _ _ hout
        exact .inr (State.ballotOutcome_eq_some hout)
      · intro claimId claim _ _ _
        exact .inr (s.deadlineOutcome_cases claimId claim)

/-! ## Calls and the graph -/

/-- A base-round call that decides a claim under appeal: a ballot whose tallies meet the
quorum, or a finalisation. -/
def DecidesAppealed (s : State) : Call → Prop
  | .claim (.voteOnClaim _ claimId vote) => ∃ claim, s.getClaim claimId = some claim ∧
    claim.status = .underAppeal ∧ (s.ballotOutcome claimId (claim.tally vote 1)).isSome = true
  | .claim (.finalizeClaim claimId) => ∃ claim, s.getClaim claimId = some claim ∧
    claim.status = .underAppeal
  | _ => False

/-- A live status that is not terminal and not under appeal is `Processing`. -/
theorem eq_processing_of_live {a : ClaimStatus} (hlive : a.Live) (hterm : a.isTerminal = false)
    (hne : a ≠ .underAppeal) : a = .processing := by
  cases a with
  | processing => rfl
  | pending => exact absurd rfl hlive.1
  | appealed => exact absurd rfl hlive.2
  | underAppeal => exact absurd rfl hne
  | _ => cases hterm

theorem onGraph_processing {b : ClaimStatus} (h : b = .approved ∨ b = .rejected) :
    OnGraph .processing b := by
  rcases h with rfl | rfl
  · exact .inr (by decide)
  · exact .inr (by decide)

/-- The base round takes a claim under appeal off the graph. -/
theorem not_onGraph_underAppeal {b : ClaimStatus} (h : b = .approved ∨ b = .rejected) :
    ¬ OnGraph .underAppeal b := by
  rcases h with rfl | rfl <;> simp [OnGraph, ClaimStatus.next]

/-- A claim under appeal that a base round closed is off the graph. -/
theorem not_statusStep_of_closed {s s₁ s' : State} {claimId : Nat} {claim claim₁ : Claim}
    {outcome : ClaimStatus} (hk : s.ClaimsKeyed) (hclaim : s.getClaim claimId = some claim)
    (hst : claim.status = .underAppeal) (hid : claim₁.claimId = claim.claimId)
    (hclosed : Closed s₁ s' claim₁ outcome) (hout : outcome = .approved ∨ outcome = .rejected) :
    ¬ StatusStep OnGraph s s' := by
  intro hgraph
  obtain ⟨x, y, z, hrec⟩ := hclosed.record
  obtain ⟨c, hc, hmove⟩ := hgraph.moved claimId claim hclaim
  have hkey : claimId = claim₁.claimId := by rw [hid, (hk _ _ hclaim).1]
  rw [getClaim_of_write_self hrec hkey] at hc
  cases hc
  rw [hst] at hmove
  exact not_onGraph_underAppeal hout hmove

/-- **A call keeps to the documented graph exactly when it decides no claim under appeal.**
From every reached state, a successful call moves the statuses of the stored claims along
the graph if and only if it is no ballot and no finalisation of the base round that decides
a claim under appeal. -/
theorem statuses_on_graph_iff {host : Host} {env : Env} {s s' : State} {c : Call}
    (hreach : (contract host).Reach always s) (hstep : (contract host).step s (.call env c) s') :
    StatusStep OnGraph s s' ↔ ¬ DecidesAppealed s c := by
  have hk := claimsKeyed_of_reach hreach
  have hlive := live_of_reach hreach
  obtain ⟨-, h⟩ := hstep
  constructor
  · intro hgraph hdec
    cases c with
    | policy c => exact hdec
    | treasury c => exact hdec
    | setting c => exact hdec
    | governance c => exact hdec
    | claim c =>
      have hran := ran_of_exec h
      cases c with
      | voteOnClaim voter claimId vote =>
        obtain ⟨st, hran⟩ := hran
        obtain ⟨claim, hclaim, hst, hsome⟩ := hdec
        obtain ⟨claim', w, hclaim', -, hw, hcase⟩ := voteOnClaim_cases hran
        rw [hclaim] at hclaim'
        cases hclaim'
        rw [votingPowerFor_of_reach hreach] at hw
        cases hw
        rcases hcase with ⟨hnone, -⟩ | ⟨outcome, hout, hclosed⟩
        · rw [hnone] at hsome
          cases hsome
        · exact not_statusStep_of_closed hk hclaim hst (claimId_tally ..) hclosed
            (State.ballotOutcome_eq_some hout) hgraph
      | finalizeClaim claimId =>
        obtain ⟨st, hran⟩ := hran
        obtain ⟨claim, hclaim, hst⟩ := hdec
        obtain ⟨claim', hclaim', -, hclosed⟩ := finalizeClaimInner_cases hran
        rw [hclaim] at hclaim'
        cases hclaim'
        exact not_statusStep_of_closed hk hclaim hst rfl hclosed
          (s.deadlineOutcome_cases claimId claim) hgraph
      | _ => exact hdec
  · intro hnot
    refine statusStep_of_exec h hk (fun _ _ hab => hab) ?_ ?_
    · rintro voter claimId vote claim w outcome rfl hclaim hterm hw hout
      rw [votingPowerFor_of_reach hreach] at hw
      cases hw
      have hst : claim.status = .processing := by
        refine eq_processing_of_live (hlive claimId claim hclaim) hterm fun hst => hnot ?_
        exact ⟨claim, hclaim, hst, by rw [hout]; rfl⟩
      rw [hst]
      exact onGraph_processing (State.ballotOutcome_eq_some hout)
    · rintro claimId claim rfl hclaim hterm
      have hst : claim.status = .processing :=
        eq_processing_of_live (hlive claimId claim hclaim) hterm fun hst =>
          hnot ⟨claim, hclaim, hst⟩
      rw [hst]
      exact onGraph_processing (s.deadlineOutcome_cases claimId claim)

/-- The run before a base-round ballot: the claim of account 1 is filed. -/
def filedTrace : List Label := demoSetup ++ [demoFile 1 1 1000]

/-- A ballot that rejects a claim in `Processing` keeps to the graph. -/
theorem statuses_on_graph_ballot :
    ∃ s s', (contract demoHost).Reach always s ∧
      (contract demoHost).step s (demoCall (.claim (.voteOnClaim 2 1 .reject))) s' ∧
      (s'.getClaim 1).map (·.status) = some .rejected ∧ StatusStep OnGraph s s' := by
  obtain ⟨s, s', hreach, hstep, hval⟩ := exists_of_followCall always_of_noCheck
    (deployed 0) filedTrace (c := .claim (.voteOnClaim 2 1 .reject))
    (f := fun s s' => ((s.getClaim 1).map (·.status), (s'.getClaim 1).map (·.status)))
    (a := (some .processing, some .rejected)) (fresh_deployed (by decide))
    (by simp [filedTrace, demoSetup, demoInit, demoBind, demoFile]) (by decide +kernel)
  simp only [Prod.mk.injEq] at hval
  obtain ⟨hbefore, hafter⟩ := hval
  refine ⟨s, s', hreach, hstep, hafter, (statuses_on_graph_iff hreach hstep).mpr ?_⟩
  rintro ⟨claim, hclaim, hst, -⟩
  rw [hclaim, Option.map_some, hst] at hbefore
  cases hbefore

/-- The run before the move off the graph: account 2 rejects the claim, and account 1 opens an
appeal while the base voting window is still open. -/
def appealedTrace : List Label :=
  filedTrace ++ [demoCall (.claim (.voteOnClaim 2 1 .reject)), demoCall (.claim (.openAppeal 1 1))]

/-- **A ballot of the base round moves a claim from `UnderAppeal` to `Rejected`.** -/
theorem statuses_off_graph :
    ∃ s s', (contract demoHost).Reach always s ∧
      (contract demoHost).step s (demoCall (.claim (.voteOnClaim 3 1 .approve))) s' ∧
      (s.getClaim 1).map (·.status) = some .underAppeal ∧
      (s'.getClaim 1).map (·.status) = some .rejected ∧ ¬ StatusStep OnGraph s s' := by
  obtain ⟨s, s', hreach, hstep, hval⟩ := exists_of_followCall always_of_noCheck
    (deployed 0) appealedTrace (c := .claim (.voteOnClaim 3 1 .approve))
    (f := fun s s' => ((s.getClaim 1).map (·.status), (s'.getClaim 1).map (·.status)))
    (a := (some .underAppeal, some .rejected)) (fresh_deployed (by decide))
    (by simp [appealedTrace, filedTrace, demoSetup, demoInit, demoBind, demoFile])
    (by decide +kernel)
  simp only [Prod.mk.injEq] at hval
  obtain ⟨hbefore, hafter⟩ := hval
  refine ⟨s, s', hreach, hstep, hbefore, hafter, ?_⟩
  intro hgraph
  obtain ⟨claim, hclaim, hst⟩ := Option.map_eq_some_iff.mp hbefore
  obtain ⟨claim', hclaim', hmove⟩ := hgraph.moved 1 claim hclaim
  rw [hclaim', Option.map_some, Option.some.injEq] at hafter
  rw [hst, hafter] at hmove
  exact not_onGraph_underAppeal (.inr rfl) hmove

end NiffyInsure
