import NiffyInsure.Lifecycle

/-!
# What a claim is paid

`State.received` adds up the payout transfers made for a claim, by `process_claim` and by
`disburse_installment` together.  Installments keep to the net amount `amount - deductible`
through the claim's `paid_amount`.  `process_claim` does not look at `paid_amount` and runs
the payout twice, so that whenever it finds the funds a claim gets more than its net amount
or fails after having been paid.

* `fundsExact_of_claimCall`: one step keeps `received = paid_amount ≤ net`, under the
  condition `PaysOnce`.
* `received_within_net_of_reach`: in every run in which no `process_claim` finds the funds for
  the claim, it never receives more than its net amount, and a paid claim received exactly
  that.
-/

namespace NiffyInsure

open Machine

/-- What was paid for a claim so far. -/
def State.received (s : State) (claimId : Nat) : Int :=
  ((s.payouts.filter fun p => p.claimId = claimId).map (·.amount)).sum

/-- What a claim is to be paid. -/
def Claim.net (claim : Claim) : Int := claim.amount - claim.deductible

/-- The claim's own account of its payouts is right and within the net amount. -/
structure Claim.Funds (claim : Claim) (received : Int) : Prop where
  paid : received = claim.paidAmount
  le : claim.paidAmount ≤ claim.net
  full : claim.status = .paid → claim.paidAmount = claim.net

/-- The payouts of the claim `id` are in order. -/
def FundsExact (id : Nat) (s : State) : Prop :=
  (s.getClaim id = none → s.received id = 0) ∧
    ∀ claim, s.getClaim id = some claim → claim.Funds (s.received id)

section Writes

variable {s s' : State} {id claimId : Nat} {claim claim' : Claim}

theorem received_eq_of_payouts (h : s'.payouts = s.payouts) : s'.received id = s.received id := by
  simp only [State.received, h]

theorem received_append_of_ne {ps : List Payout} (hlog : s'.payouts = s.payouts ++ ps)
    (hps : ∀ p ∈ ps, p.claimId = claimId) (hne : claimId ≠ id) :
    s'.received id = s.received id := by
  have hnone : ps.filter (fun p => p.claimId = id) = [] := by
    rw [List.filter_eq_nil_iff]
    intro p hp
    simp [hps p hp, hne]
  simp [State.received, hlog, hnone]

theorem received_append_single {p : Payout} (hlog : s'.payouts = s.payouts ++ [p])
    (hp : p.claimId = id) : s'.received id = s.received id + p.amount := by
  simp [State.received, hlog, hp]

theorem fundsExact_of_same (h : FundsExact id s) (hclaim : SameKind .claim s s')
    (hlog : s'.payouts = s.payouts) : FundsExact id s' := by
  unfold FundsExact
  rw [getClaim_of_same hclaim, received_eq_of_payouts hlog]
  exact h

/-- The terms of a claim and its payouts stay, and it does not become paid. -/
structure Claim.SameFunds (claim claim' : Claim) : Prop where
  claimId : claim'.claimId = claim.claimId
  net : claim'.net = claim.net
  paidAmount : claim'.paidAmount = claim.paidAmount
  status : claim'.status = .paid → claim.status = .paid

/-- A claim is rewritten, and nothing is paid for the claim `id`. -/
theorem fundsExact_of_rewrite (h : FundsExact id s) (hk : s.ClaimsKeyed)
    (hclaim : s.getClaim claimId = some claim) (hwrite : SameKind .claim (s.setClaim claim') s')
    (hid : claim'.claimId = claim.claimId) (hsame : claimId = id → claim.SameFunds claim')
    (hlog : s'.received id = s.received id) : FundsExact id s' := by
  have hkey : claim'.claimId = claimId := by rw [hid, (hk _ _ hclaim).1]
  unfold FundsExact
  rw [getClaim_of_write hwrite, hlog, hkey]
  by_cases heq : id = claimId
  · subst heq
    rw [if_pos rfl]
    refine ⟨fun hnone => absurd hnone (by simp), ?_⟩
    intro c hc
    cases hc
    have hold := h.2 claim hclaim
    have hfunds := hsame rfl
    refine ⟨?_, ?_, ?_⟩
    · rw [hfunds.paidAmount, hold.paid]
    · rw [hfunds.paidAmount, hfunds.net]
      exact hold.le
    · intro hst
      rw [hfunds.paidAmount, hfunds.net]
      exact hold.full (hfunds.status hst)
  · rw [if_neg heq]
    exact h

theorem sameFunds_tally (claim : Claim) (vote : VoteOption) (w : Nat) :
    claim.SameFunds (claim.tally vote w) := by
  cases vote <;> exact ⟨rfl, rfl, rfl, fun h => h⟩

theorem sameFunds_tallyAppeal (claim : Claim) (vote : VoteOption) (w : Nat) :
    claim.SameFunds (claim.tallyAppeal vote w) := by
  cases vote <;> exact ⟨rfl, rfl, rfl, fun h => h⟩

theorem Claim.SameFunds.closed {outcome : ClaimStatus} (h : claim.SameFunds claim')
    (hout : outcome = .approved ∨ outcome = .rejected) (now x y z : Nat) :
    claim.SameFunds (claim'.closed outcome now x y z) where
  claimId := h.claimId
  net := h.net
  paidAmount := h.paidAmount
  status hpaid := by
    rcases hout with rfl | rfl <;> cases hpaid

theorem Claim.SameFunds.appealClosed {outcome : ClaimStatus} (h : claim.SameFunds claim')
    (hout : outcome = .appealApproved ∨ outcome = .appealRejected) (now x y : Nat) :
    claim.SameFunds (claim'.appealClosed outcome now x y) where
  claimId := h.claimId
  net := h.net
  paidAmount := h.paidAmount
  status hpaid := by
    rcases hout with rfl | rfl <;> cases hpaid

theorem sameFunds_moveTo {st : ClaimStatus} (hst : st ≠ .paid) (now : Nat) :
    claim.SameFunds (claim.moveTo st now) where
  claimId := rfl
  net := rfl
  paidAmount := rfl
  status hpaid := absurd hpaid hst

end Writes

/-! ## Steps -/

/-- The condition on a step, for the claim `id`: no `process_claim` on it finds the funds for
its net amount, and it is filed for at least the deductible. -/
def PaysOnce (id : Nat) (s : State) : Label → Prop
  | .call env (.claim (.processClaim claimId)) => claimId = id →
    ∀ claim, s.getClaim id = some claim → ¬ s.CanPay env claim
  | .call _ (.claim (.fileClaim holder policyId amount _ _ _)) => s.getClaimCounter + 1 = id →
    ∀ policy, s.getPolicy holder policyId = some policy → policy.deductible.getD 0 ≤ amount
  | _ => True

section Calls

variable {env : Env} {s s' : State} {id : Nat}

theorem Closed.fundsExact {claimId : Nat} {claim claim' : Claim} {outcome : ClaimStatus}
    (hclosed : Closed s s' claim' outcome) (h : FundsExact id s) (hk : s.ClaimsKeyed)
    (hclaim : s.getClaim claimId = some claim) (hsame : claim.SameFunds claim')
    (hout : outcome = .approved ∨ outcome = .rejected) (hlog : s'.payouts = s.payouts) :
    FundsExact id s' := by
  obtain ⟨x, y, z, hrec⟩ := hclosed.record
  exact fundsExact_of_rewrite h hk hclaim hrec hsame.claimId
    (fun _ => hsame.closed hout s.sequence x y z) (received_eq_of_payouts hlog)

theorem fundsExact_of_finalizeClaimInner {claimId : Nat} {st : ClaimStatus} (h : FundsExact id s)
    (hk : s.ClaimsKeyed) (hfin : finalizeClaimInner s claimId = .ok (st, s')) :
    FundsExact id s' := by
  obtain ⟨claim, hclaim, -, hclosed⟩ := finalizeClaimInner_cases hfin
  exact hclosed.fundsExact h hk hclaim ⟨rfl, rfl, rfl, fun hst => hst⟩
    (s.deadlineOutcome_cases claimId claim) ((frame_finalizeClaimInner hfin).payouts rfl)

theorem fundsExact_of_voteOnClaim {voter : Address} {claimId : Nat} {vote : VoteOption}
    {st : ClaimStatus} (h : FundsExact id s) (hk : s.ClaimsKeyed)
    (hvote : voteOnClaim s voter claimId vote = .ok (st, s')) : FundsExact id s' := by
  have hlog := (frame_voteOnClaim hvote).payouts rfl
  obtain ⟨claim, w, hclaim, -, -, ⟨-, rfl⟩ | ⟨outcome, hout, hclosed⟩⟩ := voteOnClaim_cases hvote
  · exact fundsExact_of_rewrite h hk hclaim (SameKind.set (by simp) _ _) (claimId_tally ..)
      (fun _ => sameFunds_tally claim vote w) (received_eq_of_payouts hlog)
  · have h₁ : FundsExact id (s.setVote claimId voter vote) := fundsExact_of_same h (by simp) rfl
    have hk₁ : (s.setVote claimId voter vote).ClaimsKeyed :=
      claimsKeyed_of_rewrites (.inl (by simp)) (by simp) hk
    exact hclosed.fundsExact h₁ hk₁ (by rwa [getClaim_setVote]) (sameFunds_tally claim vote w)
      (State.ballotOutcome_eq_some hout) hlog

theorem AppealStep.fundsExact {claimId : Nat} {claim claim' : Claim}
    (happeal : AppealStep s s' claim') (h : FundsExact id s) (hk : s.ClaimsKeyed)
    (hclaim : s.getClaim claimId = some claim) (hsame : claim.SameFunds claim')
    (hlog : s'.payouts = s.payouts) : FundsExact id s' := by
  have hrec : s'.received id = s.received id := received_eq_of_payouts hlog
  cases happeal with
  | voting hwrite _ =>
    exact fundsExact_of_rewrite h hk hclaim hwrite hsame.claimId (fun _ => hsame) hrec
  | decided outcome x y hout hwrite _ =>
    exact fundsExact_of_rewrite h hk hclaim hwrite hsame.claimId
      (fun _ => hsame.appealClosed hout s.sequence x y) hrec

/-- A claim that is filed for at least the deductible starts with nothing paid. -/
theorem fundsExact_of_file {claim : Claim} (h : FundsExact id s) (hk : s.ClaimsKeyed)
    (hid : claim.claimId = s.getClaimCounter + 1) (hst : claim.status = .processing)
    (hpaid : claim.paidAmount = 0) (hnet : claim.claimId = id → 0 ≤ claim.net)
    (hwrite : SameKind .claim (s.setClaim claim) s') (hlog : s'.payouts = s.payouts) :
    FundsExact id s' := by
  unfold FundsExact
  rw [getClaim_of_write hwrite, received_eq_of_payouts hlog]
  by_cases heq : id = claim.claimId
  · rw [if_pos heq]
    have hnone : s.getClaim id = none := hk.unfiled (by omega)
    refine ⟨fun hno => absurd hno (by simp), ?_⟩
    intro c hc
    cases hc
    refine ⟨?_, ?_, fun hp => absurd (hst.symm.trans hp) (by decide)⟩
    · rw [h.1 hnone, hpaid]
    · rw [hpaid]
      exact hnet heq.symm
  · rw [if_neg heq]
    exact h

theorem fundsExact_of_installment {claimId : Nat} {claim : Claim} {amount : Int} {p : Payout}
    (h : FundsExact id s) (hk : s.ClaimsKeyed) (hclaim : s.getClaim claimId = some claim)
    (hle : amount ≤ claim.amount - claim.deductible - claim.paidAmount) (hp : p.claimId = claimId)
    (hamount : p.amount = amount) (hlog : s'.payouts = s.payouts ++ [p]) (now : Nat)
    (hwrite : (claim.Completes amount ∧ SameKind .claim
        (s.setClaim ((claim.paidInstallment amount).moveTo .paid now)) s') ∨
      (claim.status = .approved ∧ SameKind .claim (s.setClaim (claim.paidInstallment amount)) s')) :
    FundsExact id s' := by
  have hkey := (hk _ _ hclaim).1
  by_cases heq : claimId = id
  · subst heq
    have hold := h.2 claim hclaim
    have hrec := received_append_single hlog hp
    have hpaid : s'.received claimId = claim.paidAmount + amount := by
      rw [hrec, hold.paid, hamount]
    unfold FundsExact
    rw [hpaid]
    rcases hwrite with ⟨hcomp, hwrite⟩ | ⟨hst, hwrite⟩
    · rw [getClaim_of_write_self hwrite hkey.symm]
      refine ⟨fun hno => absurd hno (by simp), ?_⟩
      intro c hc
      cases hc
      unfold Claim.Completes at hcomp
      have hfull : claim.paidAmount + amount = claim.amount - claim.deductible := by omega
      exact ⟨rfl, le_of_eq hfull, fun _ => hfull⟩
    · rw [getClaim_of_write_self hwrite hkey.symm]
      refine ⟨fun hno => absurd hno (by simp), ?_⟩
      intro c hc
      cases hc
      refine ⟨rfl, ?_, fun hpaid => absurd (hst.symm.trans hpaid) (by decide)⟩
      change claim.paidAmount + amount ≤ claim.amount - claim.deductible
      omega
  · have hrec : s'.received id = s.received id :=
      received_append_of_ne hlog (by simpa using hp) heq
    rcases hwrite with ⟨-, hwrite⟩ | ⟨-, hwrite⟩
    · exact fundsExact_of_rewrite h hk hclaim hwrite rfl (fun he => absurd he heq) hrec
    · exact fundsExact_of_rewrite h hk hclaim hwrite rfl (fun he => absurd he heq) hrec

/-- A `process_claim` on another claim, or one without the funds. -/
theorem fundsExact_of_processClaim {claimId : Nat} (h : FundsExact id s) (hk : s.ClaimsKeyed)
    (hok : claimId = id → ∀ claim, s.getClaim id = some claim → ¬ s.CanPay env claim)
    (hproc : processClaim env s claimId = .ok s') : FundsExact id s' := by
  obtain ⟨claim, failed, hclaim, -, -, -, hrec, -, ⟨ps, hps, hlog⟩, hfail⟩ :=
    processClaim_eq_ok hproc
  have hid : (claim.processed s.sequence failed).claimId = claim.claimId := by
    cases failed <;> rfl
  by_cases heq : claimId = id
  · subst heq
    obtain ⟨rfl, hsame⟩ := hfail (hok rfl claim hclaim)
    refine fundsExact_of_rewrite h hk hclaim hrec hid (fun _ => ?_) (received_eq_of_payouts hsame)
    exact ⟨rfl, rfl, rfl, fun hst => by cases hst⟩
  · have hne : claim.claimId ≠ id := by rwa [(hk _ _ hclaim).1]
    exact fundsExact_of_rewrite h hk hclaim hrec hid (fun he => absurd he heq)
      (received_append_of_ne hlog hps hne)

theorem fundsExact_of_claimCall {c : ClaimCall} (hexec : c.exec env s = .ok s')
    (hok : PaysOnce id s (.call env (.claim c))) (hk : s.ClaimsKeyed) (h : FundsExact id s) :
    FundsExact id s' := by
  have hran := ran_of_exec hexec
  have hf := frame_claimCall hexec
  cases c with
  | fileClaim holder policyId amount =>
    obtain ⟨claimId, hran⟩ := hran
    obtain ⟨policy, voters, deadline, hpolicy, -, -, hid, -, -, hrec, -⟩ := fileClaim_eq_ok hran
    refine fundsExact_of_file h hk hid rfl rfl ?_ hrec (hf.payouts rfl)
    intro heq
    have hded : policy.deductible.getD 0 ≤ amount :=
      hok (hid.symm.trans heq) policy hpolicy
    change 0 ≤ amount - policy.deductible.getD 0
    omega
  | withdrawClaim =>
    obtain ⟨claim, hclaim, -, -, -, hrec, -⟩ := withdrawClaim_eq_ok hran
    exact fundsExact_of_rewrite h hk hclaim hrec rfl (fun _ => sameFunds_moveTo (by decide) _)
      (received_eq_of_payouts (hf.payouts rfl))
  | addClaimEvidence =>
    obtain ⟨claim, hclaim, -, hrec⟩ := addClaimEvidence_eq_ok hran
    exact fundsExact_of_rewrite h hk hclaim hrec rfl (fun _ => ⟨rfl, rfl, rfl, fun hst => hst⟩)
      (received_eq_of_payouts (hf.payouts rfl))
  | voteOnClaim =>
    obtain ⟨st, hran⟩ := hran
    exact fundsExact_of_voteOnClaim h hk hran
  | finalizeClaim =>
    obtain ⟨st, hran⟩ := hran
    exact fundsExact_of_finalizeClaimInner h hk hran
  | processDeadline =>
    obtain ⟨-, st, hran⟩ := hran
    exact fundsExact_of_finalizeClaimInner h hk hran
  | finalizeExpiredBatch =>
    obtain ⟨n, m, t, hloop, rfl⟩ := hran
    have hboth := finalizeBatchLoop_keeps (I := fun t => t.ClaimsKeyed ∧ FundsExact id t) ?_ _ s 0 0
      hloop ⟨hk, h⟩
    · exact fundsExact_of_same hboth.2 (by simp) rfl
    · rintro t t' claimId st - hfin ⟨hkt, ht⟩
      exact ⟨claimsKeyed_of_rewrites (rewrites_of_finalizeClaimInner hfin)
        ((frame_finalizeClaimInner hfin).sameKind rfl) hkt,
        fundsExact_of_finalizeClaimInner ht hkt hfin⟩
  | escalateClaim =>
    obtain ⟨claim, hclaim, -, hrec⟩ := escalateClaim_eq_ok hran
    exact fundsExact_of_rewrite h hk hclaim hrec rfl (fun _ => ⟨rfl, rfl, rfl, fun hst => hst⟩)
      (received_eq_of_payouts (hf.payouts rfl))
  | processClaim => exact fundsExact_of_processClaim h hk hok hran
  | processPayoutTimeout =>
    obtain ⟨st, hran⟩ := hran
    obtain ⟨claim, hclaim, -, hrec, -⟩ := processPayoutTimeout_eq_ok hran
    exact fundsExact_of_rewrite h hk hclaim hrec rfl (fun _ => sameFunds_moveTo (by decide) _)
      (received_eq_of_payouts (hf.payouts rfl))
  | disputeClaim =>
    obtain ⟨claim, hclaim, -, hrec⟩ := disputeClaim_eq_ok hran
    exact fundsExact_of_rewrite h hk hclaim hrec rfl (fun _ => sameFunds_moveTo (by decide) _)
      (received_eq_of_payouts (hf.payouts rfl))
  | disburseInstallment claimId amount =>
    obtain ⟨claim, p, hclaim, hst, -, hle, hp, hamount, hlog, hlast, hmore⟩ :=
      disburseInstallment_eq_ok hran
    refine fundsExact_of_installment h hk hclaim hle hp hamount hlog s.sequence ?_
    by_cases hcomp : claim.Completes amount
    · exact .inl ⟨hcomp, (hlast hcomp).1⟩
    · exact .inr ⟨hst, (hmore hcomp).1⟩
  | openAppeal =>
    obtain ⟨claim, deadline, hclaim, -, hrec, -⟩ := openAppeal_eq_ok hran
    exact fundsExact_of_rewrite h hk hclaim hrec rfl
      (fun _ => ⟨rfl, rfl, rfl, fun hst => by cases hst⟩) (received_eq_of_payouts (hf.payouts rfl))
  | voteOnAppeal =>
    obtain ⟨st, hran⟩ := hran
    obtain ⟨claim, hclaim, -, happeal⟩ := voteOnAppeal_eq_ok hran
    exact happeal.fundsExact h hk hclaim (sameFunds_tallyAppeal ..) (hf.payouts rfl)
  | finalizeAppeal =>
    obtain ⟨st, hran⟩ := hran
    obtain ⟨claim, hclaim, -, happeal⟩ := finalizeAppeal_eq_ok hran
    exact happeal.fundsExact h hk hclaim ⟨rfl, rfl, rfl, fun hst => hst⟩ (hf.payouts rfl)
  | revealVote =>
    obtain ⟨claim, hclaim, -, hrec, -⟩ := revealVote_eq_ok hran
    exact fundsExact_of_rewrite h hk hclaim hrec (claimId_tally ..) (fun _ => sameFunds_tally ..)
      (received_eq_of_payouts (hf.payouts rfl))
  | refreshSnapshot | setClaimFraudScore | setCommitRevealPhases | commitVote | delegateVote =>
    exact fundsExact_of_same h (hf.sameKind rfl) (hf.payouts rfl)

end Calls

/-! ## Runs -/

theorem fundsExact_of_step {host : Host} {id : Nat} (s : State) (l : Label) (s' : State)
    (hk : s.ClaimsKeyed) (hok : PaysOnce id s l) (hstep : (contract host).step s l s')
    (h : FundsExact id s) : FundsExact id s' := by
  cases l with
  | closeLedger n =>
    obtain ⟨-, -, rfl⟩ := hstep
    exact h
  | tokens b a =>
    obtain ⟨-, rfl⟩ := hstep
    exact h
  | call env c =>
    have hf := frame_exec hstep.2
    cases c with
    | policy c =>
      exact fundsExact_of_same h (hf.sameKind (c.untouched rfl)) (hf.payouts (c.untouched rfl))
    | treasury c =>
      exact fundsExact_of_same h (hf.sameKind (c.untouched rfl)) (hf.payouts (c.untouched rfl))
    | setting c => exact fundsExact_of_same h (hf.sameKind rfl) (hf.payouts rfl)
    | governance c =>
      exact fundsExact_of_same h (hf.sameKind (c.untouched rfl)) (hf.payouts (c.untouched rfl))
    | claim c => exact fundsExact_of_claimCall hstep.2 hok hk h

/-- **A claim is paid its net amount and no more.**  In every run in which the claim is filed
for at least the deductible and no `process_claim` on it finds the funds, the payouts for the
claim add up to at most its net amount, and to exactly that once it is `Paid`. -/
theorem received_within_net_of_reach {host : Host} {s : State} {id : Nat}
    (h : (contract host).Reach (PaysOnce id) s) {claim : Claim}
    (hclaim : s.getClaim id = some claim) :
    s.received id ≤ claim.amount - claim.deductible ∧
      (claim.status = .paid → s.received id = claim.amount - claim.deductible) := by
  have hfunds : FundsExact id s := by
    refine h.invariant_with (J := State.ClaimsKeyed) (I := FundsExact id)
      (fun s hs => claimsKeyed_of_reach hs.to_always) ?_ fundsExact_of_step
    intro s hs
    have hlog : s.payouts = [] := (State.Fresh.payouts (show s.Fresh host from hs))
    have hnone : s.getClaim id = none := State.Fresh.get host hs _
    refine ⟨fun _ => by simp [State.received, hlog], fun c hc => ?_⟩
    rw [hnone] at hc
    cases hc
  have hcl := hfunds.2 claim hclaim
  rw [hcl.paid]
  exact ⟨hcl.le, hcl.full⟩

/-- A check for `PaysOnce`: no `process_claim`, and filings for at least the deductible. -/
def paysInstallments (s : State) : Label → Bool
  | .call _ (.claim (.processClaim _)) => false
  | .call _ (.claim (.fileClaim holder policyId amount _ _ _)) =>
    (s.getPolicy holder policyId).all fun policy => decide (policy.deductible.getD 0 ≤ amount)
  | _ => true

theorem paysOnce_of_paysInstallments (id : Nat) (s : State) (l : Label)
    (h : paysInstallments s l = true) : PaysOnce id s l := by
  unfold paysInstallments at h
  unfold PaysOnce
  split
  · cases h
  · intro _ policy hpolicy
    simpa [hpolicy] using h
  · trivial

/-- The run in which the claim of account 1 is approved by account 2. -/
def approvedTrace : List Label := filedTrace ++ [demoCall (.claim (.voteOnClaim 2 1 .approve))]

/-- The approved claim is paid in two installments. -/
def installmentTrace : List Label :=
  approvedTrace ++ [demoCall (.claim (.disburseInstallment 1 400)),
    demoCall (.claim (.disburseInstallment 1 600))]

/-- A run that meets the condition: two installments pay the claim in full. -/
theorem received_within_net_installments :
    ∃ s claim, (contract demoHost).Reach (PaysOnce 1) s ∧ s.getClaim 1 = some claim ∧
      claim.status = .paid ∧ claim.amount = 1000 ∧ claim.deductible = 0 ∧
      s.received 1 = claim.amount - claim.deductible := by
  obtain ⟨s, hreach, hval⟩ := exists_of_follow (paysOnce_of_paysInstallments 1)
    (deployed 5000) installmentTrace
    (f := fun s => (s.getClaim 1).map fun c => (c.status, c.amount, c.deductible))
    (a := some (.paid, 1000, 0)) (fresh_deployed (by decide))
    (by simp [installmentTrace, approvedTrace, filedTrace, demoSetup, demoInit, demoBind, demoFile])
    (by decide +kernel)
  simp only [Option.map_eq_some_iff, Prod.mk.injEq] at hval
  obtain ⟨claim, hclaim, hst, hamount, hded⟩ := hval
  exact ⟨s, claim, hreach, hclaim, hst, hamount, hded,
    (received_within_net_of_reach hreach hclaim).2 hst⟩

/-- **`process_claim` pays a claim twice.** -/
theorem received_twice_net :
    ∃ s claim, (contract demoHost).Reach always s ∧ s.getClaim 1 = some claim ∧
      claim.status = .paid ∧ claim.amount - claim.deductible = 1000 ∧ s.received 1 = 2000 := by
  obtain ⟨s, hreach, hval⟩ := exists_of_follow always_of_noCheck
    (deployed 5000) (approvedTrace ++ [demoCall (.claim (.processClaim 1))])
    (f := fun s => ((s.getClaim 1).map fun c => (c.status, c.amount - c.deductible), s.received 1))
    (a := (some (.paid, 1000), 2000)) (fresh_deployed (by decide))
    (by simp [approvedTrace, filedTrace, demoSetup, demoInit, demoBind, demoFile])
    (by decide +kernel)
  simp only [Option.map_eq_some_iff, Prod.mk.injEq] at hval
  obtain ⟨⟨claim, hclaim, hst, hnet⟩, hreceived⟩ := hval
  exact ⟨s, claim, hreach, hclaim, hst, hnet, hreceived⟩

end NiffyInsure
