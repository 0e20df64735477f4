import NiffyInsure.ClaimEdit
import NiffyInsure.Lifecycle
import NiffyInsure.Trace

/-!
# The dispute window

A claim is approved by a ballot, by a finalisation after the deadline, or by its appeal.  The last
two set a dispute deadline, and a ballot does not.  `Granted` are the statuses from the approval
on, and `Claim.Window` says what a call does to the window of a claim: it waits for an approval, it
is opened by one, or it is kept.

* `decide_deadlines`, `finalizeAppealOutcome_deadlines`: the deadlines of a decided claim.
* `claimsWindowed_of_claimCall`: what a claim call does to the windows, and for whom it pays.
* `dispute_window_of_reach`: without approvals by ballot, nothing is paid for a claim within the
  window of its approval, and an approved claim can be disputed there.
-/

namespace NiffyInsure

open Machine

/-! ## Statuses -/

/-- The statuses that approve a claim. -/
def ClaimStatus.Approves (a : ClaimStatus) : Prop := a = .approved ∨ a = .appealApproved

instance (a : ClaimStatus) : Decidable a.Approves := inferInstanceAs (Decidable (_ ∨ _))

/-- The statuses from the approval on. -/
def ClaimStatus.granted : ClaimStatus → Bool
  | .approved | .appealApproved | .paid | .payoutTimeout | .disputed | .payoutFailed => true
  | _ => false

/-- What a call at ledger `now` does to the window of a claim. -/
inductive Claim.Window (now : Nat) (c c' : Claim) : Prop
  | waits (hc : c.status.granted = false) (hc' : c'.status.granted = false)
      (hpayout : c'.payoutDeadlineLedger = c.payoutDeadlineLedger)
  | opens (hc : c.status.granted = false) (hc' : c'.status.Approves)
      (hdispute : c.payoutDeadlineLedger = 0 →
        c'.disputeDeadlineLedger = now + DEFAULT_DISPUTE_WINDOW_LEDGERS)
  | keeps (hc : c.status.granted = true) (hc' : c'.status.granted = true)
      (hst : c'.status = c.status ∨ ¬ c'.status.Approves)
      (hdispute : c'.disputeDeadlineLedger = c.disputeDeadlineLedger)

namespace Claim.Window

variable {now : Nat} {c c' c'' : Claim}

theorem same (hst : c'.status = c.status)
    (hpayout : c'.payoutDeadlineLedger = c.payoutDeadlineLedger)
    (hdispute : c'.disputeDeadlineLedger = c.disputeDeadlineLedger) : c.Window now c' := by
  cases hc : c.status.granted with
  | false => exact .waits hc (by rw [hst, hc]) hpayout
  | true => exact .keeps hc (by rw [hst, hc]) (.inl hst) hdispute

theorem refl (now : Nat) (c : Claim) : c.Window now c := same rfl rfl rfl

/-- A granted claim gets a status that does not approve it. -/
theorem ended (hc : c.status.granted = true) (hc' : c'.status.granted = true)
    (hst : ¬ c'.status.Approves) (hdispute : c'.disputeDeadlineLedger = c.disputeDeadlineLedger) :
    c.Window now c' :=
  .keeps hc hc' (.inr hst) hdispute

theorem of_tally (hst : c'.status = c.status)
    (hpayout : c'.payoutDeadlineLedger = c.payoutDeadlineLedger)
    (hdispute : c'.disputeDeadlineLedger = c.disputeDeadlineLedger) (h : c'.Window now c'') :
    c.Window now c'' := by
  cases h with
  | waits hc hc' hp => exact .waits (hst ▸ hc) hc' (hp.trans hpayout)
  | opens hc hc' hd => exact .opens (hst ▸ hc) hc' fun hzero => hd (hpayout.trans hzero)
  | keeps hc hc' hor hd =>
    exact .keeps (hst ▸ hc) hc' (hor.imp_left fun h => h.trans hst) (hd.trans hdispute)

end Claim.Window

/-! ## Decisions -/

section Decisions

variable {s s' : State} {now : Nat} {claim claim' : Claim} {outcome : ClaimStatus}

theorem decide_deadlines {b : Bool} (h : claim.decide outcome now b = .ok claim') :
    claim'.status = outcome ∧
      (outcome ≠ .approved → claim'.payoutDeadlineLedger = claim.payoutDeadlineLedger) ∧
      (outcome = .approved → claim.payoutDeadlineLedger = 0 → b = true →
        claim'.disputeDeadlineLedger = now + DEFAULT_DISPUTE_WINDOW_LEDGERS) := by
  obtain ⟨appealOpen, -, payoutDeadline, hpayout, dispute, hdispute, rfl⟩ := decide_cases h
  refine ⟨rfl, fun hout => ?_, fun hout hnone hb => ?_⟩
  · rw [if_neg fun hfirst => hout hfirst.1] at hpayout
    exact hpayout
  · rw [if_pos ⟨⟨hout, hnone⟩, hb⟩] at hdispute
    exact (checkedAdd32_eq_some.mp hdispute).2

theorem finalizeAppealOutcome_deadlines
    (h : finalizeAppealOutcome s claim outcome = .ok (claim', s')) :
    claim'.status = outcome ∧
      (outcome ≠ .appealApproved → claim'.payoutDeadlineLedger = claim.payoutDeadlineLedger) ∧
      (outcome = .appealApproved → claim.payoutDeadlineLedger = 0 →
        claim'.disputeDeadlineLedger = s.sequence + DEFAULT_DISPUTE_WINDOW_LEDGERS) := by
  obtain ⟨payoutDeadline, hpayout, dispute, hdispute, rfl, -⟩ := finalizeAppealOutcome_cases h
  refine ⟨rfl, fun hout => ?_, fun hout hnone => ?_⟩
  · rw [if_neg fun hfirst => hout hfirst.1] at hpayout
    exact hpayout
  · rw [if_pos ⟨hout, hnone⟩] at hdispute
    exact (checkedAdd32_eq_some.mp hdispute).2

end Decisions

/-! ## Calls -/

/-- What a call does to the windows of the stored claims, and for which claims it pays. -/
structure ClaimsWindowed (s s' : State) : Prop where
  moved : ∀ id c, s.getClaim id = some c →
    ∃ c', s'.getClaim id = some c' ∧ c.Window s.sequence c'
  unfiled : ∀ id, s.getClaim id = none → s'.getClaim id = none
  paid : ∃ ps, s'.payouts = s.payouts ++ ps ∧ ∀ p ∈ ps, ∃ c, s.getClaim p.claimId = some c ∧
    c.status.granted = true ∧ c.disputeDeadlineLedger < s.sequence

section Calls

variable {env : Env} {s s' : State} {claimId : Nat}

theorem ClaimsWindowed.of_same (h : SameKind .claim s s') (hpay : s'.payouts = s.payouts) :
    ClaimsWindowed s s' where
  moved id c hc := ⟨c, by rw [getClaim_of_same h, hc], .refl _ c⟩
  unfiled id hnone := by rw [getClaim_of_same h, hnone]
  paid := ⟨[], by rw [hpay, List.append_nil], fun _ hp => absurd hp List.not_mem_nil⟩

/-- One record is written, and what is paid is paid for it. -/
theorem ClaimsWindowed.of_write (hk : s.ClaimsKeyed) {c c' : Claim} {ps : List Payout}
    (hc : s.getClaim claimId = some c) (hwrite : SameKind .claim (s.setClaim c') s')
    (hid : c'.claimId = c.claimId) (hwindow : c.Window s.sequence c')
    (hpay : s'.payouts = s.payouts ++ ps)
    (hps : ∀ p ∈ ps, p.claimId = claimId ∧ c.status.granted = true ∧
      c.disputeDeadlineLedger < s.sequence) : ClaimsWindowed s s' := by
  have hkey : c'.claimId = claimId := hid.trans (hk claimId c hc).1
  refine ⟨?_, ?_, ps, hpay, ?_⟩
  · intro id d hd
    rw [getClaim_of_write hwrite, hkey]
    split
    · rename_i heq
      subst heq
      rw [hc] at hd
      cases hd
      exact ⟨c', rfl, hwindow⟩
    · exact ⟨d, hd, .refl _ d⟩
  · intro id hnone
    rw [getClaim_of_write hwrite, hkey, if_neg ?_]
    · exact hnone
    · rintro rfl
      rw [hc] at hnone
      cases hnone
  · intro p hp
    obtain ⟨hpid, hgranted, hlt⟩ := hps p hp
    exact ⟨c, by rw [hpid, hc], hgranted, hlt⟩

theorem ClaimsWindowed.unpaid (hk : s.ClaimsKeyed) {c c' : Claim}
    (hc : s.getClaim claimId = some c) (hwrite : SameKind .claim (s.setClaim c') s')
    (hid : c'.claimId = c.claimId) (hwindow : c.Window s.sequence c')
    (hpay : s'.payouts = s.payouts) : ClaimsWindowed s s' := by
  have hnone : s'.payouts = s.payouts ++ [] := by rw [hpay, List.append_nil]
  exact .of_write hk hc hwrite hid hwindow hnone fun _ hp => absurd hp List.not_mem_nil

/-- The base round closes a claim without approving it, or with a dispute window. -/
theorem window_of_decide {now : Nat} {c c' : Claim} {outcome : ClaimStatus} {b : Bool}
    (hterm : c.status.isTerminal = false) (hout : outcome = .approved ∨ outcome = .rejected)
    (hb : outcome = .approved → b = true) (h : c.decide outcome now b = .ok c') :
    c.Window now c' := by
  obtain ⟨hst, hkeep, hopen⟩ := decide_deadlines h
  have hwait : c.status.granted = false := by
    cases hc : c.status <;> rw [hc] at hterm <;> first | rfl | cases hterm
  rcases hout with rfl | rfl
  · exact .opens hwait (.inl hst) fun hzero => hopen rfl hzero (hb rfl)
  · exact .waits hwait (by rw [hst]; rfl) (hkeep (by decide))

theorem claimsWindowed_of_finalizeClaimInner {st : ClaimStatus} (hk : s.ClaimsKeyed)
    (h : finalizeClaimInner s claimId = .ok (st, s')) : ClaimsWindowed s s' := by
  have hf := frame_finalizeClaimInner h
  obtain ⟨c, c', hc, hterm, -, -, -, hdec, hclose⟩ := finalizeClaimInner_eq_ok h
  have hwin := window_of_decide hterm (s.deadlineOutcome_cases claimId c) (fun _ => rfl) hdec
  obtain ⟨x, y, z, rfl⟩ := decide_eq_ok hdec
  exact .unpaid hk hc (closeRound_eq_ok hclose).1 rfl hwin (hf.payouts rfl)

theorem claimsWindowed_of_voteOnClaim {voter : Address} {vote : VoteOption} {st : ClaimStatus}
    (hk : s.ClaimsKeyed) (hw : s.votingPowerFor claimId voter 1 = .ok 1)
    (hlate : ∀ c, s.getClaim claimId = some c →
      s.ballotOutcome claimId (c.tally vote 1) ≠ some .approved)
    (h : voteOnClaim s voter claimId vote = .ok (st, s')) (hpay : s'.payouts = s.payouts) :
    ClaimsWindowed s s' := by
  obtain ⟨c, w, hc, hcheck, hw', hcase⟩ := voteOnClaim_eq_ok h
  rw [hw] at hw'
  cases hw'
  have hst := status_tally c vote 1
  have hp : (c.tally vote 1).payoutDeadlineLedger = c.payoutDeadlineLedger := by cases vote <;> rfl
  have hd : (c.tally vote 1).disputeDeadlineLedger = c.disputeDeadlineLedger := by
    cases vote <;> rfl
  rcases hcase with ⟨-, -, rfl⟩ | ⟨outcome, c', hout, -, hdec, hclose⟩
  · exact .unpaid hk hc (SameKind.set (by simp) _ _) (claimId_tally c vote 1) (.same hst hp hd) hpay
  · have hterm : (c.tally vote 1).status.isTerminal = false := by
      rw [hst]
      exact (checkBallot_eq_ok.mp hcheck).1
    have hwin := window_of_decide hterm (State.ballotOutcome_eq_some hout)
      (fun happ => absurd (happ ▸ hout) (hlate c hc)) hdec
    obtain ⟨x, y, z, rfl⟩ := decide_eq_ok hdec
    refine .unpaid hk hc (SameKind.trans (SameKind.set ?_ _ _) (closeRound_eq_ok hclose).1)
      (claimId_tally c vote 1) (.of_tally hst hp hd hwin) hpay
    simp

theorem window_of_finalizeAppealOutcome {c c' : Claim} {outcome : ClaimStatus}
    (hst : c.status = .underAppeal) (hout : outcome = .appealApproved ∨ outcome = .appealRejected)
    (h : finalizeAppealOutcome s c outcome = .ok (c', s')) : c.Window s.sequence c' := by
  obtain ⟨hst', hkeep, hopen⟩ := finalizeAppealOutcome_deadlines h
  have hwait : c.status.granted = false := by rw [hst]; rfl
  rcases hout with rfl | rfl
  · exact .opens hwait (.inr hst') fun hzero => hopen rfl hzero
  · exact .waits hwait (by rw [hst']; rfl) (hkeep (by decide))

theorem claimsWindowed_of_voteOnAppeal {voter : Address} {vote : VoteOption} {st : ClaimStatus}
    (hk : s.ClaimsKeyed) (h : voteOnAppeal s voter claimId vote = .ok (st, s'))
    (hpay : s'.payouts = s.payouts) : ClaimsWindowed s s' := by
  obtain ⟨c, hc, hst, -, hcase⟩ := voteOnAppeal_cases h
  have hst' := status_tallyAppeal c vote 1
  have hp : (c.tallyAppeal vote 1).payoutDeadlineLedger = c.payoutDeadlineLedger := by
    cases vote <;> rfl
  have hd : (c.tallyAppeal vote 1).disputeDeadlineLedger = c.disputeDeadlineLedger := by
    cases vote <;> rfl
  rcases hcase with ⟨-, rfl⟩ | ⟨outcome, c', s₂, hout, h₂, rfl⟩
  · exact .unpaid hk hc (SameKind.set (by simp) _ _) (claimId_tallyAppeal c vote 1)
      (.same hst' hp hd) hpay
  · have hf := frame_finalizeAppealOutcome h₂
    have hwin := window_of_finalizeAppealOutcome (hst'.trans hst)
      (State.appealBallotOutcome_eq_some hout) h₂
    obtain ⟨⟨x, y, rfl⟩, -⟩ := finalizeAppealOutcome_eq_ok h₂
    refine .unpaid hk hc (SameKind.set (SameKind.trans ?_ (hf.sameKind rfl)) _ _)
      (claimId_tallyAppeal c vote 1) (.of_tally hst' hp hd hwin) hpay
    simp

theorem claimsWindowed_of_finalizeAppeal {st : ClaimStatus} (hk : s.ClaimsKeyed)
    (h : finalizeAppeal s claimId = .ok (st, s')) (hpay : s'.payouts = s.payouts) :
    ClaimsWindowed s s' := by
  obtain ⟨c, c', s₁, hc, hst, h₁, rfl, -⟩ := finalizeAppeal_cases h
  have hf := frame_finalizeAppealOutcome h₁
  have hwin := window_of_finalizeAppealOutcome hst (ite_eq_or_eq _ _ _) h₁
  obtain ⟨⟨x, y, rfl⟩, -⟩ := finalizeAppealOutcome_eq_ok h₁
  exact .unpaid hk hc (SameKind.set (hf.sameKind rfl) _ _) rfl hwin hpay

theorem claimsWindowed_of_processClaim (hk : s.ClaimsKeyed)
    (h : processClaim env s claimId = .ok s') : ClaimsWindowed s s' := by
  obtain ⟨c, failed, hc, hst, hlt, -, hrec, -, ⟨ps, hps, hpay⟩, -⟩ := processClaim_eq_ok h
  have hgranted : c.status.granted = true := by
    rcases hst with hst | hst <;> rw [hst] <;> rfl
  have hid : (c.processed s.sequence failed).claimId = c.claimId := by cases failed <;> rfl
  refine .of_write hk hc hrec hid ?_ hpay fun p hp => ?_
  · cases failed with
    | false => exact .ended hgranted rfl (by rintro (h | h) <;> cases h) rfl
    | true => exact .ended hgranted rfl (by rintro (h | h) <;> cases h) rfl
  · exact ⟨(hps p hp).trans (hk claimId c hc).1, hgranted, hlt⟩

theorem disputeDeadline_of_disburseInstallment {amount : Int} {c : Claim}
    (h : disburseInstallment env s claimId amount = .ok s') (hc : s.getClaim claimId = some c) :
    c.disputeDeadlineLedger < s.sequence := by
  simp only [disburseInstallment, bind_eq_ok, okOr_eq_ok, ensure_eq_ok] at h
  obtain ⟨-, -, d, hd, -, -, -, -, u, hlt, -⟩ := h
  rw [hc] at hd
  cases hd
  exact hlt

theorem claimsWindowed_of_disburseInstallment {amount : Int} (hk : s.ClaimsKeyed)
    (h : disburseInstallment env s claimId amount = .ok s') : ClaimsWindowed s s' := by
  obtain ⟨c, p, hc, hst, -, -, hpid, -, hpay, hdone, hmore⟩ := disburseInstallment_eq_ok h
  have hlt := disputeDeadline_of_disburseInstallment h hc
  have hgranted : c.status.granted = true := by rw [hst]; rfl
  have hps : ∀ q ∈ [p], q.claimId = claimId ∧ c.status.granted = true ∧
      c.disputeDeadlineLedger < s.sequence := by
    intro q hq
    rw [List.mem_singleton.mp hq]
    exact ⟨hpid, hgranted, hlt⟩
  by_cases hcomp : c.Completes amount
  · exact .of_write hk hc (hdone hcomp).1 rfl
      (.ended hgranted rfl (by rintro (h | h) <;> cases h) rfl) hpay hps
  · exact .of_write hk hc (hmore hcomp).1 rfl (.same rfl rfl rfl) hpay hps

/-- No ballot approves a claim. -/
def ApprovesLate (s : State) : Label → Prop
  | .call _ (.claim (.voteOnClaim _ id vote)) => ∀ c, s.getClaim id = some c →
    s.ballotOutcome id (c.tally vote 1) ≠ some .approved
  | _ => True

/-- **What the claim calls other than `file_claim` do to the windows.** -/
theorem claimsWindowed_of_claimCall {host : Host} {c : ClaimCall}
    (hreach : (contract host).Reach always s) (h : c.exec env s = .ok s')
    (hok : ApprovesLate s (.call env (.claim c))) (hc : c.files = false) : ClaimsWindowed s s' := by
  have hk := claimsKeyed_of_reach hreach
  have hran := ran_of_exec h
  have hf := frame_claimCall h
  cases c with
  | fileClaim => cases hc
  | withdrawClaim claimant id =>
    obtain ⟨claim, hclaim, hst, -, -, hrec, -⟩ := withdrawClaim_eq_ok hran
    exact .unpaid hk hclaim hrec rfl (.waits (by rw [hst]; rfl) rfl rfl) (hf.payouts rfl)
  | addClaimEvidence claimant id newEvidence =>
    obtain ⟨claim, hclaim, -, hrec⟩ := addClaimEvidence_eq_ok hran
    exact .unpaid hk hclaim hrec rfl (.same rfl rfl rfl) (hf.payouts rfl)
  | voteOnClaim voter id vote =>
    obtain ⟨st, hran⟩ := hran
    exact claimsWindowed_of_voteOnClaim hk (votingPowerFor_of_reach hreach id voter) hok hran
      (hf.payouts rfl)
  | finalizeClaim =>
    obtain ⟨st, hran⟩ := hran
    exact claimsWindowed_of_finalizeClaimInner hk hran
  | processDeadline =>
    obtain ⟨-, st, hran⟩ := hran
    exact claimsWindowed_of_finalizeClaimInner hk hran
  | finalizeExpiredBatch ids =>
    obtain ⟨n, m, t, hloop, rfl⟩ := hran
    obtain ⟨hmoved, hnone⟩ := batch_lift (R := Claim.Window s.sequence) hk (by
      intro u u' id d st hseq hd hproc h₁
      obtain ⟨d₁, d', hd₁, hterm, -, -, -, hdec, hclose⟩ := finalizeClaimInner_eq_ok h₁
      rw [hd] at hd₁
      cases hd₁
      have hout := u.deadlineOutcome_cases id d
      have hwin := window_of_decide hterm hout (fun _ => rfl) hdec
      obtain ⟨x, y, z, rfl⟩ := decide_eq_ok hdec
      refine ⟨_, (closeRound_eq_ok hclose).1, rfl, ?_, hseq ▸ hwin⟩
      change u.deadlineOutcome id d ≠ .processing
      rcases hout with h | h <;> rw [h] <;> decide) hloop
    refine ⟨fun id c hc => ?_, hnone, [], by rw [List.append_nil]; exact hf.payouts rfl,
      fun _ hp => absurd hp List.not_mem_nil⟩
    obtain ⟨c', hc', rfl | hwin⟩ := hmoved id c hc
    · exact ⟨c', hc', .refl _ c'⟩
    · exact ⟨c', hc', hwin⟩
  | escalateClaim id deadline =>
    obtain ⟨claim, hclaim, -, hrec⟩ := escalateClaim_eq_ok hran
    exact .unpaid hk hclaim hrec rfl (.same rfl rfl rfl) (hf.payouts rfl)
  | processClaim id => exact claimsWindowed_of_processClaim hk hran
  | processPayoutTimeout id =>
    obtain ⟨st, hran⟩ := hran
    obtain ⟨claim, hclaim, hst, hrec, -⟩ := processPayoutTimeout_eq_ok hran
    exact .unpaid hk hclaim hrec rfl
      (.ended (by rw [hst]; rfl) rfl (by rintro (h | h) <;> cases h) rfl) (hf.payouts rfl)
  | disputeClaim id =>
    obtain ⟨claim, hclaim, hst, hrec⟩ := disputeClaim_eq_ok hran
    exact .unpaid hk hclaim hrec rfl
      (.ended (by rw [hst]; rfl) rfl (by rintro (h | h) <;> cases h) rfl) (hf.payouts rfl)
  | disburseInstallment id amount => exact claimsWindowed_of_disburseInstallment hk hran
  | openAppeal claimant id =>
    obtain ⟨claim, deadline, hclaim, hst, hrec, -⟩ := openAppeal_eq_ok hran
    exact .unpaid hk hclaim hrec rfl (.waits (by rw [hst]; rfl) rfl rfl) (hf.payouts rfl)
  | voteOnAppeal voter id vote =>
    obtain ⟨st, hran⟩ := hran
    exact claimsWindowed_of_voteOnAppeal hk hran (hf.payouts rfl)
  | finalizeAppeal id =>
    obtain ⟨st, hran⟩ := hran
    exact claimsWindowed_of_finalizeAppeal hk hran (hf.payouts rfl)
  | revealVote voter id vote salt =>
    obtain ⟨claim, hclaim, -, hrec, -⟩ := revealVote_eq_ok hran
    exact .unpaid hk hclaim hrec (claimId_tally claim vote 1)
      (.same (status_tally claim vote 1) (by cases vote <;> rfl) (by cases vote <;> rfl))
      (hf.payouts rfl)
  | refreshSnapshot | setClaimFraudScore | setCommitRevealPhases | commitVote | delegateVote =>
    exact .of_same (hf.sameKind rfl) (hf.payouts rfl)

theorem claimsWindowed_of_step {host : Host} {l : Label} (hreach : (contract host).Reach always s)
    (hstep : (contract host).step s l s') (hok : ApprovesLate s l)
    (hl : ∀ env c, l = .call env (.claim c) → c.files = false) : ClaimsWindowed s s' := by
  cases l with
  | closeLedger n =>
    obtain ⟨-, -, rfl⟩ := hstep
    exact .of_same (fun _ _ => rfl) rfl
  | tokens b a =>
    obtain ⟨-, rfl⟩ := hstep
    exact .of_same (fun _ _ => rfl) rfl
  | call env c =>
    have hf := frame_exec hstep.2
    cases c with
    | claim c => exact claimsWindowed_of_claimCall hreach hstep.2 hok (hl env c rfl)
    | policy c => exact .of_same (hf.sameKind (c.untouched rfl)) (hf.payouts (c.untouched rfl))
    | treasury c => exact .of_same (hf.sameKind (c.untouched rfl)) (hf.payouts (c.untouched rfl))
    | setting c => exact .of_same (hf.sameKind rfl) (hf.payouts rfl)
    | governance c =>
      exact .of_same (hf.sameKind (c.untouched rfl)) (hf.payouts (c.untouched rfl))

end Calls

/-! ## Runs -/

/-- The claim enters an approved status in this move. -/
def Approves (m : Move State Label) (id : Nat) : Prop :=
  ∃ c', m.after.getClaim id = some c' ∧ c'.status.Approves ∧
    ∀ c, m.before.getClaim id = some c → c.status ≠ c'.status

/-- Payout tokens move for the claim in this move. -/
def Pays (m : Move State Label) (id : Nat) : Prop :=
  ∃ p ∈ m.after.payouts.drop m.before.payouts.length, p.claimId = id

/-- A claim without an approval was never approved and paid for; from its approval on, its dispute
deadline is the end of the window, and it was paid for later. -/
structure WindowKept (s : State) (g : Journal) (id : Nat) : Prop where
  unfiled : s.getClaim id = none → ∀ m ∈ g, ¬ Approves m id ∧ ¬ Pays m id
  waiting : ∀ c, s.getClaim id = some c → c.status.granted = false →
    c.payoutDeadlineLedger = 0 ∧ ∀ m ∈ g, ¬ Approves m id ∧ ¬ Pays m id
  granted : ∀ c, s.getClaim id = some c → c.status.granted = true → ∀ m ∈ g,
    (Approves m id → c.disputeDeadlineLedger =
      m.before.sequence + DEFAULT_DISPUTE_WINDOW_LEDGERS) ∧
    (Pays m id → c.disputeDeadlineLedger < m.before.sequence)

section Runs

variable {host : Host} {s s' : State} {g : Journal} {l : Label} {id : Nat}

theorem granted_of_approves {a : ClaimStatus} (h : a.Approves) : a.granted = true := by
  rcases h with rfl | rfl <;> rfl

theorem forall_mem_snoc {α : Type} {p : α → Prop} {xs : List α} {x : α} (h : ∀ y ∈ xs, p y)
    (hx : p x) : ∀ y ∈ xs ++ [x], p y := by
  intro y hy
  rcases List.mem_append.mp hy with hy | hy
  · exact h y hy
  · rw [List.mem_singleton.mp hy]
    exact hx

theorem not_pays_of_windowed (h : ClaimsWindowed s s')
    (hc : ∀ c, s.getClaim id = some c → c.status.granted = false) : ¬ Pays ⟨s, l, s'⟩ id := by
  rintro ⟨p, hp, rfl⟩
  obtain ⟨ps, hpay, hps⟩ := h.paid
  change p ∈ s'.payouts.drop s.payouts.length at hp
  rw [hpay, List.drop_left] at hp
  obtain ⟨c, hget, hgranted, -⟩ := hps p hp
  rw [hc c hget] at hgranted
  cases hgranted

theorem windowKept_of_windowed (h : ClaimsWindowed s s') (hs : WindowKept s g id) :
    WindowKept s' (g ++ [⟨s, l, s'⟩]) id := by
  cases hc : s.getClaim id with
  | none =>
    have hnone := h.unfiled id hc
    have hmove : ¬ Approves ⟨s, l, s'⟩ id ∧ ¬ Pays ⟨s, l, s'⟩ id := by
      refine ⟨?_, not_pays_of_windowed h ?_⟩
      · rintro ⟨c', hc', -⟩
        rw [hnone] at hc'
        cases hc'
      · intro c hget
        rw [hc] at hget
        cases hget
    refine ⟨fun _ => forall_mem_snoc (hs.unfiled hc) hmove, ?_, ?_⟩ <;>
    · intro c' hc'
      rw [hnone] at hc'
      cases hc'
  | some c =>
    obtain ⟨c', hc', hwin⟩ := h.moved id c hc
    have heq : ∀ d, s'.getClaim id = some d → d = c' := fun d hd =>
      Option.some.inj (hd.symm.trans hc')
    refine ⟨fun hnone => ?_, ?_, ?_⟩
    · rw [hc'] at hnone
      cases hnone
    · -- the claim has no approval yet
      intro d hd hdwait
      obtain rfl := heq d hd
      cases hwin with
      | waits hwait _ hpayout =>
        obtain ⟨hzero, hpast⟩ := hs.waiting c hc hwait
        refine ⟨hpayout.trans hzero, forall_mem_snoc hpast ⟨?_, not_pays_of_windowed h ?_⟩⟩
        · rintro ⟨e, he, happ, -⟩
          rw [heq e he] at happ
          rw [granted_of_approves happ] at hdwait
          cases hdwait
        · intro e he
          rw [hc] at he
          cases he
          exact hwait
      | opens _ happ _ =>
        rw [granted_of_approves happ] at hdwait
        cases hdwait
      | keeps _ hgranted _ _ =>
        rw [hgranted] at hdwait
        cases hdwait
    · intro d hd hdgranted
      obtain rfl := heq d hd
      cases hwin with
      | waits _ hwait _ =>
        rw [hwait] at hdgranted
        cases hdgranted
      | opens hwait _ hopen =>
        obtain ⟨hzero, hpast⟩ := hs.waiting c hc hwait
        refine forall_mem_snoc (fun m hm => ?_) ⟨fun _ => hopen hzero, fun hpays => ?_⟩
        · exact ⟨fun happ => absurd happ (hpast m hm).1, fun hpays => absurd hpays (hpast m hm).2⟩
        · refine absurd hpays (not_pays_of_windowed h ?_)
          intro e he
          rw [hc] at he
          cases he
          exact hwait
      | keeps hgranted _ hst hsame =>
        rw [hsame]
        refine forall_mem_snoc (hs.granted c hc hgranted) ⟨?_, ?_⟩
        · rintro ⟨e, he, happ, hne⟩
          obtain rfl := heq e he
          exact absurd (hst.resolve_right fun h => h happ).symm (hne c hc)
        · rintro ⟨p, hp, rfl⟩
          obtain ⟨ps, hpay, hps⟩ := h.paid
          change p ∈ s'.payouts.drop s.payouts.length at hp
          rw [hpay, List.drop_left] at hp
          obtain ⟨e, he, -, hlt⟩ := hps p hp
          rw [hc] at he
          cases he
          exact hlt

theorem windowKept_of_file {env : Env} {holder : Address} {policyId claimId : Nat} {amount : Int}
    {details : Str} {evidence : List ClaimEvidenceEntry} {expectedNonce : Option Nat}
    (hk : s.ClaimsKeyed)
    (hran : fileClaim env s holder policyId amount details evidence expectedNonce =
      .ok (claimId, s'))
    (hs : WindowKept s g id) : WindowKept s' (g ++ [⟨s, l, s'⟩]) id := by
  have hpay : s'.payouts = s.payouts := (frame_fileClaim hran).payouts rfl
  obtain ⟨policy, voters, deadline, -, -, -, hid, -, -, hrec, -⟩ := fileClaim_eq_ok hran
  have hnot : ¬ Pays ⟨s, l, s'⟩ id := by
    rintro ⟨p, hp, -⟩
    change p ∈ s'.payouts.drop s.payouts.length at hp
    rw [hpay, List.drop_length] at hp
    cases hp
  have hget : s'.getClaim id = if id = claimId then some (newClaim claimId policyId holder amount
      (policy.deductible.getD 0) policy.asset details evidence deadline s.sequence voters.length)
      else s.getClaim id := getClaim_of_write hrec id
  by_cases hnew : id = claimId
  · rw [if_pos hnew] at hget
    have hnone : s.getClaim id = none := hk.unfiled (by omega)
    have happ : ¬ Approves ⟨s, l, s'⟩ id := by
      rintro ⟨c', hc', happ, -⟩
      change s'.getClaim id = some c' at hc'
      rw [hget] at hc'
      cases hc'
      rcases happ with h | h <;> cases h
    have hpast := forall_mem_snoc (hs.unfiled hnone) ⟨happ, hnot⟩
    refine ⟨fun _ => hpast, ?_, ?_⟩
    · intro c hc _
      rw [hget] at hc
      cases hc
      exact ⟨rfl, hpast⟩
    · intro c hc hgranted
      rw [hget] at hc
      cases hc
      cases hgranted
  · rw [if_neg hnew] at hget
    have happ : ¬ Approves ⟨s, l, s'⟩ id := by
      rintro ⟨c', hc', -, hne⟩
      change s'.getClaim id = some c' at hc'
      rw [hget] at hc'
      exact hne c' hc' rfl
    constructor
    · intro hnone
      rw [hget] at hnone
      exact forall_mem_snoc (hs.unfiled hnone) ⟨happ, hnot⟩
    · intro c hc hwait
      rw [hget] at hc
      obtain ⟨hzero, hpast⟩ := hs.waiting c hc hwait
      exact ⟨hzero, forall_mem_snoc hpast ⟨happ, hnot⟩⟩
    · intro c hc hgranted
      rw [hget] at hc
      exact forall_mem_snoc (hs.granted c hc hgranted)
        ⟨fun h => absurd h happ, fun h => absurd h hnot⟩

theorem windowKept_of_reach
    (h : (contract host).traced.Reach (fun p l => ApprovesLate p.1 l) (s, g)) (id : Nat) :
    WindowKept s g id := by
  refine h.trace_invariant (I := fun s g => WindowKept s g id) ?_ ?_
  · intro s hs
    have hnone : s.getClaim id = none := State.Fresh.get host hs _
    refine ⟨fun _ m hm => absurd hm List.not_mem_nil, ?_, ?_⟩ <;>
    · intro c hc
      rw [hnone] at hc
      cases hc
  · intro s g l s' hreach hok hstep hI
    by_cases hfile : ∀ env c, l = .call env (.claim c) → c.files = false
    · exact windowKept_of_windowed (claimsWindowed_of_step hreach.to_always hstep hok hfile) hI
    · push Not at hfile
      obtain ⟨env, c, rfl, hfiles⟩ := hfile
      cases c with
      | fileClaim holder policyId amount details evidence expected =>
        obtain ⟨claimId, hran⟩ := ran_of_exec (c := .fileClaim holder policyId amount details
          evidence expected) hstep.2
        exact windowKept_of_file (claimsKeyed_of_reach hreach.to_always) hran hI
      | _ => exact absurd rfl hfiles

/-- A claim that is approved can be disputed up to its dispute deadline. -/
theorem disputeClaim_succeeds {env : Env} {c : Claim} (hc : s.getClaim id = some c)
    (hst : c.status = .approved) (hle : s.sequence ≤ c.disputeDeadlineLedger)
    {admin : Address} (hadmin : requireStoredAdmin env s = .ok admin) :
    ∃ s', (Call.claim (.disputeClaim id)).exec env s = .ok s' := by
  refine ⟨(s.setClaim (c.moveTo .disputed s.sequence)).emit (.claimDisputed id s.sequence), ?_⟩
  change (do let _ ← requireStoredAdmin env s; disputeClaim s id) = _
  simp only [hadmin, disputeClaim, bind_eq_ok, okOr_eq_ok, ensure_eq_ok, pure_eq_ok]
  exact ⟨admin, rfl, c, hc, (), hst, (), hle, rfl⟩

/-- **The dispute window of every approval.**  In a run in which no ballot approves a claim,
whenever a claim enters an approved status at ledger `t`, payout tokens move for it after
`t + DEFAULT_DISPUTE_WINDOW_LEDGERS` only, and up to that ledger the admin can dispute it as long
as it is `Approved`. -/
theorem dispute_window_of_reach
    (h : (contract host).traced.Reach (fun p l => ApprovesLate p.1 l) (s, g))
    {m : Move State Label} (hm : m ∈ g) (happ : Approves m id) :
    (∀ m' ∈ g, Pays m' id →
      m.before.sequence + DEFAULT_DISPUTE_WINDOW_LEDGERS < m'.before.sequence) ∧
    ∀ c, s.getClaim id = some c → c.status = .approved →
      s.sequence ≤ m.before.sequence + DEFAULT_DISPUTE_WINDOW_LEDGERS →
      ∀ env admin, requireStoredAdmin env s = .ok admin →
        ∃ s', (Call.claim (.disputeClaim id)).exec env s = .ok s' := by
  have hkept := windowKept_of_reach h id
  cases hc : s.getClaim id with
  | none => exact absurd happ (hkept.unfiled hc m hm).1
  | some c =>
    cases hgranted : c.status.granted with
    | false => exact absurd happ ((hkept.waiting c hc hgranted).2 m hm).1
    | true =>
      have hall := hkept.granted c hc hgranted
      have hdispute := (hall m hm).1 happ
      rw [← hdispute]
      refine ⟨fun m' hm' hpays => (hall m' hm').2 hpays, ?_⟩
      intro d hd hst hle env admin hadmin
      cases hd
      exact disputeClaim_succeeds hc hst hle hadmin

end Runs

instance (m : Move State Label) (id : Nat) : Decidable (Approves m id) :=
  inferInstanceAs (Decidable (∃ c' ∈ m.after.getClaim id, c'.status.Approves ∧
    ∀ c ∈ m.before.getClaim id, c.status ≠ c'.status))

instance (m : Move State Label) (id : Nat) : Decidable (Pays m id) :=
  inferInstanceAs (Decidable (∃ p ∈ m.after.payouts.drop m.before.payouts.length, p.claimId = id))

/-- `ApprovesLate`, computed. -/
def approvesLateCheck (s : State) : Label → Bool
  | .call _ (.claim (.voteOnClaim _ id vote)) => decide (∀ c ∈ s.getClaim id,
    s.ballotOutcome id (c.tally vote 1) ≠ some .approved)
  | _ => true

theorem approvesLate_of_check (s : State) (l : Label) (h : approvesLateCheck s l = true) :
    ApprovesLate s l := by
  unfold approvesLateCheck at h
  unfold ApprovesLate
  split at h
  · exact of_decide_eq_true h
  · trivial

/-- A claim that is approved by its appeal, and paid after the window. -/
theorem dispute_window_of_appeal : ∃ s g m m',
    (contract demoHost).traced.Reach (fun p l => ApprovesLate p.1 l) (s, g) ∧ m ∈ g ∧
      Approves m 1 ∧ m' ∈ g ∧ Pays m' 1 ∧
      m.before.sequence + DEFAULT_DISPUTE_WINDOW_LEDGERS < m'.before.sequence := by
  obtain ⟨s, g, hreach, hval⟩ := exists_journal approvesLate_of_check (deployed 50000000)
    (demoSetup ++ [demoFile 1 1 1000, demoCall (.claim (.voteOnClaim 2 1 .reject)),
      demoCall (.claim (.openAppeal 1 1)), demoCall (.claim (.voteOnAppeal 1 1 .approve)),
      demoCall (.claim (.voteOnAppeal 2 1 .approve)),
      demoCall (.claim (.voteOnAppeal 3 1 .approve)),
      .closeLedger 100000, demoCall (.claim (.processClaim 1))])
    (f := fun p => (p.2.any fun m => decide (Approves m 1), p.2.any fun m => decide (Pays m 1)))
    (a := (true, true)) (fresh_deployed (by decide))
    (by simp [demoSetup, demoInit, demoBind, demoFile]) (by decide +kernel)
  obtain ⟨happ, hpays⟩ := Prod.mk.inj hval
  obtain ⟨m, hm, happ⟩ := List.any_eq_true.mp happ
  obtain ⟨m', hm', hpays⟩ := List.any_eq_true.mp hpays
  have happ := of_decide_eq_true happ
  have hpays := of_decide_eq_true hpays
  exact ⟨s, g, m, m', hreach, hm, happ, hm', hpays,
    (dispute_window_of_reach hreach hm happ).1 m' hm' hpays⟩

/-- **A claim that is approved by a ballot and paid in the same ledger.** -/
theorem paid_within_dispute_window : ∃ s g m m',
    (contract demoHost).traced.Reach (fun p l => always p.1 l) (s, g) ∧ m ∈ g ∧
      Approves m 1 ∧ m' ∈ g ∧ Pays m' 1 ∧
      m'.before.sequence ≤ m.before.sequence + DEFAULT_DISPUTE_WINDOW_LEDGERS := by
  obtain ⟨s, g, hreach, hval⟩ := exists_journal always_of_noCheck (deployed 50000000)
    (demoSetup ++ [demoFile 1 1 1000, demoCall (.claim (.voteOnClaim 2 1 .approve)),
      demoCall (.claim (.processClaim 1))])
    (f := fun p => p.2.any fun m => decide (Approves m 1) && p.2.any fun m' => decide (Pays m' 1 ∧
      m'.before.sequence ≤ m.before.sequence + DEFAULT_DISPUTE_WINDOW_LEDGERS))
    (a := true) (fresh_deployed (by decide))
    (by simp [demoSetup, demoInit, demoBind, demoFile]) (by decide +kernel)
  obtain ⟨m, hm, hboth⟩ := List.any_eq_true.mp hval
  obtain ⟨happ, hany⟩ := Bool.and_eq_true_iff.mp hboth
  obtain ⟨m', hm', hpays⟩ := List.any_eq_true.mp hany
  obtain ⟨hpays, hle⟩ := of_decide_eq_true hpays
  exact ⟨s, g, m, m', hreach, hm, of_decide_eq_true happ, hm', hpays, hle⟩

end NiffyInsure
