import NiffyInsure.ClaimEdit
import NiffyInsure.Trace
import NiffyInsure.VotingRules

/-!
# The rate limit on filing

A holder may file one claim a day, over all their policies.  The contract does not keep the list
of their filings: it keeps the ledger of the last one (the anchor), and with each claim the anchor
that it found.  A withdrawal puts the anchor back to the one that the claim had found.

* `Latest`: what the anchor should be, the latest ledger of a set if there is one.
* `AnchorKept`: what the calls other than `file_claim` and `withdraw_claim` leave alone.
* `anchored_of_fileClaim`, `anchored_of_withdrawClaim`: a filing moves the anchor on; the
  withdrawal of the last claim puts it back.
* `rate_limit_anchor_of_reach`: while claims are withdrawn in the opposite order of their filing,
  the anchor is the latest filing that was not withdrawn, and the filings are a day apart.
* `rate_limit_anchor_lost`: a withdrawal out of that order removes the anchor of a later claim.
-/

namespace NiffyInsure

open Machine

/-! ## The latest of some ledgers -/

/-- The greatest element of the set, or `none` if it is empty. -/
def Latest (T : Set Nat) : Option Nat → Prop
  | none => T = ∅
  | some t => IsGreatest T t

theorem Latest.insert {T : Set Nat} {n : Nat} (h : ∀ t ∈ T, t ≤ n) :
    Latest (insert n T) (some n) := by
  refine ⟨Set.mem_insert n T, ?_⟩
  rintro t (rfl | ht)
  · exact le_rfl
  · exact h t ht

/-- Whoever is at a distance from the latest is at that distance from all. -/
theorem Latest.apart {T : Set Nat} {o : Option Nat} {n d : Nat} (h : Latest T o)
    (hn : ∀ t, o = some t → t + d ≤ n) {t : Nat} (ht : t ∈ T) : t + d ≤ n := by
  cases o with
  | none =>
    rw [Latest] at h
    rw [h] at ht
    exact absurd ht (Set.notMem_empty t)
  | some u =>
    have hle : t ≤ u := h.2 ht
    have hlast := hn u rfl
    omega

/-! ## The filings in storage -/

/-- The ledgers at which the claims with these ids and claimants were filed, unless they were
withdrawn. -/
def State.filed (s : State) (P : Nat → Address → Prop) : Set Nat :=
  {t | ∃ id c, s.getClaim id = some c ∧ P id c.claimant ∧ c.status ≠ .withdrawn ∧ c.filedAt = t}

/-- The ledgers at which the holder filed claims that were not withdrawn. -/
def State.filings (s : State) (holder : Address) : Set Nat := s.filed fun _ a => a = holder

/-- The filings of the holder before the claim `id`. -/
def State.filingsBefore (s : State) (holder : Address) (id : Nat) : Set Nat :=
  s.filed fun i a => i < id ∧ a = holder

/-- The anchor of a holder is their latest filing, a claim in `Processing` keeps the latest one
before it, and filings of one holder are a day apart. -/
structure State.Anchored (s : State) : Prop where
  anchor : ∀ holder, Latest (s.filings holder) (s.get (.lastClaimLedger holder))
  before : ∀ id c, s.getClaim id = some c → c.status = .processing →
    Latest (s.filingsBefore c.claimant id) (s.get (.claimRateLimitPrev id))
  unfiled : ∀ id, s.getClaim id = none → s.get (.claimRateLimitPrev id) = none
  apart : ∀ id c, s.getClaim id = some c → c.status ≠ .withdrawn →
    ∀ t ∈ s.filingsBefore c.claimant id, t + RATE_LIMIT_WINDOW_LEDGERS ≤ c.filedAt

/-! ## Claims that stay -/

/-- The record keeps its place among the filings. -/
structure Claim.Stays (c c' : Claim) : Prop where
  claimId : c'.claimId = c.claimId
  claimant : c'.claimant = c.claimant
  filedAt : c'.filedAt = c.filedAt
  withdrawn : c'.status = .withdrawn ↔ c.status = .withdrawn
  processing : c'.status = .processing → c.status = .processing

theorem Claim.Stays.refl (c : Claim) : c.Stays c := ⟨rfl, rfl, rfl, Iff.rfl, id⟩

theorem Claim.Stays.trans {c c' c'' : Claim} (h : c.Stays c') (h' : c'.Stays c'') :
    c.Stays c'' where
  claimId := h'.claimId.trans h.claimId
  claimant := h'.claimant.trans h.claimant
  filedAt := h'.filedAt.trans h.filedAt
  withdrawn := h'.withdrawn.trans h.withdrawn
  processing := h.processing ∘ h'.processing

theorem Claim.Edit.stays {now : Nat} {c c' : Claim} (h : c.Edit now c')
    (hne : c'.status = .withdrawn → c.status = .withdrawn) : c.Stays c' := by
  refine ⟨h.sameTerms.claimId, h.sameTerms.claimant, h.filedAt, ⟨hne, fun hw => ?_⟩, h.processing⟩
  exact (h.settled (.inr hw)).1.trans hw

/-! ## What the calls leave alone -/

/-- The saved anchors of the other claims are as they were. -/
def PrevKept (claimId : Nat) (s s' : State) : Prop :=
  ∀ id, id ≠ claimId → s'.get (.claimRateLimitPrev id) = s.get (.claimRateLimitPrev id)

namespace PrevKept

variable {s s' s'' : State} {claimId : Nat}

theorem of_same (h : SameKind .ratePrev s s') : PrevKept claimId s s' := fun _ _ => h _ rfl

theorem trans (h : PrevKept claimId s s') (h' : PrevKept claimId s' s'') : PrevKept claimId s s'' :=
  fun id hid => (h' id hid).trans (h id hid)

theorem remove (s : State) : PrevKept claimId s (s.remove (.claimRateLimitPrev claimId)) := by
  intro id hid
  exact State.get_remove_of_ne _ (by simpa using hid)

theorem clear (s : State) (holder : Address) (policyId : Nat) : PrevKept claimId s
    ((s.setOpenClaim holder policyId false).remove (.claimRateLimitPrev claimId)) :=
  .trans (.of_same (SameKind.of_set_ne (by simp) _)) (.remove _)

end PrevKept

section Prev

variable {env : Env} {s s' : State} {claimId : Nat}

theorem prevKept_closeRound {before : ClaimStatus} {claim : Claim}
    (h : closeRound s claimId before claim = .ok s') : PrevKept claimId s s' := by
  have hrec : PrevKept claimId s (s.recordDecision claimId before claim) := by
    dsimp only [State.recordDecision]
    refine PrevKept.trans ?_ (.of_same ((SameKind.of_set_ne (by simp) _).trans
      (SameKind.of_set_ne (by simp) _)))
    split
    · exact PrevKept.trans (.of_same (by simp)) (.remove _)
    · exact .of_same (by simp)
  obtain ⟨-, h⟩ | ⟨-, rfl⟩ := closeRound_cases h
  · exact hrec.trans (.of_same ((frame_onReject h).sameKind rfl))
  · exact hrec

theorem prevKept_markPaid (claim : Claim) : PrevKept claimId s (s.markPaid claimId claim) := by
  refine (PrevKept.clear s claim.claimant claim.policyId).trans (.of_same ?_)
  refine SameKind.trans ?_ ((frame_recordClaimPaid _ _ _ _ _).sameKind rfl)
  simp

theorem prevKept_processClaim (h : processClaim env s claimId = .ok s') :
    PrevKept claimId s s' := by
  obtain ⟨claim, -, -, -, ⟨-, hpay⟩ | ⟨-, s₄, claim₃, s₆, h₄, h₆, rfl⟩⟩ := processClaim_cases h
  · exact (prevKept_markPaid claim).trans (.of_same ((frame_payout hpay).sameKind rfl))
  · refine (prevKept_markPaid claim).trans (.of_same ?_)
    rw [SameKind.emit_iff]
    exact (((frame_payout h₄).sameKind rfl).trans
      ((frame_recordClaimPaid _ _ _ _ _).sameKind rfl)).trans ((frame_payout h₆).sameKind rfl)

theorem prevKept_processPayoutTimeout {st : ClaimStatus}
    (h : processPayoutTimeout s claimId = .ok (st, s')) : PrevKept claimId s s' := by
  simp only [processPayoutTimeout, bind_eq_ok, pure_eq_ok, Prod.mk.injEq] at h
  obtain ⟨claim, -, -, -, -, -, -, rfl⟩ := h
  exact (PrevKept.clear s claim.claimant claim.policyId).trans (.of_same (by simp))

theorem prevKept_markFullyPaid (s : State) (claim : Claim) (recipient : Address) (net : Int) :
    PrevKept claimId s (s.markFullyPaid claimId claim recipient net).2 := by
  refine (PrevKept.clear s claim.claimant claim.policyId).trans (.of_same ?_)
  refine SameKind.trans ?_ ((frame_recordClaimPaid _ _ _ _ _).sameKind rfl)
  simp

theorem prevKept_disburseInstallment {amount : Int}
    (h : disburseInstallment env s claimId amount = .ok s') : PrevKept claimId s s' := by
  simp only [disburseInstallment, bind_eq_ok, pure_eq_ok] at h
  obtain ⟨-, -, claim, -, -, -, -, -, -, -, net, -, -, -, remaining, -, -, -, policy, -, -, -, s₁,
    h₁, s₂, h₂, paid, -, count, -, rfl⟩ := h
  have hpaid : PrevKept claimId s s₂ :=
    .of_same (((frame_recordPayoutOut h₁).sameKind rfl).trans
      ((frame_payFromTreasury h₂).sameKind rfl))
  refine hpaid.trans (.trans ?_ (.of_same (SameKind.of_set_ne (by simp) _)))
  split
  · exact .trans (.of_same ((SameKind.emit_iff _).mpr (.refl _ s₂)))
      (prevKept_markFullyPaid _ _ _ _)
  · exact .of_same (by simp)

end Prev

/-- A step that neither files nor withdraws: claims keep their place among the filings, no anchor
moves, and a claim that is in `Processing` afterwards keeps its saved anchor. -/
structure AnchorKept (s s' : State) : Prop where
  moved : ∀ id c, s.getClaim id = some c → ∃ c', s'.getClaim id = some c' ∧ c.Stays c' ∧
    (c'.status = .processing → s'.get (.claimRateLimitPrev id) = s.get (.claimRateLimitPrev id))
  unfiled : ∀ id, s.getClaim id = none → s'.getClaim id = none ∧
    s'.get (.claimRateLimitPrev id) = s.get (.claimRateLimitPrev id)
  anchor : SameKind .rateLimit s s'

namespace AnchorKept

variable {s s' s'' : State} {claimId : Nat} {c c' : Claim}

theorem of_same (hclaim : SameKind .claim s s') (hprev : SameKind .ratePrev s s')
    (hanchor : SameKind .rateLimit s s') : AnchorKept s s' where
  moved id c hc := ⟨c, (getClaim_of_same hclaim id).trans hc, .refl c, fun _ => hprev _ rfl⟩
  unfiled id hnone := ⟨(getClaim_of_same hclaim id).trans hnone, hprev _ rfl⟩
  anchor := hanchor

theorem trans (h : AnchorKept s s') (h' : AnchorKept s' s'') : AnchorKept s s'' where
  moved id c hc := by
    obtain ⟨c', hc', hstays, hprev⟩ := h.moved id c hc
    obtain ⟨c'', hc'', hstays', hprev'⟩ := h'.moved id c' hc'
    refine ⟨c'', hc'', hstays.trans hstays', fun hst => ?_⟩
    exact (hprev' hst).trans (hprev (hstays'.processing hst))
  unfiled id hnone := by
    obtain ⟨hnone', hprev⟩ := h.unfiled id hnone
    obtain ⟨hnone'', hprev'⟩ := h'.unfiled id hnone'
    exact ⟨hnone'', hprev'.trans hprev⟩
  anchor := h.anchor.trans h'.anchor

/-- One claim is written over.  Its saved anchor may go if it leaves `Processing`. -/
theorem of_write (hk : s.ClaimsKeyed) (hc : s.getClaim claimId = some c)
    (hwrite : SameKind .claim (s.setClaim c') s') (hstays : c.Stays c')
    (hprev : PrevKept claimId s s')
    (hsaved : c'.status = .processing →
      s'.get (.claimRateLimitPrev claimId) = s.get (.claimRateLimitPrev claimId))
    (hanchor : SameKind .rateLimit s s') : AnchorKept s s' := by
  have hget : ∀ id, s'.getClaim id = if id = claimId then some c' else s.getClaim id := by
    intro id
    rw [getClaim_of_write hwrite, hstays.claimId, (hk claimId c hc).1]
  refine ⟨fun id d hd => ?_, fun id hnone => ?_, hanchor⟩
  · rw [hget]
    by_cases hid : id = claimId
    · subst hid
      rw [hc, Option.some.injEq] at hd
      subst hd
      exact ⟨c', if_pos rfl, hstays, hsaved⟩
    · exact ⟨d, by rw [if_neg hid, hd], .refl d, fun _ => hprev id hid⟩
  · have hid : id ≠ claimId := by
      rintro rfl
      rw [hc] at hnone
      cases hnone
    exact ⟨by rw [hget, if_neg hid, hnone], hprev id hid⟩

theorem of_quiet (hk : s.ClaimsKeyed) (hc : s.getClaim claimId = some c)
    (hwrite : SameKind .claim (s.setClaim c') s') (hstays : c.Stays c')
    (hprev : SameKind .ratePrev s s') (hanchor : SameKind .rateLimit s s') : AnchorKept s s' :=
  .of_write hk hc hwrite hstays (.of_same hprev) (fun _ => hprev _ rfl) hanchor

/-- A write after which the claim is not in `Processing`. -/
theorem of_left (hk : s.ClaimsKeyed) (hc : s.getClaim claimId = some c)
    (hwrite : SameKind .claim (s.setClaim c') s') (hstays : c.Stays c')
    (hne : c'.status ≠ .processing) (hprev : PrevKept claimId s s')
    (hanchor : SameKind .rateLimit s s') : AnchorKept s s' :=
  .of_write hk hc hwrite hstays hprev (fun hst => absurd hst hne) hanchor

end AnchorKept


section Calls

variable {env : Env} {s s' : State} {claimId : Nat} {c c' : Claim}

theorem stays_tally (c : Claim) (vote : VoteOption) (w : Nat) : c.Stays (c.tally vote w) := by
  refine (Claim.Edit.tally vote w : c.Edit 0 _).stays ?_
  rw [status_tally]
  exact id

/-- The end of a base round on the claim, with the ballots in `c` counted. -/
theorem anchorKept_of_closeRound {outcome before : ClaimStatus} {b : Bool} {c₀ : Claim}
    (hk : s.ClaimsKeyed) (hc : s.getClaim claimId = some c₀) (hstays : c₀.Stays c)
    (hterm : c.status.isTerminal = false) (hout : outcome = .approved ∨ outcome = .rejected)
    (hdec : c.decide outcome s.sequence b = .ok c') (h : closeRound s claimId before c' = .ok s') :
    AnchorKept s s' := by
  obtain ⟨x, y, z, rfl⟩ := decide_eq_ok hdec
  have hstatus : (c.closed outcome s.sequence x y z).status = outcome := rfl
  have hedit : c.Edit s.sequence (c.closed outcome s.sequence x y z) :=
    .close outcome x y z hterm hout
  have hend : c.Stays (c.closed outcome s.sequence x y z) := by
    refine hedit.stays fun hw => ?_
    rw [hstatus] at hw
    rcases hout with rfl | rfl <;> cases hw
  refine .of_left hk hc (closeRound_eq_ok h).1 (hstays.trans hend) ?_ (prevKept_closeRound h)
    ((frame_closeRound h).sameKind rfl)
  rw [hstatus]
  rcases hout with rfl | rfl <;> decide

theorem anchorKept_of_finalizeClaimInner {st : ClaimStatus} (hk : s.ClaimsKeyed)
    (h : finalizeClaimInner s claimId = .ok (st, s')) : AnchorKept s s' := by
  obtain ⟨claim, claim', hclaim, hterm, -, -, -, hdec, hclose⟩ := finalizeClaimInner_eq_ok h
  exact anchorKept_of_closeRound hk hclaim (.refl claim) hterm
    (s.deadlineOutcome_cases claimId claim) hdec hclose

theorem anchorKept_of_voteOnClaim {voter : Address} {vote : VoteOption} {st : ClaimStatus}
    (hk : s.ClaimsKeyed) (h : voteOnClaim s voter claimId vote = .ok (st, s')) :
    AnchorKept s s' := by
  obtain ⟨claim, w, hclaim, hcheck, -, ⟨-, -, rfl⟩ | ⟨outcome, claim', hout, -, hdec, hclose⟩⟩ :=
    voteOnClaim_eq_ok h
  · exact .of_quiet hk hclaim (SameKind.set (by simp) _ _) (stays_tally claim vote w)
      (by simp) (by simp)
  · have hvote : AnchorKept s (s.setVote claimId voter vote) :=
      .of_same (by simp) (by simp) (by simp)
    refine hvote.trans (anchorKept_of_closeRound ?_ ?_ (stays_tally claim vote w) ?_
      (State.ballotOutcome_eq_some hout) hdec hclose)
    · intro id c hc
      rw [getClaim_setVote] at hc
      simpa [State.getClaimCounter] using hk id c hc
    · rw [getClaim_setVote]
      exact hclaim
    · rw [status_tally]
      exact (checkBallot_eq_ok.mp hcheck).1

theorem anchorKept_of_appealStep {claim claim₀ : Claim} (hk : s.ClaimsKeyed)
    (hprev : SameKind .ratePrev s s') (hanchor : SameKind .rateLimit s s')
    (h : AppealStep s s' claim) (hclaim : s.getClaim claimId = some claim₀)
    (hst : claim.status = .underAppeal) (hstays : claim₀.Stays claim) : AnchorKept s s' := by
  cases h with
  | voting hrec _ => exact .of_quiet hk hclaim hrec hstays hprev hanchor
  | decided outcome x y hout hrec _ =>
    refine .of_quiet hk hclaim hrec (hstays.trans ?_) hprev hanchor
    have hedit : claim.Edit s.sequence (claim.appealClosed outcome s.sequence x y) :=
      .closeAppeal outcome x y hst hout
    refine hedit.stays fun hw => ?_
    change outcome = .withdrawn at hw
    subst hw
    rcases hout with h | h <;> cases h

/-- The call withdraws a claim. -/
def ClaimCall.withdraws : ClaimCall → Bool
  | .withdrawClaim .. => true
  | _ => false

/-- **The claim calls other than `file_claim` and `withdraw_claim` leave the filings alone.** -/
theorem anchorKept_of_claimCall {c : ClaimCall} (hk : s.ClaimsKeyed) (h : c.exec env s = .ok s')
    (hfiles : c.files = false) (hw : c.withdraws = false) : AnchorKept s s' := by
  have hran := ran_of_exec h
  have hf := frame_claimCall h
  cases c with
  | fileClaim => cases hfiles
  | withdrawClaim => cases hw
  | addClaimEvidence claimant id newEvidence =>
    obtain ⟨claim, hclaim, hst, hrec⟩ := addClaimEvidence_eq_ok hran
    exact .of_quiet hk hclaim hrec ⟨rfl, rfl, rfl, Iff.rfl, fun h => h⟩ (hf.sameKind rfl)
      (hf.sameKind rfl)
  | voteOnClaim =>
    obtain ⟨st, hran⟩ := hran
    exact anchorKept_of_voteOnClaim hk hran
  | finalizeClaim =>
    obtain ⟨st, hran⟩ := hran
    exact anchorKept_of_finalizeClaimInner hk hran
  | processDeadline =>
    obtain ⟨-, st, hran⟩ := hran
    exact anchorKept_of_finalizeClaimInner hk hran
  | finalizeExpiredBatch ids =>
    obtain ⟨n, m, u, hloop, rfl⟩ := hran
    have hall : u.ClaimsKeyed ∧ AnchorKept s u := by
      refine finalizeBatchLoop_keeps (I := fun u => u.ClaimsKeyed ∧ AnchorKept s u) ?_ _ s 0 0 hloop
        ⟨hk, .of_same (.refl _ s) (.refl _ s) (.refl _ s)⟩
      rintro u₁ u₂ id st - h₁ ⟨hk₁, hs₁⟩
      refine ⟨?_, hs₁.trans (anchorKept_of_finalizeClaimInner hk₁ h₁)⟩
      exact claimsKeyed_of_rewrites (rewrites_of_finalizeClaimInner h₁)
        ((frame_finalizeClaimInner h₁).sameKind rfl) hk₁
    exact ⟨hall.2.moved, hall.2.unfiled, hall.2.anchor⟩
  | escalateClaim id deadline =>
    obtain ⟨claim, hclaim, hst, hrec⟩ := escalateClaim_eq_ok hran
    exact .of_quiet hk hclaim hrec ⟨rfl, rfl, rfl, Iff.rfl, fun h => h⟩ (hf.sameKind rfl)
      (hf.sameKind rfl)
  | processClaim id =>
    obtain ⟨claim, failed, hclaim, hst, -, -, hrec, -⟩ := processClaim_eq_ok hran
    have hedit : claim.Edit s.sequence (claim.processed s.sequence failed) := .process failed hst
    refine .of_left hk hclaim hrec (hedit.stays ?_) ?_ (prevKept_processClaim hran)
      (hf.sameKind rfl)
    · intro hw
      cases failed <;> cases hw
    · intro hst'
      cases failed <;> cases hst'
  | processPayoutTimeout id =>
    obtain ⟨st, hran⟩ := hran
    obtain ⟨claim, hclaim, hst, hrec, -⟩ := processPayoutTimeout_eq_ok hran
    refine .of_left hk hclaim hrec ((Claim.Edit.timeout hst).stays ?_) ?_
      (prevKept_processPayoutTimeout hran) (hf.sameKind rfl)
    · intro hw
      cases hw
    · intro hst'
      cases hst'
  | disputeClaim id =>
    obtain ⟨claim, hclaim, hst, hrec⟩ := disputeClaim_eq_ok hran
    refine .of_quiet hk hclaim hrec ((Claim.Edit.dispute hst).stays ?_) (hf.sameKind rfl)
      (hf.sameKind rfl)
    intro hw
    cases hw
  | disburseInstallment id amount =>
    obtain ⟨claim, p, hclaim, hst, hpos, hle, -, -, -, hdone, hmore⟩ :=
      disburseInstallment_eq_ok hran
    have hprev := prevKept_disburseInstallment hran
    by_cases hcomp : claim.Completes amount
    · refine .of_left hk hclaim (hdone hcomp).1
        ((Claim.Edit.lastInstallment amount hst hpos hle).stays ?_) ?_ hprev (hf.sameKind rfl)
      · intro hw
        cases hw
      · intro hst'
        cases hst'
    · refine .of_left hk hclaim (hmore hcomp).1 ⟨rfl, rfl, rfl, Iff.rfl, fun h => h⟩ ?_ hprev
        (hf.sameKind rfl)
      change claim.status ≠ .processing
      rw [hst]
      decide
  | openAppeal claimant id =>
    obtain ⟨claim, deadline, hclaim, hst, hrec, -⟩ := openAppeal_eq_ok hran
    have hopen := appealOpen_of_openAppeal hran hclaim
    refine .of_quiet hk hclaim hrec ((Claim.Edit.appeal deadline hst hopen).stays ?_)
      (hf.sameKind rfl) (hf.sameKind rfl)
    intro hw
    cases hw
  | voteOnAppeal voter id vote =>
    obtain ⟨st, hran⟩ := hran
    obtain ⟨claim, hclaim, hst, hstep⟩ := voteOnAppeal_eq_ok hran
    refine anchorKept_of_appealStep hk (hf.sameKind rfl) (hf.sameKind rfl) hstep hclaim ?_ ?_
    · rw [status_tallyAppeal]
      exact hst
    · refine (Claim.Edit.tallyAppeal vote hst : claim.Edit 0 _).stays ?_
      rw [status_tallyAppeal]
      exact fun h => h
  | finalizeAppeal id =>
    obtain ⟨st, hran⟩ := hran
    obtain ⟨claim, hclaim, hst, hstep⟩ := finalizeAppeal_eq_ok hran
    exact anchorKept_of_appealStep hk (hf.sameKind rfl) (hf.sameKind rfl) hstep hclaim
      hst (.refl claim)
  | revealVote voter id vote salt =>
    obtain ⟨claim, hclaim, -, hrec, -⟩ := revealVote_eq_ok hran
    exact .of_quiet hk hclaim hrec (stays_tally claim vote 1) (hf.sameKind rfl) (hf.sameKind rfl)
  | refreshSnapshot | setClaimFraudScore | setCommitRevealPhases | commitVote | delegateVote =>
    exact .of_same (hf.sameKind rfl) (hf.sameKind rfl) (hf.sameKind rfl)

end Calls

/-! ## Filing and withdrawing -/

section Filing

variable {env : Env} {s s' : State} {claimId : Nat}

/-- What a filing does: the rate limit has passed, the anchor of the holder moves on, and the claim
keeps the one that it found. -/
theorem fileClaim_anchors {holder : Address} {policyId : Nat} {amount : Int} {details : Str}
    {evidence : List ClaimEvidenceEntry} {expectedNonce : Option Nat} (hvalid : s.RulesValid)
    (h : fileClaim env s holder policyId amount details evidence expectedNonce =
      .ok (claimId, s')) :
    ∃ claim, claim.claimant = holder ∧ claim.status = .processing ∧ claim.filedAt = s.sequence ∧
      (∀ id, s'.getClaim id = if id = claimId then some claim else s.getClaim id) ∧
      (∀ a, s'.get (.lastClaimLedger a) =
        if a = holder then some s.sequence else s.get (.lastClaimLedger a)) ∧
      PrevKept claimId s s' ∧
      (s.get (.claimRateLimitPrev claimId) = none →
        s'.get (.claimRateLimitPrev claimId) = s.get (.lastClaimLedger holder)) ∧
      ∀ last : Nat, s.get (.lastClaimLedger holder) = some last →
        last + RATE_LIMIT_WINDOW_LEDGERS ≤ s.sequence := by
  obtain ⟨s₁, claim, hf, rfl, rfl, rfl, hst, hfiled, hrate, hfit⟩ := fileClaim_records h
  refine ⟨claim, rfl, hst, hfiled, fun id => ?_, fun a => ?_, fun id hid => ?_, fun hnone => ?_,
    fun last hlast => ?_⟩
  · have hrec : SameKind .claim (s.setClaim claim)
        (s₁.recordNewClaim claim (s.get (.lastClaimLedger claim.claimant))) := by
      simp only [State.recordNewClaim, SameKind.emit_iff]
      rw [SameKind.setIfSome_iff rfl, SameKind.set_iff rfl, SameKind.set_iff rfl,
        SameKind.set_iff rfl]
      exact SameKind.set (hf.sameKind rfl) _ _
    exact getClaim_of_write hrec id
  · simp only [State.recordNewClaim, State.get_emit, hfiled]
    rw [State.get_setIfSome_of_ne _ _ (by simp)]
    split
    · rename_i ha
      rw [ha, State.get_set_self]
    · rename_i ha
      rw [State.get_set_of_ne _ _ (by simpa using ha)]
      simp [hf.get (.lastClaimLedger a) rfl]
  · simp only [State.recordNewClaim, State.get_emit]
    rw [State.get_setIfSome_of_ne _ _ (by simpa using hid)]
    simp [hf.get (.claimRateLimitPrev id) rfl]
  · simp only [State.recordNewClaim, State.get_emit]
    cases s.get (.lastClaimLedger claim.claimant) with
    | none =>
      simp [State.setIfSome, hf.get (.claimRateLimitPrev claim.claimId) rfl, hnone]
    | some last => simp [State.setIfSome]
  · have hlast := hrate last hlast
    have hpos := hvalid.duration.1
    have hmin : 0 < MIN_VOTING_DURATION_LEDGERS := by decide
    rw [saturatingAdd32] at hlast
    omega

theorem withdrawClaim_anchors {claimant : Address}
    (h : withdrawClaim env s claimant claimId = .ok s') :
    ∃ claim, s.getClaim claimId = some claim ∧ claim.claimant = claimant ∧
      claim.status = .processing ∧
      SameKind .claim (s.setClaim (claim.moveTo .withdrawn s.sequence)) s' ∧
      (∀ a, s'.get (.lastClaimLedger a) = if a = claimant then s.get (.claimRateLimitPrev claimId)
        else s.get (.lastClaimLedger a)) ∧
      PrevKept claimId s s' := by
  simp only [withdrawClaim, bind_eq_ok, okOr_eq_ok, ensure_eq_ok, pure_eq_ok] at h
  obtain ⟨claim, hclaim, -, rfl, -, hst, -, -, s₄, h₄, rfl⟩ := h
  have hf := frame_refundFilingFee h₄
  refine ⟨claim, hclaim, rfl, hst, ?_, fun a => ?_, fun id hid => ?_⟩
  · rw [SameKind.emit_iff, SameKind.emit_iff]
    refine SameKind.trans ?_ (hf.sameKind rfl)
    refine SameKind.set ?_ _ _
    rw [SameKind.setOrRemove_iff rfl, SameKind.remove_iff rfl, SameKind.set_iff rfl]
    exact .refl _ s
  · rw [State.get_emit, State.get_emit, hf.get _ rfl]
    split
    · rename_i ha
      subst ha
      simp
    · rename_i ha
      simp [ha]
  · rw [State.get_emit, State.get_emit, hf.get _ rfl]
    simp [hid]

end Filing

/-! ## The invariant -/

section Invariant

variable {env : Env} {s s' : State} {claimId : Nat}

theorem AnchorKept.filed (h : AnchorKept s s') (P : Nat → Address → Prop) :
    s'.filed P = s.filed P := by
  ext t
  constructor
  · rintro ⟨id, c', hc', hp, hst, rfl⟩
    cases hc : s.getClaim id with
    | none =>
      rw [(h.unfiled id hc).1] at hc'
      cases hc'
    | some c =>
      obtain ⟨c'', hc'', hstays, -⟩ := h.moved id c hc
      rw [hc', Option.some.injEq] at hc''
      subst hc''
      rw [hstays.claimant] at hp
      exact ⟨id, c, hc, hp, fun hw => hst (hstays.withdrawn.mpr hw), hstays.filedAt.symm⟩
  · rintro ⟨id, c, hc, hp, hst, rfl⟩
    obtain ⟨c', hc', hstays, -⟩ := h.moved id c hc
    rw [← hstays.claimant] at hp
    exact ⟨id, c', hc', hp, fun hw => hst (hstays.withdrawn.mp hw), hstays.filedAt⟩

theorem AnchorKept.anchored (h : AnchorKept s s') (hs : s.Anchored) : s'.Anchored := by
  have hback : ∀ id c', s'.getClaim id = some c' → ∃ c, s.getClaim id = some c ∧ c.Stays c' ∧
      (c'.status = .processing →
        s'.get (.claimRateLimitPrev id) = s.get (.claimRateLimitPrev id)) := by
    intro id c' hc'
    cases hc : s.getClaim id with
    | none =>
      rw [(h.unfiled id hc).1] at hc'
      cases hc'
    | some c =>
      obtain ⟨c'', hc'', hstays, hprev⟩ := h.moved id c hc
      rw [hc', Option.some.injEq] at hc''
      subst hc''
      exact ⟨c, rfl, hstays, hprev⟩
  constructor
  · intro holder
    rw [State.filings, h.filed, h.anchor _ rfl]
    exact hs.anchor holder
  · intro id c' hc' hst
    obtain ⟨c, hc, hstays, hprev⟩ := hback id c' hc'
    rw [State.filingsBefore, h.filed, hstays.claimant, hprev hst]
    exact hs.before id c hc (hstays.processing hst)
  · intro id hnone
    cases hc : s.getClaim id with
    | none =>
      rw [(h.unfiled id hc).2]
      exact hs.unfiled id hc
    | some c =>
      obtain ⟨c', hc', -⟩ := h.moved id c hc
      rw [hc'] at hnone
      cases hnone
  · intro id c' hc' hst t ht
    obtain ⟨c, hc, hstays, -⟩ := hback id c' hc'
    rw [State.filingsBefore, h.filed, hstays.claimant] at ht
    rw [hstays.filedAt]
    exact hs.apart id c hc (fun hw => hst (hstays.withdrawn.mpr hw)) t ht

theorem mem_filed_of_fileClaim {claim : Claim} {P : Nat → Address → Prop} {t : Nat}
    (hget : ∀ id, s'.getClaim id = if id = claimId then some claim else s.getClaim id)
    (hnone : s.getClaim claimId = none) (hst : claim.status = .processing) :
    t ∈ s'.filed P ↔ t ∈ s.filed P ∨ (P claimId claim.claimant ∧ claim.filedAt = t) := by
  have hne : claim.status ≠ .withdrawn := by
    rw [hst]
    decide
  constructor
  · rintro ⟨id, c, hc, hp, hlive, ht⟩
    rw [hget] at hc
    split at hc
    · rename_i hid
      cases hc
      subst hid
      exact Or.inr ⟨hp, ht⟩
    · exact Or.inl ⟨id, c, hc, hp, hlive, ht⟩
  · rintro (⟨id, c, hc, hp, hlive, ht⟩ | ⟨hp, ht⟩)
    · have hid : id ≠ claimId := by
        rintro rfl
        rw [hnone] at hc
        cases hc
      exact ⟨id, c, by rw [hget, if_neg hid, hc], hp, hlive, ht⟩
    · exact ⟨claimId, claim, by rw [hget, if_pos rfl], hp, hne, ht⟩

/-- All filings of the holder are before a claim that is new. -/
theorem filingsBefore_of_new (hk : s.ClaimsKeyed) (hid : s.getClaimCounter < claimId)
    (holder : Address) : s.filingsBefore holder claimId = s.filings holder := by
  ext t
  constructor
  · rintro ⟨id, c, hc, ⟨-, ha⟩, hlive, ht⟩
    exact ⟨id, c, hc, ha, hlive, ht⟩
  · rintro ⟨id, c, hc, ha, hlive, ht⟩
    have hle := (hk id c hc).2
    exact ⟨id, c, hc, ⟨by omega, ha⟩, hlive, ht⟩

theorem anchored_of_fileClaim {holder : Address} {policyId : Nat} {amount : Int} {details : Str}
    {evidence : List ClaimEvidenceEntry} {expectedNonce : Option Nat} (hk : s.ClaimsKeyed)
    (hvalid : s.RulesValid)
    (h : fileClaim env s holder policyId amount details evidence expectedNonce = .ok (claimId, s'))
    (hs : s.Anchored) : s'.Anchored := by
  obtain ⟨policy, voters, deadline, -, -, -, hid, -⟩ := fileClaim_eq_ok h
  obtain ⟨claim, rfl, hst, hfiled, hget, hanchor, hprev, hsaved, hrate⟩ :=
    fileClaim_anchors hvalid h
  have hnone : s.getClaim claimId = none := hk.unfiled (by omega)
  -- a claim up to the new one has the filings before it that it had
  have hbefore : ∀ a id, id ≤ claimId → s'.filingsBefore a id = s.filingsBefore a id := by
    intro a id hle
    ext t
    refine (mem_filed_of_fileClaim hget hnone hst).trans ⟨?_, Or.inl⟩
    rintro (ht | ⟨⟨hlt, -⟩, -⟩)
    · exact ht
    · omega
  have hnew : s'.filingsBefore claim.claimant claimId = s.filings claim.claimant := by
    rw [hbefore _ _ le_rfl, filingsBefore_of_new hk (by omega)]
  constructor
  · intro a
    rw [hanchor]
    split
    · rename_i ha
      subst ha
      have hset : s'.filings claim.claimant = insert s.sequence (s.filings claim.claimant) := by
        ext t
        refine (mem_filed_of_fileClaim hget hnone hst).trans ?_
        rw [hfiled, Set.mem_insert_iff, eq_comm (a := t), or_comm]
        exact or_congr_left (and_iff_right rfl)
      rw [hset]
      refine Latest.insert fun t ht => ?_
      have hgap := (hs.anchor claim.claimant).apart hrate ht
      omega
    · rename_i ha
      have hset : s'.filings a = s.filings a := by
        ext t
        refine (mem_filed_of_fileClaim hget hnone hst).trans ⟨?_, Or.inl⟩
        rintro (ht | ⟨hp, -⟩)
        · exact ht
        · exact absurd hp.symm ha
      rw [hset]
      exact hs.anchor a
  · intro id c hc hproc
    rw [hget] at hc
    split at hc
    · rename_i heq
      cases hc
      rw [heq, hnew, hsaved (hs.unfiled claimId hnone)]
      exact hs.anchor claim.claimant
    · rename_i heq
      have hle := (hk id c hc).2
      rw [hbefore _ _ (by omega), hprev id heq]
      exact hs.before id c hc hproc
  · intro id hnone'
    rw [hget] at hnone'
    split at hnone'
    · cases hnone'
    · rename_i heq
      rw [hprev id heq]
      exact hs.unfiled id hnone'
  · intro id c hc hlive t ht
    rw [hget] at hc
    split at hc
    · rename_i heq
      cases hc
      rw [heq, hnew] at ht
      rw [hfiled]
      exact (hs.anchor claim.claimant).apart hrate ht
    · have hle := (hk id c hc).2
      rw [hbefore _ _ (by omega)] at ht
      exact hs.apart id c hc hlive t ht

theorem getClaim_of_withdrawClaim {claim : Claim} (hk : s.ClaimsKeyed)
    (hclaim : s.getClaim claimId = some claim)
    (hrec : SameKind .claim (s.setClaim (claim.moveTo .withdrawn s.sequence)) s') (id : Nat) :
    s'.getClaim id =
      if id = claimId then some (claim.moveTo .withdrawn s.sequence) else s.getClaim id := by
  rw [getClaim_of_write hrec]
  change (if id = claim.claimId then _ else _) = _
  rw [(hk claimId claim hclaim).1]

theorem filed_of_withdrawClaim {claim : Claim} {P Q : Nat → Address → Prop}
    (hget : ∀ id, s'.getClaim id =
      if id = claimId then some (claim.moveTo .withdrawn s.sequence) else s.getClaim id)
    (hiff : ∀ id c, s.getClaim id = some c → c.status ≠ .withdrawn →
      (id ≠ claimId ∧ P id c.claimant ↔ Q id c.claimant)) : s'.filed P = s.filed Q := by
  ext t
  constructor
  · rintro ⟨id, c, hc, hp, hlive, ht⟩
    rw [hget] at hc
    split at hc
    · cases hc
      exact absurd rfl hlive
    · rename_i hid
      exact ⟨id, c, hc, (hiff id c hc hlive).mp ⟨hid, hp⟩, hlive, ht⟩
  · rintro ⟨id, c, hc, hq, hlive, ht⟩
    obtain ⟨hid, hp⟩ := (hiff id c hc hlive).mpr hq
    exact ⟨id, c, by rw [hget, if_neg hid, hc], hp, hlive, ht⟩

end Invariant

/-- The claimant has no claim left that was filed after the one they withdraw. -/
def WithdrawsLatest (s : State) : Label → Prop
  | .call _ (.claim (.withdrawClaim claimant claimId)) => ∀ id c, s.getClaim id = some c →
    c.claimant = claimant → c.status ≠ .withdrawn → id ≤ claimId
  | _ => True

section Withdrawing

variable {env : Env} {s s' : State} {claimId : Nat}

/-- The withdrawal of the last claim puts the anchor back to the filing before it. -/
theorem anchored_of_withdrawClaim {claimant : Address} (hk : s.ClaimsKeyed)
    (hok : ∀ id c, s.getClaim id = some c → c.claimant = claimant → c.status ≠ .withdrawn →
      id ≤ claimId)
    (h : withdrawClaim env s claimant claimId = .ok s') (hs : s.Anchored) : s'.Anchored := by
  obtain ⟨claim, hclaim, rfl, hst, hrec, hanchor, hprev⟩ := withdrawClaim_anchors h
  have hget := getClaim_of_withdrawClaim hk hclaim hrec
  have hother : ∀ id c, s.getClaim id = some c → c.claimant ≠ claim.claimant → id ≠ claimId := by
    rintro id c hc hne rfl
    rw [hclaim, Option.some.injEq] at hc
    exact hne (by rw [hc])
  -- no claim has the withdrawn one before it
  have hbefore : ∀ id c, s.getClaim id = some c → c.status ≠ .withdrawn →
      s'.filingsBefore c.claimant id = s.filingsBefore c.claimant id := by
    intro id c hc hlive
    refine filed_of_withdrawClaim hget fun i d hd _ => and_iff_right_of_imp ?_
    rintro ⟨hlt, ha⟩
    by_cases hmine : c.claimant = claim.claimant
    · have hle := hok id c hc hmine hlive
      omega
    · exact hother i d hd (by rw [ha]; exact hmine)
  have hback : ∀ id c, s'.getClaim id = some c → c.status ≠ .withdrawn →
      id ≠ claimId ∧ s.getClaim id = some c := by
    intro id c hc hlive
    rw [hget] at hc
    split at hc
    · cases hc
      exact absurd rfl hlive
    · rename_i hid
      exact ⟨hid, hc⟩
  constructor
  · intro a
    rw [hanchor]
    split
    · rename_i ha
      subst ha
      have hset : s'.filings claim.claimant = s.filingsBefore claim.claimant claimId := by
        refine filed_of_withdrawClaim hget fun i d hd hlive => and_congr_left fun ha => ?_
        have hle := hok i d hd ha hlive
        omega
      rw [hset]
      exact hs.before claimId claim hclaim hst
    · rename_i ha
      have hset : s'.filings a = s.filings a := by
        refine filed_of_withdrawClaim hget fun i d hd _ => and_iff_right_of_imp fun hd' => ?_
        exact hother i d hd (by rw [hd']; exact ha)
      rw [hset]
      exact hs.anchor a
  · intro id c hc hproc
    have hlive : c.status ≠ .withdrawn := by
      rw [hproc]
      decide
    obtain ⟨hid, hc⟩ := hback id c hc hlive
    rw [hbefore id c hc hlive, hprev id hid]
    exact hs.before id c hc hproc
  · intro id hnone
    rw [hget] at hnone
    split at hnone
    · cases hnone
    · rename_i hid
      rw [hprev id hid]
      exact hs.unfiled id hnone
  · intro id c hc hlive t ht
    obtain ⟨-, hc⟩ := hback id c hc hlive
    rw [hbefore id c hc hlive] at ht
    exact hs.apart id c hc hlive t ht

end Withdrawing

/-! ## Along a run -/

section Runs

variable {host : Host} {s s' : State}

theorem anchored_of_step {l : Label} (hk : s.ClaimsKeyed) (hvalid : s.RulesValid)
    (hok : WithdrawsLatest s l) (hstep : (contract host).step s l s') (hs : s.Anchored) :
    s'.Anchored := by
  cases l with
  | closeLedger n =>
    obtain ⟨-, -, rfl⟩ := hstep
    exact AnchorKept.anchored (s := s) (.of_same (fun _ _ => rfl) (fun _ _ => rfl)
      fun _ _ => rfl) hs
  | tokens b a =>
    obtain ⟨-, rfl⟩ := hstep
    exact AnchorKept.anchored (s := s) (.of_same (fun _ _ => rfl) (fun _ _ => rfl)
      fun _ _ => rfl) hs
  | call env c =>
    obtain ⟨-, h⟩ := hstep
    have hf := frame_exec h
    cases c with
    | claim c =>
      change c.exec env s = .ok s' at h
      cases c with
      | fileClaim =>
        obtain ⟨id, hran⟩ := ran_of_exec h
        exact anchored_of_fileClaim hk hvalid hran hs
      | withdrawClaim claimant id => exact anchored_of_withdrawClaim hk hok (ran_of_exec h) hs
      | _ => exact (anchorKept_of_claimCall hk h rfl rfl).anchored hs
    | policy c =>
      exact AnchorKept.anchored (.of_same (hf.sameKind (c.untouched rfl))
        (hf.sameKind (c.untouched rfl)) (hf.sameKind (c.untouched rfl))) hs
    | treasury c =>
      exact AnchorKept.anchored (.of_same (hf.sameKind (c.untouched rfl))
        (hf.sameKind (c.untouched rfl)) (hf.sameKind (c.untouched rfl))) hs
    | setting c =>
      exact AnchorKept.anchored (.of_same (hf.sameKind rfl) (hf.sameKind rfl) (hf.sameKind rfl)) hs
    | governance c =>
      exact AnchorKept.anchored (.of_same (hf.sameKind (c.untouched rfl))
        (hf.sameKind (c.untouched rfl)) (hf.sameKind (c.untouched rfl))) hs

theorem anchored_of_reach (h : (contract host).Reach WithdrawsLatest s) : s.Anchored := by
  refine h.invariant_with (J := fun s => s.ClaimsKeyed ∧ s.RulesValid) (I := State.Anchored)
    (fun s hs => ⟨claimsKeyed_of_reach hs.to_always, rulesValid_of_reach hs.to_always⟩) ?_ ?_
  · intro s hs
    have hnone : ∀ id, s.getClaim id = none := fun id => State.Fresh.get host hs _
    have hempty : ∀ P, s.filed P = ∅ := by
      intro P
      rw [Set.eq_empty_iff_forall_notMem]
      rintro t ⟨id, c, hc, -⟩
      rw [hnone] at hc
      cases hc
    refine ⟨fun holder => ?_, fun id c hc => ?_, fun id _ => State.Fresh.get host hs _,
      fun id c hc => ?_⟩
    · rw [State.Fresh.get host hs]
      exact hempty _
    · rw [hnone] at hc
      cases hc
    · rw [hnone] at hc
      cases hc
  · rintro s l s' ⟨hk, hvalid⟩ hok hstep hs
    exact anchored_of_step hk hvalid hok hstep hs

/-- **The anchor of the rate limit.**  In every run in which a claimant withdraws the last of the
claims they have left, the anchor of a holder is their latest filing that was not withdrawn, and two
such filings are `RATE_LIMIT_WINDOW_LEDGERS` apart. -/
theorem rate_limit_anchor_of_reach (h : (contract host).Reach WithdrawsLatest s) :
    (∀ holder, Latest (s.filings holder) (s.get (.lastClaimLedger holder))) ∧
      ∀ id₁ id₂ c₁ c₂, s.getClaim id₁ = some c₁ → s.getClaim id₂ = some c₂ → id₁ ≠ id₂ →
        c₁.claimant = c₂.claimant → c₁.status ≠ .withdrawn → c₂.status ≠ .withdrawn →
        c₁.filedAt + RATE_LIMIT_WINDOW_LEDGERS ≤ c₂.filedAt ∨
          c₂.filedAt + RATE_LIMIT_WINDOW_LEDGERS ≤ c₁.filedAt := by
  have hs := anchored_of_reach h
  refine ⟨hs.anchor, fun id₁ id₂ c₁ c₂ h₁ h₂ hne hsame hlive₁ hlive₂ => ?_⟩
  rcases Nat.lt_or_gt_of_ne hne with hlt | hlt
  · exact Or.inl (hs.apart id₂ c₂ h₂ hlive₂ _ ⟨id₁, c₁, h₁, ⟨hlt, hsame⟩, hlive₁, rfl⟩)
  · exact Or.inr (hs.apart id₁ c₁ h₁ hlive₁ _ ⟨id₂, c₂, h₂, ⟨hlt, hsame.symm⟩, hlive₂, rfl⟩)

end Runs

/-- `WithdrawsLatest`, computed. -/
def withdrawsLatestCheck (s : State) : Label → Bool
  | .call _ (.claim (.withdrawClaim claimant claimId)) => s.storage.entries.all fun e =>
    match e with
    | ⟨.claim id, c⟩ => decide (c.claimant = claimant → c.status ≠ .withdrawn → id ≤ claimId)
    | _ => true
  | _ => true

theorem withdrawsLatest_of_check (s : State) (l : Label) (h : withdrawsLatestCheck s l = true) :
    WithdrawsLatest s l := by
  unfold withdrawsLatestCheck at h
  unfold WithdrawsLatest
  split at h
  · intro id c hc
    exact of_decide_eq_true (List.all_eq_true.mp h ⟨.claim id, c⟩ (AList.mem_lookup_iff.mp hc))
  · trivial

/-- Account 1 has two policies, and files a claim on each, a day apart. -/
def twoFilings : List Label :=
  demoSetup ++ [demoBind 1 .health 10000000, demoFile 1 1 1000,
    .closeLedger (1000 + RATE_LIMIT_WINDOW_LEDGERS), demoFile 1 2 1000]

/-- The second claim is withdrawn, and the anchor is back at the first. -/
theorem rate_limit_anchor_of_withdrawal : ∃ s, (contract demoHost).Reach WithdrawsLatest s ∧
    s.get (.lastClaimLedger 1) = some 1000 ∧ Latest (s.filings 1) (some 1000) := by
  obtain ⟨s, hreach, hval⟩ := exists_of_follow withdrawsLatest_of_check (deployed 0)
    (twoFilings ++ [demoCall (.claim (.withdrawClaim 1 2))])
    (f := fun s => s.get (.lastClaimLedger 1)) (a := some 1000) (fresh_deployed (by decide))
    (by simp [twoFilings, demoSetup, demoInit, demoBind, demoFile]) (by decide +kernel)
  refine ⟨s, hreach, hval, ?_⟩
  rw [← hval]
  exact (rate_limit_anchor_of_reach hreach).1 1

/-- **A withdrawal out of order loses the anchor.**  Account 1 withdraws the first of its two
claims, which removes the anchor although the second is pending, and files a third in the ledger of
the second. -/
theorem rate_limit_anchor_lost : (∃ s, (contract demoHost).Reach always s ∧
      ¬ Latest (s.filings 1) (s.get (.lastClaimLedger 1))) ∧
    ∃ s c₂ c₃, (contract demoHost).Reach always s ∧ s.getClaim 2 = some c₂ ∧
      s.getClaim 3 = some c₃ ∧ c₂.claimant = 1 ∧ c₃.claimant = 1 ∧ c₂.status ≠ .withdrawn ∧
      c₃.status ≠ .withdrawn ∧ c₂.filedAt = c₃.filedAt := by
  constructor
  · obtain ⟨s, hreach, hval⟩ := exists_of_follow always_of_noCheck (deployed 0)
      (twoFilings ++ [demoCall (.claim (.withdrawClaim 1 1))])
      (f := fun s => (s.get (.lastClaimLedger 1),
        (s.getClaim 2).map fun c => (c.claimant, c.status)))
      (a := (none, some (1, .processing))) (fresh_deployed (by decide))
      (by simp [twoFilings, demoSetup, demoInit, demoBind, demoFile]) (by decide +kernel)
    simp only [Prod.mk.injEq, Option.map_eq_some_iff] at hval
    obtain ⟨hnone, c, hc, hholder, hst⟩ := hval
    refine ⟨s, hreach, fun hlatest => ?_⟩
    rw [hnone] at hlatest
    have hmem : c.filedAt ∈ s.filings 1 := ⟨2, c, hc, hholder, by rw [hst]; decide, rfl⟩
    rw [show s.filings 1 = ∅ from hlatest] at hmem
    exact hmem
  · obtain ⟨s, hreach, hval⟩ := exists_of_follow always_of_noCheck (deployed 0)
      (twoFilings ++ [demoCall (.claim (.withdrawClaim 1 1)), demoFile 1 1 1000])
      (f := fun s => ((s.getClaim 2).map fun c => (c.claimant, c.status, c.filedAt),
        (s.getClaim 3).map fun c => (c.claimant, c.status, c.filedAt)))
      (a := (some (1, .processing, 18280), some (1, .processing, 18280)))
        (fresh_deployed (by decide))
      (by simp [twoFilings, demoSetup, demoInit, demoBind, demoFile]) (by decide +kernel)
    simp only [Prod.mk.injEq, Option.map_eq_some_iff] at hval
    obtain ⟨⟨c₂, hc₂, hh₂, hst₂, hf₂⟩, c₃, hc₃, hh₃, hst₃, hf₃⟩ := hval
    exact ⟨s, c₂, c₃, hreach, hc₂, hc₃, hh₂, hh₃, by rw [hst₂]; decide, by rw [hst₃]; decide,
      hf₂.trans hf₃.symm⟩

end NiffyInsure
