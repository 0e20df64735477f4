import NiffyInsure.ClaimStep

/-!
# What a call does to a claim

Outside `file_claim` a claim call writes over stored claims, and there are thirteen ways in which
it does: `Claim.Edit` lists them, with what each has checked on the record before.  A property of
single claims that every edit keeps is kept by every call, without a look at the calls.

* `claimsEdited_of_claimCall`: the claim calls other than `file_claim` edit stored claims.
* `Claim.Edit.sameTerms`: an edit keeps whose claim it is, on which policy and over how much.
* `claims_rule`: what every filed claim has and every edit keeps, every stored claim has.
-/

namespace NiffyInsure

/-- One write of the record `c` of a claim, by a call at ledger `now`. -/
inductive Claim.Edit (now : Nat) (c : Claim) : Claim → Prop
  | tally (vote : VoteOption) (weight : Nat) : Edit now c (c.tally vote weight)
  | evidence (evidence : List ClaimEvidenceEntry) (hst : c.status = .processing) :
      Edit now c { c with evidence }
  | escalate (deadline : Nat) (hst : c.status = .processing) :
      Edit now c { c with votingDeadlineLedger := deadline }
  | withdraw (hst : c.status = .processing) : Edit now c (c.moveTo .withdrawn now)
  | close (outcome : ClaimStatus) (appealOpen payoutDeadline dispute : Nat)
      (hst : c.status.isTerminal = false) (hout : outcome = .approved ∨ outcome = .rejected) :
      Edit now c (c.closed outcome now appealOpen payoutDeadline dispute)
  | process (failed : Bool) (hst : c.status = .approved ∨ c.status = .appealApproved) :
      Edit now c (c.processed now failed)
  | timeout (hst : c.status = .approved) : Edit now c (c.moveTo .payoutTimeout now)
  | dispute (hst : c.status = .approved) : Edit now c (c.moveTo .disputed now)
  | installment (amount : Int) (hst : c.status = .approved) (hpos : 0 < amount)
      (hle : amount ≤ c.amount - c.deductible - c.paidAmount) :
      Edit now c (c.paidInstallment amount)
  | lastInstallment (amount : Int) (hst : c.status = .approved) (hpos : 0 < amount)
      (hle : amount ≤ c.amount - c.deductible - c.paidAmount) :
      Edit now c ((c.paidInstallment amount).moveTo .paid now)
  | appeal (deadline : Nat) (hst : c.status = .rejected)
      (hopen : now ≤ c.appealOpenDeadlineLedger) : Edit now c (c.appealed now deadline)
  | tallyAppeal (vote : VoteOption) (hst : c.status = .underAppeal) :
      Edit now c (c.tallyAppeal vote 1)
  | closeAppeal (outcome : ClaimStatus) (payoutDeadline dispute : Nat)
      (hst : c.status = .underAppeal)
      (hout : outcome = .appealApproved ∨ outcome = .appealRejected) :
      Edit now c (c.appealClosed outcome now payoutDeadline dispute)

/-- Whose claim it is, on which policy and over how much. -/
structure Claim.SameTerms (c c' : Claim) : Prop where
  claimId : c'.claimId = c.claimId
  claimant : c'.claimant = c.claimant
  policyId : c'.policyId = c.policyId
  amount : c'.amount = c.amount
  deductible : c'.deductible = c.deductible

theorem Claim.SameTerms.refl (c : Claim) : c.SameTerms c := ⟨rfl, rfl, rfl, rfl, rfl⟩

theorem Claim.SameTerms.trans {c c' c'' : Claim} (h : c.SameTerms c') (h' : c'.SameTerms c'') :
    c.SameTerms c'' where
  claimId := h'.claimId.trans h.claimId
  claimant := h'.claimant.trans h.claimant
  policyId := h'.policyId.trans h.policyId
  amount := h'.amount.trans h.amount
  deductible := h'.deductible.trans h.deductible

/-- **An edit keeps the terms of the claim.** -/
theorem Claim.Edit.sameTerms {now : Nat} {c c' : Claim} (h : c.Edit now c') : c.SameTerms c' := by
  cases h with
  | tally vote => cases vote <;> exact ⟨rfl, rfl, rfl, rfl, rfl⟩
  | tallyAppeal vote => cases vote <;> exact ⟨rfl, rfl, rfl, rfl, rfl⟩
  | process failed => cases failed <;> exact ⟨rfl, rfl, rfl, rfl, rfl⟩
  | _ => exact ⟨rfl, rfl, rfl, rfl, rfl⟩

theorem Claim.Edit.filedAt {now : Nat} {c c' : Claim} (h : c.Edit now c') :
    c'.filedAt = c.filedAt := by
  cases h with
  | tally vote => cases vote <;> rfl
  | tallyAppeal vote => cases vote <;> rfl
  | process failed => cases failed <;> rfl
  | _ => rfl

theorem Claim.Edit.processing {now : Nat} {c c' : Claim} (h : c.Edit now c')
    (hst : c'.status = .processing) : c.status = .processing := by
  cases h with
  | tally vote w => rwa [status_tally] at hst
  | tallyAppeal vote => rwa [status_tallyAppeal] at hst
  | evidence | escalate | installment => exact hst
  | close outcome x y z _ hout =>
    change outcome = .processing at hst
    subst hst
    rcases hout with h | h <;> cases h
  | closeAppeal outcome x y _ hout =>
    change outcome = .processing at hst
    subst hst
    rcases hout with h | h <;> cases h
  | process failed => cases failed <;> cases hst
  | withdraw | timeout | dispute | lastInstallment | appeal => cases hst

/-- Nothing leads out of `Paid` and `Withdrawn`: such a claim is only tallied. -/
theorem Claim.Edit.settled {now : Nat} {c c' : Claim} (h : c.Edit now c')
    (hst : c.status = .paid ∨ c.status = .withdrawn) :
    c'.status = c.status ∧ c'.statusHistory = c.statusHistory := by
  have hne : ∀ {st}, c.status = st → ¬ (st = .paid ∨ st = .withdrawn) → False :=
    fun hc hn => hn (hc ▸ hst)
  cases h with
  | tally vote => cases vote <;> exact ⟨rfl, rfl⟩
  | close outcome x y z hterm => rcases hst with hst | hst <;> rw [hst] at hterm <;> cases hterm
  | process failed hcan => rcases hcan with hcan | hcan <;> exact (hne hcan (by decide)).elim
  | evidence _ hcan => exact (hne hcan (by decide)).elim
  | escalate _ hcan => exact (hne hcan (by decide)).elim
  | withdraw hcan => exact (hne hcan (by decide)).elim
  | timeout hcan => exact (hne hcan (by decide)).elim
  | dispute hcan => exact (hne hcan (by decide)).elim
  | installment _ hcan => exact (hne hcan (by decide)).elim
  | lastInstallment _ hcan => exact (hne hcan (by decide)).elim
  | appeal _ hcan => exact (hne hcan (by decide)).elim
  | tallyAppeal _ hcan => exact (hne hcan (by decide)).elim
  | closeAppeal _ _ _ hcan => exact (hne hcan (by decide)).elim

/-- Some edits, one after the other. -/
def Claim.Edits (now : Nat) : Claim → Claim → Prop := Relation.ReflTransGen (Claim.Edit now)

/-- A relation that orders the records and holds of every edit holds of all of them. -/
theorem Claim.Edits.lift {now : Nat} {R : Claim → Claim → Prop} {c c' : Claim}
    (h : Claim.Edits now c c') (hrefl : ∀ c, R c c) (htrans : ∀ a b c, R a b → R b c → R a c)
    (hedit : ∀ c c', c.Edit now c' → R c c') : R c c' := by
  induction h with
  | refl => exact hrefl c
  | tail _ hlast ih => exact htrans _ _ _ ih (hedit _ _ hlast)

theorem Claim.Edits.sameTerms {now : Nat} {c c' : Claim} (h : Claim.Edits now c c') :
    c.SameTerms c' :=
  h.lift .refl (fun _ _ _ => .trans) fun _ _ => Claim.Edit.sameTerms

/-- Stored claims are edited, and no claim is stored under a new id. -/
structure ClaimsEdited (s s' : State) : Prop where
  moved : ∀ id claim, s.getClaim id = some claim →
    ∃ claim', s'.getClaim id = some claim' ∧ Claim.Edits s.sequence claim claim'
  unfiled : ∀ id, s.getClaim id = none → s'.getClaim id = none

namespace ClaimsEdited

variable {s s' s'' : State}

theorem of_same (h : SameKind .claim s s') : ClaimsEdited s s' where
  moved id claim hclaim := ⟨claim, by rw [getClaim_of_same h, hclaim], .refl⟩
  unfiled id hnone := by rw [getClaim_of_same h, hnone]

theorem trans (h : ClaimsEdited s s') (hseq : s'.sequence = s.sequence)
    (h' : ClaimsEdited s' s'') : ClaimsEdited s s'' where
  moved id claim hclaim := by
    obtain ⟨claim', hclaim', hedits⟩ := h.moved id claim hclaim
    obtain ⟨claim'', hclaim'', hedits'⟩ := h'.moved id claim' hclaim'
    rw [hseq] at hedits'
    exact ⟨claim'', hclaim'', hedits.trans hedits'⟩
  unfiled id hnone := h'.unfiled id (h.unfiled id hnone)

theorem of_write (hk : s.ClaimsKeyed) {claimId : Nat} {claim claim' : Claim}
    (hclaim : s.getClaim claimId = some claim) (hedits : Claim.Edits s.sequence claim claim')
    (hwrite : SameKind .claim (s.setClaim claim') s') : ClaimsEdited s s' := by
  have hid : claim'.claimId = claimId := by
    rw [hedits.sameTerms.claimId, (hk claimId claim hclaim).1]
  constructor
  · intro id c hc
    rw [getClaim_of_write hwrite, hid]
    split
    · rename_i heq
      subst heq
      rw [hclaim] at hc
      cases hc
      exact ⟨claim', rfl, hedits⟩
    · exact ⟨c, hc, .refl⟩
  · intro id hnone
    rw [getClaim_of_write hwrite, hid, if_neg ?_]
    · exact hnone
    · rintro rfl
      rw [hclaim] at hnone
      cases hnone

theorem of_edit (hk : s.ClaimsKeyed) {claimId : Nat} {claim claim' : Claim}
    (hclaim : s.getClaim claimId = some claim) (hedit : claim.Edit s.sequence claim')
    (hwrite : SameKind .claim (s.setClaim claim') s') : ClaimsEdited s s' :=
  .of_write hk hclaim (.single hedit) hwrite

end ClaimsEdited

section Calls

variable {env : Env} {s s' : State} {claimId : Nat}

theorem claimsEdited_of_finalizeClaimInner {st : ClaimStatus} (hk : s.ClaimsKeyed)
    (h : finalizeClaimInner s claimId = .ok (st, s')) : ClaimsEdited s s' := by
  obtain ⟨claim, hclaim, hterm, hclosed⟩ := finalizeClaimInner_cases h
  obtain ⟨x, y, z, hrec⟩ := hclosed.record
  exact .of_edit hk hclaim (.close _ x y z hterm (s.deadlineOutcome_cases claimId claim)) hrec

theorem claimsEdited_of_voteOnClaim {voter : Address} {vote : VoteOption} {st : ClaimStatus}
    (hk : s.ClaimsKeyed) (h : voteOnClaim s voter claimId vote = .ok (st, s')) :
    ClaimsEdited s s' := by
  obtain ⟨claim, w, hclaim, hcheck, -, ⟨-, rfl⟩ | ⟨outcome, hout, hclosed⟩⟩ := voteOnClaim_cases h
  · exact .of_edit hk hclaim (.tally vote w) (SameKind.set (by simp) _ _)
  · obtain ⟨x, y, z, hrec⟩ := hclosed.record
    have hterm : (claim.tally vote w).status.isTerminal = false := by
      rw [status_tally]
      exact (checkBallot_eq_ok.mp hcheck).1
    refine .of_write hk hclaim ?_ (SameKind.trans (SameKind.set (by simp) _ _) hrec)
    exact (Relation.ReflTransGen.single (.tally vote w)).tail
      (.close outcome x y z hterm (State.ballotOutcome_eq_some hout))

theorem appealOpen_of_openAppeal {claimant : Address} {claim : Claim}
    (h : openAppeal s claimant claimId = .ok s') (hclaim : s.getClaim claimId = some claim) :
    s.sequence ≤ claim.appealOpenDeadlineLedger := by
  simp only [openAppeal, bind_eq_ok, okOr_eq_ok, ensure_eq_ok] at h
  obtain ⟨deadline, -, -, -, c, hc, -, -, -, -, u, hopen, -⟩ := h
  rw [hclaim] at hc
  cases hc
  exact hopen

theorem AppealStep.claimsEdited {claim claim₀ : Claim} (hk : s.ClaimsKeyed)
    (h : AppealStep s s' claim) (hclaim : s.getClaim claimId = some claim₀)
    (hst : claim.status = .underAppeal) (hedits : Claim.Edits s.sequence claim₀ claim) :
    ClaimsEdited s s' := by
  cases h with
  | voting hrec _ => exact .of_write hk hclaim hedits hrec
  | decided outcome x y hout hrec _ =>
    exact .of_write hk hclaim (hedits.tail (.closeAppeal outcome x y hst hout)) hrec

/-! ## The batch -/

/-- What the batch has done so far: a claim is as it was, or it was in `Processing` and has been
closed. -/
def BatchClosed (R : Claim → Claim → Prop) (s u : State) : Prop :=
  ∀ id c, s.getClaim id = some c → ∃ c', u.getClaim id = some c' ∧
    (c' = c ∨ (c'.status ≠ .processing ∧ R c c'))

theorem batchClosed_of_finalize {R : Claim → Claim → Prop} {u u' : State} {d d' : Claim}
    (hku : u.ClaimsKeyed) (hd : u.getClaim claimId = some d) (hproc : d.status = .processing)
    (hrec : SameKind .claim (u.setClaim d') u') (hid : d'.claimId = d.claimId)
    (hst : d'.status ≠ .processing) (hR : R d d') (hs : BatchClosed R s u) :
    BatchClosed R s u' := by
  intro id c hc
  obtain ⟨c', hc', hor⟩ := hs id c hc
  have hget := getClaim_of_write hrec id
  rw [hid, (hku claimId d hd).1] at hget
  by_cases heq : id = claimId
  · subst heq
    rw [if_pos rfl] at hget
    rw [hd] at hc'
    cases hc'
    refine ⟨d', hget, Or.inr ⟨hst, ?_⟩⟩
    rcases hor with rfl | ⟨hne, -⟩
    · exact hR
    · exact absurd hproc hne
  · rw [if_neg heq] at hget
    exact ⟨c', hget.trans hc', hor⟩

/-- **The batch closes a claim once at most.**  A relation that holds of the finalisation of every
claim in `Processing` holds of every claim that the batch changes. -/
theorem batch_lift {R : Claim → Claim → Prop} {ids : List Nat} {n m : Nat} (hk : s.ClaimsKeyed)
    (hone : ∀ u u' id d st, u.sequence = s.sequence → u.getClaim id = some d →
      d.status = .processing → finalizeClaimInner u id = .ok (st, u') →
      ∃ d', SameKind .claim (u.setClaim d') u' ∧ d'.claimId = d.claimId ∧
        d'.status ≠ .processing ∧ R d d')
    (h : finalizeBatchLoop ids s 0 0 = .ok (n, m, s')) :
    (∀ id c, s.getClaim id = some c → ∃ c', s'.getClaim id = some c' ∧ (c' = c ∨ R c c')) ∧
      ∀ id, s.getClaim id = none → s'.getClaim id = none := by
  have hall : s'.sequence = s.sequence ∧ s'.ClaimsKeyed ∧ BatchClosed R s s' ∧
      ∀ id, s.getClaim id = none → s'.getClaim id = none := by
    refine finalizeBatchLoop_keeps (I := fun u => u.sequence = s.sequence ∧ u.ClaimsKeyed ∧
      BatchClosed R s u ∧ ∀ id, s.getClaim id = none → u.getClaim id = none) ?_ _ s 0 0 h
      ⟨rfl, hk, fun id c hc => ⟨c, hc, Or.inl rfl⟩, fun _ hnone => hnone⟩
    rintro u u' id st hel h₁ ⟨hseq, hku, hclosed, hnone⟩
    have hf := frame_finalizeClaimInner h₁
    have hrw := rewrites_of_finalizeClaimInner h₁
    obtain ⟨d, hd, hproc, -⟩ := isBatchEligible_iff.mp hel
    obtain ⟨d', hrec, hid, hst, hR⟩ := hone u u' id d st hseq hd hproc h₁
    refine ⟨by rw [hf.sequence, hseq], claimsKeyed_of_rewrites hrw (hf.sameKind rfl) hku,
      batchClosed_of_finalize hku hd hproc hrec hid hst hR hclosed, ?_⟩
    intro i hi
    exact getClaim_eq_none_of_rewrites hku hrw (hnone i hi)
  refine ⟨fun id c hc => ?_, hall.2.2.2⟩
  obtain ⟨c', hc', hor⟩ := hall.2.2.1 id c hc
  exact ⟨c', hc', hor.imp_right (·.2)⟩

/-- The call files a claim. -/
def ClaimCall.files : ClaimCall → Bool
  | .fileClaim .. => true
  | _ => false

/-- The call makes one edit of one claim. -/
def ClaimCall.editsOne : ClaimCall → Bool
  | .withdrawClaim .. | .addClaimEvidence .. | .escalateClaim .. | .processClaim ..
  | .processPayoutTimeout .. | .disputeClaim .. | .disburseInstallment .. | .openAppeal ..
  | .revealVote .. => true
  | _ => false

theorem edit_of_claimCall {c : ClaimCall} (h : c.exec env s = .ok s') (hc : c.editsOne = true) :
    ∃ id claim claim', s.getClaim id = some claim ∧ claim.Edit s.sequence claim' ∧
      SameKind .claim (s.setClaim claim') s' := by
  have hran := ran_of_exec h
  cases c with
  | withdrawClaim claimant id =>
    obtain ⟨claim, hclaim, hst, -, -, hrec, -⟩ := withdrawClaim_eq_ok hran
    exact ⟨id, claim, _, hclaim, .withdraw hst, hrec⟩
  | addClaimEvidence claimant id newEvidence =>
    obtain ⟨claim, hclaim, hst, hrec⟩ := addClaimEvidence_eq_ok hran
    exact ⟨id, claim, _, hclaim, .evidence newEvidence hst, hrec⟩
  | escalateClaim id deadline =>
    obtain ⟨claim, hclaim, hst, hrec⟩ := escalateClaim_eq_ok hran
    exact ⟨id, claim, _, hclaim, .escalate deadline hst, hrec⟩
  | processClaim id =>
    obtain ⟨claim, failed, hclaim, hst, -, -, hrec, -⟩ := processClaim_eq_ok hran
    exact ⟨id, claim, _, hclaim, .process failed hst, hrec⟩
  | processPayoutTimeout id =>
    obtain ⟨st, hran⟩ := hran
    obtain ⟨claim, hclaim, hst, hrec, -⟩ := processPayoutTimeout_eq_ok hran
    exact ⟨id, claim, _, hclaim, .timeout hst, hrec⟩
  | disputeClaim id =>
    obtain ⟨claim, hclaim, hst, hrec⟩ := disputeClaim_eq_ok hran
    exact ⟨id, claim, _, hclaim, .dispute hst, hrec⟩
  | disburseInstallment id amount =>
    obtain ⟨claim, p, hclaim, hst, hpos, hle, -, -, -, hdone, hmore⟩ :=
      disburseInstallment_eq_ok hran
    by_cases hcomp : claim.Completes amount
    · exact ⟨id, claim, _, hclaim, .lastInstallment amount hst hpos hle, (hdone hcomp).1⟩
    · exact ⟨id, claim, _, hclaim, .installment amount hst hpos hle, (hmore hcomp).1⟩
  | openAppeal claimant id =>
    obtain ⟨claim, deadline, hclaim, hst, hrec, -⟩ := openAppeal_eq_ok hran
    exact ⟨id, claim, _, hclaim, .appeal deadline hst (appealOpen_of_openAppeal hran hclaim), hrec⟩
  | revealVote voter id vote salt =>
    obtain ⟨claim, hclaim, -, hrec, -⟩ := revealVote_eq_ok hran
    exact ⟨id, claim, _, hclaim, .tally vote 1, hrec⟩
  | fileClaim | voteOnClaim | finalizeClaim | processDeadline | finalizeExpiredBatch | voteOnAppeal
  | finalizeAppeal | refreshSnapshot | setClaimFraudScore | setCommitRevealPhases | commitVote
  | delegateVote => cases hc

/-- **The claim calls other than `file_claim` edit stored claims.** -/
theorem claimsEdited_of_claimCall {c : ClaimCall} (hk : s.ClaimsKeyed)
    (h : c.exec env s = .ok s') (hc : c.files = false) : ClaimsEdited s s' := by
  have hran := ran_of_exec h
  cases c with
  | fileClaim => cases hc
  | voteOnClaim =>
    obtain ⟨st, hran⟩ := hran
    exact claimsEdited_of_voteOnClaim hk hran
  | finalizeClaim =>
    obtain ⟨st, hran⟩ := hran
    exact claimsEdited_of_finalizeClaimInner hk hran
  | processDeadline =>
    obtain ⟨-, st, hran⟩ := hran
    exact claimsEdited_of_finalizeClaimInner hk hran
  | finalizeExpiredBatch ids =>
    obtain ⟨n, m, t, hloop, rfl⟩ := hran
    -- the batch stays at one ledger and keeps the keys
    have hall : s.sequence = t.sequence ∧ t.ClaimsKeyed ∧ ClaimsEdited s t := by
      refine finalizeBatchLoop_keeps (I := fun u =>
        s.sequence = u.sequence ∧ u.ClaimsKeyed ∧ ClaimsEdited s u) ?_ _ s 0 0 hloop
        ⟨rfl, hk, .of_same (.refl _ s)⟩
      rintro s₁ s₂ id st - h₁ ⟨hseq, hk₁, hs₁⟩
      have hf := frame_finalizeClaimInner h₁
      refine ⟨by rw [hf.sequence, hseq], ?_, ?_⟩
      · exact claimsKeyed_of_rewrites (rewrites_of_finalizeClaimInner h₁) (hf.sameKind rfl) hk₁
      · exact hs₁.trans hseq.symm (claimsEdited_of_finalizeClaimInner hk₁ h₁)
    exact ⟨hall.2.2.moved, hall.2.2.unfiled⟩
  | voteOnAppeal voter id vote =>
    obtain ⟨st, hran⟩ := hran
    obtain ⟨claim, hclaim, hst, hstep⟩ := voteOnAppeal_eq_ok hran
    refine hstep.claimsEdited hk hclaim ?_ (.single (.tallyAppeal vote hst))
    cases vote <;> exact hst
  | finalizeAppeal id =>
    obtain ⟨st, hran⟩ := hran
    obtain ⟨claim, hclaim, hst, hstep⟩ := finalizeAppeal_eq_ok hran
    exact hstep.claimsEdited hk hclaim hst .refl
  | withdrawClaim | addClaimEvidence | escalateClaim | processClaim | processPayoutTimeout
  | disputeClaim | disburseInstallment | openAppeal | revealVote =>
    obtain ⟨id, claim, claim', hclaim, hedit, hrec⟩ := edit_of_claimCall h rfl
    exact .of_edit hk hclaim hedit hrec
  | refreshSnapshot | setClaimFraudScore | setCommitRevealPhases | commitVote | delegateVote =>
    exact .of_same ((frame_claimCall h).sameKind rfl)

end Calls

/-! ## Along a run -/

open Machine in
/-- **What every filed claim has and every edit keeps, every stored claim has.** -/
theorem claims_rule {host : Host} {s : State} {P : Nat → Claim → Prop}
    (h : (contract host).Reach always s)
    (hnew : ∀ n policyId holder amount deductible asset details evidence deadline now voters,
      P (n + 1) (newClaim (n + 1) policyId holder amount deductible asset details evidence deadline
        now voters))
    (hedit : ∀ id now c c', c.Edit now c' → P id c → P id c') :
    ∀ id claim, s.getClaim id = some claim → P id claim := by
  have hedited : ∀ {s s' : State}, ClaimsEdited s s' →
      (∀ id claim, s.getClaim id = some claim → P id claim) →
      ∀ id claim, s'.getClaim id = some claim → P id claim := by
    intro s s' hs' hs id claim hclaim
    cases hold : s.getClaim id with
    | none =>
      rw [hs'.unfiled id hold] at hclaim
      cases hclaim
    | some claim₀ =>
      obtain ⟨claim', hclaim', hedits⟩ := hs'.moved id claim₀ hold
      rw [hclaim'] at hclaim
      cases hclaim
      exact hedits.lift (R := fun a b => P id a → P id b) (fun _ hp => hp)
        (fun _ _ _ hab hbc => hbc ∘ hab) (hedit id _) (hs id claim₀ hold)
  refine h.invariant_with (J := State.ClaimsKeyed)
    (I := fun s => ∀ id claim, s.getClaim id = some claim → P id claim)
    (fun _ => claimsKeyed_of_reach) ?_ ?_
  · intro s hs id claim hclaim
    simp [State.getClaim, State.Fresh.get host hs] at hclaim
  · intro s l s' hk _ hstep hs
    cases l with
    | closeLedger n =>
      obtain ⟨-, -, rfl⟩ := hstep
      exact hs
    | tokens b a =>
      obtain ⟨-, rfl⟩ := hstep
      exact hs
    | call env c =>
      obtain ⟨-, h⟩ := hstep
      cases c with
      | policy c => exact hedited (.of_same ((frame_policyCall h).sameKind (c.untouched rfl))) hs
      | treasury c =>
        exact hedited (.of_same ((frame_treasuryCall h).sameKind (c.untouched rfl))) hs
      | setting c => exact hedited (.of_same ((frame_setting h).sameKind rfl)) hs
      | governance c =>
        exact hedited (.of_same ((frame_governanceCall h).sameKind (c.untouched rfl))) hs
      | claim c =>
        change c.exec env s = .ok s' at h
        cases c with
        | fileClaim =>
          obtain ⟨claimId, hran⟩ := ran_of_exec h
          obtain ⟨policy, voters, deadline, -, -, -, rfl, -, -, hrec, -⟩ := fileClaim_eq_ok hran
          intro id claim hclaim
          rw [getClaim_of_write hrec] at hclaim
          split at hclaim
          · rename_i heq
            cases hclaim
            subst heq
            exact hnew _ _ _ _ _ _ _ _ _ _ _
          · exact hs id claim hclaim
        | _ => exact hedited (claimsEdited_of_claimCall hk h rfl) hs

/-! ## The stored claims -/

/-- The claims in storage. -/
def State.claims (s : State) : List Claim :=
  s.storage.entries.filterMap fun e =>
    match e with
    | ⟨.claim _, claim⟩ => some claim
    | _ => none

theorem mem_claims {s : State} {claim : Claim} :
    claim ∈ s.claims ↔ ∃ id, s.getClaim id = some claim := by
  unfold State.claims
  rw [List.mem_filterMap]
  constructor
  · rintro ⟨⟨k, v⟩, hmem, hk⟩
    cases k with
    | claim id =>
      cases hk
      exact ⟨id, AList.mem_lookup_iff.mpr hmem⟩
    | _ => cases hk
  · rintro ⟨id, hget⟩
    exact ⟨⟨.claim id, claim⟩, AList.mem_lookup_iff.mp hget, rfl⟩

end NiffyInsure
