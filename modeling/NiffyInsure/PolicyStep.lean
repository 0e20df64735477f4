import NiffyInsure.ClaimStep
import NiffyInsure.PolicySpec

/-!
# Policies along a run

What the steps of a run do to the stored policies.  Three entrypoints write a policy that was
not there in this form before: `initiate_policy`, `renew_policy` and `transfer_policy`.  All the
others edit records: the terms of the coverage stay as they are, and an active policy may become
inactive (`editsPolicies_of_claimCall`, `editsPolicies_of_policyCall`).

* `EditsPolicies.keeps`: what one edit keeps, a call that edits keeps.
* `sparesPolicies_of_claimCall`: a claim call that strikes no policy out deactivates none.
* `policiesSound_of_reach`: a policy is stored under its holder and its id, has a positive
  coverage, and starts before it ends.
-/

namespace NiffyInsure

open Machine

/-! ## Reading policies -/

section Reading

variable {s s' : State} {holder : Address} {policyId : Nat} {policy : Policy}

theorem getPolicy_of_same (h : SameKind .policy s s') (a : Address) (id : Nat) :
    s'.getPolicy a id = s.getPolicy a id :=
  h _ rfl

/-- Reading a policy after a policy was written. -/
theorem getPolicy_of_write (h : SameKind .policy (s.setPolicy holder policyId policy) s')
    (a : Address) (id : Nat) : s'.getPolicy a id =
      if a = holder ∧ id = policyId then some policy else s.getPolicy a id := by
  rw [getPolicy_of_same h]
  split
  · rename_i heq
    obtain ⟨rfl, rfl⟩ := heq
    simp [State.getPolicy, State.setPolicy]
  · rename_i hne
    have hkey : DataKey.policy a id ≠ .policy holder policyId := by
      intro heq
      cases heq
      exact hne ⟨rfl, rfl⟩
    simp [State.getPolicy, State.setPolicy, hkey]

theorem getPolicy_of_move {newHolder : Address} (hne : holder ≠ newHolder)
    (h : SameKind .policy ((s.setPolicy newHolder policyId policy).removePolicy holder policyId) s')
    (a : Address) (id : Nat) : s'.getPolicy a id =
      if a = holder ∧ id = policyId then none
      else if a = newHolder ∧ id = policyId then some policy else s.getPolicy a id := by
  rw [getPolicy_of_same h]
  split
  · rename_i heq
    obtain ⟨rfl, rfl⟩ := heq
    simp [State.getPolicy, State.removePolicy]
  · rename_i hold
    have hkey : DataKey.policy a id ≠ .policy holder policyId := by
      intro heq
      cases heq
      exact hold ⟨rfl, rfl⟩
    rw [State.getPolicy, State.removePolicy, State.get_remove_of_ne _ hkey]
    exact getPolicy_of_write (.refl _ _) a id

theorem isPolicyActiveByLedger_iff {n : Nat} :
    isPolicyActiveByLedger policy n = true ↔ policy.startLedger ≤ n ∧ n < policy.endLedger := by
  simp [isPolicyActiveByLedger, isWithinWindow]

end Reading

/-! ## Edits -/

/-- The record `p'` covers what `p` covers, and is active only if `p` is. -/
structure Policy.Edits (p p' : Policy) : Prop where
  holder : p'.holder = p.holder
  policyId : p'.policyId = p.policyId
  policyType : p'.policyType = p.policyType
  region : p'.region = p.region
  premium : p'.premium = p.premium
  coverage : p'.coverage = p.coverage
  asset : p'.asset = p.asset
  startLedger : p'.startLedger = p.startLedger
  endLedger : p'.endLedger = p.endLedger
  isActive : p'.isActive = true → p.isActive = true

theorem Policy.edits_ended (p : Policy) (now : Nat) (reason : TerminationReason) (byAdmin : Bool) :
    p.Edits (p.ended now reason byAdmin) :=
  ⟨rfl, rfl, rfl, rfl, rfl, rfl, rfl, rfl, rfl, fun h => by cases h⟩

theorem Policy.edits_struck (p : Policy) (now : Nat) : p.Edits (p.struck now) := by
  unfold Policy.struck
  split
  · exact ⟨rfl, rfl, rfl, rfl, rfl, rfl, rfl, rfl, rfl, fun h => by cases h⟩
  · exact ⟨rfl, rfl, rfl, rfl, rfl, rfl, rfl, rfl, rfl, fun h => h⟩

/-- No policy is written, or one record is edited. -/
def EditsPolicy (s s' : State) : Prop :=
  SameKind .policy s s' ∨ ∃ holder policyId p p', s.getPolicy holder policyId = some p ∧
    p.Edits p' ∧ SameKind .policy (s.setPolicy holder policyId p') s'

/-- Some records are edited, one after the other. -/
def EditsPolicies : State → State → Prop := Relation.ReflTransGen EditsPolicy

/-- What one edit keeps, all of them keep. -/
theorem EditsPolicies.keeps {I : State → Prop} {s s' : State} (h : EditsPolicies s s')
    (hone : ∀ s s', EditsPolicy s s' → I s → I s') (hs : I s) : I s' := by
  induction h with
  | refl => exact hs
  | tail _ hlast ih => exact hone _ _ hlast ih

theorem EditsPolicies.of_same {s s' : State} (h : SameKind .policy s s') : EditsPolicies s s' :=
  Relation.ReflTransGen.single (.inl h)

theorem EditsPolicies.of_edit {s s' : State} {holder : Address} {policyId : Nat} {p q : Policy}
    (hget : s.getPolicy holder policyId = some p) (hedit : p.Edits q)
    (h : SameKind .policy (s.setPolicy holder policyId q) s') : EditsPolicies s s' :=
  Relation.ReflTransGen.single (.inr ⟨holder, policyId, p, q, hget, hedit, h⟩)

section Calls

variable {env : Env} {s s' : State}

/-- No policy is written, or one gets a strike. -/
def StrikesPolicy (s s' : State) : Prop :=
  SameKind .policy s s' ∨ ∃ holder policyId, StrikesAt s s' holder policyId

/-- Some policies get strikes, one after the other. -/
def StrikesPolicies : State → State → Prop := Relation.ReflTransGen StrikesPolicy

theorem StrikesPolicies.of_same (h : SameKind .policy s s') : StrikesPolicies s s' :=
  Relation.ReflTransGen.single (.inl h)

theorem Closed.strikesPolicies {claim : Claim} {outcome : ClaimStatus}
    (h : Closed s s' claim outcome) : StrikesPolicies s s' := by
  by_cases hrej : outcome = .rejected
  · exact Relation.ReflTransGen.single (.inr ⟨_, _, h.strike hrej⟩)
  · exact .of_same (h.policy hrej)

theorem strikesPolicies_of_finalizeClaimInner {claimId : Nat} {st : ClaimStatus}
    (h : finalizeClaimInner s claimId = .ok (st, s')) : StrikesPolicies s s' := by
  obtain ⟨claim, -, -, hclosed⟩ := finalizeClaimInner_cases h
  exact hclosed.strikesPolicies

theorem strikesPolicies_of_voteOnClaim {voter : Address} {claimId : Nat} {vote : VoteOption}
    {st : ClaimStatus} (h : voteOnClaim s voter claimId vote = .ok (st, s')) :
    StrikesPolicies s s' := by
  have hvote : SameKind .policy s (s.setVote claimId voter vote) := .of_set_ne (by simp) _
  obtain ⟨claim, w, -, -, -, ⟨-, rfl⟩ | ⟨outcome, -, hclosed⟩⟩ := voteOnClaim_cases h
  · exact .of_same (hvote.trans (.of_set_ne (by simp) _))
  · exact (StrikesPolicies.of_same hvote).trans hclosed.strikesPolicies

/-- **The claim calls write policies by strikes only.** -/
theorem strikesPolicies_of_claimCall {c : ClaimCall} (h : c.exec env s = .ok s') :
    StrikesPolicies s s' := by
  have hran := ran_of_exec h
  cases c with
  | voteOnClaim =>
    obtain ⟨st, hran⟩ := hran
    exact strikesPolicies_of_voteOnClaim hran
  | finalizeClaim =>
    obtain ⟨st, hran⟩ := hran
    exact strikesPolicies_of_finalizeClaimInner hran
  | processDeadline =>
    obtain ⟨-, st, hran⟩ := hran
    exact strikesPolicies_of_finalizeClaimInner hran
  | finalizeExpiredBatch =>
    obtain ⟨n, m, t, hloop, rfl⟩ := hran
    refine Relation.ReflTransGen.trans (b := t) ?_ (StrikesPolicies.of_same (.refl _ t))
    refine finalizeBatchLoop_keeps (I := StrikesPolicies s) ?_ _ s 0 0 hloop
      Relation.ReflTransGen.refl
    intro s₁ s₂ id st _ h₁ hs₁
    exact hs₁.trans (strikesPolicies_of_finalizeClaimInner h₁)
  | _ => exact .of_same ((frame_claimCall h).sameKind rfl)

theorem editsPolicy_of_strikesPolicy (h : StrikesPolicy s s') : EditsPolicy s s' := by
  rcases h with h | ⟨holder, policyId, h⟩
  · exact .inl h
  · unfold StrikesAt at h
    split at h
    · exact .inl h
    · rename_i p hp
      exact .inr ⟨holder, policyId, p, _, hp, p.edits_struck s.sequence, h⟩

/-- **The claim calls edit policies.** -/
theorem editsPolicies_of_claimCall {c : ClaimCall} (h : c.exec env s = .ok s') :
    EditsPolicies s s' :=
  Relation.ReflTransGen.mono (fun _ _ => editsPolicy_of_strikesPolicy) _ _
    (strikesPolicies_of_claimCall h)

theorem terminateInner_records {holder : Address} {policyId : Nat} {reason : TerminationReason}
    {byAdmin bypass : Bool}
    (h : terminateInner env s holder policyId reason byAdmin bypass = .ok s') :
    ∃ policy, s.getPolicy holder policyId = some policy ∧
      SameKind .policy (s.setPolicy holder policyId (policy.ended s.sequence reason byAdmin))
      s' := by
  obtain ⟨policy, s₁, s₂, s₄, hpolicy, -, -, hrec, -, h₂, hpay, hf, -⟩ := terminateInner_eq_ok h
  have hrefund := frame_of_refund hpay
  refine ⟨policy, hpolicy, hrec.trans ?_⟩
  exact (((frame_dropActivePolicy h₂).sameKind rfl).trans (hrefund.sameKind rfl)).trans
    (hf.sameKind rfl)

theorem editsPolicies_of_terminateInner {holder : Address} {policyId : Nat}
    {reason : TerminationReason} {byAdmin bypass : Bool}
    (h : terminateInner env s holder policyId reason byAdmin bypass = .ok s') :
    EditsPolicies s s' := by
  obtain ⟨policy, hpolicy, hrec⟩ := terminateInner_records h
  exact .of_edit hpolicy (policy.edits_ended s.sequence reason byAdmin) hrec

theorem editsPolicies_of_processExpired {holder : Address} {ids : List Nat} {n : Nat}
    (h : processExpired s holder ids = .ok (n, s')) : EditsPolicies s s' := by
  refine processExpiredLoop_keeps (I := EditsPolicies s) ?_ _ s 0 h Relation.ReflTransGen.refl
  intro s₁ s₂ id b h₁ hs₁
  obtain hf | ⟨policy, hpolicy, -, -, hrec, -⟩ := processExpiredOne_eq_ok h₁
  · exact hs₁.trans (EditsPolicies.of_same (hf.sameKind rfl))
  · exact hs₁.trans (EditsPolicies.of_edit hpolicy (policy.edits_ended _ _ _) hrec)

theorem editsPolicies_of_setBeneficiary {holder : Address} {policyId : Nat} {b : Option Address}
    (h : setBeneficiary env s holder policyId b = .ok s') : EditsPolicies s s' := by
  obtain ⟨policy, hpolicy, rfl | hrec⟩ := setBeneficiary_eq_ok h
  · exact Relation.ReflTransGen.refl
  · exact .of_edit (q := { policy with beneficiary := b }) hpolicy
      ⟨rfl, rfl, rfl, rfl, rfl, rfl, rfl, rfl, rfl, fun h => h⟩ hrec

theorem editsPolicies_of_updatePolicyMetadataUri {holder : Address} {policyId : Nat} {uri : Str}
    (h : updatePolicyMetadataUri s holder policyId uri = .ok s') : EditsPolicies s s' := by
  obtain ⟨policy, hpolicy, rfl | hrec⟩ := updatePolicyMetadataUri_eq_ok h
  · exact Relation.ReflTransGen.refl
  · exact .of_edit (q := { policy with metadataUri := uri }) hpolicy
      ⟨rfl, rfl, rfl, rfl, rfl, rfl, rfl, rfl, rfl, fun h => h⟩ hrec

/-- The function of a policy call, run from `s` to `s'`. -/
def PolicyCall.Ran (env : Env) (s s' : State) : PolicyCall → Prop
  | .initiatePolicy args => ∃ policy, NiffyInsure.initiatePolicy env s args = .ok (policy, s')
  | .setBeneficiary holder policyId b => NiffyInsure.setBeneficiary env s holder policyId b = .ok s'
  | .adminUpdatePolicyMetadataUri holder policyId uri =>
    updatePolicyMetadataUri s holder policyId uri = .ok s'
  | .renewPolicy args => ∃ o, NiffyInsure.renewPolicy env s args = .ok (o, s')
  | .transferPolicy holder policyId newHolder =>
    NiffyInsure.transferPolicy env s holder policyId newHolder = .ok s'
  | .terminatePolicy holder policyId reason =>
    env.auths holder = true ∧ terminateInner env s holder policyId reason false false = .ok s'
  | .adminTerminatePolicy _ holder policyId reason allowOpenClaims =>
    terminateInner env s holder policyId reason true allowOpenClaims = .ok s'
  | .processExpired holder policyIds => ∃ n,
    NiffyInsure.processExpired s holder policyIds = .ok (n, s')

theorem policyRan_of_exec {c : PolicyCall} (h : c.exec env s = .ok s') : c.Ran env s s' := by
  cases c with
  | initiatePolicy | renewPolicy | processExpired => exact dropValue_eq_ok.mp h
  | setBeneficiary | transferPolicy => exact h
  | adminUpdatePolicyMetadataUri =>
    obtain ⟨-, -, h⟩ := bind_eq_ok.mp h
    exact h
  | terminatePolicy =>
    obtain ⟨u, hauth, h⟩ := bind_eq_ok.mp h
    exact ⟨requireAuth_eq_ok.mp hauth, h⟩
  | adminTerminatePolicy =>
    simp only [PolicyCall.exec, adminTerminatePolicy, bind_eq_ok] at h
    obtain ⟨-, -, expected, -, -, -, h⟩ := h
    exact h

/-- The entrypoints that write a policy which covers something new. -/
def PolicyCall.covers : PolicyCall → Bool
  | .initiatePolicy _ | .renewPolicy _ | .transferPolicy .. => true
  | _ => false

/-- **The other policy calls edit policies.** -/
theorem editsPolicies_of_policyCall {c : PolicyCall} (h : c.exec env s = .ok s')
    (hc : c.covers = false) : EditsPolicies s s' := by
  have hran := policyRan_of_exec h
  cases c with
  | initiatePolicy | renewPolicy | transferPolicy => cases hc
  | setBeneficiary => exact editsPolicies_of_setBeneficiary hran
  | adminUpdatePolicyMetadataUri => exact editsPolicies_of_updatePolicyMetadataUri hran
  | terminatePolicy => exact editsPolicies_of_terminateInner hran.2
  | adminTerminatePolicy => exact editsPolicies_of_terminateInner hran
  | processExpired =>
    obtain ⟨n, hran⟩ := hran
    exact editsPolicies_of_processExpired hran

end Calls

/-! ## Sparing the active policies -/

/-- The next rejected claim on the claim's policy deactivates the policy. -/
def State.StrikesOut (s : State) (claim : Claim) : Prop :=
  ∃ p, s.getPolicy claim.claimant claim.policyId = some p ∧ p.isActive = true ∧
    STRIKE_DEACTIVATION_THRESHOLD ≤ saturatingAdd32 p.strikeCount 1

/-- The claim is not rejected at its deadline with its policy struck out. -/
def State.DeadlineSpares (s : State) (claimId : Nat) : Prop :=
  ∀ claim, s.getClaim claimId = some claim → s.deadlineOutcome claimId claim = .rejected →
    ¬ s.StrikesOut claim

/-- The same for every claim of a batch, in the state in which its turn comes. -/
def BatchSpares : List Nat → State → Prop
  | [], _ => True
  | claimId :: rest, s =>
    if s.isBatchEligible claimId = true then
      s.DeadlineSpares claimId ∧ ∀ st s₁, finalizeClaimInner s claimId = .ok (st, s₁) →
        BatchSpares rest s₁
    else BatchSpares rest s

/-- The rejected claims of the call, if there are any, strike no policy out. -/
def ClaimCall.Spares (s : State) : ClaimCall → Prop
  | .voteOnClaim voter claimId vote =>
    ∀ claim w, s.getClaim claimId = some claim → s.votingPowerFor claimId voter 1 = .ok w →
      s.ballotOutcome claimId (claim.tally vote w) = some .rejected → ¬ s.StrikesOut claim
  | .finalizeClaim claimId => s.DeadlineSpares claimId
  | .processDeadline claimId => s.DeadlineSpares claimId
  | .finalizeExpiredBatch claimIds => BatchSpares claimIds s
  | _ => True

/-- No policy is written, or one record is edited that stays as active as it was. -/
def SparesPolicy (s s' : State) : Prop :=
  SameKind .policy s s' ∨ ∃ holder policyId p p', s.getPolicy holder policyId = some p ∧
    p.Edits p' ∧ p'.isActive = p.isActive ∧ SameKind .policy (s.setPolicy holder policyId p') s'

/-- Some records are edited, one after the other, and none is deactivated. -/
def SparesPolicies : State → State → Prop := Relation.ReflTransGen SparesPolicy

theorem SparesPolicies.keeps {I : State → Prop} {s s' : State} (h : SparesPolicies s s')
    (hone : ∀ s s', SparesPolicy s s' → I s → I s') (hs : I s) : I s' := by
  induction h with
  | refl => exact hs
  | tail _ hlast ih => exact hone _ _ hlast ih

theorem SparesPolicies.of_same {s s' : State} (h : SameKind .policy s s') : SparesPolicies s s' :=
  Relation.ReflTransGen.single (.inl h)

section Spares

variable {env : Env} {s s' : State}

/-- A strike that does not reach the threshold. -/
theorem sparesPolicies_of_strike {claim : Claim}
    (h : StrikesAt s s' claim.claimant claim.policyId) (hspare : ¬ s.StrikesOut claim) :
    SparesPolicies s s' := by
  unfold StrikesAt at h
  split at h
  · exact .of_same h
  · rename_i p hp
    have hstay : ¬ (STRIKE_DEACTIVATION_THRESHOLD ≤ saturatingAdd32 p.strikeCount 1 ∧
        p.isActive = true) := fun hout => hspare ⟨p, hp, hout.2, hout.1⟩
    have hactive : (p.struck s.sequence).isActive = p.isActive := by
      rw [Policy.struck, if_neg hstay]
    exact Relation.ReflTransGen.single
      (.inr ⟨_, _, p, p.struck s.sequence, hp, p.edits_struck s.sequence, hactive, h⟩)

theorem sparesPolicies_of_closed {claim : Claim} {outcome : ClaimStatus}
    (h : Closed s s' claim outcome) (hspare : outcome = .rejected → ¬ s.StrikesOut claim) :
    SparesPolicies s s' := by
  by_cases hrej : outcome = .rejected
  · exact sparesPolicies_of_strike (h.strike hrej) (hspare hrej)
  · exact .of_same (h.policy hrej)

theorem sparesPolicies_of_finalizeClaimInner {claimId : Nat} {st : ClaimStatus}
    (h : finalizeClaimInner s claimId = .ok (st, s')) (hspare : s.DeadlineSpares claimId) :
    SparesPolicies s s' := by
  obtain ⟨claim, hclaim, -, hclosed⟩ := finalizeClaimInner_cases h
  exact sparesPolicies_of_closed hclosed (hspare claim hclaim)

theorem sparesPolicies_of_voteOnClaim {voter : Address} {claimId : Nat} {vote : VoteOption}
    {st : ClaimStatus} (h : voteOnClaim s voter claimId vote = .ok (st, s'))
    (hspare : (ClaimCall.voteOnClaim voter claimId vote).Spares s) : SparesPolicies s s' := by
  have hvote : SameKind .policy s (s.setVote claimId voter vote) := .of_set_ne (by simp) _
  obtain ⟨claim, w, hclaim, -, hw, ⟨-, rfl⟩ | ⟨outcome, hout, hclosed⟩⟩ := voteOnClaim_cases h
  · exact .of_same (hvote.trans (.of_set_ne (by simp) _))
  · refine (SparesPolicies.of_same hvote).trans (sparesPolicies_of_closed hclosed ?_)
    rintro rfl ⟨p, hp, hactive, hthr⟩
    have hget : s.getPolicy claim.claimant claim.policyId = some p := by
      rw [← hp, getPolicy_of_same (.of_set_ne (by simp) _)]
      cases vote <;> rfl
    exact hspare claim w hclaim hw hout ⟨p, hget, hactive, hthr⟩

theorem sparesPolicies_of_finalizeBatchLoop {n m : Nat} :
    ∀ (ids : List Nat) (s : State) (p q : Nat), finalizeBatchLoop ids s p q = .ok (n, m, s') →
      BatchSpares ids s → SparesPolicies s s' := by
  intro ids
  induction ids with
  | nil =>
    intro s p q h _
    cases h
    exact Relation.ReflTransGen.refl
  | cons id rest ih =>
    intro s p q h hspare
    unfold finalizeBatchLoop at h
    unfold BatchSpares at hspare
    split at h
    · rename_i hel
      rw [if_pos hel] at hspare
      obtain ⟨⟨st, s₁⟩, h₁, h₂⟩ := bind_eq_ok.mp h
      exact (sparesPolicies_of_finalizeClaimInner h₁ hspare.1).trans
        (ih s₁ _ _ h₂ (hspare.2 st s₁ h₁))
    · rename_i hel
      rw [if_neg hel] at hspare
      exact ih s _ _ h hspare

/-- **A claim call that strikes no policy out deactivates none.** -/
theorem sparesPolicies_of_claimCall {c : ClaimCall} (h : c.exec env s = .ok s')
    (hspare : c.Spares s) : SparesPolicies s s' := by
  have hran := ran_of_exec h
  cases c with
  | voteOnClaim =>
    obtain ⟨st, hran⟩ := hran
    exact sparesPolicies_of_voteOnClaim hran hspare
  | finalizeClaim =>
    obtain ⟨st, hran⟩ := hran
    exact sparesPolicies_of_finalizeClaimInner hran hspare
  | processDeadline =>
    obtain ⟨-, st, hran⟩ := hran
    exact sparesPolicies_of_finalizeClaimInner hran hspare
  | finalizeExpiredBatch =>
    obtain ⟨n, m, t, hloop, rfl⟩ := hran
    have ht := sparesPolicies_of_finalizeBatchLoop _ s 0 0 hloop hspare
    exact ht.trans (SparesPolicies.of_same (.refl _ t))
  | _ => exact .of_same ((frame_claimCall h).sameKind rfl)

/-- No active policy of the holder among `ids` is past its grace period. -/
def State.NoneLapsed (s : State) (holder : Address) (ids : List Nat) : Prop :=
  ∀ id ∈ ids, ∀ p, s.getPolicy holder id = some p → p.isActive = true → ¬ s.Lapsed p

/-- Without a policy to lapse `process_expired` writes expiry marks only. -/
theorem frame_processExpiredLoop_of_noneLapsed {holder : Address} {n : Nat} :
    ∀ (ids : List Nat) (s : State) (m : Nat), processExpiredLoop holder ids s m = .ok (n, s') →
      s.NoneLapsed holder ids → Frame [.expiryMark] s s' := by
  intro ids
  induction ids with
  | nil =>
    intro s m h _
    cases h
    exact .refl _ _
  | cons id rest ih =>
    intro s m h hnone
    obtain ⟨⟨b, s₁⟩, h₁, h₂⟩ := bind_eq_ok.mp h
    obtain hf | ⟨p, hp, hactive, hlapsed, -, -⟩ := processExpiredOne_eq_ok h₁
    · refine hf.trans (ih s₁ _ h₂ ?_)
      intro id' hid' p hp hactive
      rw [getPolicy_of_same (hf.sameKind rfl)] at hp
      have hgrace : s₁.getGracePeriodLedgers = s.getGracePeriodLedgers := by
        simp only [State.getGracePeriodLedgers, hf.get .gracePeriodLedgers rfl]
      rw [State.Lapsed, hf.sequence, hgrace]
      exact hnone id' (List.mem_cons_of_mem _ hid') p hp hactive
    · exact absurd hlapsed (hnone id List.mem_cons_self p hp hactive)

end Spares

/-! ## Sound policies -/

/-- The policy is one of `holder` with the positive id `policyId`, covers something, and starts
before it ends. -/
structure Policy.Sound (p : Policy) (holder : Address) (policyId : Nat) : Prop where
  holder : p.holder = holder
  policyId : p.policyId = policyId
  positive : 0 < p.policyId
  coverage : 0 < p.coverage
  window : p.startLedger < p.endLedger

/-- Every stored policy is sound under its key. -/
def State.PoliciesSound (s : State) : Prop :=
  ∀ holder policyId p, s.getPolicy holder policyId = some p → p.Sound holder policyId

section Sound

variable {env : Env} {s s' : State}

theorem policiesSound_of_write {holder : Address} {policyId : Nat} {p : Policy}
    (h : SameKind .policy (s.setPolicy holder policyId p) s') (hp : p.Sound holder policyId)
    (hs : s.PoliciesSound) : s'.PoliciesSound := by
  intro a id q hq
  rw [getPolicy_of_write h] at hq
  split at hq
  · rename_i heq
    obtain ⟨rfl, rfl⟩ := heq
    cases hq
    exact hp
  · exact hs a id q hq

theorem policiesSound_of_edits (h : EditsPolicies s s') (hs : s.PoliciesSound) :
    s'.PoliciesSound := by
  refine h.keeps ?_ hs
  rintro s₁ s₂ (hsame | ⟨holder, policyId, p, p', hget, hedit, hwrite⟩) hs₁
  · intro a id q hq
    rw [getPolicy_of_same hsame] at hq
    exact hs₁ a id q hq
  · have hp := hs₁ holder policyId p hget
    refine policiesSound_of_write hwrite ⟨?_, ?_, ?_, ?_, ?_⟩ hs₁
    · rw [hedit.holder, hp.holder]
    · rw [hedit.policyId, hp.policyId]
    · rw [hedit.policyId]
      exact hp.positive
    · rw [hedit.coverage]
      exact hp.coverage
    · rw [hedit.startLedger, hedit.endLedger]
      exact hp.window

/-- What `initiate_policy` leaves stored: one policy more. -/
theorem initiatePolicy_records {a : InitiatePolicyArgs} {policy : Policy}
    (h : initiatePolicy env s a = .ok (policy, s')) :
    SameKind .policy (s.setPolicy policy.holder policy.policyId policy) s' ∧
      policy.holder = a.holder ∧ policy.policyId = s.getPolicyCounter a.holder + 1 ∧
      policy.isActive = true ∧ 0 < policy.coverage ∧ policy.startLedger < policy.endLedger := by
  obtain ⟨premium, deductible, decimals, treasuryAmount, feeAmount, feeRecipient, s₃,
    s₄, s₅, -, rfl, hf₃, -, -, -, h₄, h₅, hf, -⟩ := initiatePolicy_eq_ok h
  obtain ⟨s₆, s₇, h₆, hwindow, h₇, rfl⟩ := bindPolicy_eq_ok h₅
  have hpre : SameKind .policy s (s₆.set (.assetDecimals a.asset) decimals) := by
    rw [SameKind.set_iff rfl]
    exact ((hf₃.sameKind rfl).trans ((frame_collectPremiumWithFee h₄).sameKind rfl)).trans
      ((frame_reserveCoverage h₆).sameKind rfl)
  refine ⟨?_, rfl, rfl, rfl, (State.reserveCoverage_eq_ok h₆).1, hwindow⟩
  refine SameKind.trans (SameKind.trans (SameKind.set hpre _ _) ((frame_addVoter h₇).sameKind rfl))
    ?_
  exact ((frame_indexPolicyByStatus _ _ _).sameKind rfl).trans (hf.sameKind rfl)

theorem policiesSound_of_policyCall {c : PolicyCall} (h : c.exec env s = .ok s')
    (hs : s.PoliciesSound) : s'.PoliciesSound := by
  have hran := policyRan_of_exec h
  cases c with
  | initiatePolicy =>
    obtain ⟨policy, hran⟩ := hran
    obtain ⟨hrec, -, hid, -, hcov, hwindow⟩ := initiatePolicy_records hran
    exact policiesSound_of_write hrec ⟨rfl, rfl, by omega, hcov, hwindow⟩ hs
  | renewPolicy a =>
    obtain ⟨o, hran⟩ := hran
    obtain hf | ⟨policy, premium, s₁, s₂, -, hget, -, -, hcov, -, -, -, hrec, -⟩ :=
      renewPolicy_eq_ok hran
    · exact policiesSound_of_edits (.of_same (hf.sameKind rfl)) hs
    · have hp := hs _ _ _ hget
      refine policiesSound_of_write hrec ⟨hp.holder, hp.policyId, hp.positive, ?_, ?_⟩ hs
      · exact lt_of_lt_of_le hp.coverage hcov
      · exact Nat.lt_of_lt_of_le hp.window (Nat.le_add_right _ _)
  | transferPolicy holder policyId newHolder =>
    obtain ⟨policy, hget, -, hne, hrec, -⟩ := transferPolicy_records hran
    have hp := hs _ _ _ hget
    intro a id q hq
    rw [getPolicy_of_move hne hrec] at hq
    split at hq
    · cases hq
    · split at hq
      · rename_i heq
        obtain ⟨rfl, rfl⟩ := heq
        cases hq
        exact ⟨rfl, hp.policyId, hp.positive, hp.coverage, hp.window⟩
      · exact hs a id q hq
  | _ => exact policiesSound_of_edits (editsPolicies_of_policyCall h rfl) hs

end Sound

/-- **Every stored policy is sound**, in every run. -/
theorem policiesSound_of_reach {host : Host} {s : State} (h : (contract host).Reach always s) :
    s.PoliciesSound := by
  refine h.invariant (I := State.PoliciesSound) ?_ ?_
  · intro s hs holder policyId p hp
    simp [State.getPolicy, State.Fresh.get host hs] at hp
  · intro s l s' _ hstep hs
    cases l with
    | closeLedger n =>
      obtain ⟨-, -, rfl⟩ := hstep
      exact hs
    | tokens b a =>
      obtain ⟨-, rfl⟩ := hstep
      exact hs
    | call env c =>
      obtain ⟨-, h⟩ := hstep
      cases c with
      | claim c => exact policiesSound_of_edits (editsPolicies_of_claimCall h) hs
      | policy c => exact policiesSound_of_policyCall h hs
      | treasury c =>
        refine policiesSound_of_edits (.of_same ?_) hs
        exact (frame_treasuryCall h).sameKind (c.untouched rfl)
      | setting c => exact policiesSound_of_edits (.of_same ((frame_setting h).sameKind rfl)) hs
      | governance c =>
        refine policiesSound_of_edits (.of_same ?_) hs
        exact (frame_governanceCall h).sameKind (c.untouched rfl)

end NiffyInsure
