import NiffyInsure.ClaimEdit
import NiffyInsure.Trace

/-!
# The evidence of a claim

Two checks guard the evidence list of a claim: `check_claim_fields` at filing, and
`check_claim_evidence_update` where the claimant replaces the list.  The second one has the count
limits, the length and the format of the URLs, and leaves out the non-zero hash and the duplicates.

* `checkClaimFields_eq_ok_iff`, `checkClaimEvidenceUpdate_eq_ok_iff`: what each check accepts.
* `evidenceValid_iff_update`: a list is valid where the second check accepts it and its entries
  are committed and distinct.
* `evidence_valid_of_reach`: in every run in which only such lists replace the evidence of a
  claim, every stored list is valid.
-/

namespace NiffyInsure

open Machine

/-! ## What the checks accept -/

/-- The entry carries a commitment: its hash is not zero. -/
def ClaimEvidenceEntry.Committed (entry : ClaimEvidenceEntry) : Prop :=
  entry.hash.any (· ≠ 0) = true

/-- The URL is short enough, and of a format that is allowed. -/
def State.UrlAccepted (s : State) (entry : ClaimEvidenceEntry) : Prop :=
  entry.url.length ≤ MAX_EVIDENCE_URL_BYTES ∧ s.validateEvidenceUrl entry.url = .ok ()

/-- All that `check_claim_fields` asks of an evidence list. -/
structure State.EvidenceValid (s : State) (evidence : List ClaimEvidenceEntry) : Prop where
  max : evidence.length ≤ s.getMaxEvidenceCount
  min : s.getMinEvidenceCount ≤ evidence.length
  urls : ∀ entry ∈ evidence, s.UrlAccepted entry
  hashes : ∀ entry ∈ evidence, entry.Committed
  distinct : evidence.Nodup

theorem forM_eq_ok {α : Type} {f : α → Result Unit} :
    ∀ {xs : List α} {u : Unit}, xs.forM f = .ok u ↔ ∀ x ∈ xs, f x = .ok () := by
  intro xs
  induction xs with
  | nil => simp [pure, Except.pure]
  | cons x rest ih =>
    intro u
    change (f x >>= fun _ => rest.forM f) = .ok u ↔ _
    rw [bind_eq_ok, List.forall_mem_cons]
    constructor
    · rintro ⟨v, hx, hrest⟩
      exact ⟨hx, ih.mp hrest⟩
    · rintro ⟨hx, hrest⟩
      exact ⟨(), hx, ih.mpr hrest⟩

section Checks

variable {s s' : State} {evidence : List ClaimEvidenceEntry}

theorem checkEvidenceEntry_eq_ok_iff {entry : ClaimEvidenceEntry} :
    s.checkEvidenceEntry entry = .ok () ↔ s.UrlAccepted entry ∧ entry.Committed := by
  simp only [State.checkEvidenceEntry, bind_eq_ok, ensure_eq_ok]
  constructor
  · rintro ⟨-, hlen, -, hhash, hurl⟩
    exact ⟨⟨hlen, hurl⟩, hhash⟩
  · rintro ⟨⟨hlen, hurl⟩, hhash⟩
    exact ⟨(), hlen, (), hhash, hurl⟩

/-- **What `check_claim_fields` accepts.** -/
theorem checkClaimFields_eq_ok_iff {amount coverage : Int} {details : Str} :
    s.checkClaimFields amount coverage details evidence = .ok () ↔
      0 < amount ∧ amount ≤ coverage ∧ details.length ≤ DETAILS_MAX_LEN ∧
        s.EvidenceValid evidence := by
  simp only [State.checkClaimFields, bind_eq_ok, ensure_eq_ok, forM_eq_ok,
    checkEvidenceEntry_eq_ok_iff]
  constructor
  · rintro ⟨-, hpos, -, hcov, -, hdetails, -, hmax, -, hmin, -, hall, hdup⟩
    exact ⟨hpos, hcov, hdetails, hmax, hmin, fun e he => (hall e he).1, fun e he => (hall e he).2,
      hdup⟩
  · rintro ⟨hpos, hcov, hdetails, hvalid⟩
    exact ⟨(), hpos, (), hcov, (), hdetails, (), hvalid.max, (), hvalid.min, (),
      fun e he => ⟨hvalid.urls e he, hvalid.hashes e he⟩, hvalid.distinct⟩

/-- **What `check_claim_evidence_update` accepts.** -/
theorem checkClaimEvidenceUpdate_eq_ok_iff :
    s.checkClaimEvidenceUpdate evidence = .ok () ↔
      evidence.length ≤ s.getMaxEvidenceCount ∧ s.getMinEvidenceCount ≤ evidence.length ∧
        ∀ entry ∈ evidence, s.UrlAccepted entry := by
  simp only [State.checkClaimEvidenceUpdate, bind_eq_ok, ensure_eq_ok, forM_eq_ok]
  constructor
  · rintro ⟨-, hmax, -, hmin, hall⟩
    refine ⟨hmax, hmin, ?_⟩
    intro entry he
    obtain ⟨-, hlen, hurl⟩ := hall entry he
    exact ⟨hlen, hurl⟩
  · rintro ⟨hmax, hmin, hall⟩
    refine ⟨(), hmax, (), hmin, ?_⟩
    intro entry he
    exact ⟨(), (hall entry he).1, (hall entry he).2⟩

theorem evidenceValid_iff_update :
    s.EvidenceValid evidence ↔ s.checkClaimEvidenceUpdate evidence = .ok () ∧
      (∀ entry ∈ evidence, entry.Committed) ∧ evidence.Nodup := by
  rw [checkClaimEvidenceUpdate_eq_ok_iff]
  constructor
  · intro h
    exact ⟨⟨h.max, h.min, h.urls⟩, h.hashes, h.distinct⟩
  · rintro ⟨⟨hmax, hmin, hurls⟩, hhashes, hdistinct⟩
    exact ⟨hmax, hmin, hurls, hhashes, hdistinct⟩

/-- The limits stay, and the new gateways take the URLs of the list. -/
theorem State.EvidenceValid.congr (h : s.EvidenceValid evidence)
    (hmax : s'.getMaxEvidenceCount = s.getMaxEvidenceCount)
    (hmin : s'.getMinEvidenceCount = s.getMinEvidenceCount)
    (hurls : ∀ entry ∈ evidence, s'.validateEvidenceUrl entry.url = .ok ()) :
    s'.EvidenceValid evidence where
  max := hmax ▸ h.max
  min := hmin ▸ h.min
  urls entry he := ⟨(h.urls entry he).1, hurls entry he⟩
  hashes := h.hashes
  distinct := h.distinct

theorem State.EvidenceValid.of_same (h : s.EvidenceValid evidence)
    (hrules : SameKind .evidenceRules s s') : s'.EvidenceValid evidence := by
  refine h.congr ?_ ?_ ?_
  · simp only [State.getMaxEvidenceCount, hrules .maxEvidenceCount rfl]
  · simp only [State.getMinEvidenceCount, hrules .minEvidenceCount rfl]
  · intro entry he
    rw [State.validateEvidenceUrl, State.getGatewayAllowlist, hrules .gatewayAllowlist rfl]
    exact (h.urls entry he).2

end Checks

/-! ## The stored lists -/

/-- Every stored claim has valid evidence. -/
def State.AllEvidenceValid (s : State) : Prop :=
  ∀ id claim, s.getClaim id = some claim → s.EvidenceValid claim.evidence

/-- The evidence of the stored claims is what it was. -/
def SameEvidence (s s' : State) : Prop :=
  ∀ id claim', s'.getClaim id = some claim' →
    ∃ claim, s.getClaim id = some claim ∧ claim'.evidence = claim.evidence

section Stored

variable {env : Env} {s s' s'' : State} {claimId : Nat}

theorem SameEvidence.of_same (h : SameKind .claim s s') : SameEvidence s s' := by
  intro id claim' hclaim'
  rw [getClaim_of_same h] at hclaim'
  exact ⟨claim', hclaim', rfl⟩

theorem SameEvidence.trans (h : SameEvidence s s') (h' : SameEvidence s' s'') :
    SameEvidence s s'' := by
  intro id claim'' hclaim''
  obtain ⟨claim', hclaim', heq'⟩ := h' id claim'' hclaim''
  obtain ⟨claim, hclaim, heq⟩ := h id claim' hclaim'
  exact ⟨claim, hclaim, heq'.trans heq⟩

theorem SameEvidence.of_write {claim claim' : Claim} (hk : s.ClaimsKeyed)
    (hclaim : s.getClaim claimId = some claim) (hwrite : SameKind .claim (s.setClaim claim') s')
    (hid : claim'.claimId = claim.claimId) (hevidence : claim'.evidence = claim.evidence) :
    SameEvidence s s' := by
  intro id c hc
  rw [getClaim_of_write hwrite] at hc
  split at hc
  · rename_i heq
    cases hc
    rw [heq, hid, (hk _ _ hclaim).1]
    exact ⟨claim, hclaim, hevidence⟩
  · exact ⟨c, hc, rfl⟩

theorem SameEvidence.allValid (h : SameEvidence s s') (hrules : SameKind .evidenceRules s s')
    (hs : s.AllEvidenceValid) : s'.AllEvidenceValid := by
  intro id claim' hclaim'
  obtain ⟨claim, hclaim, heq⟩ := h id claim' hclaim'
  rw [heq]
  exact (hs id claim hclaim).of_same hrules

@[simp] theorem evidence_tally (claim : Claim) (vote : VoteOption) (w : Nat) :
    (claim.tally vote w).evidence = claim.evidence := by
  cases vote <;> rfl

@[simp] theorem evidence_tallyAppeal (claim : Claim) (vote : VoteOption) (w : Nat) :
    (claim.tallyAppeal vote w).evidence = claim.evidence := by
  cases vote <;> rfl

theorem Closed.sameEvidence {claim claim' : Claim} {outcome : ClaimStatus}
    (h : Closed s s' claim' outcome) (hk : s.ClaimsKeyed)
    (hclaim : s.getClaim claimId = some claim) (hid : claim'.claimId = claim.claimId)
    (hevidence : claim'.evidence = claim.evidence) : SameEvidence s s' := by
  obtain ⟨x, y, z, hrec⟩ := h.record
  exact .of_write hk hclaim hrec hid hevidence

theorem AppealStep.sameEvidence {claim claim' : Claim} (h : AppealStep s s' claim')
    (hk : s.ClaimsKeyed) (hclaim : s.getClaim claimId = some claim)
    (hid : claim'.claimId = claim.claimId) (hevidence : claim'.evidence = claim.evidence) :
    SameEvidence s s' := by
  cases h with
  | voting hrec _ => exact .of_write hk hclaim hrec hid hevidence
  | decided outcome x y _ hrec _ => exact .of_write hk hclaim hrec hid hevidence

theorem sameEvidence_of_finalizeClaimInner {st : ClaimStatus} (hk : s.ClaimsKeyed)
    (h : finalizeClaimInner s claimId = .ok (st, s')) : SameEvidence s s' := by
  obtain ⟨claim, hclaim, -, hclosed⟩ := finalizeClaimInner_cases h
  exact hclosed.sameEvidence hk hclaim rfl rfl

theorem sameEvidence_of_voteOnClaim {voter : Address} {vote : VoteOption} {st : ClaimStatus}
    (hk : s.ClaimsKeyed) (h : voteOnClaim s voter claimId vote = .ok (st, s')) :
    SameEvidence s s' := by
  obtain ⟨claim, w, hclaim, -, -, ⟨-, rfl⟩ | ⟨outcome, -, hclosed⟩⟩ := voteOnClaim_cases h
  · exact .of_write hk hclaim (SameKind.set (by simp) _ _) (claimId_tally ..) (evidence_tally ..)
  · obtain ⟨x, y, z, hrec⟩ := hclosed.record
    exact .of_write hk hclaim (SameKind.trans (SameKind.set (by simp) _ _) hrec)
      (claimId_tally ..) (evidence_tally ..)

/-- The call takes an evidence list. -/
def ClaimCall.takesEvidence : ClaimCall → Bool
  | .fileClaim .. | .addClaimEvidence .. => true
  | _ => false

/-- **Only filing and replacing write evidence.** -/
theorem sameEvidence_of_claimCall {c : ClaimCall} (hk : s.ClaimsKeyed)
    (h : c.exec env s = .ok s') (hc : c.takesEvidence = false) : SameEvidence s s' := by
  have hran := ran_of_exec h
  cases c with
  | fileClaim | addClaimEvidence => cases hc
  | withdrawClaim =>
    obtain ⟨claim, hclaim, -, -, -, hrec, -⟩ := withdrawClaim_eq_ok hran
    exact .of_write hk hclaim hrec rfl rfl
  | voteOnClaim =>
    obtain ⟨st, hran⟩ := hran
    exact sameEvidence_of_voteOnClaim hk hran
  | finalizeClaim =>
    obtain ⟨st, hran⟩ := hran
    exact sameEvidence_of_finalizeClaimInner hk hran
  | processDeadline =>
    obtain ⟨-, st, hran⟩ := hran
    exact sameEvidence_of_finalizeClaimInner hk hran
  | finalizeExpiredBatch =>
    obtain ⟨n, m, t, hloop, rfl⟩ := hran
    have hall := finalizeBatchLoop_keeps (I := fun u => u.ClaimsKeyed ∧ SameEvidence s u) ?_ _ s 0 0
      hloop ⟨hk, .of_same (.refl _ s)⟩
    · exact hall.2.trans (.of_same (by simp))
    · rintro t t' id st - hfin ⟨hkt, ht⟩
      exact ⟨claimsKeyed_of_rewrites (rewrites_of_finalizeClaimInner hfin)
        ((frame_finalizeClaimInner hfin).sameKind rfl) hkt,
        ht.trans (sameEvidence_of_finalizeClaimInner hkt hfin)⟩
  | escalateClaim =>
    obtain ⟨claim, hclaim, -, hrec⟩ := escalateClaim_eq_ok hran
    exact .of_write hk hclaim hrec rfl rfl
  | processClaim =>
    obtain ⟨claim, failed, hclaim, -, -, -, hrec, -⟩ := processClaim_eq_ok hran
    refine .of_write hk hclaim hrec ?_ ?_
    · cases failed <;> rfl
    · cases failed <;> rfl
  | processPayoutTimeout =>
    obtain ⟨st, hran⟩ := hran
    obtain ⟨claim, hclaim, -, hrec, -⟩ := processPayoutTimeout_eq_ok hran
    exact .of_write hk hclaim hrec rfl rfl
  | disputeClaim =>
    obtain ⟨claim, hclaim, -, hrec⟩ := disputeClaim_eq_ok hran
    exact .of_write hk hclaim hrec rfl rfl
  | disburseInstallment id amount =>
    obtain ⟨claim, p, hclaim, -, -, -, -, -, -, hlast, hmore⟩ := disburseInstallment_eq_ok hran
    by_cases hcomp : claim.Completes amount
    · exact .of_write hk hclaim (hlast hcomp).1 rfl rfl
    · exact .of_write hk hclaim (hmore hcomp).1 rfl rfl
  | openAppeal =>
    obtain ⟨claim, deadline, hclaim, -, hrec, -⟩ := openAppeal_eq_ok hran
    exact .of_write hk hclaim hrec rfl rfl
  | voteOnAppeal =>
    obtain ⟨st, hran⟩ := hran
    obtain ⟨claim, hclaim, -, hstep⟩ := voteOnAppeal_eq_ok hran
    exact hstep.sameEvidence hk hclaim (claimId_tallyAppeal ..) (evidence_tallyAppeal ..)
  | finalizeAppeal =>
    obtain ⟨st, hran⟩ := hran
    obtain ⟨claim, hclaim, -, hstep⟩ := finalizeAppeal_eq_ok hran
    exact hstep.sameEvidence hk hclaim rfl rfl
  | revealVote =>
    obtain ⟨claim, hclaim, -, hrec, -⟩ := revealVote_eq_ok hran
    exact .of_write hk hclaim hrec (claimId_tally ..) (evidence_tally ..)
  | refreshSnapshot | setClaimFraudScore | setCommitRevealPhases | commitVote | delegateVote =>
    exact .of_same ((frame_claimCall h).sameKind rfl)

theorem evidenceValid_of_fileClaim {holder : Address} {policyId : Nat} {amount : Int}
    {details : Str} {evidence : List ClaimEvidenceEntry} {expectedNonce : Option Nat}
    (h : fileClaim env s holder policyId amount details evidence expectedNonce =
      .ok (claimId, s')) : s.EvidenceValid evidence := by
  simp only [fileClaim, bind_eq_ok] at h
  obtain ⟨-, -, s₁, h₁, policy, -, u, hcheck, -⟩ := h
  simp only [State.checkFiling, bind_eq_ok] at hcheck
  obtain ⟨-, -, -, -, -, -, -, -, -, -, hfields⟩ := hcheck
  obtain ⟨-, -, -, hvalid⟩ := checkClaimFields_eq_ok_iff.mp hfields
  exact hvalid.of_same ((frame_checkAndBumpNonce h₁).sameKind rfl).symm

theorem checked_of_addClaimEvidence {claimant : Address} {newEvidence : List ClaimEvidenceEntry}
    (h : addClaimEvidence s claimant claimId newEvidence = .ok s') :
    s.checkClaimEvidenceUpdate newEvidence = .ok () := by
  simp only [addClaimEvidence, bind_eq_ok] at h
  obtain ⟨-, -, claim, -, -, -, -, -, u, hcheck, -⟩ := h
  exact hcheck

theorem allEvidenceValid_of_write {claim : Claim} (hs : s.AllEvidenceValid)
    (hwrite : SameKind .claim (s.setClaim claim) s') (hrules : SameKind .evidenceRules s s')
    (hvalid : s.EvidenceValid claim.evidence) : s'.AllEvidenceValid := by
  intro id c hc
  rw [getClaim_of_write hwrite] at hc
  split at hc
  · cases hc
    exact hvalid.of_same hrules
  · exact (hs id c hc).of_same hrules

end Stored

/-! ## Runs -/

/-- The condition on a step.  A list that replaces the evidence of a claim has commitments and no
entry twice.  The count limits stay as they are, and a new gateway list takes the URLs that are
stored. -/
def KeepsEvidence (s : State) : Label → Prop
  | .call _ (.claim (.addClaimEvidence _ _ newEvidence)) =>
    (∀ entry ∈ newEvidence, entry.Committed) ∧ newEvidence.Nodup
  | .call _ (.setting (.adminSetMaxEvidenceCount newCount)) => newCount = s.getMaxEvidenceCount
  | .call _ (.setting (.adminSetMinEvidenceCount newMin)) => newMin = s.getMinEvidenceCount
  | .call _ (.setting (.adminSetGatewayAllowlist gateways)) =>
    ∀ claim ∈ s.claims, ∀ entry ∈ claim.evidence,
      (ipfsScheme.isPrefixOf entry.url || gateways.any (·.isPrefixOf entry.url)) = true
  | _ => True

section Steps

variable {env : Env} {s s' : State}

theorem get_of_configure_self {auth : Result Address} {pre check : Result Unit} {cooldown : Bool}
    {k : DataKey} {v : k.Val} (h : s.configure auth pre cooldown check [⟨k, some v⟩] = .ok s') :
    s'.get k = some v := by
  obtain ⟨s₁, -, -, rfl⟩ := configure_eq_ok h
  exact State.get_set_self s₁ v

theorem get_of_configure_ne {auth : Result Address} {pre check : Result Unit} {cooldown : Bool}
    {k : DataKey} {v : k.Val} (h : s.configure auth pre cooldown check [⟨k, some v⟩] = .ok s')
    (k' : DataKey) (hne : k' ≠ k) (hk : k'.kind ≠ .govCooldown) : s'.get k' = s.get k' := by
  obtain ⟨s₁, hs₁, -, rfl⟩ := configure_eq_ok h
  change (s₁.set k v).get k' = _
  rw [State.get_set_of_ne _ _ hne]
  have hkind : [Kind.govCooldown].contains k'.kind = false := by
    rw [List.contains_eq_mem, decide_eq_false_iff_not, List.mem_singleton]
    exact hk
  exact hs₁.get k' hkind

theorem State.EvidenceValid.of_setting {c : Setting} {claim : Claim} (h : c.exec env s = .ok s')
    (hok : KeepsEvidence s (.call env (.setting c))) (hclaim : claim ∈ s.claims)
    (hvalid : s.EvidenceValid claim.evidence) : s'.EvidenceValid claim.evidence := by
  cases c with
  | adminSetMaxEvidenceCount newCount =>
    refine hvalid.congr ?_ ?_ ?_
    · rw [State.getMaxEvidenceCount, get_of_configure_self h]
      exact hok
    · simp only [State.getMinEvidenceCount, get_of_configure_ne h .minEvidenceCount
        (by decide) (by decide)]
    · intro entry he
      rw [State.validateEvidenceUrl, State.getGatewayAllowlist,
        get_of_configure_ne h .gatewayAllowlist (by decide) (by decide)]
      exact (hvalid.urls entry he).2
  | adminSetMinEvidenceCount newMin =>
    refine hvalid.congr ?_ ?_ ?_
    · simp only [State.getMaxEvidenceCount, get_of_configure_ne h .maxEvidenceCount
        (by decide) (by decide)]
    · rw [State.getMinEvidenceCount, get_of_configure_self h]
      exact hok
    · intro entry he
      rw [State.validateEvidenceUrl, State.getGatewayAllowlist,
        get_of_configure_ne h .gatewayAllowlist (by decide) (by decide)]
      exact (hvalid.urls entry he).2
  | adminSetGatewayAllowlist gateways =>
    refine hvalid.congr ?_ ?_ ?_
    · simp only [State.getMaxEvidenceCount, get_of_configure_ne h .maxEvidenceCount
        (by decide) (by decide)]
    · simp only [State.getMinEvidenceCount, get_of_configure_ne h .minEvidenceCount
        (by decide) (by decide)]
    · intro entry he
      rw [State.validateEvidenceUrl, State.getGatewayAllowlist, get_of_configure_self h]
      exact ensure_eq_ok.mpr (hok claim hclaim entry he)
  | _ => exact hvalid.of_same ((frame_settingOf h).sameKind rfl)

theorem allEvidenceValid_of_setting {c : Setting} (h : c.exec env s = .ok s')
    (hok : KeepsEvidence s (.call env (.setting c))) (hs : s.AllEvidenceValid) :
    s'.AllEvidenceValid := by
  intro id claim hclaim
  rw [getClaim_of_same ((frame_setting h).sameKind rfl)] at hclaim
  exact (hs id claim hclaim).of_setting h hok (mem_claims.mpr ⟨id, hclaim⟩)

theorem allEvidenceValid_of_claimCall {c : ClaimCall} (hk : s.ClaimsKeyed)
    (h : c.exec env s = .ok s') (hok : KeepsEvidence s (.call env (.claim c)))
    (hs : s.AllEvidenceValid) : s'.AllEvidenceValid := by
  have hrules : SameKind .evidenceRules s s' := (frame_claimCall h).sameKind (c.untouched rfl)
  have hran := ran_of_exec h
  cases c with
  | fileClaim =>
    obtain ⟨claimId, hran⟩ := hran
    obtain ⟨policy, voters, deadline, -, -, -, -, -, -, hrec, -⟩ := fileClaim_eq_ok hran
    exact allEvidenceValid_of_write hs hrec hrules (evidenceValid_of_fileClaim hran)
  | addClaimEvidence =>
    obtain ⟨claim, -, -, hrec⟩ := addClaimEvidence_eq_ok hran
    refine allEvidenceValid_of_write hs hrec hrules ?_
    exact evidenceValid_iff_update.mpr ⟨checked_of_addClaimEvidence hran, hok⟩
  | _ => exact (sameEvidence_of_claimCall hk h rfl).allValid hrules hs

/-- The step lemma: what meets the condition keeps every stored list valid. -/
theorem allEvidenceValid_of_step {host : Host} (s : State) (l : Label) (s' : State)
    (hk : s.ClaimsKeyed) (hok : KeepsEvidence s l) (hstep : (contract host).step s l s')
    (hs : s.AllEvidenceValid) : s'.AllEvidenceValid := by
  cases l with
  | closeLedger n =>
    obtain ⟨-, -, rfl⟩ := hstep
    exact SameEvidence.allValid (s := s) (.of_same fun _ _ => rfl) (fun _ _ => rfl) hs
  | tokens b a =>
    obtain ⟨-, rfl⟩ := hstep
    exact SameEvidence.allValid (s := s) (.of_same fun _ _ => rfl) (fun _ _ => rfl) hs
  | call env c =>
    have hf := frame_exec hstep.2
    cases c with
    | claim c => exact allEvidenceValid_of_claimCall hk hstep.2 hok hs
    | setting c => exact allEvidenceValid_of_setting hstep.2 hok hs
    | policy c =>
      have hclaims : SameKind .claim s s' := hf.sameKind (c.untouched rfl)
      exact (SameEvidence.of_same hclaims).allValid (hf.sameKind (c.untouched rfl)) hs
    | treasury c =>
      have hclaims : SameKind .claim s s' := hf.sameKind (c.untouched rfl)
      exact (SameEvidence.of_same hclaims).allValid (hf.sameKind (c.untouched rfl)) hs
    | governance c =>
      have hclaims : SameKind .claim s s' := hf.sameKind (c.untouched rfl)
      exact (SameEvidence.of_same hclaims).allValid (hf.sameKind (c.untouched rfl)) hs

end Steps

/-- **Stored evidence is valid** in every run in which the replacements have commitments and no
entry twice: every stored list passes all that `check_claim_fields` asks of it. -/
theorem evidence_valid_of_reach {host : Host} {s : State} {id : Nat} {claim : Claim}
    (h : (contract host).Reach KeepsEvidence s) (hclaim : s.getClaim id = some claim) :
    s.EvidenceValid claim.evidence := by
  have hall : s.AllEvidenceValid := by
    refine h.invariant_with (J := State.ClaimsKeyed) (I := State.AllEvidenceValid)
      (fun s hs => claimsKeyed_of_reach hs.to_always) ?_ allEvidenceValid_of_step
    intro s hs id claim hclaim
    simp [State.getClaim, State.Fresh.get host hs] at hclaim
  exact hall id claim hclaim

/-- An entry of evidence on IPFS. -/
def ipfsEntry (hash : Bytes32) : ClaimEvidenceEntry := ⟨ipfsScheme, hash⟩

/-- Account 1 files a claim with one entry and replaces its evidence by `newEvidence`. -/
def evidenceTrace (newEvidence : List ClaimEvidenceEntry) : List Label :=
  demoSetup ++ [demoCall (.claim (.fileClaim 1 1 1000 [] [ipfsEntry (Vector.replicate 32 1)] none)),
    demoCall (.claim (.addClaimEvidence 1 1 newEvidence))]

/-- A check for `KeepsEvidence`: replacements with commitments and no entry twice, and no setting of
an evidence rule. -/
def checkKeepsEvidence (_ : State) : Label → Bool
  | .call _ (.claim (.addClaimEvidence _ _ newEvidence)) =>
    newEvidence.all (fun entry => entry.hash.any (· ≠ 0)) && decide newEvidence.Nodup
  | .call _ (.setting (.adminSetMaxEvidenceCount _)) => false
  | .call _ (.setting (.adminSetMinEvidenceCount _)) => false
  | .call _ (.setting (.adminSetGatewayAllowlist _)) => false
  | _ => true

theorem keepsEvidence_of_check (s : State) (l : Label) (h : checkKeepsEvidence s l = true) :
    KeepsEvidence s l := by
  unfold checkKeepsEvidence at h
  unfold KeepsEvidence
  split at h
  · rw [Bool.and_eq_true, decide_eq_true_eq, List.all_eq_true] at h
    exact h
  · cases h
  · cases h
  · cases h
  · trivial

/-- A replacement with another commitment keeps the evidence valid. -/
theorem evidence_valid_replaced :
    ∃ s claim, (contract demoHost).Reach KeepsEvidence s ∧ s.getClaim 1 = some claim ∧
      claim.evidence = [ipfsEntry (Vector.replicate 32 2)] ∧ s.EvidenceValid claim.evidence := by
  obtain ⟨s, hreach, hval⟩ := exists_of_follow keepsEvidence_of_check (deployed 5000)
    (evidenceTrace [ipfsEntry (Vector.replicate 32 2)])
    (f := fun s => (s.getClaim 1).map fun c : Claim => c.evidence)
    (a := some [ipfsEntry (Vector.replicate 32 2)]) (fresh_deployed (by decide))
    (by simp [evidenceTrace, demoSetup, demoInit, demoBind]) (by decide +kernel)
  obtain ⟨claim, hclaim, hevidence⟩ := Option.map_eq_some_iff.mp hval
  exact ⟨s, claim, hreach, hclaim, hevidence, evidence_valid_of_reach hreach hclaim⟩

/-- **A replacement without a commitment is stored, and so is one entry twice.**  `file_claim`
refuses the same list. -/
theorem evidence_replaced_unchecked :
    ∃ s claim, (contract demoHost).Reach always s ∧ s.getClaim 1 = some claim ∧
      claim.evidence = [ipfsEntry (Vector.replicate 32 0), ipfsEntry (Vector.replicate 32 0)] ∧
      s.getMaxEvidenceCount = IMAGE_URLS_MAX ∧ s.getMinEvidenceCount = 0 ∧
      s.checkClaimFields 1000 10000000 [] claim.evidence =
        .error (.error .excessiveEvidenceBytes) ∧
      ¬ s.EvidenceValid claim.evidence := by
  obtain ⟨s, hreach, hval⟩ := exists_of_follow always_of_noCheck (deployed 5000)
    (evidenceTrace [ipfsEntry (Vector.replicate 32 0), ipfsEntry (Vector.replicate 32 0)])
    (f := fun s => (s.getMaxEvidenceCount, s.getMinEvidenceCount,
      (s.getClaim 1).map fun c : Claim => (c.evidence,
        (s.checkClaimFields 1000 10000000 [] c.evidence).fault)))
    (a := (IMAGE_URLS_MAX, 0, some ([ipfsEntry (Vector.replicate 32 0),
      ipfsEntry (Vector.replicate 32 0)], some (.error .excessiveEvidenceBytes))))
    (fresh_deployed (by decide)) (by simp [evidenceTrace, demoSetup, demoInit, demoBind])
    (by decide +kernel)
  simp only [Prod.mk.injEq, Option.map_eq_some_iff] at hval
  obtain ⟨hmax, hmin, claim, hclaim, hevidence, hfault⟩ := hval
  refine ⟨s, claim, hreach, hclaim, hevidence, hmax, hmin, eq_error_of_fault hfault, ?_⟩
  intro hvalid
  have htwice := hvalid.distinct
  rw [hevidence] at htwice
  exact absurd htwice (by decide)

end NiffyInsure
