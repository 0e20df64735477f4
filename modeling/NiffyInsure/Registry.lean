import NiffyInsure.ClaimStep
import NiffyInsure.PolicySpec
import NiffyInsure.RegistrySpec

/-!
# The voter registry of a deployed contract

The calls of the contract change the registry through `add_voter`, `remove_voter` and
`add_voters_batch` only.  What these keep, every call keeps (`RegistryKept.exec`), so that the
registry is sound in every run (`registrySound_of_reach`).

`remove_voter` reads the last voter of the last bucket, and would trap on an empty one.  The
buckets that are counted are never empty (`bucketsFilled_of_reach`), so that a policy can always
be taken off its holder's count (`exists_dropActivePolicy`), and no rejection is held up by the
registry (`exists_closeRound`).
-/

namespace NiffyInsure

open Machine

/-- Every bucket that is counted holds a voter. -/
def State.BucketsFilled (s : State) : Prop :=
  ∀ i, i < s.getVoterBucketCount → s.getVoterBucket i ≠ []

section Buckets

variable {s s' : State}

theorem bucketsFilled_congr (hcount : s'.getVoterBucketCount = s.getVoterBucketCount)
    (hbucket : ∀ i, s'.getVoterBucket i = s.getVoterBucket i) (hs : s.BucketsFilled) :
    s'.BucketsFilled := by
  intro i hi
  rw [hbucket]
  rw [hcount] at hi
  exact hs i hi

theorem bucketsFilled_of_same (h : SameKind .registry s s') (hs : s.BucketsFilled) :
    s'.BucketsFilled := by
  refine bucketsFilled_congr ?_ (fun i => ?_) hs
  · simp only [State.getVoterBucketCount, h .voterBucketCount rfl]
  · simp only [State.getVoterBucket, h (.voterBucket i) rfl]

theorem bucketsFilled_set {k : DataKey} (hk : k.kind ≠ .registry) (v : k.Val)
    (hs : s.BucketsFilled) : (s.set k v).BucketsFilled :=
  bucketsFilled_of_same (.of_set_ne hk v) hs

/-- The buckets of a sound registry are filled. -/
theorem State.RegistrySound.bucketsFilled (hs : s.RegistrySound) : s.BucketsFilled := by
  intro i hi
  have hget : s.buckets[i]? = some (s.getVoterBucket i) := by
    rw [List.getElem?_eq_getElem (by rwa [length_buckets]), getElem_buckets]
  obtain hnil | ⟨front, last, heq, hfull, hne, -⟩ := hs.packed
  · rw [hnil] at hget
    cases hget
  · rw [heq] at hget
    rcases List.mem_append.mp (List.mem_of_getElem? hget) with hin | hin
    · have hlen := hfull _ hin
      intro hempty
      rw [hempty] at hlen
      cases hlen
    · rw [List.mem_singleton.mp hin]
      exact hne

/-- **Removing a voter never traps** while the buckets are filled. -/
theorem exists_removeVoter (hs : s.BucketsFilled) (holder : Address) :
    ∃ s', s.removeVoter holder = .ok s' := by
  unfold State.removeVoter
  split
  · exact ⟨_, rfl⟩
  · split
    · exact ⟨_, rfl⟩
    · rename_i bi offset hfound
      have hbi := (findVoter_eq_some hfound).1
      have hne := hs (s.getVoterBucketCount - 1) (by omega)
      have hpos := List.length_pos_iff.mpr hne
      obtain ⟨tail, htail⟩ : ∃ tail, (s.getVoterBucket (s.getVoterBucketCount - 1))[
          (s.getVoterBucket (s.getVoterBucketCount - 1)).length - 1]? = some tail := by
        exact ⟨_, List.getElem?_eq_getElem (by omega)⟩
      simp only [htail, okOr, bind_eq_ok, pure_eq_ok]
      exact ⟨_, tail, rfl, rfl⟩

theorem bucketsFilled_decrement (holder : Address) (hs : s.BucketsFilled) :
    (s.decrementHolderActivePolicies holder).BucketsFilled :=
  bucketsFilled_set (by simp) _ hs

theorem exists_dropActivePolicy (hs : s.BucketsFilled) (holder : Address) :
    ∃ s', s.dropActivePolicy holder = .ok s' := by
  dsimp only [State.dropActivePolicy]
  split
  · exact exists_removeVoter (bucketsFilled_decrement holder hs) holder
  · exact ⟨_, rfl⟩

end Buckets

/-! ## Rejections are not held up -/

section Rejections

variable {s : State}

theorem exists_onReject (hs : s.BucketsFilled) (claim : Claim) :
    ∃ s', onReject s claim = .ok s' := by
  dsimp only [onReject]
  split
  · exact ⟨_, rfl⟩
  · rename_i policy _
    split
    · obtain ⟨s₃, h₃⟩ := exists_dropActivePolicy (s := ((s.emit (.claimRejected claim.claimId
        claim.policyId claim.claimant claim.rejectVotes claim.approveVotes s.sequence)).emit
        (.strikeIncremented claim.claimant claim.policyId claim.claimId
          (saturatingAdd32 policy.strikeCount 1))).setPolicy claim.claimant claim.policyId
        { policy with
          strikeCount := saturatingAdd32 policy.strikeCount 1
          isActive := false
          terminatedAtLedger := s.sequence
          terminationReason := .excessiveRejections
          terminatedByAdmin := false })
        (bucketsFilled_set (by simp) _ hs) claim.claimant
      refine ⟨s₃.emit (.policyDeactivated claim.claimant claim.policyId 1 s.sequence), ?_⟩
      rw [bind_eq_ok]
      exact ⟨s₃, h₃, rfl⟩
    · exact ⟨_, rfl⟩

/-- **The end of a round is never held up** by the registry. -/
theorem exists_closeRound (hs : s.BucketsFilled) (claimId : Nat) (before : ClaimStatus)
    (claim : Claim) : ∃ s', closeRound s claimId before claim = .ok s' := by
  have hpre := bucketsFilled_of_same ((frame_recordDecision s claimId before claim).sameKind rfl) hs
  rw [closeRound_eq]
  split
  · exact exists_onReject hpre claim
  · exact ⟨_, rfl⟩

end Rejections

/-! ## The calls -/

/-- What the functions of the registry keep. -/
structure RegistryKept (I : State → Prop) : Prop where
  same : ∀ {s s' : State}, SameKind .registry s s' → I s → I s'
  add : ∀ {s s' : State} {holder : Address}, s.addVoter holder = .ok s' → I s → I s'
  remove : ∀ {s s' : State} {holder : Address}, s.removeVoter holder = .ok s' → I s → I s'
  batch : ∀ {s s' : State} {addresses added : List Address},
    s.addVotersBatch addresses = .ok (added, s') → I s → I s'

namespace RegistryKept

variable {I : State → Prop} {env : Env} {s s' : State}

theorem dropActivePolicy (hI : RegistryKept I) {holder : Address}
    (h : s.dropActivePolicy holder = .ok s') (hs : I s) : I s' := by
  have hdec : I (s.decrementHolderActivePolicies holder) :=
    hI.same (.of_set_ne (by simp) _) hs
  dsimp only [State.dropActivePolicy] at h
  split at h
  · exact hI.remove h hdec
  · cases h
    exact hdec

theorem onReject (hI : RegistryKept I) {claim : Claim} (h : onReject s claim = .ok s')
    (hs : I s) : I s' := by
  have hset : ∀ (t : State) (policy : Policy), SameKind .registry s t →
      I (t.setPolicy claim.claimant claim.policyId policy) := by
    intro t policy ht
    exact hI.same (ht.trans (.of_set_ne (by simp) _)) hs
  obtain ⟨-, hf⟩ | ⟨p, t, -, hf, ⟨-, -, u, hdrop, hemit⟩ | ⟨-, rfl⟩⟩ := onReject_cases h
  · exact hI.same (hf.sameKind rfl) hs
  · exact hI.same (hemit.sameKind rfl) (hI.dropActivePolicy hdrop (hset t _ (hf.sameKind rfl)))
  · exact hset t _ (hf.sameKind rfl)

theorem closeRound (hI : RegistryKept I) {claimId : Nat} {before : ClaimStatus} {claim : Claim}
    (h : closeRound s claimId before claim = .ok s') (hs : I s) : I s' := by
  have hpre := hI.same ((frame_recordDecision s claimId before claim).sameKind rfl) hs
  obtain ⟨-, h⟩ | ⟨-, rfl⟩ := closeRound_cases h
  · exact hI.onReject h hpre
  · exact hpre

theorem claimCall (hI : RegistryKept I) {c : ClaimCall} (h : c.exec env s = .ok s')
    (hs : I s) : I s' := by
  refine claimCall_keeps_of_closeRound ?_ (fun hend => hI.closeRound hend) h hs
  intro ks s s' hf _ hregistry _
  exact hI.same (hf.sameKind hregistry)

theorem initiatePolicy (hI : RegistryKept I) {a : InitiatePolicyArgs} {policy : Policy}
    (h : initiatePolicy env s a = .ok (policy, s')) (hs : I s) : I s' := by
  obtain ⟨premium, deductible, decimals, treasuryAmount, feeAmount, feeRecipient, s₃, s₄, s₅, -, -,
    hf₃, -, -, -, h₄, h₅, hf, -⟩ := initiatePolicy_eq_ok h
  obtain ⟨s₆, s₇, h₆, -, h₇, rfl⟩ := bindPolicy_eq_ok h₅
  have hs₄ : I s₄ :=
    hI.same ((hf₃.sameKind rfl).trans ((frame_collectPremiumWithFee h₄).sameKind rfl)) hs
  have hs₆ := hI.same ((frame_reserveCoverage h₆).sameKind rfl) hs₄
  have hs₇ : I s₇ := by
    refine hI.add h₇ (hI.same (s := s₆) ?_ hs₆)
    rw [State.setPolicy, SameKind.set_iff rfl, SameKind.set_iff rfl]
    exact .refl _ _
  exact hI.same (((frame_indexPolicyByStatus _ _ _).sameKind rfl).trans (hf.sameKind rfl)) hs₇

theorem terminateInner (hI : RegistryKept I) {holder : Address} {policyId : Nat}
    {reason : TerminationReason} {byAdmin bypass : Bool}
    (h : terminateInner env s holder policyId reason byAdmin bypass = .ok s') (hs : I s) :
    I s' := by
  obtain ⟨policy, s₁, s₂, s₄, -, -, -, -, hf₁, h₂, hpay, hf, -⟩ := terminateInner_eq_ok h
  have hs₂ := hI.dropActivePolicy h₂ (hI.same (hf₁.sameKind rfl) hs)
  have hrefund := frame_of_refund hpay
  exact hI.same ((hrefund.sameKind rfl).trans (hf.sameKind rfl)) hs₂

theorem policyCall (hI : RegistryKept I) {c : PolicyCall} (h : c.exec env s = .ok s')
    (hs : I s) : I s' := by
  have hf := frame_policyCall h
  cases c with
  | initiatePolicy =>
    obtain ⟨p, h⟩ := dropValue_eq_ok.mp h
    exact hI.initiatePolicy h hs
  | transferPolicy holder policyId newHolder =>
    obtain ⟨policy, s₁, s₂, -, -, -, h₁, h₂, rfl⟩ := transferPolicy_eq_ok h
    have hmove : I (s.moveRecord holder policyId newHolder policy) :=
      hI.same ((frame_moveRecord newHolder policy).sameKind rfl) hs
    exact hI.same (.refl _ s₂) (hI.add h₂ (hI.dropActivePolicy h₁ hmove))
  | terminatePolicy =>
    obtain ⟨-, -, h⟩ := bind_eq_ok.mp h
    exact hI.terminateInner h hs
  | adminTerminatePolicy =>
    simp only [PolicyCall.exec, adminTerminatePolicy, bind_eq_ok] at h
    obtain ⟨-, -, expected, -, -, -, h⟩ := h
    exact hI.terminateInner h hs
  | processExpired holder =>
    obtain ⟨n, h⟩ := dropValue_eq_ok.mp h
    refine processExpiredLoop_keeps ?_ _ s 0 h hs
    intro s₁ s₂ id b h₁ hs₁
    obtain hf₁ | ⟨policy, -, -, -, -, t, ht, hdrop⟩ := processExpiredOne_eq_ok h₁
    · exact hI.same (hf₁.sameKind rfl) hs₁
    · exact hI.dropActivePolicy hdrop (hI.same (ht.sameKind rfl) hs₁)
  | setBeneficiary | adminUpdatePolicyMetadataUri | renewPolicy =>
    exact hI.same (hf.sameKind rfl) hs

theorem setting (hI : RegistryKept I) {c : Setting} (h : c.exec env s = .ok s')
    (hs : I s) : I s' := by
  cases c with
  | addVotersBatch =>
    simp only [Setting.exec, NiffyInsure.addVotersBatch, bind_eq_ok, mapErr_eq_ok, pure_eq_ok,
      Prod.exists] at h
    obtain ⟨admin, -, added, s₁, h₁, rfl⟩ := h
    exact hI.same ((frame_foldl_voterAdded _ _ _).sameKind rfl) (hI.batch h₁ hs)
  | adminRemoveVoter =>
    obtain ⟨admin, -, h⟩ := bind_eq_ok.mp h
    exact hI.remove h hs
  | _ => exact hI.same ((frame_settingOf h).sameKind rfl) hs

/-- **What the functions of the registry keep, every call keeps.** -/
theorem exec (hI : RegistryKept I) {c : Call} (h : c.exec env s = .ok s') (hs : I s) : I s' := by
  cases c with
  | claim c => exact hI.claimCall h hs
  | policy c => exact hI.policyCall h hs
  | treasury c => exact hI.same ((frame_treasuryCall h).sameKind (c.untouched rfl)) hs
  | setting c => exact hI.setting h hs
  | governance c => exact hI.same ((frame_governanceCall h).sameKind (c.untouched rfl)) hs

end RegistryKept

/-! ## Every run -/

theorem registryKept_sound : RegistryKept State.RegistrySound where
  same := registrySound_of_same
  add h hs := (addVoter_exact hs h).1
  remove h hs := by
    obtain ⟨t, ht, hsound, -⟩ := removeVoter_exact hs _
    rw [ht] at h
    cases h
    exact hsound
  batch h hs := (addVotersBatch_exact hs h).1

/-- **The registry is sound**, in every run. -/
theorem registrySound_of_reach {host : Host} {s : State} (h : (contract host).Reach always s) :
    s.RegistrySound := by
  refine h.invariant (I := State.RegistrySound) ?_ ?_
  · intro s hs
    have hnone := State.Fresh.get host hs
    refine registrySound_empty (hnone _) ?_ ?_ fun a => ?_
    · simp [State.getVoterBucketCount, hnone]
    · simp [State.voterRegistryLen, hnone]
    · simp [State.voterRegistryContains, hnone]
  · intro s l s' _ hstep hs
    cases l with
    | closeLedger n =>
      obtain ⟨-, -, rfl⟩ := hstep
      exact registrySound_of_same (s := s) (fun _ _ => rfl) hs
    | tokens b a =>
      obtain ⟨-, rfl⟩ := hstep
      exact registrySound_of_same (s := s) (fun _ _ => rfl) hs
    | call env c => exact registryKept_sound.exec hstep.2 hs

/-- **No bucket of the registry is empty**, in every run. -/
theorem bucketsFilled_of_reach {host : Host} {s : State} (h : (contract host).Reach always s) :
    s.BucketsFilled :=
  (registrySound_of_reach h).bucketsFilled

end NiffyInsure
