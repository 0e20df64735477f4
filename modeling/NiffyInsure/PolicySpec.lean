import NiffyInsure.Frame.Calls

/-!
# What the policy entrypoints do

One lemma for each entrypoint that writes a policy.  A long entrypoint is cut at the helpers
that it calls (the book, the tokens, the voter registry), so that what a helper does is read
off the helper's own lemma; the written policies are given as the old record with the fields
that change.
-/

namespace NiffyInsure

section Binding

variable {env : Env} {s s' : State}

/-- A bound policy has passed the checks; its coverage is reserved and its holder entered as a
voter. -/
theorem bindPolicy_eq_ok {policy : Policy} (h : s.bindPolicy policy = .ok s') :
    ∃ s₁ s₂, s.reserveCoverage policy.asset policy.coverage = .ok s₁ ∧
      policy.startLedger < policy.endLedger ∧
      ((s₁.set (.assetDecimals policy.asset) policy.tokenDecimals).setPolicy policy.holder
        policy.policyId policy).addVoter policy.holder = .ok s₂ ∧
      s' = s₂.indexNewPolicy policy.holder policy.policyId policy := by
  simp only [State.bindPolicy, bind_eq_ok, mapErr_eq_ok, pure_eq_ok] at h
  obtain ⟨s₁, h₁, u, hcheck, s₂, h₂, rfl⟩ := h
  exact ⟨s₁, s₂, h₁, (checkPolicy_eq_ok hcheck).2.2, h₂, rfl⟩

theorem initiatePolicy_eq_ok {a : InitiatePolicyArgs} {policy : Policy}
    (h : initiatePolicy env s a = .ok (policy, s')) :
    ∃ premium deductible tokenDecimals treasuryAmount feeAmount feeRecipient s₃ s₄ s₅,
      env.auths a.holder = true ∧
      policy = newPolicy a (s.getPolicyCounter a.holder + 1) premium deductible s.sequence
        (s.sequence + POLICY_DURATION_LEDGERS) tokenDecimals ∧
      Frame [.nonce, .calcVersion, .policyCounter] s s₃ ∧
      SameKind .policyCounter (s.set (.policyCounter a.holder) policy.policyId) s₃ ∧
      s.getPolicy a.holder policy.policyId = none ∧
      s₃.hasConflict a.holder a.policyType a.region policy.startLedger policy.endLedger = false ∧
      s₃.collectPremiumWithFee env a.holder a.asset treasuryAmount feeRecipient feeAmount = .ok s₄ ∧
      s₄.bindPolicy policy = .ok s₅ ∧ Frame [.premiumEvent] s₅ s' ∧ 0 < premium ∧
      s' = s₅.emitPolicyInitiated policy feeAmount feeRecipient := by
  obtain ⟨-, -, hauth, h₁, -, h₂, -, hpos, -, h₃, hfresh, hfinish, hscan, h₄, h₅⟩ :=
    initiateRun_of_ok h
  rename_i premium treasuryAmount feeAmount deductible _ _ finish d s₁ s₂ _ s₄ s₅
  have hf₁ := frame_checkAndBumpNonce h₁
  have hf₂ := frame_computeQuote h₂
  have hpre : Frame [.nonce, .calcVersion, .policyCounter] s s₂ :=
    (hf₁.mono (by simp)).trans (hf₂.mono (by simp))
  obtain ⟨hid, rfl⟩ := nextPolicyId_eq_ok h₃
  have hcount : s₂.getPolicyCounter a.holder = s.getPolicyCounter a.holder := by
    simp only [State.getPolicyCounter, hf₂.get (.policyCounter a.holder) rfl,
      hf₁.get (.policyCounter a.holder) rfl]
  rw [hcount] at hid
  subst hid
  have hseq : s₂.sequence = s.sequence := hpre.sequence
  simp only [State.sequence_set, hseq] at hfinish
  have hend : finish = s.sequence + POLICY_DURATION_LEDGERS := (checkedAdd32_eq_some.mp hfinish).2
  subst hend
  have hnone : s.getPolicy a.holder (s.getPolicyCounter a.holder + 1) = none := by
    have hget : s₂.getPolicy a.holder (s.getPolicyCounter a.holder + 1) =
        s.getPolicy a.holder (s.getPolicyCounter a.holder + 1) :=
      hpre.get (.policy a.holder (s.getPolicyCounter a.holder + 1)) rfl
    rw [← hget]
    simpa [State.hasPolicy] using hfresh
  have hkind : SameKind .policyCounter
      (s.set (.policyCounter a.holder) (s.getPolicyCounter a.holder + 1))
      (s₂.set (.policyCounter a.holder) (s.getPolicyCounter a.holder + 1)) :=
    ((hf₁.sameKind rfl).trans (hf₂.sameKind rfl)).set _ _
  refine ⟨premium, deductible, d, treasuryAmount, feeAmount, s₂.getFeeRecipient env,
    s₂.set (.policyCounter a.holder) (s.getPolicyCounter a.holder + 1), s₄, s₅, hauth,
    ?_, ?_, hkind,
    hnone, hscan, h₄, h₅, frame_emitPolicyInitiated _ _ _ _, hpos, rfl⟩
  · simp only [State.sequence_set, hseq]
  · rw [Frame.set_iff (by simp)]
    exact hpre

end Binding

/-! ## Changing a policy -/

section Changing

variable {env : Env} {s s' : State} {holder : Address} {policyId : Nat}

theorem setBeneficiary_eq_ok {b : Option Address}
    (h : setBeneficiary env s holder policyId b = .ok s') :
    ∃ policy, s.getPolicy holder policyId = some policy ∧
      (s' = s ∨
        SameKind .policy (s.setPolicy holder policyId { policy with beneficiary := b }) s') := by
  simp only [setBeneficiary, bind_eq_ok, okOr_eq_ok] at h
  obtain ⟨-, -, -, -, policy, hpolicy, -, -, h⟩ := h
  refine ⟨policy, hpolicy, ?_⟩
  split at h
  · cases h
    exact .inl rfl
  · simp only [bind_eq_ok, pure_eq_ok] at h
    obtain ⟨-, -, rfl⟩ := h
    exact .inr (by simp)

theorem updatePolicyMetadataUri_eq_ok {uri : Str}
    (h : updatePolicyMetadataUri s holder policyId uri = .ok s') :
    ∃ policy, s.getPolicy holder policyId = some policy ∧
      (s' = s ∨
        SameKind .policy (s.setPolicy holder policyId { policy with metadataUri := uri }) s') := by
  simp only [updatePolicyMetadataUri, bind_eq_ok, okOr_eq_ok] at h
  obtain ⟨-, -, policy, hpolicy, h⟩ := h
  refine ⟨policy, hpolicy, ?_⟩
  split at h
  · cases h
    exact .inl rfl
  · cases h
    exact .inr (by simp)

/-- The grace period of the policy is over. -/
def State.Lapsed (s : State) (policy : Policy) : Prop :=
  policy.endLedger + s.getGracePeriodLedgers ≤ s.sequence

/-- The writes of `renew_policy` after the premium is collected. -/
def State.renewRecord (s : State) (holder : Address) (policyId : Nat)
    (policy policy₁ : Policy) : State :=
  ((s.setPolicy holder policyId policy₁).reindexPolicy holder policyId policy
    policy₁).resetOnRenewal holder policyId s.sequence

/-- The policy as `renew_policy` stores it for this premium. -/
def RenewPolicyArgs.renew (a : RenewPolicyArgs) (policy : Policy) (premium : Int) : Policy :=
  policy.renewed premium (a.newCoverageAmount.getD policy.coverage)
    (policy.endLedger + POLICY_DURATION_LEDGERS)

/-- The event of a renewal. -/
def RenewPolicyArgs.event (a : RenewPolicyArgs) (policy : Policy) (premium : Int) : Event :=
  .policyRenewed a.holder a.policyId premium (policy.endLedger + POLICY_DURATION_LEDGERS)
    a.coverageType (a.newCoverageTier.getD a.coverageType) policy.coverage
    (a.newCoverageAmount.getD policy.coverage)

theorem frame_renewed (s₂ : State) (a : RenewPolicyArgs) (policy : Policy) (premium : Int) :
    Frame [.policy, .statusIndex, .rolling, .premiumEvent] s₂
      ((s₂.renewRecord a.holder a.policyId policy (a.renew policy premium)).emit
        (a.event policy premium)) := by
  rw [Frame.emit_iff rfl, State.renewRecord, State.resetOnRenewal, Frame.set_iff (by simp)]
  refine Frame.trans ?_ ((frame_reindexPolicy _ _ _ _ _).mono (by simp))
  simp

theorem sameKind_renewed {s₂ : State} (h : SameKind .policy s s₂) (a : RenewPolicyArgs)
    (policy : Policy) (premium : Int) :
    SameKind .policy (s.setPolicy a.holder a.policyId (a.renew policy premium))
      ((s₂.renewRecord a.holder a.policyId policy (a.renew policy premium)).emit
        (a.event policy premium)) := by
  rw [SameKind.emit_iff, State.renewRecord, State.resetOnRenewal, SameKind.set_iff rfl]
  exact (SameKind.set h _ _).trans ((frame_reindexPolicy _ _ _ _ _).sameKind rfl)

/-- `renew_policy` publishes the expiry of a lapsed policy; otherwise it collects the premium and
extends the term of an active policy. -/
theorem renewPolicy_cases {a : RenewPolicyArgs} {o : RenewPolicyOutcome}
    (h : renewPolicy env s a = .ok (o, s')) :
    ∃ policy, env.auths a.holder = true ∧ s.getPolicy a.holder a.policyId = some policy ∧
      ((o = .lapsed ∧ s.Lapsed policy ∧ s' = s.publishPolicyExpiredIfDue policy s.sequence) ∨
        ∃ premium s₁ s₂, o = .renewed (a.renew policy premium) ∧ policy.isActive = true ∧
          ¬ s.Lapsed policy ∧ 0 < premium ∧
          policy.coverage ≤ a.newCoverageAmount.getD policy.coverage ∧ Frame [.calcVersion] s s₁ ∧
          s₁.collectPremium env a.holder policy.asset premium = .ok s₂ ∧
          s' = (s₂.renewRecord a.holder a.policyId policy (a.renew policy premium)).emit
            (a.event policy premium)) := by
  have hlapsed : ∀ {policy : Policy} {lapse : Nat},
      checkedAdd32 policy.endLedger s.getGracePeriodLedgers = some lapse →
      (isExpired s.sequence lapse = true ↔ s.Lapsed policy) := by
    intro policy lapse hlapse
    rw [(checkedAdd32_eq_some.mp hlapse).2]
    exact decide_eq_true_iff
  cases renewRun_of_ok h with
  | lapsed hauth hpolicy hlapse hover =>
    exact ⟨_, hauth, hpolicy, .inl ⟨rfl, (hlapsed hlapse).mp hover, rfl⟩⟩
  | @renewed policy lapse newEnd quote s₁ s₂ hauth hpolicy hlapse halive hcheck h₁ hpos h₂ hend =>
    have hf₁ := frame_computeQuote h₁
    have hseq : s₂.sequence = s.sequence := (frame_collectPremium h₂).sequence.trans hf₁.sequence
    simp only [State.checkRenewal, bind_eq_ok, ensure_eq_ok] at hcheck
    obtain ⟨-, hactive, -, -, -, -, -, -, -, -, -, -, -, hcov⟩ := hcheck
    obtain rfl : newEnd = policy.endLedger + POLICY_DURATION_LEDGERS :=
      (checkedAdd32_eq_some.mp hend).2
    refine ⟨policy, hauth, hpolicy, .inr ⟨quote.totalPremium, s₁, s₂, rfl, hactive,
      fun hl => halive ((hlapsed hlapse).mpr hl), hpos, hcov, hf₁, h₂, ?_⟩⟩
    rw [State.renewRecord, hseq]
    rfl

/-- `renew_policy` on a lapsed policy writes nothing but the expiry mark; otherwise the premium is
collected and the term extended, on an active policy without an open claim. -/
theorem renewPolicy_eq_ok {a : RenewPolicyArgs} {o : RenewPolicyOutcome}
    (h : renewPolicy env s a = .ok (o, s')) :
    Frame [.expiryMark] s s' ∨ ∃ policy premium s₁ s₂,
      env.auths a.holder = true ∧ s.getPolicy a.holder a.policyId = some policy ∧
      policy.isActive = true ∧ ¬ s.Lapsed policy ∧
      policy.coverage ≤ a.newCoverageAmount.getD policy.coverage ∧ Frame [.calcVersion] s s₁ ∧
      s₁.collectPremium env a.holder policy.asset premium = .ok s₂ ∧
      Frame [.policy, .statusIndex, .rolling, .premiumEvent] s₂ s' ∧
      SameKind .policy (s.setPolicy a.holder a.policyId (policy.renewed premium
        (a.newCoverageAmount.getD policy.coverage)
        (policy.endLedger + POLICY_DURATION_LEDGERS))) s' ∧
      Frame [.premiumEvent] (s₂.renewRecord a.holder a.policyId policy (policy.renewed premium
        (a.newCoverageAmount.getD policy.coverage)
        (policy.endLedger + POLICY_DURATION_LEDGERS))) s' := by
  obtain ⟨policy, hauth, hpolicy, ⟨-, -, rfl⟩ | ⟨premium, s₁, s₂, -, hactive, hlapsed, -, hcov, hf₁,
    h₂, rfl⟩⟩ := renewPolicy_cases h
  · exact .inl (frame_publishPolicyExpiredIfDue _ _ _)
  have hsame : SameKind .policy s s₂ :=
    (hf₁.sameKind rfl).trans ((frame_collectPremium h₂).sameKind rfl)
  refine .inr ⟨policy, premium, s₁, s₂, hauth, hpolicy, hactive, hlapsed, hcov, hf₁, h₂,
    frame_renewed _ _ _ _, sameKind_renewed hsame _ _ _, ?_⟩
  rw [Frame.emit_iff rfl]
  exact .refl _ _

/-- The policy in the hands of another holder. -/
def Policy.movedTo (policy : Policy) (newHolder : Address) : Policy :=
  { policy with holder := newHolder }

/-- The writes of `transfer_policy` before the voter registry: the moved record goes under the
old id, while the fresh id goes to the counter and the status index. -/
def State.moveRecord (s : State) (holder : Address) (policyId : Nat) (newHolder : Address)
    (policy : Policy) : State :=
  ((((s.set (.policyCounter newHolder) (s.getPolicyCounter newHolder + 1)).setPolicy newHolder
    policyId (policy.movedTo newHolder)).removePolicy holder policyId).unindexPolicyByStatus
      (computePolicyStatus policy s.sequence) ⟨holder, policyId⟩).indexNewPolicy newHolder
        (s.getPolicyCounter newHolder + 1) (policy.movedTo newHolder)

theorem sameKind_moveRecord (newHolder : Address) (policy : Policy) {kd : Kind}
    (hkd : kd ≠ .statusIndex) :
    SameKind kd (((s.set (.policyCounter newHolder) (s.getPolicyCounter newHolder + 1)).setPolicy
      newHolder policyId (policy.movedTo newHolder)).removePolicy holder policyId)
      (s.moveRecord holder policyId newHolder policy) := by
  refine ((frame_unindexPolicyByStatus _ _ _).trans (frame_indexPolicyByStatus _ _ _)).sameKind ?_
  simpa using hkd

theorem policy_moveRecord (newHolder : Address) (policy : Policy) :
    SameKind .policy ((s.setPolicy newHolder policyId (policy.movedTo newHolder)).removePolicy
      holder policyId) (s.moveRecord holder policyId newHolder policy) := by
  refine SameKind.trans ?_ (sameKind_moveRecord newHolder policy (by decide))
  refine SameKind.remove (SameKind.set ?_ _ _) _
  rw [SameKind.set_iff rfl]
  exact .refl _ s

theorem policyCounter_moveRecord (newHolder : Address) (policy : Policy) :
    SameKind .policyCounter (s.set (.policyCounter newHolder) (s.getPolicyCounter newHolder + 1))
      (s.moveRecord holder policyId newHolder policy) := by
  refine SameKind.trans ?_ (sameKind_moveRecord newHolder policy (by decide))
  rw [State.removePolicy, SameKind.remove_iff rfl, SameKind.set_iff rfl]
  exact .refl _ _

theorem frame_moveRecord (newHolder : Address) (policy : Policy) :
    Frame [.policyCounter, .policy, .statusIndex] s
      (s.moveRecord holder policyId newHolder policy) := by
  refine Frame.trans ?_ (((frame_unindexPolicyByStatus _ _ _).trans
    (frame_indexPolicyByStatus _ _ _)).mono (by simp))
  simp [State.removePolicy]

/-- A transferred policy was active; its record is moved, one holder drops out of the registry
and the other is entered. -/
theorem transferPolicy_eq_ok {newHolder : Address}
    (h : transferPolicy env s holder policyId newHolder = .ok s') :
    ∃ policy s₁ s₂, s.getPolicy holder policyId = some policy ∧ policy.isActive = true ∧
      holder ≠ newHolder ∧
      (s.moveRecord holder policyId newHolder policy).dropActivePolicy holder = .ok s₁ ∧
      s₁.addVoter newHolder = .ok s₂ ∧
      s' = s₂.emit (.policyTransferred (s.getPolicyCounter newHolder + 1) holder newHolder
        s.sequence) := by
  simp only [transferPolicy, bind_eq_ok, okOr_eq_ok, ensure_eq_ok, Prod.exists, pure_eq_ok] at h
  obtain ⟨-, -, -, -, -, hne, -, -, policy, hpolicy, -, hactive, -, -, newId, s₁, h₁,
    s₅, h₅, s₆, h₆, rfl⟩ := h
  obtain ⟨rfl, rfl⟩ := nextPolicyId_eq_ok h₁
  exact ⟨policy, s₅, s₆, hpolicy, hactive, hne, h₅, h₆, rfl⟩

/-- What a transfer leaves stored: the moved record under the old id, and the counter of the
recipient. -/
theorem transferPolicy_records {newHolder : Address}
    (h : transferPolicy env s holder policyId newHolder = .ok s') :
    ∃ policy, s.getPolicy holder policyId = some policy ∧ policy.isActive = true ∧
      holder ≠ newHolder ∧
      SameKind .policy ((s.setPolicy newHolder policyId (policy.movedTo newHolder)).removePolicy
        holder policyId) s' ∧
      SameKind .policyCounter (s.set (.policyCounter newHolder) (s.getPolicyCounter newHolder + 1))
        s' := by
  obtain ⟨policy, s₁, s₂, hpolicy, hactive, hne, h₁, h₂, rfl⟩ := transferPolicy_eq_ok h
  have hf₁ := frame_dropActivePolicy h₁
  have hf₂ := frame_addVoter h₂
  refine ⟨policy, hpolicy, hactive, hne, ?_, ?_⟩
  · rw [SameKind.emit_iff]
    refine SameKind.trans ?_ (hf₂.sameKind rfl)
    exact (policy_moveRecord newHolder policy).trans (hf₁.sameKind rfl)
  · rw [SameKind.emit_iff]
    refine SameKind.trans ?_ (hf₂.sameKind rfl)
    exact (policyCounter_moveRecord newHolder policy).trans (hf₁.sameKind rfl)

end Changing

/-! ## Ending a policy -/

section Ending

variable {env : Env} {s s' : State} {holder : Address} {policyId : Nat}

/-- The record of a policy that has ended. -/
def Policy.ended (policy : Policy) (now : Nat) (reason : TerminationReason)
    (byAdmin : Bool) : Policy :=
  { policy with
    isActive := false
    terminatedAtLedger := now
    terminationReason := reason
    terminatedByAdmin := byAdmin }

theorem lapsePolicy_eq_ok (h : lapsePolicy s holder policyId = .ok s') :
    ∃ policy, s.getPolicy holder policyId = some policy ∧
      ((policy.isActive = false ∧ s' = s) ∨ (policy.isActive = true ∧ s.Lapsed policy ∧
        SameKind .policy (s.setPolicy holder policyId
          (policy.ended s.sequence .lapsedNonPayment false)) s' ∧
        ∃ t, Frame [.expiryMark, .policy, .statusIndex] s t ∧
          t.dropActivePolicy holder = .ok s')) := by
  simp only [lapsePolicy, bind_eq_ok, okOr_eq_ok] at h
  obtain ⟨policy, hpolicy, h⟩ := h
  refine ⟨policy, hpolicy, ?_⟩
  split at h
  · rename_i hinactive
    cases h
    exact .inl ⟨hinactive, rfl⟩
  · rename_i hactive
    simp only [bind_eq_ok, okOr_eq_ok, ensure_eq_ok] at h
    obtain ⟨lapse, hlapse, -, hle, h⟩ := h
    have hlap : s.Lapsed policy := by
      rw [(checkedAdd32_eq_some.mp hlapse).2] at hle
      exact hle
    have hpub := frame_publishPolicyExpiredIfDue s policy s.sequence
    refine .inr ⟨by simpa using hactive, hlap, ?_, _, ?_, h⟩
    · refine SameKind.trans ?_ ((frame_dropActivePolicy h).sameKind rfl)
      refine SameKind.trans ?_ ((frame_reindexPolicy _ _ _ _ _).sameKind rfl)
      exact SameKind.set (hpub.sameKind rfl) _ _
    · refine Frame.trans ?_ ((frame_reindexPolicy _ _ _ _ _).mono (by simp))
      rw [State.setPolicy, Frame.set_iff (by simp)]
      exact hpub.mono (by simp)

theorem processExpiredOne_eq_ok {b : Bool} (h : processExpiredOne s holder policyId = .ok (b, s')) :
    Frame [.expiryMark] s s' ∨ ∃ policy, s.getPolicy holder policyId = some policy ∧
      policy.isActive = true ∧ s.Lapsed policy ∧
      SameKind .policy (s.setPolicy holder policyId
        (policy.ended s.sequence .lapsedNonPayment false)) s' ∧
      ∃ t, Frame [.expiryMark, .policy, .statusIndex] s t ∧ t.dropActivePolicy holder = .ok s' := by
  unfold processExpiredOne at h
  split at h
  · cases h
    exact .inl (.refl _ s)
  · rename_i policy hpolicy
    have hpub := frame_publishPolicyExpiredIfDue s policy s.sequence
    split at h
    · cases h
      exact .inl (.refl _ s)
    · dsimp only at h
      split at h
      · rename_i s₂ h₂
        cases h
        obtain ⟨p, hp, ⟨-, rfl⟩ | ⟨hactive, hlap, hrec, t, ht, hdrop⟩⟩ := lapsePolicy_eq_ok h₂
        · exact .inl hpub
        · have hget : s.getPolicy holder policyId = some p := by
            rw [← hp]
            exact (hpub.get (.policy holder policyId) rfl).symm
          have hgrace : (s.publishPolicyExpiredIfDue policy s.sequence).getGracePeriodLedgers =
              s.getGracePeriodLedgers := by
            simp only [State.getGracePeriodLedgers, hpub.get .gracePeriodLedgers rfl]
          rw [State.Lapsed, hpub.sequence, hgrace] at hlap
          rw [hpub.sequence] at hrec
          refine .inr ⟨p, hget, hactive, hlap, ?_, t, (hpub.mono (by simp)).trans ht, hdrop⟩
          exact (SameKind.set (hpub.sameKind rfl) _ _).trans hrec
      · cases h
        exact .inl hpub
      · cases h
      · cases h
        exact .inl hpub

theorem processExpiredLoop_keeps {I : State → Prop} {n : Nat}
    (hone : ∀ s s' policyId b, processExpiredOne s holder policyId = .ok (b, s') → I s → I s') :
    ∀ (ids : List Nat) (s : State) (m : Nat), processExpiredLoop holder ids s m = .ok (n, s') →
      I s → I s' := by
  intro ids
  induction ids with
  | nil =>
    intro s m h hs
    cases h
    exact hs
  | cons id rest ih =>
    intro s m h hs
    obtain ⟨⟨b, s₁⟩, h₁, h₂⟩ := bind_eq_ok.mp h
    exact ih s₁ _ h₂ (hone s s₁ id b h₁ hs)

theorem terminateInner_eq_ok {reason : TerminationReason} {byAdmin bypass : Bool}
    (h : terminateInner env s holder policyId reason byAdmin bypass = .ok s') :
    ∃ policy s₁ s₂ s₄, s.getPolicy holder policyId = some policy ∧ policy.holder = holder ∧
      policy.isActive = true ∧
      SameKind .policy (s.setPolicy holder policyId (policy.ended s.sequence reason byAdmin)) s₁ ∧
      Frame [.policy, .statusIndex] s s₁ ∧ s₁.dropActivePolicy holder = .ok s₂ ∧
      ((byAdmin = false ∧ 0 < computeProrataRefund policy s.sequence ∧
          (s₂.ignoreErr (s₂.releaseCoverage policy.asset policy.coverage)).payRefund
          env policy.asset
            holder (computeProrataRefund policy s.sequence) = .ok s₄) ∨
        ¬ (byAdmin = false ∧ 0 < computeProrataRefund policy s.sequence) ∧
          s₄ = s₂.ignoreErr (s₂.releaseCoverage policy.asset policy.coverage)) ∧
      Frame [] s₄ s' ∧
      s' = s₄.emit (.policyTerminated holder policyId (terminationReasonTag reason)
        (if byAdmin then 1 else 0) (if bypass = true ∧
          0 < s.getOpenClaimCount holder policyId then 1
          else 0) (s.getOpenClaimCount holder policyId) s.sequence
        (if byAdmin then 0 else computeProrataRefund policy s.sequence)) := by
  simp only [terminateInner, bind_eq_ok, okOr_eq_ok, ensure_eq_ok] at h
  obtain ⟨-, -, policy, hpolicy, -, hholder, -, hactive, -, -, -, -, s₂, h₂, h⟩ := h
  refine ⟨policy,
    (s.setPolicy holder policyId (policy.ended s.sequence reason byAdmin)).reindexPolicy holder
      policyId policy (policy.ended s.sequence reason byAdmin), s₂, ?_⟩
  have hrec : SameKind .policy
      (s.setPolicy holder policyId (policy.ended s.sequence reason byAdmin))
      ((s.setPolicy holder policyId (policy.ended s.sequence reason byAdmin)).reindexPolicy holder
        policyId policy (policy.ended s.sequence reason byAdmin)) :=
    (frame_reindexPolicy _ _ _ _ _).sameKind rfl
  have hf₁ : Frame [.policy, .statusIndex] s
      ((s.setPolicy holder policyId (policy.ended s.sequence reason byAdmin)).reindexPolicy holder
        policyId policy (policy.ended s.sequence reason byAdmin)) := by
    refine Frame.trans ?_ ((frame_reindexPolicy _ _ _ _ _).mono (by simp))
    simp
  split at h
  · rename_i hrefund
    simp only [bind_eq_ok, pure_eq_ok] at h
    obtain ⟨s₄, h₄, rfl⟩ := h
    exact ⟨s₄, hpolicy, hholder, hactive, hrec, hf₁, h₂, .inl ⟨hrefund.1, hrefund.2, h₄⟩, by
      simp, rfl⟩
  · rename_i hnone
    simp only [bind_eq_ok, pure_eq_ok] at h
    obtain ⟨s₄, rfl, rfl⟩ := h
    exact ⟨_, hpolicy, hholder, hactive, hrec, hf₁, h₂, .inr ⟨hnone, rfl⟩, by simp, rfl⟩

theorem frame_of_refund {P Q R : Prop} {asset : Address} {coverage refund : Int} {s₂ s₄ : State}
    (h : (P ∧ Q ∧ (s₂.ignoreErr (s₂.releaseCoverage asset coverage)).payRefund env asset holder
        refund = .ok s₄) ∨ R ∧ s₄ = s₂.ignoreErr (s₂.releaseCoverage asset coverage)) :
    Frame [.assetLedger, .cash] s₂ s₄ := by
  have hrel : Frame [.assetLedger, .cash] s₂ (s₂.ignoreErr (s₂.releaseCoverage asset coverage)) :=
    (Frame.refl _ s₂).ignoreErr fun t ht => (frame_releaseCoverage ht).mono (by simp)
  rcases h with ⟨-, -, hpay⟩ | ⟨-, rfl⟩
  · exact hrel.trans (frame_payRefund hpay)
  · exact hrel

end Ending

end NiffyInsure
