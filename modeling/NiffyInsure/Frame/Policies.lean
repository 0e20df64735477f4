import NiffyInsure.Frame.Basic

/-!
# What the policy, treasury and configuration entrypoints change

`frame_setting` covers the whole family of settings: they write within `settingKinds`.
-/

namespace NiffyInsure

/-! ## Policies -/

section Policies

variable {env : Env} {s s' : State}

theorem frame_emitPolicyInitiated (s : State) (policy : Policy) (feeAmount : Int)
    (feeRecipient : Address) :
    Frame [.premiumEvent] s (s.emitPolicyInitiated policy feeAmount feeRecipient) := by
  unfold State.emitPolicyInitiated
  dsimp only
  split <;> split <;> simp

theorem frame_bindPolicy {policy : Policy} (h : s.bindPolicy policy = .ok s') :
    Frame [.assetLedger, .assetDecimals, .policy, .registry, .activeCount, .statusIndex] s s' := by
  simp only [State.bindPolicy, bind_eq_ok, mapErr_eq_ok, pure_eq_ok] at h
  obtain ⟨s₁, h₁, -, -, s₄, h₄, rfl⟩ := h
  refine Frame.trans ?_ ((frame_indexPolicyByStatus _ _ _).mono (by simp))
  refine Frame.trans ?_ ((frame_addVoter h₄).mono (by simp))
  simpa using (frame_reserveCoverage h₁).mono (by simp)

/-- The stages of an `initiate_policy` that goes through. -/
inductive InitiateRun (env : Env) (s : State) (a : InitiatePolicyArgs) : Policy → State → Prop
  | bound {multiplier premium treasuryAmount feeAmount : Int} {deductible : Option Int}
      {quote : PremiumQuote} {policyId finish tokenDecimals : Nat} {s₁ s₂ s₃ s₄ s₅ : State}
      (allowed : s.checkBindAllowed a = .ok ())
      (region : s.regionRiskMultiplier a.options.regionCode = .ok multiplier)
      (auth : env.auths a.holder = true)
      (nonce : s.checkAndBumpNonce a.holder a.options.expectedNonce = .ok s₁)
      (args : s₁.checkBindArgs env a = .ok ())
      (quoted : s₁.computeQuote env ⟨a.region, a.ageBand, a.coverageType, a.safetyScore⟩
        a.baseAmount QUOTE_TTL_LEDGERS a.asset = .ok (quote, s₂))
      (priced : checkedMulRatio quote.totalPremium multiplier SCALE .ceil = .ok premium)
      (positive : 0 < premium)
      (parts : env.splitPremium premium s₂.getProtocolFeeBps = some (treasuryAmount, feeAmount))
      (numbered : s₂.nextPolicyId a.holder = .ok (policyId, s₃))
      (fresh : s₃.hasPolicy a.holder policyId = false)
      (ends : checkedAdd32 s₃.sequence POLICY_DURATION_LEDGERS = some finish)
      (clear : s₃.hasConflict a.holder a.policyType a.region s₃.sequence finish = false)
      (collected : s₃.collectPremiumWithFee env a.holder a.asset treasuryAmount
        (s₂.getFeeRecipient env) feeAmount = .ok s₄)
      (stored : s₄.bindPolicy
        (newPolicy a policyId premium deductible s₃.sequence finish tokenDecimals) = .ok s₅) :
      InitiateRun env s a (newPolicy a policyId premium deductible s₃.sequence finish tokenDecimals)
        (s₅.emitPolicyInitiated
          (newPolicy a policyId premium deductible s₃.sequence finish tokenDecimals) feeAmount
          (s₂.getFeeRecipient env))

theorem initiateRun_of_ok {a : InitiatePolicyArgs} {p : Policy}
    (h : initiatePolicy env s a = .ok (p, s')) : InitiateRun env s a p s' := by
  simp only [initiatePolicy, bind_eq_ok, mapErr_eq_ok, requireAuth_eq_ok, okOr_eq_ok, ensure_eq_ok,
    Prod.exists] at h
  obtain ⟨_, hallowed, multiplier, hregion, _, hauth, s₁, h₁, _, hargs, deductible, -,
    quote, s₂, h₂, premium, hpriced, _, hpos, treasuryAmount, feeAmount, hparts, -, -, policyId, s₃,
    h₃, _, hfresh,
    finish, hfinish, _, hclear, s₄, h₄, h⟩ := h
  have hbind : ∀ d : Nat, (do
      let s₅ ← s₄.bindPolicy (newPolicy a policyId premium deductible s₃.sequence finish d)
      pure (newPolicy a policyId premium deductible s₃.sequence finish d,
        s₅.emitPolicyInitiated (newPolicy a policyId premium deductible s₃.sequence finish d)
          feeAmount (s₂.getFeeRecipient env))) = Except.ok (p, s') → InitiateRun env s a p s' := by
    intro d h
    simp only [bind_eq_ok, pure_eq_ok, Prod.mk.injEq] at h
    obtain ⟨s₅, h₅, rfl, rfl⟩ := h
    exact .bound hallowed hregion hauth h₁ hargs h₂ hpriced hpos hparts h₃
      hfresh hfinish hclear h₄ h₅
  split at h
  · obtain ⟨d, -, h⟩ := bind_eq_ok.mp h
    exact hbind d h
  · obtain ⟨d, -, h⟩ := bind_eq_ok.mp h
    exact hbind d h

/-- Binding bumps the holder's nonce, and leaves it alone from there on. -/
theorem initiatePolicy_bumps {a : InitiatePolicyArgs} {p : Policy}
    (h : initiatePolicy env s a = .ok (p, s')) :
    ∃ s₁, s.checkAndBumpNonce a.holder a.options.expectedNonce = .ok s₁ ∧
      Frame [.calcVersion, .policyCounter, .assetLedger, .cash, .assetDecimals, .policy,
        .registry, .activeCount, .statusIndex, .premiumEvent] s₁ s' := by
  obtain ⟨-, -, -, h₁, -, h₂, -, -, -, h₃, -, -, -, h₄, h₅⟩ := initiateRun_of_ok h
  obtain ⟨-, rfl⟩ := nextPolicyId_eq_ok h₃
  refine ⟨_, h₁, ?_⟩
  refine Frame.trans ?_ ((frame_emitPolicyInitiated _ _ _ _).mono (by simp))
  refine Frame.trans ?_ ((frame_bindPolicy h₅).mono (by simp))
  refine Frame.trans ?_ ((frame_collectPremiumWithFee h₄).mono (by simp))
  rw [Frame.set_iff (by simp)]
  exact (frame_computeQuote h₂).mono (by simp)

theorem frame_initiatePolicy {a : InitiatePolicyArgs} {p : Policy}
    (h : initiatePolicy env s a = .ok (p, s')) :
    Frame [.nonce, .calcVersion, .policyCounter, .assetLedger, .cash, .assetDecimals, .policy,
      .registry, .activeCount, .statusIndex, .premiumEvent] s s' := by
  obtain ⟨s₁, h₁, hf⟩ := initiatePolicy_bumps h
  exact ((frame_checkAndBumpNonce h₁).mono (by simp)).trans (hf.mono (by simp))

theorem frame_setBeneficiary {holder : Address} {policyId : Nat} {b : Option Address}
    (h : setBeneficiary env s holder policyId b = .ok s') : Frame [.policy] s s' := by
  simp only [setBeneficiary, bind_eq_ok] at h
  obtain ⟨-, -, -, -, policy, -, -, -, h⟩ := h
  split at h
  · cases h
    simp
  · simp only [bind_eq_ok, pure_eq_ok] at h
    obtain ⟨-, -, rfl⟩ := h
    simp

theorem frame_updatePolicyMetadataUri {holder : Address} {policyId : Nat} {uri : Str}
    (h : updatePolicyMetadataUri s holder policyId uri = .ok s') : Frame [.policy] s s' := by
  simp only [updatePolicyMetadataUri, bind_eq_ok] at h
  obtain ⟨-, -, policy, -, h⟩ := h
  split at h
  · cases h
    simp
  · cases h
    simp

theorem frame_publishPolicyExpiredIfDue (s : State) (policy : Policy) (now : Nat) :
    Frame [.expiryMark] s (s.publishPolicyExpiredIfDue policy now) := by
  unfold State.publishPolicyExpiredIfDue
  split
  · simp
  · split <;> simp

/-- The ways in which `renew_policy` goes through. -/
inductive RenewRun (env : Env) (s : State) (a : RenewPolicyArgs) : RenewPolicyOutcome → State → Prop
  | lapsed {policy : Policy} {lapse : Nat} (auth : env.auths a.holder = true)
      (found : s.getPolicy a.holder a.policyId = some policy)
      (lapses : checkedAdd32 policy.endLedger s.getGracePeriodLedgers = some lapse)
      (expired : isExpired s.sequence lapse = true) :
      RenewRun env s a .lapsed (s.publishPolicyExpiredIfDue policy s.sequence)
  | renewed {policy : Policy} {lapse newEnd : Nat} {quote : PremiumQuote} {s₁ s₂ : State}
      (auth : env.auths a.holder = true)
      (found : s.getPolicy a.holder a.policyId = some policy)
      (lapses : checkedAdd32 policy.endLedger s.getGracePeriodLedgers = some lapse)
      (alive : ¬ isExpired s.sequence lapse = true)
      (checked : s.checkRenewal a policy = .ok ())
      (quoted : s.computeQuote env
        ⟨policy.region, a.ageBand, a.newCoverageTier.getD a.coverageType, a.safetyScore⟩
        policy.coverage QUOTE_TTL_LEDGERS policy.asset = .ok (quote, s₁))
      (positive : 0 < quote.totalPremium)
      (collected : s₁.collectPremium env a.holder policy.asset quote.totalPremium = .ok s₂)
      (ends : checkedAdd32 policy.endLedger POLICY_DURATION_LEDGERS = some newEnd) :
      RenewRun env s a
        (.renewed
          (policy.renewed quote.totalPremium (a.newCoverageAmount.getD policy.coverage) newEnd))
        ((((s₂.setPolicy a.holder a.policyId
          (policy.renewed quote.totalPremium (a.newCoverageAmount.getD policy.coverage)
            newEnd)).reindexPolicy a.holder a.policyId policy
          (policy.renewed quote.totalPremium (a.newCoverageAmount.getD policy.coverage)
            newEnd)).resetOnRenewal a.holder a.policyId s.sequence).emit
          (.policyRenewed a.holder a.policyId quote.totalPremium newEnd a.coverageType
            (a.newCoverageTier.getD a.coverageType) policy.coverage
            (a.newCoverageAmount.getD policy.coverage)))

theorem renewRun_of_ok {a : RenewPolicyArgs} {o : RenewPolicyOutcome}
    (h : renewPolicy env s a = .ok (o, s')) : RenewRun env s a o s' := by
  simp only [renewPolicy, bind_eq_ok, okOr_eq_ok, requireAuth_eq_ok] at h
  obtain ⟨-, -, -, hauth, policy, hpolicy, lapse, hlapse, h⟩ := h
  split at h
  · rename_i hover
    cases h
    exact .lapsed hauth hpolicy hlapse hover
  · rename_i halive
    simp only [bind_eq_ok, mapErr_eq_ok, okOr_eq_ok, ensure_eq_ok, Prod.exists, pure_eq_ok,
      Prod.mk.injEq] at h
    obtain ⟨_, hcheck, quote, s₁, h₁, _, hpos, s₂, h₂, newEnd, hend, -, -, rfl, rfl⟩ := h
    exact .renewed hauth hpolicy hlapse halive hcheck h₁ hpos h₂ hend

theorem frame_renewPolicy {a : RenewPolicyArgs} {o : RenewPolicyOutcome}
    (h : renewPolicy env s a = .ok (o, s')) :
    Frame [.expiryMark, .calcVersion, .assetLedger, .cash, .policy, .statusIndex, .rolling,
      .premiumEvent] s s' := by
  cases renewRun_of_ok h with
  | lapsed => exact (frame_publishPolicyExpiredIfDue _ _ _).mono (by simp)
  | renewed _ _ _ _ _ h₁ _ h₂ _ =>
    rw [Frame.emit_iff rfl, State.resetOnRenewal, Frame.set_iff (by simp)]
    refine Frame.trans ?_ ((frame_reindexPolicy _ _ _ _ _).mono (by simp))
    rw [Frame.set_iff (by simp)]
    exact ((frame_computeQuote h₁).mono (by simp)).trans ((frame_collectPremium h₂).mono (by simp))

theorem frame_transferPolicy {holder newHolder : Address} {policyId : Nat}
    (h : transferPolicy env s holder policyId newHolder = .ok s') :
    Frame [.policyCounter, .policy, .statusIndex, .registry, .activeCount] s s' := by
  simp only [transferPolicy, bind_eq_ok, Prod.exists, pure_eq_ok] at h
  obtain ⟨-, -, -, -, -, -, -, -, policy, -, -, -, -, -, newId, s₁, h₁, s₅, h₅, s₆, h₆, rfl⟩ := h
  obtain ⟨-, rfl⟩ := nextPolicyId_eq_ok h₁
  rw [Frame.emit_iff rfl]
  refine Frame.trans ?_ ((frame_addVoter h₆).mono (by simp))
  refine Frame.trans ?_ ((frame_dropActivePolicy h₅).mono (by simp))
  refine Frame.trans ?_ ((frame_indexPolicyByStatus _ _ _).mono (by simp))
  refine Frame.trans ?_ ((frame_unindexPolicyByStatus _ _ _).mono (by simp))
  simp

theorem frame_lapsePolicy {holder : Address} {policyId : Nat}
    (h : lapsePolicy s holder policyId = .ok s') :
    Frame [.expiryMark, .policy, .statusIndex, .registry, .activeCount] s s' := by
  simp only [lapsePolicy, bind_eq_ok] at h
  obtain ⟨policy, -, h⟩ := h
  split at h
  · cases h
    simp
  · simp only [bind_eq_ok] at h
    obtain ⟨lapse, -, -, -, h⟩ := h
    refine Frame.trans ?_ ((frame_dropActivePolicy h).mono (by simp))
    refine Frame.trans ?_ ((frame_reindexPolicy _ _ _ _ _).mono (by simp))
    rw [Frame.set_iff (by simp)]
    exact (frame_publishPolicyExpiredIfDue _ _ _).mono (by simp)

theorem frame_processExpiredOne {holder : Address} {policyId : Nat} {b : Bool}
    (h : processExpiredOne s holder policyId = .ok (b, s')) :
    Frame [.expiryMark, .policy, .statusIndex, .registry, .activeCount] s s' := by
  unfold processExpiredOne at h
  split at h
  · cases h
    simp
  · rename_i policy _
    have hpub : Frame [.expiryMark, .policy, .statusIndex, .registry, .activeCount] s
        (s.publishPolicyExpiredIfDue policy s.sequence) :=
      (frame_publishPolicyExpiredIfDue _ _ _).mono (by simp)
    split at h
    · cases h
      simp
    · dsimp only at h
      split at h
      · rename_i s₂ h₂
        cases h
        exact hpub.trans (frame_lapsePolicy h₂)
      · cases h
        exact hpub
      · cases h
      · cases h
        exact hpub

theorem frame_processExpiredLoop {holder : Address} {n : Nat} :
    ∀ (ids : List Nat) (s : State) (p : Nat), processExpiredLoop holder ids s p = .ok (n, s') →
      Frame [.expiryMark, .policy, .statusIndex, .registry, .activeCount] s s' := by
  intro ids
  induction ids with
  | nil =>
    intro s p h
    cases h
    simp
  | cons id rest ih =>
    intro s p h
    obtain ⟨⟨b, s₁⟩, h₁, h₂⟩ := bind_eq_ok.mp h
    exact (frame_processExpiredOne h₁).trans (ih _ _ h₂)

theorem frame_payRefund {asset holder : Address} {refund : Int}
    (h : s.payRefund env asset holder refund = .ok s') : Frame [.assetLedger, .cash] s s' :=
  ((Frame.refl _ s).ignoreErr fun _ ht => (frame_recordPayoutOut ht).mono (by simp)).trans
    ((frame_tokenTransfer h).mono (by simp))

theorem frame_terminateInner {holder : Address} {policyId : Nat} {reason : TerminationReason}
    {byAdmin bypass : Bool} (h : terminateInner env s holder policyId reason byAdmin bypass =
      .ok s') :
    Frame [.policy, .statusIndex, .registry, .activeCount, .assetLedger, .cash] s s' := by
  simp only [terminateInner, bind_eq_ok] at h
  obtain ⟨-, -, policy, -, -, -, -, -, -, -, -, -, s₂, h₂, h⟩ := h
  have hrel : Frame [.policy, .statusIndex, .registry, .activeCount, .assetLedger, .cash] s
      (s₂.ignoreErr (s₂.releaseCoverage policy.asset policy.coverage)) := by
    refine Frame.ignoreErr ?_ fun t ht => (frame_releaseCoverage ht).mono (by simp)
    refine Frame.trans ?_ ((frame_dropActivePolicy h₂).mono (by simp))
    refine Frame.trans ?_ ((frame_reindexPolicy _ _ _ _ _).mono (by simp))
    simp
  split at h
  · simp only [bind_eq_ok, pure_eq_ok] at h
    obtain ⟨s₄, h₄, rfl⟩ := h
    rw [Frame.emit_iff rfl]
    exact hrel.trans ((frame_payRefund h₄).mono (by simp))
  · simp only [bind_eq_ok, pure_eq_ok] at h
    obtain ⟨s₄, rfl, rfl⟩ := h
    rw [Frame.emit_iff rfl]
    exact hrel

end Policies

/-! ## Treasury -/

section Treasury

variable {env : Env} {s s' : State}

theorem frame_checkAndUpdateGovCooldown (h : checkAndUpdateGovCooldown s = .ok s') :
    Frame [.govCooldown] s s' := by
  simp only [checkAndUpdateGovCooldown, bind_eq_ok, pure_eq_ok] at h
  obtain ⟨-, -, rfl⟩ := h
  simp

theorem frame_depositTreasury {depositor asset : Address} {amount : Int}
    (h : depositTreasury env s depositor amount asset = .ok s') :
    Frame [.assetLedger, .cash] s s' := by
  simp only [depositTreasury, State.transferIn, bind_eq_ok, pure_eq_ok] at h
  obtain ⟨-, -, -, -, -, -, -, -, s₁, ⟨-, -, -, -, s₂, h₂, h₁⟩, rfl⟩ := h
  rw [Frame.emit_iff rfl]
  exact ((frame_recordDeposit h₂).mono (by simp)).trans ((frame_tokenTransfer h₁).mono (by simp))

theorem frame_checkSweepLimit {amount : Int} (h : s.checkSweepLimit amount = .ok s') :
    Frame [.sweepUse] s s' := by
  unfold State.checkSweepLimit at h
  split at h
  · cases h
    simp
  · simp only [bind_eq_ok, pure_eq_ok] at h
    obtain ⟨c, -, -, -, rfl⟩ := h
    simp

theorem frame_adminSweep {asset recipient : Address} {amount : Int}
    (h : adminSweep env s asset recipient amount = .ok s') :
    Frame [.sweepUse, .assetLedger, .cash] s s' := by
  simp only [adminSweep, bind_eq_ok, mapErr_eq_ok, pure_eq_ok] at h
  obtain ⟨admin, -, -, -, -, -, -, -, -, -, s₁, h₁, s₂, h₂, s₃, h₃, rfl⟩ := h
  rw [Frame.emit_iff rfl]
  refine Frame.trans ?_ ((frame_tokenTransfer h₃).mono (by simp))
  exact ((frame_checkSweepLimit h₁).mono (by simp)).trans ((frame_recordSweep h₂).mono (by simp))

theorem frame_sweepTokenInner {asset recipient : Address} {amount : Int} {reasonCode : Nat}
    (h : sweepTokenInner env s asset recipient amount reasonCode = .ok s') :
    Frame [.sweepUse, .assetLedger, .cash] s s' := by
  simp only [sweepTokenInner, bind_eq_ok, pure_eq_ok] at h
  obtain ⟨-, -, -, -, s₁, h₁, -, -, -, -, -, -, s₃, h₃, admin, -, rfl⟩ := h
  rw [Frame.emit_iff rfl]
  refine Frame.trans ?_ ((frame_tokenTransfer h₃).mono (by simp))
  exact ((frame_checkSweepLimit h₁).mono (by simp)).ignoreErr
    fun t ht => (frame_recordSweep ht).mono (by simp)

theorem frame_drain {recipient : Address} {amount : Int}
    (h : drain env s recipient amount = .ok s') : Frame [.cash] s s' := by
  simp only [drain, bind_eq_ok, pure_eq_ok] at h
  obtain ⟨admin, -, -, -, token, -, s₁, h₁, rfl⟩ := h
  rw [Frame.emit_iff rfl]
  exact frame_tokenTransfer h₁

theorem frame_setTreasury {newTreasury : Address} (h : setTreasury env s newTreasury = .ok s') :
    Frame [.treasury, .govCooldown] s s' := by
  simp only [setTreasury, bind_eq_ok, pure_eq_ok] at h
  obtain ⟨-, -, admin, -, s₁, h₁, rfl⟩ := h
  simpa [State.updateTreasury] using (frame_checkAndUpdateGovCooldown h₁).mono (by simp)

theorem frame_checkAndClearExpiredAdminAction (s : State) :
    Frame [.pendingAction] s s.checkAndClearExpiredAdminAction := by
  unfold State.checkAndClearExpiredAdminAction
  split
  · simp
  · split <;> simp

theorem frame_proposeAdminAction {action : AdminAction}
    (h : proposeAdminAction env s action = .ok s') : Frame [.pendingAction] s s' := by
  simp only [proposeAdminAction, bind_eq_ok, pure_eq_ok] at h
  obtain ⟨proposer, -, -, -, rfl⟩ := h
  simpa using frame_checkAndClearExpiredAdminAction s

theorem frame_confirmAdminAction {confirmer : Address}
    (h : confirmAdminAction env s confirmer = .ok s') :
    Frame [.pendingAction, .treasury, .sweepUse, .assetLedger, .cash] s s' := by
  simp only [confirmAdminAction, bind_eq_ok, pure_eq_ok] at h
  obtain ⟨-, -, pending, -, -, -, -, -, s₁, h₁, rfl⟩ := h
  rw [Frame.emit_iff rfl, Frame.remove_iff (by simp)]
  cases haction : pending.action with
  | treasuryRotation newTreasury =>
    rw [haction] at h₁
    cases h₁
    simp [State.updateTreasury]
  | tokenSweep asset recipient amount reasonCode =>
    rw [haction] at h₁
    exact (frame_sweepTokenInner h₁).mono (by simp)

theorem frame_cancelAdminAction (h : cancelAdminAction env s = .ok s') :
    Frame [.pendingAction] s s' := by
  simp only [cancelAdminAction, bind_eq_ok, pure_eq_ok] at h
  obtain ⟨proposer, -, pending, -, -, -, rfl⟩ := h
  simp

end Treasury

/-! ## Settings -/

section Settings

variable {env : Env} {s s' : State} {ks : List Kind}

theorem frame_writeAll (ks : List Kind) :
    ∀ (writes : List Entry) (s : State), (writes.all fun e => ks.contains e.1.kind) = true →
      Frame ks s (s.writeAll writes) := by
  intro writes
  induction writes with
  | nil =>
    intro s _
    exact .refl ks s
  | cons e rest ih =>
    intro s h
    rw [List.all_cons, Bool.and_eq_true] at h
    have hhead : Frame ks s (s.setOrRemove e.1 e.2) := by
      rw [Frame.setOrRemove_iff h.1]
      exact .refl ks s
    exact hhead.trans (ih _ h.2)

/-- A setting ends with its writes, after the cooldown was brought up to date and the check
passed. -/
theorem configure_eq_ok {auth : Result Address} {pre check : Result Unit} {cooldown : Bool}
    {writes : List Entry} (h : s.configure auth pre cooldown check writes = .ok s') :
    ∃ s₁, Frame [.govCooldown] s s₁ ∧ check = .ok () ∧ s' = s₁.writeAll writes := by
  dsimp only [State.configure] at h
  obtain ⟨a, -, h⟩ := bind_eq_ok.mp h
  obtain ⟨-, -, h⟩ := bind_eq_ok.mp h
  split at h
  · simp only [bind_eq_ok, pure_eq_ok] at h
    obtain ⟨s₁, h₁, u, hcheck, rfl⟩ := h
    exact ⟨s₁, frame_checkAndUpdateGovCooldown h₁, hcheck, rfl⟩
  · simp only [bind_eq_ok, pure_eq_ok] at h
    obtain ⟨s₁, h₁, u, hcheck, rfl⟩ := h
    cases h₁
    exact ⟨s, .refl _ s, hcheck, rfl⟩

theorem frame_configure {auth : Result Address} {pre check : Result Unit} {cooldown : Bool}
    {writes : List Entry} (h : s.configure auth pre cooldown check writes = .ok s')
    (hks : ks.contains .govCooldown = true)
    (hw : (writes.all fun e => ks.contains e.1.kind) = true) : Frame ks s s' := by
  obtain ⟨s₁, hs₁, -, rfl⟩ := configure_eq_ok h
  refine (hs₁.mono ?_).trans (frame_writeAll ks writes s₁ hw)
  simpa using hks

/-- What a setting changes as a rule. -/
def configKinds : List Kind := [.config, .govCooldown, .assetDecimals]

/-- What the settings change between them. -/
def settingKinds : List Kind :=
  [.admin, .pendingAdmin, .pendingAction, .maxVoters, .registry, .gracePeriod, .rollingConfig,
    .votingRules, .sweepLimit, .evidenceRules, .pricing] ++ configKinds

/-- What a setting changes. -/
def Setting.kinds : Setting → List Kind
  | .initializeContract .. => .admin :: .votingRules :: .pricing :: configKinds
  | .proposeAdmin _ => [.pendingAction, .pendingAdmin]
  | .acceptAdmin => [.admin, .pendingAdmin]
  | .cancelAdminProposal => [.pendingAdmin]
  | .adminSetMaxVotersPerClaim _ => .maxVoters :: configKinds
  | .adminSetVoteDurationLedgers _ | .adminSetQuorumBps _ | .adminSetElevatedQuorumBps _
  | .adminSetFraudScoreThreshold _ => .votingRules :: configKinds
  | .updateMultiplierTable _ | .adminSetPremiumMultiplier .. | .adminSetAssetPremiumTable .. =>
    .pricing :: configKinds
  | .setGracePeriodLedgers _ => .gracePeriod :: configKinds
  | .setRollingClaimCap _ | .setRollingClaimWindowLedgers _ => .rollingConfig :: configKinds
  | .adminSetMaxSweepPerLedger _ => .sweepLimit :: configKinds
  | .adminSetMaxEvidenceCount _ | .adminSetMinEvidenceCount _ | .adminSetGatewayAllowlist _ =>
    .evidenceRules :: configKinds
  | .addVotersBatch _ | .adminRemoveVoter _ => [.registry]
  | _ => configKinds

theorem frame_foldl_voterAdded (admin : Address) :
    ∀ (added : List Address) (s : State),
      Frame [] s (added.foldl (fun s voter => s.emit (.voterAdded voter admin)) s) := by
  intro added
  induction added with
  | nil =>
    intro s
    exact .refl _ s
  | cons a rest ih =>
    intro s
    exact ((Frame.emit_iff rfl).mpr (.refl _ s)).trans (ih _)

theorem frame_foldl_appendVoter :
    ∀ (added : List Address) (s : State), Frame [.registry] s
      (added.foldl State.appendVoterUnchecked s) := by
  intro added
  induction added with
  | nil =>
    intro s
    exact .refl _ s
  | cons a rest ih =>
    intro s
    exact (frame_appendVoterUnchecked s a).trans (ih _)

theorem frame_addVotersBatch {addresses : List Address}
    (h : addVotersBatch env s addresses = .ok s') : Frame [.registry] s s' := by
  simp only [addVotersBatch, State.addVotersBatch, bind_eq_ok, mapErr_eq_ok, pure_eq_ok,
    Prod.exists, Prod.mk.injEq] at h
  obtain ⟨admin, -, added, s₁, ⟨-, -, rfl, rfl⟩, rfl⟩ := h
  exact (frame_foldl_appendVoter _ _).trans ((frame_foldl_voterAdded _ _ _).mono (by simp))

theorem frame_settingOf {c : Setting} (h : c.exec env s = .ok s') : Frame c.kinds s s' := by
  cases c
  case initializeContract =>
    simp only [Setting.exec, initializeContract, bind_eq_ok, pure_eq_ok] at h
    obtain ⟨-, -, -, -, -, -, -, -, rfl⟩ := h
    exact frame_writeAll _ _ _ rfl
  case proposeAdmin =>
    simp only [Setting.exec, proposeAdmin, bind_eq_ok, pure_eq_ok] at h
    obtain ⟨-, -, -, -, rfl⟩ := h
    simpa [Setting.kinds, configKinds] using (frame_checkAndClearExpiredAdminAction s).mono
      (by simp)
  case acceptAdmin =>
    simp only [Setting.exec, acceptAdmin, bind_eq_ok, pure_eq_ok] at h
    obtain ⟨-, -, -, -, -, -, -, -, -, -, rfl⟩ := h
    exact frame_writeAll _ _ _ rfl
  case cancelAdminProposal =>
    simp only [Setting.exec, cancelAdminProposal, bind_eq_ok, pure_eq_ok] at h
    obtain ⟨-, -, -, -, rfl⟩ := h
    exact frame_writeAll _ _ _ rfl
  case setToken =>
    obtain ⟨-, -, h⟩ := bind_eq_ok.mp h
    exact frame_configure h rfl rfl
  case grantDelegation =>
    obtain ⟨admin, -, h⟩ := bind_eq_ok.mp h
    exact frame_configure h rfl rfl
  case addVotersBatch => exact frame_addVotersBatch h
  case adminRemoveVoter =>
    obtain ⟨admin, -, h⟩ := bind_eq_ok.mp h
    exact frame_removeVoter h
  case updateMultiplierTable =>
    obtain ⟨s₁, h₁, h₂⟩ := bind_eq_ok.mp h
    cases h₂
    rw [Frame.emit_iff rfl]
    exact frame_configure h₁ rfl rfl
  case adminSetPremiumMultiplier =>
    simp only [Setting.exec, adminSetPremiumMultiplier, bind_eq_ok, pure_eq_ok] at h
    obtain ⟨-, -, s₁, h₁, -, -, -, -, rfl⟩ := h
    rw [Frame.emit_iff rfl, Frame.emit_iff rfl,
      Frame.set_iff (by simp [Setting.kinds, configKinds])]
    exact (frame_checkAndUpdateGovCooldown h₁).mono (by simp [Setting.kinds, configKinds])
  case adminSetAssetPremiumTable asset table =>
    obtain ⟨s₁, h₁, h₂⟩ := bind_eq_ok.mp h
    cases h₂
    refine (frame_configure h₁ rfl rfl).trans ?_
    cases table with
    | none =>
      rw [State.emitAssetPremiumTable, Frame.emit_iff rfl]
      exact .refl _ s₁
    | some t =>
      rw [State.emitAssetPremiumTable, Frame.emit_iff rfl, Frame.emit_iff rfl]
      exact .refl _ s₁
  case setAllowedAsset asset allowed decimals =>
    refine frame_configure h rfl ?_
    cases allowed <;> rfl
  all_goals exact frame_configure h rfl rfl

/-- **A setting changes settings only.** -/
theorem frame_setting {c : Setting} (h : c.exec env s = .ok s') : Frame settingKinds s s' := by
  refine (frame_settingOf h).mono ?_
  unfold Setting.kinds
  split <;> simp [settingKinds, configKinds]

end Settings

end NiffyInsure
