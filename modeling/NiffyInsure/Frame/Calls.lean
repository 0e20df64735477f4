import NiffyInsure.Frame.Claims
import NiffyInsure.Frame.Policies

/-!
# What a call changes, over all calls

`Call.kinds` lists the kinds of each entrypoint, and `frame_exec` says that a successful call
stays within them.  An invariant that reads other kinds is then kept by the call without
looking at it.
-/

namespace NiffyInsure

/-- The kinds that the end of a base round changes. -/
def roundKinds : List Kind :=
  [.openClaim, .ratePrev, .claim, .lastResolved, .policy, .registry, .activeCount, .statusEvent,
    .strikeEvent]

def ClaimCall.kinds : ClaimCall → List Kind
  | .fileClaim .. => [.nonce, .rolling, .claimCounter, .assetLedger, .cash, .filingFeePaid,
      .claimVoters, .claim, .openClaim, .claimQuorum, .rateLimit, .ratePrev, .statusEvent]
  | .withdrawClaim .. =>
    [.openClaim, .rateLimit, .ratePrev, .claim, .filingFeePaid, .cash, .statusEvent]
  | .addClaimEvidence .. | .escalateClaim .. | .disputeClaim .. => [.claim]
  | .voteOnClaim .. => .vote :: roundKinds
  | .finalizeClaim .. | .processDeadline .. | .finalizeExpiredBatch .. => roundKinds
  | .refreshSnapshot .. => []
  | .setClaimFraudScore .. => [.fraudScore]
  | .processClaim .. | .disburseInstallment .. =>
    [.openClaim, .ratePrev, .claim, .rolling, .assetLedger, .cash, .payout, .statusEvent]
  | .processPayoutTimeout .. => [.openClaim, .ratePrev, .claim]
  | .openAppeal .. => [.claimQuorum, .appealVoters, .openClaim, .claim, .statusEvent]
  | .voteOnAppeal .. => [.appealVote, .openClaim, .claim, .statusEvent]
  | .finalizeAppeal .. => [.openClaim, .claim, .statusEvent]
  | .setCommitRevealPhases .. | .commitVote .. => [.commitReveal]
  | .revealVote .. => [.vote, .claim]
  | .delegateVote .. => [.delegations]

def PolicyCall.kinds : PolicyCall → List Kind
  | .initiatePolicy .. => [.nonce, .calcVersion, .policyCounter, .assetLedger, .cash,
      .assetDecimals, .policy, .registry, .activeCount, .statusIndex, .premiumEvent]
  | .setBeneficiary .. | .adminUpdatePolicyMetadataUri .. => [.policy]
  | .renewPolicy .. =>
    [.expiryMark, .calcVersion, .assetLedger, .cash, .policy, .statusIndex, .rolling,
      .premiumEvent]
  | .transferPolicy .. => [.policyCounter, .policy, .statusIndex, .registry, .activeCount]
  | .terminatePolicy .. | .adminTerminatePolicy .. =>
    [.policy, .statusIndex, .registry, .activeCount, .assetLedger, .cash]
  | .processExpired .. => [.expiryMark, .policy, .statusIndex, .registry, .activeCount]

def TreasuryCall.kinds : TreasuryCall → List Kind
  | .depositTreasury .. => [.assetLedger, .cash]
  | .adminSweep .. | .sweepToken .. => [.sweepUse, .assetLedger, .cash]
  | .drain .. => [.cash]
  | .setTreasury .. => [.treasury, .govCooldown]
  | .proposeAdminAction .. | .cancelAdminAction => [.pendingAction]
  | .confirmAdminAction .. => [.pendingAction, .treasury, .sweepUse, .assetLedger, .cash]

def GovernanceCall.kinds : GovernanceCall → List Kind
  | .createProposal .. | .finalizeGovernanceProposal .. => [.governance]
  | .voteProposal .. => [.governance, .votingRules]
  | .adminSetProposerCooldown .. => [.config, .govCooldown]

/-- What the calls on claims change between them. -/
def claimKinds : List Kind :=
  [.nonce, .rolling, .claimCounter, .assetLedger, .cash, .payout, .filingFeePaid, .claimVoters,
    .claimQuorum, .appealVoters, .rateLimit, .fraudScore, .vote, .appealVote, .commitReveal,
    .delegations] ++ roundKinds

/-- What the calls on policies change between them. -/
def policyKinds : List Kind :=
  [.nonce, .calcVersion, .policyCounter, .assetLedger, .cash, .assetDecimals, .policy, .registry,
    .activeCount, .statusIndex, .expiryMark, .rolling, .premiumEvent]

/-- What the calls on the treasury change between them. -/
def treasuryKinds : List Kind :=
  [.sweepUse, .assetLedger, .cash, .treasury, .govCooldown, .pendingAction]

/-- What the calls of the governance change between them. -/
def governanceKinds : List Kind := [.governance, .votingRules, .config, .govCooldown]

section Untouched

variable {kd : Kind}

theorem ClaimCall.untouched (c : ClaimCall) (h : claimKinds.contains kd = false) :
    c.kinds.contains kd = false := by
  refine contains_eq_false_of_subset ?_ h
  cases c <;> simp [ClaimCall.kinds, claimKinds, roundKinds]

theorem PolicyCall.untouched (c : PolicyCall) (h : policyKinds.contains kd = false) :
    c.kinds.contains kd = false := by
  refine contains_eq_false_of_subset ?_ h
  cases c <;> simp [PolicyCall.kinds, policyKinds]

theorem TreasuryCall.untouched (c : TreasuryCall) (h : treasuryKinds.contains kd = false) :
    c.kinds.contains kd = false := by
  refine contains_eq_false_of_subset ?_ h
  cases c <;> simp [TreasuryCall.kinds, treasuryKinds]

theorem GovernanceCall.untouched (c : GovernanceCall) (h : governanceKinds.contains kd = false) :
    c.kinds.contains kd = false := by
  refine contains_eq_false_of_subset ?_ h
  cases c <;> simp [GovernanceCall.kinds, governanceKinds]

end Untouched

/-- The kinds that a call can change. -/
def Call.kinds : Call → List Kind
  | .claim c => c.kinds
  | .policy c => c.kinds
  | .treasury c => c.kinds
  | .setting _ => settingKinds
  | .governance c => c.kinds

section Exec

variable {env : Env} {s s' : State}

theorem dropValue_eq_ok {α : Type} {r : Result (α × State)} :
    dropValue r = .ok s' ↔ ∃ a, r = .ok (a, s') := by
  cases r with
  | error e => simp [dropValue, Except.map]
  | ok p => obtain ⟨a, t⟩ := p; simp [dropValue, Except.map]

theorem map_batch_eq_ok {r : Result (Nat × Nat × State)} :
    r.map (·.2.2) = .ok s' ↔ ∃ n m, r = .ok (n, m, s') := by
  cases r with
  | error e => simp [Except.map]
  | ok p => obtain ⟨n, m, t⟩ := p; simp [Except.map]

theorem frame_finalizeExpiredBatch {ids : List Nat} {n m : Nat}
    (h : finalizeExpiredBatch s ids = .ok (n, m, s')) : Frame roundKinds s s' := by
  simp only [finalizeExpiredBatch, bind_eq_ok, Prod.exists, pure_eq_ok, Prod.mk.injEq] at h
  obtain ⟨-, -, -, -, p, q, s₁, h₁, -, -, rfl⟩ := h
  rw [Frame.emit_iff rfl]
  exact frame_finalizeBatchLoop ids s 0 0 h₁

theorem frame_claimCall {c : ClaimCall} (h : c.exec env s = .ok s') : Frame c.kinds s s' := by
  cases c <;> simp only [ClaimCall.exec, bind_eq_ok, dropValue_eq_ok, map_batch_eq_ok] at h
  case fileClaim =>
    obtain ⟨-, -, id, h⟩ := h
    exact frame_fileClaim h
  case withdrawClaim =>
    obtain ⟨-, -, h⟩ := h
    exact frame_withdrawClaim h
  case addClaimEvidence =>
    obtain ⟨-, -, h⟩ := h
    exact frame_addClaimEvidence h
  case voteOnClaim =>
    obtain ⟨-, -, st, h⟩ := h
    exact frame_voteOnClaim h
  case finalizeClaim =>
    obtain ⟨st, h⟩ := h
    obtain ⟨-, -, h⟩ := bind_eq_ok.mp h
    exact frame_finalizeClaimInner h
  case processDeadline =>
    obtain ⟨st, h⟩ := h
    simp only [processDeadline, bind_eq_ok] at h
    obtain ⟨-, -, claim, -, -, -, -, -, h⟩ := h
    exact frame_finalizeClaimInner h
  case finalizeExpiredBatch =>
    obtain ⟨n, m, h⟩ := h
    exact frame_finalizeExpiredBatch h
  case escalateClaim =>
    obtain ⟨-, -, h⟩ := h
    simp only [escalateClaim, bind_eq_ok, pure_eq_ok] at h
    obtain ⟨claim, -, -, -, -, -, -, -, rfl⟩ := h
    simp [ClaimCall.kinds]
  case refreshSnapshot =>
    simp only [refreshSnapshot, bind_eq_ok, pure_eq_ok] at h
    obtain ⟨claim, -, -, -, rfl⟩ := h
    simp
  case setClaimFraudScore =>
    obtain ⟨-, -, h⟩ := h
    simp only [setClaimFraudScore, bind_eq_ok] at h
    obtain ⟨-, -, claim, -, admin, -, h⟩ := h
    split at h
    · simp only [bind_eq_ok, pure_eq_ok] at h
      obtain ⟨-, -, -, -, -, -, rfl⟩ := h
      simp [ClaimCall.kinds]
    · simp only [pure_eq_ok] at h
      obtain ⟨-, -, rfl⟩ := h
      simp [ClaimCall.kinds]
  case processClaim =>
    obtain ⟨-, -, h⟩ := h
    exact frame_processClaim h
  case processPayoutTimeout =>
    obtain ⟨st, h⟩ := h
    exact frame_processPayoutTimeout h
  case disputeClaim =>
    obtain ⟨-, -, h⟩ := h
    exact frame_disputeClaim h
  case disburseInstallment =>
    obtain ⟨-, -, h⟩ := h
    exact frame_disburseInstallment h
  case openAppeal =>
    obtain ⟨-, -, h⟩ := h
    exact frame_openAppeal h
  case voteOnAppeal =>
    obtain ⟨-, -, st, h⟩ := h
    exact frame_voteOnAppeal h
  case finalizeAppeal =>
    obtain ⟨st, h⟩ := h
    exact frame_finalizeAppeal h
  case setCommitRevealPhases =>
    simp only [setCommitRevealPhases, bind_eq_ok, pure_eq_ok] at h
    obtain ⟨admin, -, -, -, -, -, rfl⟩ := h
    simp [ClaimCall.kinds]
  case commitVote =>
    simp only [commitVote, bind_eq_ok, pure_eq_ok] at h
    obtain ⟨-, -, phases, -, -, -, -, -, rfl⟩ := h
    simp [ClaimCall.kinds]
  case revealVote => exact frame_revealVote h
  case delegateVote => exact frame_delegateVote h

theorem frame_policyCall {c : PolicyCall} (h : c.exec env s = .ok s') : Frame c.kinds s s' := by
  cases c <;> simp only [PolicyCall.exec, bind_eq_ok, dropValue_eq_ok] at h
  case initiatePolicy =>
    obtain ⟨p, h⟩ := h
    exact frame_initiatePolicy h
  case setBeneficiary => exact frame_setBeneficiary h
  case adminUpdatePolicyMetadataUri =>
    obtain ⟨-, -, h⟩ := h
    exact frame_updatePolicyMetadataUri h
  case renewPolicy =>
    obtain ⟨o, h⟩ := h
    exact frame_renewPolicy h
  case transferPolicy => exact frame_transferPolicy h
  case terminatePolicy =>
    obtain ⟨-, -, h⟩ := bind_eq_ok.mp h
    exact frame_terminateInner h
  case adminTerminatePolicy =>
    simp only [adminTerminatePolicy, bind_eq_ok] at h
    obtain ⟨-, -, expected, -, -, -, h⟩ := h
    exact frame_terminateInner h
  case processExpired =>
    obtain ⟨n, h⟩ := h
    exact frame_processExpiredLoop _ _ _ h

theorem frame_treasuryCall {c : TreasuryCall} (h : c.exec env s = .ok s') : Frame c.kinds s s' := by
  cases c with
  | depositTreasury => exact frame_depositTreasury h
  | adminSweep => exact frame_adminSweep h
  | sweepToken =>
    obtain ⟨admin, -, h⟩ := bind_eq_ok.mp h
    exact frame_sweepTokenInner h
  | drain => exact frame_drain h
  | setTreasury => exact frame_setTreasury h
  | proposeAdminAction => exact frame_proposeAdminAction h
  | confirmAdminAction => exact frame_confirmAdminAction h
  | cancelAdminAction => exact frame_cancelAdminAction h

theorem frame_applyParameter (s : State) (p : Proposal) :
    Frame [.governance, .votingRules] s (s.applyParameter p) := by
  unfold State.applyParameter
  split
  · simp
  · split <;> simp

theorem frame_closeVote (s : State) (p : Proposal) :
    Frame [.governance, .votingRules] s (s.closeVote p) := by
  unfold State.closeVote
  dsimp only
  split
  · rw [Frame.emit_iff rfl, State.setProposal, Frame.set_iff rfl]
    exact frame_applyParameter s p
  · split
    · rw [Frame.remove_iff rfl, Frame.emit_iff rfl]
      exact .refl _ s
    · simp [State.setProposal]

theorem frame_governanceCall {c : GovernanceCall} (h : c.exec env s = .ok s') :
    Frame c.kinds s s' := by
  cases c with
  | createProposal =>
    simp only [GovernanceCall.exec, dropValue_eq_ok, createProposal, bind_eq_ok, pure_eq_ok] at h
    obtain ⟨id, -, -, -, -, -, -, deadline, -, h⟩ := h
    cases h
    simp [State.nextProposalId, State.setProposal, GovernanceCall.kinds]
  | voteProposal =>
    simp only [GovernanceCall.exec, voteProposal, bind_eq_ok, pure_eq_ok] at h
    obtain ⟨-, -, p, -, -, -, -, -, rfl⟩ := h
    refine Frame.trans ?_ (frame_closeVote _ _)
    rw [Frame.emit_iff rfl, Frame.set_iff rfl]
    exact .refl _ s
  | finalizeGovernanceProposal =>
    simp only [GovernanceCall.exec, finalizeGovernanceProposal, bind_eq_ok, pure_eq_ok] at h
    obtain ⟨p, -, -, -, -, -, rfl⟩ := h
    simp [GovernanceCall.kinds]
  | adminSetProposerCooldown => exact frame_configure h rfl rfl

/-- **A successful call changes the kinds of its entrypoint only.** -/
theorem frame_exec {c : Call} (h : c.exec env s = .ok s') : Frame c.kinds s s' := by
  cases c with
  | claim c => exact frame_claimCall h
  | policy c => exact frame_policyCall h
  | treasury c => exact frame_treasuryCall h
  | setting c => exact frame_setting h
  | governance c => exact frame_governanceCall h

end Exec

/-- **The ledger does not go back**, and a call stays in its ledger. -/
theorem sequence_of_step {host : Host} {s s' : State} {l : Label}
    (hstep : (contract host).step s l s') :
    s.sequence ≤ s'.sequence ∧ (∀ env c, l = .call env c → s'.sequence = s.sequence) := by
  cases l with
  | closeLedger n =>
    obtain ⟨hle, -, rfl⟩ := hstep
    exact ⟨hle, fun _ _ h => nomatch h⟩
  | tokens b a =>
    obtain ⟨-, rfl⟩ := hstep
    exact ⟨le_rfl, fun _ _ h => nomatch h⟩
  | call env c =>
    have hseq := (frame_exec hstep.2).sequence
    exact ⟨hseq.ge, fun _ _ _ => hseq⟩

/-- A frame keeps what is of kinds that it does not list. -/
theorem Frame.get_of_disjoint {ks others : List Kind} {s s' : State} {k : DataKey}
    (h : Frame ks s s')
    (hks : (ks.all fun kd => !others.contains kd) = true) (hk : others.contains k.kind = true) :
    s'.get k = s.get k := by
  refine h.get k (Bool.eq_false_iff.mpr fun hmem => ?_)
  have hout := List.all_eq_true.mp hks _ (List.contains_iff_mem.mp hmem)
  rw [hk] at hout
  cases hout

/-- A step is a claim call, or it leaves alone what none of the other calls touches. -/
theorem claimCall_or_same {host : Host} {s s' : State} {l : Label}
    (hstep : (contract host).step s l s') :
    (∃ env c, l = .call env (.claim c) ∧ c.exec env s = .ok s') ∨
      (∀ env c, l ≠ .call env (.claim c)) ∧
        ∀ kd, (policyKinds ++ treasuryKinds ++ settingKinds ++ governanceKinds).contains kd =
        false →
          SameKind kd s s' := by
  cases l with
  | closeLedger n =>
    obtain ⟨-, -, rfl⟩ := hstep
    exact .inr ⟨nofun, fun _ _ _ _ => rfl⟩
  | tokens b a =>
    obtain ⟨-, rfl⟩ := hstep
    exact .inr ⟨nofun, fun _ _ _ _ => rfl⟩
  | call env c =>
    have hf := frame_exec hstep.2
    cases c with
    | claim c => exact .inl ⟨env, c, rfl, hstep.2⟩
    | policy c =>
      refine .inr ⟨nofun, fun _ hkd => hf.sameKind (c.untouched ?_)⟩
      exact contains_eq_false_of_subset (fun _ hk => by simp [hk]) hkd
    | treasury c =>
      refine .inr ⟨nofun, fun _ hkd => hf.sameKind (c.untouched ?_)⟩
      exact contains_eq_false_of_subset (fun _ hk => by simp [hk]) hkd
    | setting c =>
      refine .inr ⟨nofun, fun _ hkd => hf.sameKind ?_⟩
      show settingKinds.contains _ = false
      exact contains_eq_false_of_subset (fun _ hk => by simp [hk]) hkd
    | governance c =>
      refine .inr ⟨nofun, fun _ hkd => hf.sameKind (c.untouched ?_)⟩
      exact contains_eq_false_of_subset (fun _ hk => by simp [hk]) hkd

end NiffyInsure
