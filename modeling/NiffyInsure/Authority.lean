import NiffyInsure.AdminRotation
import NiffyInsure.Proposals

/-!
# Who may change a setting

Each setting belongs to one of three roles: the main admin, the treasury admin and the parameter
admin.  The latter two fall back to the main admin while they are not configured, and who holds them
is a setting of the main admin itself.  Five settings can also be changed in a second way: the two
that the governance votes on, the treasury address by a confirmed rotation, the decimals of an asset
by a new policy, and a fraud score by a delegated operator.

* `guarded_of_exec`: a call that changes a setting is signed by the holder of its role, or changes
  it in its second way.
* `settings_guarded`: so is every call of every run.
* `settings_kept_without_role`: in a run in which neither the admin, nor its proposed successor, nor
  the holder of a role signs anything, the settings of the role stay as they are.
-/

namespace NiffyInsure

open Machine

/-- The roles that configure the contract. -/
inductive Role where
  | admin | treasuryAdmin | paramAdmin
  deriving DecidableEq

/-- The holder of a role: the main admin, while the role is not configured. -/
def State.holderOf (s : State) : Role → Option Address
  | .admin => s.get .admin
  | .treasuryAdmin => (s.get .treasuryAdmin).or (s.get .admin)
  | .paramAdmin => (s.get .paramAdmin).or (s.get .admin)

/-- The role that a setting belongs to. -/
def DataKey.role : DataKey → Option Role
  | .sweepCap | .sweepNoticePeriodLedgers | .maxSweepPerLedger => some .treasuryAdmin
  | .maxEvidenceCount | .minEvidenceCount | .maxWeightCap | .cooldownLedgers | .maxAppealsPerClaim
  | .gatewayAllowlist | .governanceCooldownLedgers => some .paramAdmin
  | .token | .initLedger | .treasury | .protocolFeeBps | .feeRecipient | .minSolvencyRatioBps
  | .premiumTable | .calcAddress | .expectedCalcVersion | .allowedAsset _ | .paused | .pauseReason
  | .rollingClaimCap | .rollingClaimWindowLedgers | .voteDurLedgers | .quorumBps
  | .gracePeriodLedgers | .policyTypeConfig _ | .policyTypeActive _ | .policyTypeRegistryEnabled
  | .assetPremiumTable _ | .whitelistEnabled | .whitelisted _ | .claimFilingFee
  | .fraudScoreThreshold | .elevatedQuorumBps | .allowedAssetConfig _ | .delegation _
  | .reinsuranceContract | .authorizedDepositor _ | .allowedPayoutRecipient _ | .regionRegistry
  | .pauseAdmin | .treasuryAdmin | .paramAdmin | .minCoverageAmount | .maxVotersPerClaim
  | .assetDecimals _ | .proposerCooldownLedgers | .claimFraudScore _ | .commitRevealPhases _ =>
    some .admin
  | _ => none

/-- The settings that can be changed in a second way. -/
def DataKey.shared : DataKey → Bool
  | .quorumBps | .voteDurLedgers | .treasury | .assetDecimals _ | .claimFraudScore _ => true
  | _ => false

section Calls

variable (env : Env) (s : State)

/-- The holder of the role signed the call. -/
def SignedFor (r : Role) : Prop := ∃ a, s.holderOf r = some a ∧ env.auths a = true

/-- The second ways to change a setting, judged in the state before the call. -/
def Call.Excepts (k : DataKey) : Call → Prop
  | .setting (.initializeContract ..) => s.get .admin = none
  | .governance (.voteProposal voter proposalId approve) => (k = .quorumBps ∨ k = .voteDurLedgers) ∧
    env.auths voter = true ∧ MINIMUM_STAKE_POLICIES ≤ s.getActivePolicyCount voter ∧
      ∃ p, s.getProposal proposalId = some p ∧ s.quorumRequired ≤ (p.count approve).approveVotes
  | .treasury (.confirmAdminAction confirmer) => k = .treasury ∧ env.auths confirmer = true ∧
    ∃ pending newTreasury, s.get .pendingAdminAction = some pending ∧
      pending.action = .treasuryRotation newTreasury ∧ confirmer ≠ pending.proposer ∧
        s.sequence ≤ pending.expiryLedger
  | .policy (.initiatePolicy a) => k = .assetDecimals a.asset ∧ env.auths a.holder = true
  | .claim (.setClaimFraudScore caller claimId _) => k = .claimFraudScore claimId ∧
    env.auths caller = true ∧ ∃ delegation, s.get (.delegation caller) = some delegation ∧
      s.sequence ≤ delegation.expiryLedger ∧ delegation.permissions.canSetFraudScore = true
  | _ => False

/-- What changes between `s` and `s'` in a call is signed for by its role, or excepted. -/
def Guarded (c : Call) (s' : State) : Prop :=
  ∀ k r, k.role = some r → s'.get k ≠ s.get k → SignedFor env s r ∨ c.Excepts env s k

end Calls

section Guards

variable {env : Env} {s s' s'' : State} {c : Call} {k : DataKey} {r : Role} {ks : List Kind}

/-! ## Signatures -/

theorem signed_of_requireAdmin {a : Address} (h : requireAdmin env s = .ok a) :
    SignedFor env s .admin := by
  obtain ⟨ha, hauth⟩ := requireAdmin_eq_ok.mp h
  exact ⟨a, ha, hauth⟩

theorem signed_of_requireStoredAdmin {a : Address} (h : requireStoredAdmin env s = .ok a) :
    SignedFor env s .admin := by
  simp only [requireStoredAdmin, bind_eq_ok, okOr_eq_ok, requireAuth_eq_ok] at h
  obtain ⟨admin, hadmin, -, hauth, -⟩ := h
  exact ⟨admin, hadmin, hauth⟩

theorem signed_of_requireNamedAdmin {a admin : Address}
    (h : requireNamedAdmin env s admin = .ok a) : SignedFor env s .admin := by
  simp only [requireNamedAdmin, bind_eq_ok, okOr_eq_ok, requireAuth_eq_ok, ensure_eq_ok] at h
  obtain ⟨-, hauth, stored, hstored, -, rfl, -⟩ := h
  exact ⟨admin, hstored, hauth⟩

theorem signed_of_requireRole {a : Address} {role : Option Address}
    (hr : s.holderOf r = role.or (s.get .admin)) (h : requireRole env s role = .ok a) :
    SignedFor env s r := by
  simp only [requireRole, bind_eq_ok, okOr_eq_ok, requireAuth_eq_ok] at h
  obtain ⟨b, hb, -, hauth, -⟩ := h
  exact ⟨b, hr.trans hb, hauth⟩

theorem signed_of_requireTreasuryAdmin {a : Address} (h : requireTreasuryAdmin env s = .ok a) :
    SignedFor env s .treasuryAdmin := signed_of_requireRole rfl h

theorem signed_of_requireParamAdmin {a : Address} (h : requireParamAdmin env s = .ok a) :
    SignedFor env s .paramAdmin := signed_of_requireRole rfl h

/-! ## Changes of a call -/

/-- The kinds that settings are of. -/
def roleKinds : List Kind :=
  [.config, .treasury, .pricing, .rollingConfig, .votingRules, .gracePeriod, .sweepLimit,
    .evidenceRules, .maxVoters, .assetDecimals, .fraudScore, .commitReveal]

theorem contains_roleKinds (h : k.role = some r) : roleKinds.contains k.kind = true := by
  have hall : k.role.all (fun _ => roleKinds.contains k.kind) = true := by
    cases k <;> rfl
  rw [h] at hall
  exact hall

theorem get_of_frame (hf : Frame ks s s') (hks : (ks.all fun kd => !roleKinds.contains kd) = true)
    (hk : k.role = some r) : s'.get k = s.get k :=
  hf.get_of_disjoint hks (contains_roleKinds hk)

theorem guarded_of_frame (hf : Frame ks s s')
    (hks : (ks.all fun kd => !roleKinds.contains kd) = true) : Guarded env s c s' := by
  intro k r hk hne
  exact absurd (get_of_frame hf hks hk) hne

theorem guarded_of_signed (hsigned : SignedFor env s r)
    (hsame : ∀ k r', k.role = some r' → r' ≠ r → s'.get k = s.get k) : Guarded env s c s' := by
  intro k r' hk hne
  by_cases hr : r' = r
  · subst hr
    exact .inl hsigned
  · exact absurd (hsame k r' hk hr) hne

theorem get_writeAll_of_ne : ∀ (writes : List Entry) (s : State), (∀ e ∈ writes, k ≠ e.1) →
    (s.writeAll writes).get k = s.get k := by
  intro writes
  induction writes with
  | nil => intro s _; rfl
  | cons e rest ih =>
    intro s h
    show ((s.setOrRemove e.1 e.2).writeAll rest).get k = s.get k
    rw [ih _ fun e' he' => h e' (List.mem_cons_of_mem _ he')]
    exact State.get_setOrRemove_of_ne _ _ (h e List.mem_cons_self)

theorem guarded_of_configure {auth : Result Address} {pre check : Result Unit} {cooldown : Bool}
    {writes : List Entry} (h : s.configure auth pre cooldown check writes = .ok s')
    (hsigned : ∀ {a}, auth = .ok a → SignedFor env s r)
    (hwrites : (writes.all fun e => decide (e.1.role = some r)) = true) : Guarded env s c s' := by
  obtain ⟨a, ha, -⟩ := bind_eq_ok.mp h
  obtain ⟨s₁, hf, -, rfl⟩ := configure_eq_ok h
  refine guarded_of_signed (hsigned ha) fun k r' hk hne => ?_
  rw [get_writeAll_of_ne writes s₁ fun e he heq => hne ?_]
  · exact get_of_frame hf rfl hk
  · rw [heq, of_decide_eq_true (List.all_eq_true.mp hwrites e he)] at hk
    exact (Option.some.inj hk).symm

/-- **A setting is signed for by its role.** -/
theorem guarded_of_setting {c : Setting} (h : c.exec env s = .ok s') :
    Guarded env s (.setting c) s' := by
  cases c
  case initializeContract =>
    simp only [Setting.exec, initializeContract, bind_eq_ok, ensure_eq_ok] at h
    obtain ⟨-, -, -, hnone, -⟩ := h
    exact fun k r _ _ => .inr (Option.isNone_iff_eq_none.mp hnone)
  case proposeAdmin => exact guarded_of_frame (frame_settingOf (c := .proposeAdmin _) h) rfl
  case acceptAdmin => exact guarded_of_frame (frame_settingOf (c := .acceptAdmin) h) rfl
  case cancelAdminProposal =>
    exact guarded_of_frame (frame_settingOf (c := .cancelAdminProposal) h) rfl
  case addVotersBatch => exact guarded_of_frame (frame_settingOf (c := .addVotersBatch _) h) rfl
  case adminRemoveVoter =>
    exact guarded_of_frame (frame_settingOf (c := .adminRemoveVoter _) h) rfl
  case setToken =>
    obtain ⟨-, -, h⟩ := bind_eq_ok.mp h
    exact guarded_of_configure h signed_of_requireAdmin rfl
  case grantDelegation =>
    obtain ⟨admin, hadmin, h⟩ := bind_eq_ok.mp h
    exact guarded_of_configure h (fun _ => signed_of_requireAdmin hadmin) rfl
  case updateMultiplierTable table =>
    obtain ⟨s₁, h₁, h₂⟩ := bind_eq_ok.mp h
    cases h₂
    have hguard : Guarded env s (.setting (.updateMultiplierTable table)) s₁ :=
      guarded_of_configure h₁ signed_of_requireStoredAdmin rfl
    exact hguard
  case adminSetPremiumMultiplier =>
    simp only [Setting.exec, adminSetPremiumMultiplier, bind_eq_ok, pure_eq_ok] at h
    obtain ⟨admin, hadmin, s₁, h₁, -, -, -, -, rfl⟩ := h
    refine guarded_of_signed (signed_of_requireStoredAdmin hadmin) fun k r' hk hne => ?_
    have hkey : k ≠ .premiumTable := by
      rintro rfl
      cases hk
      exact hne rfl
    rw [State.get_emit, State.get_emit, State.get_set_of_ne _ _ hkey]
    exact get_of_frame (frame_checkAndUpdateGovCooldown h₁) rfl hk
  case adminSetAssetPremiumTable asset table =>
    obtain ⟨s₁, h₁, h₂⟩ := bind_eq_ok.mp h
    cases h₂
    have hguard : Guarded env s (.setting (.adminSetAssetPremiumTable asset table)) s₁ :=
      guarded_of_configure h₁ signed_of_requireAdmin rfl
    intro k r hk hne
    refine hguard k r hk ?_
    cases table <;> exact hne
  case setAllowedAsset asset allowed decimals =>
    refine guarded_of_configure h signed_of_requireAdmin ?_
    cases allowed <;> rfl
  case pause | unpause | pauseBind | pauseClaims =>
    exact guarded_of_configure h signed_of_requireNamedAdmin rfl
  case setSweepCap | setSweepNoticePeriod | adminSetMaxSweepPerLedger =>
    exact guarded_of_configure h signed_of_requireTreasuryAdmin rfl
  case adminSetMaxEvidenceCount | adminSetMinEvidenceCount | adminSetMaxWeightCap
      | adminSetCooldownLedgers | adminSetMaxAppealsPerClaim | adminSetGatewayAllowlist
      | adminSetGovCooldownLedgers =>
    exact guarded_of_configure h signed_of_requireParamAdmin rfl
  case adminSetVoteDurationLedgers | adminSetQuorumBps | adminSetProtocolFeeBps
      | adminSetFeeRecipient | adminSetMinSolvencyRatioBps | setCalculator
      | setCalculatorWithVersion | clearCalculator =>
    exact guarded_of_configure h signed_of_requireStoredAdmin rfl
  all_goals exact guarded_of_configure h signed_of_requireAdmin rfl

theorem guarded_of_claimCall {c : ClaimCall} (h : c.exec env s = .ok s') :
    Guarded env s (.claim c) s' := by
  cases c
  case setClaimFraudScore caller claimId score =>
    simp only [ClaimCall.exec, requireAdminOrScope, setClaimFraudScore, bind_eq_ok, okOr_eq_ok,
      requireAuth_eq_ok] at h
    obtain ⟨u, ⟨-, hauth, admin, hadmin, hscope⟩, -, -, claim, -, admin₁, -, hwrite⟩ := h
    have hstate : s' = (s.set (.claimFraudScore claimId) score).emit
        (.claimFraudScoreSet claimId score caller s.sequence) := by
      split at hwrite
      · simp only [bind_eq_ok, pure_eq_ok] at hwrite
        obtain ⟨-, -, -, -, -, -, rfl⟩ := hwrite
        rfl
      · simp only [pure_eq_ok] at hwrite
        exact hwrite.symm
    subst hstate
    intro k r hk hne
    have hkey : k = .claimFraudScore claimId := by
      by_contra hno
      exact hne (State.get_set_of_ne _ _ hno)
    split at hscope
    · rename_i hcaller
      subst hcaller hkey
      cases hk
      exact .inl ⟨caller, hadmin, hauth⟩
    · simp only [bind_eq_ok, okOr_eq_ok, ensure_eq_ok] at hscope
      obtain ⟨delegation, hdelegation, -, hlive, hpermits⟩ := hscope
      exact .inr ⟨hkey, hauth, delegation, hdelegation, hlive, hpermits⟩
  case setCommitRevealPhases claimId commitEnd revealEnd =>
    simp only [ClaimCall.exec, setCommitRevealPhases, bind_eq_ok, okOr_eq_ok, requireAuth_eq_ok,
      pure_eq_ok] at h
    obtain ⟨admin, hadmin, -, hauth, -, -, rfl⟩ := h
    refine guarded_of_signed (r := .admin) ⟨admin, hadmin, hauth⟩ fun k r' hk hne => ?_
    refine State.get_set_of_ne _ _ ?_
    rintro rfl
    cases hk
    exact hne rfl
  case commitVote voter claimId commitment =>
    simp only [ClaimCall.exec, commitVote, bind_eq_ok, pure_eq_ok] at h
    obtain ⟨-, -, phases, -, -, -, -, -, rfl⟩ := h
    intro k r hk hne
    refine absurd (State.get_set_of_ne _ _ ?_) hne
    rintro rfl
    cases hk
  all_goals exact guarded_of_frame (frame_claimCall h) rfl

theorem guarded_of_initiatePolicy {a : InitiatePolicyArgs} {policy : Policy}
    (h : initiatePolicy env s a = .ok (policy, s')) :
    Guarded env s (.policy (.initiatePolicy a)) s' := by
  obtain ⟨premium, deductible, decimals, treasuryAmount, feeAmount, feeRecipient, s₃, s₄, s₅, hauth,
    hpolicy, hf₃, -, -, -, h₄, h₅, hf₅, -⟩ := initiatePolicy_eq_ok h
  obtain ⟨s₆, s₇, h₆, -, h₇, rfl⟩ := bindPolicy_eq_ok h₅
  have hasset : policy.asset = a.asset := by rw [hpolicy]; rfl
  intro k r hk hne
  refine .inr ⟨?_, hauth⟩
  by_contra hkey
  have hpolicyKey : k ≠ .policy policy.holder policy.policyId := by
    rintro rfl
    cases hk
  apply hne
  rw [get_of_frame hf₅ rfl hk, State.indexNewPolicy,
    get_of_frame (frame_indexPolicyByStatus _ _ _) rfl hk, get_of_frame (frame_addVoter h₇) rfl hk,
    State.setPolicy, State.get_set_of_ne _ _ hpolicyKey,
    State.get_set_of_ne _ _ (by rw [hasset]; exact hkey),
    get_of_frame (frame_reserveCoverage h₆) rfl hk,
    get_of_frame (frame_collectPremiumWithFee h₄) rfl hk, get_of_frame hf₃ rfl hk]

theorem guarded_of_policyCall {c : PolicyCall} (h : c.exec env s = .ok s') :
    Guarded env s (.policy c) s' := by
  cases c with
  | initiatePolicy =>
    obtain ⟨policy, h⟩ := dropValue_eq_ok.mp h
    exact guarded_of_initiatePolicy h
  | _ => exact guarded_of_frame (frame_policyCall h) rfl

theorem guarded_of_treasuryCall {c : TreasuryCall} (h : c.exec env s = .ok s') :
    Guarded env s (.treasury c) s' := by
  cases c with
  | setTreasury newTreasury =>
    simp only [TreasuryCall.exec, setTreasury, bind_eq_ok, pure_eq_ok] at h
    obtain ⟨-, -, admin, hadmin, s₁, h₁, rfl⟩ := h
    refine guarded_of_signed (signed_of_requireAdmin hadmin) fun k r' hk hne => ?_
    have hkey : k ≠ .treasury := by
      rintro rfl
      cases hk
      exact hne rfl
    rw [State.updateTreasury, State.get_emit, State.get_set_of_ne _ _ hkey]
    exact get_of_frame (frame_checkAndUpdateGovCooldown h₁) rfl hk
  | confirmAdminAction confirmer =>
    simp only [TreasuryCall.exec, confirmAdminAction, bind_eq_ok, okOr_eq_ok, ensure_eq_ok,
      requireAuth_eq_ok, pure_eq_ok] at h
    obtain ⟨-, hauth, pending, hpending, -, hlive, -, hne, s₁, h₁, rfl⟩ := h
    intro k r hk hchange
    have hpendingKey : k ≠ .pendingAdminAction := by
      rintro rfl
      cases hk
    rw [State.get_emit, State.get_remove_of_ne _ hpendingKey] at hchange
    cases haction : pending.action with
    | treasuryRotation newTreasury =>
      rw [haction] at h₁
      cases h₁
      refine .inr ⟨?_, hauth, pending, newTreasury, hpending, haction, hne, hlive⟩
      by_contra hkey
      rw [State.updateTreasury, State.get_emit, State.get_set_of_ne _ _ hkey] at hchange
      exact hchange rfl
    | tokenSweep asset recipient amount reasonCode =>
      rw [haction] at h₁
      exact absurd (get_of_frame (frame_sweepTokenInner h₁) rfl hk) hchange
  | _ => exact guarded_of_frame (frame_treasuryCall h) rfl

theorem get_closeVote_of_short {p : Proposal} (h : ¬ s.quorumRequired ≤ p.approveVotes)
    (hk : k ≠ .proposal p.proposalId) : (s.closeVote p).get k = s.get k := by
  unfold State.closeVote
  dsimp only
  rw [if_neg h]
  split
  · rw [State.get_remove_of_ne _ hk, State.get_emit]
  · rw [State.setProposal, State.get_set_of_ne _ _ hk]

/-- A vote on a proposal changes the two parameters that are voted on, and only with a majority. -/
theorem guarded_of_voteProposal {voter : Address} {proposalId : Nat} {approve : Bool}
    (h : voteProposal env s voter proposalId approve = .ok s') :
    Guarded env s (.governance (.voteProposal voter proposalId approve)) s' := by
  simp only [voteProposal, requireTokenHolder, bind_eq_ok, okOr_eq_ok, ensure_eq_ok,
    requireAuth_eq_ok, pure_eq_ok] at h
  obtain ⟨-, ⟨-, hauth, hstake⟩, p, hp, -, -, -, -, rfl⟩ := h
  intro k r hk hne
  have hvoteKey : k ≠ .proposalVote proposalId voter := by
    rintro rfl
    cases hk
  have hproposalKey : k ≠ .proposal (p.count approve).proposalId := by
    rintro rfl
    cases hk
  generalize ht : ((s.set (.proposalVote proposalId voter) approve).emit _ : State) = t at hne
  have hget : t.get k = s.get k := by
    rw [← ht, State.get_emit, State.get_set_of_ne _ _ hvoteKey]
  have hregistry : SameKind .registry s t := by
    rw [← ht, SameKind.emit_iff, SameKind.set_iff rfl]
    exact .refl _ s
  refine .inr ⟨?_, hauth, hstake, p, hp, ?_⟩
  · by_contra hkey
    rw [not_or] at hkey
    exact hne ((get_closeVote hproposalKey hkey.1 hkey.2).trans hget)
  · by_contra hshort
    rw [← quorumRequired_of_same hregistry] at hshort
    exact hne ((get_closeVote_of_short hshort hproposalKey).trans hget)

theorem guarded_of_governanceCall {c : GovernanceCall} (h : c.exec env s = .ok s') :
    Guarded env s (.governance c) s' := by
  cases c with
  | voteProposal => exact guarded_of_voteProposal h
  | adminSetProposerCooldown => exact guarded_of_configure h signed_of_requireAdmin rfl
  | createProposal => exact guarded_of_frame (frame_governanceCall (c := .createProposal ..) h) rfl
  | finalizeGovernanceProposal =>
    exact guarded_of_frame (frame_governanceCall (c := .finalizeGovernanceProposal _) h) rfl

/-- **A call changes a setting on the word of its role**, or in the setting's second way. -/
theorem guarded_of_exec {c : Call} (h : c.exec env s = .ok s') : Guarded env s c s' := by
  cases c with
  | claim c => exact guarded_of_claimCall h
  | policy c => exact guarded_of_policyCall h
  | treasury c => exact guarded_of_treasuryCall h
  | setting c => exact guarded_of_setting h
  | governance c => exact guarded_of_governanceCall h

end Guards

/-! ## Runs -/

section Runs

variable {host : Host} {env : Env} {s s₀ : State} {g : Journal} {c : Call} {k : DataKey} {r : Role}

/-- **Settings are guarded**: in every run, every change of a setting happens in a call that the
holder of its role signed, or in the setting's second way. -/
theorem settings_guarded (h : (contract host).traced.Reach (fun p l => always p.1 l) (s, g)) :
    ∀ m ∈ g, ∀ k r, k.role = some r → m.after.get k ≠ m.before.get k →
      ∃ env c, m.label = .call env c ∧
        (SignedFor env m.before r ∨ c.Excepts env m.before k) := by
  rintro ⟨before, l, after⟩ hm k r hk hne
  have hstep : (contract host).step before l after := h.step_of_mem hm
  change after.get k ≠ before.get k at hne
  cases l with
  | call env c => exact ⟨env, c, rfl, guarded_of_exec hstep.2 k r hk hne⟩
  | closeLedger n =>
    obtain ⟨-, -, rfl⟩ := hstep
    exact absurd rfl hne
  | tokens b a =>
    obtain ⟨-, rfl⟩ := hstep
    exact absurd rfl hne

/-- The admin configures the quorum and the treasury admin the sweep cap; account 1 binds a policy,
which sets the decimals of its asset. -/
def configuredTrace : List Label :=
  [.call (signedBy [adminAddress]) (.setting (.initializeContract adminAddress assetAddress)),
    .call (signedBy [adminAddress]) (.setting (.adminSetQuorumBps 4000)),
    .call (signedBy [adminAddress]) (.setting (.setTreasuryAdmin 7)),
    .call (signedBy [7]) (.setting (.setSweepCap (some 5))),
    demoBind 1 .auto 10000000]

theorem settings_guarded_demo : ∃ s g,
    (contract demoHost).traced.Reach (fun p l => always p.1 l) (s, g) ∧ g.length = 5 ∧
      ∀ m ∈ g, ∀ k r, k.role = some r → m.after.get k ≠ m.before.get k →
        ∃ env c, m.label = .call env c ∧
          (SignedFor env m.before r ∨ c.Excepts env m.before k) := by
  obtain ⟨s, g, hreach, hlen⟩ := exists_journal always_of_noCheck (deployed 0) configuredTrace
    (f := fun p => p.2.length) (a := 5) (fresh_deployed (by decide))
    (by simp [configuredTrace, demoBind, demoCall, Label.On, demoEnv]) (by decide +kernel)
  exact ⟨s, g, hreach, hlen, settings_guarded hreach⟩

/-- Who can give orders about the settings of a role, or will be able to. -/
def State.Commands (s : State) (r : Role) (x : Address) : Prop :=
  s.get .admin = some x ∨ s.get .pendingAdmin = some x ∨ s.holderOf r = some x

/-- Beside the initialisation, only shared settings are excepted. -/
theorem Call.Excepts.shared (h : c.Excepts env s k) (hadmin : s.get .admin ≠ none) :
    k.shared = true := by
  unfold Call.Excepts at h
  split at h
  · exact absurd h hadmin
  · obtain ⟨rfl | rfl, -⟩ := h <;> rfl
  · obtain ⟨rfl, -⟩ := h
    rfl
  · obtain ⟨rfl, -⟩ := h
    rfl
  · obtain ⟨rfl, -⟩ := h
    rfl
  · exact absurd h id

/-- The roles, the admin's successor and the settings of the role `r` are those of `s₀`. -/
structure SettingsKept (r : Role) (s₀ s : State) : Prop where
  admin : s.get .admin = s₀.get .admin
  successor : s.get .pendingAdmin = s₀.get .pendingAdmin
  treasuryAdmin : s.get .treasuryAdmin = s₀.get .treasuryAdmin
  paramAdmin : s.get .paramAdmin = s₀.get .paramAdmin
  settings : ∀ k, k.role = some r → k.shared = false → s.get k = s₀.get k

theorem SettingsKept.holderOf (h : SettingsKept r s₀ s) (r' : Role) :
    s.holderOf r' = s₀.holderOf r' := by
  cases r' <;> simp only [State.holderOf, h.admin, h.treasuryAdmin, h.paramAdmin]

/-- **What a role settles, only its command changes.**  In a run from an initialised contract in
which nobody who commands a role at the start signs a call, every setting of the role that has no
second way stays as it was. -/
theorem settings_kept_without_role (hadmin : s₀.get .admin ≠ none)
    (hrun : (contract host).Steps (fun _ l => ∀ x, s₀.Commands r x → ¬ l.SignedBy x) s₀ s) :
    ∀ k, k.role = some r → k.shared = false → s.get k = s₀.get k := by
  refine SettingsKept.settings (hrun.invariant (I := SettingsKept r s₀) ?_
    ⟨rfl, rfl, rfl, rfl, fun _ _ _ => rfl⟩)
  intro s l s' hsilent hstep hs
  cases l with
  | closeLedger n =>
    obtain ⟨-, -, rfl⟩ := hstep
    exact ⟨hs.admin, hs.successor, hs.treasuryAdmin, hs.paramAdmin, hs.settings⟩
  | tokens b a =>
    obtain ⟨-, rfl⟩ := hstep
    exact ⟨hs.admin, hs.successor, hs.treasuryAdmin, hs.paramAdmin, hs.settings⟩
  | call env c =>
    have hunsigned : ∀ x, s.get .admin = some x → env.auths x ≠ true :=
      fun x hx => hsilent x (.inl (hs.admin ▸ hx))
    have hset : s.get .admin ≠ none := by rwa [hs.admin]
    -- a setting of the main admin or of `r` is not signed for
    have hkeep : ∀ k r', (r' = .admin ∨ r' = r) → k.role = some r' → k.shared = false →
        s'.get k = s.get k := by
      intro k r' hr' hk hshared
      by_contra hne
      obtain ⟨a, ha, hauth⟩ | hexcept := guarded_of_exec hstep.2 k r' hk hne
      · rcases hr' with rfl | rfl
        · exact hunsigned a ha hauth
        · exact hsilent a (.inr (.inr (hs.holderOf r' ▸ ha))) hauth
      · rw [hexcept.shared hset] at hshared
        cases hshared
    have hrotation : s'.get .admin = s.get .admin ∧ s'.get .pendingAdmin = s.get .pendingAdmin := by
      by_cases hl : (Label.call env c).rotatesAdmin
      · exfalso
        unfold Label.rotatesAdmin at hl
        split at hl
        · rename_i heq
          cases heq
          obtain ⟨a, ha, hauth, -⟩ := proposeAdmin_eq_ok hstep.2
          exact hunsigned a ha hauth
        · rename_i heq
          cases heq
          obtain ⟨b, -, hb, -, -, hauth, -⟩ := acceptAdmin_eq_ok hstep.2
          exact hsilent b (.inr (.inl (hs.successor ▸ hb))) hauth
        · rename_i heq
          cases heq
          obtain ⟨a, ha, -⟩ := bind_eq_ok.mp hstep.2
          obtain ⟨ha, hauth⟩ := requireAdmin_eq_ok.mp ha
          exact hunsigned a ha hauth
        · exact hl
      · obtain ⟨hpending, hsame | hnone⟩ := rotation_of_step hstep hl
        · exact ⟨hsame, hpending .pendingAdmin rfl⟩
        · exact absurd hnone hset
    exact ⟨hrotation.1.trans hs.admin, hrotation.2.trans hs.successor,
      (hkeep .treasuryAdmin .admin (.inl rfl) rfl rfl).trans hs.treasuryAdmin,
      (hkeep .paramAdmin .admin (.inl rfl) rfl rfl).trans hs.paramAdmin,
      fun k hk hshared => (hkeep k r (.inr rfl) hk hshared).trans (hs.settings k hk hshared)⟩

/-- A deployment in which account 7 is the treasury admin and account 9 the admin. -/
def delegatedDeployment : State := ((deployed 0).set .admin adminAddress).set .treasuryAdmin 7

theorem commands_delegatedDeployment {x : Address}
    (h : delegatedDeployment.Commands .paramAdmin x) : x = adminAddress := by
  obtain h | h | h := h
  · exact (Option.some.inj h).symm
  · cases h
  · exact (Option.some.inj h).symm

/-- Calls that account 9 has not signed are made without the role for the protocol's parameters. -/
theorem unsigned_of_check (_ : State) (l : Label) (h : (!decide (l.SignedBy adminAddress)) = true)
    (x : Address) (hx : delegatedDeployment.Commands .paramAdmin x) : ¬ l.SignedBy x := by
  rw [commands_delegatedDeployment hx]
  simpa using h

/-- The treasury admin caps the sweeps; without the admin the evidence rules stay as they are. -/
theorem settings_kept_without_role_demo : ∃ s,
    (contract demoHost).Steps
      (fun _ l => ∀ x, delegatedDeployment.Commands .paramAdmin x → ¬ l.SignedBy x)
      delegatedDeployment s ∧
      s.get .sweepCap = some 5 ∧
      s.get .maxEvidenceCount = delegatedDeployment.get .maxEvidenceCount := by
  obtain ⟨s, hsteps, hcap⟩ := exists_steps_of_follow unsigned_of_check delegatedDeployment
    [.call (signedBy [7]) (.setting (.setSweepCap (some 5)))]
    (f := fun s => s.get .sweepCap) (a := some 5) (by simp [Label.On]) (by decide +kernel)
  exact ⟨s, hsteps, hcap,
    settings_kept_without_role (by decide +kernel) hsteps .maxEvidenceCount rfl rfl⟩

end Runs

end NiffyInsure
