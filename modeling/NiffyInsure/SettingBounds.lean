import NiffyInsure.Frame.Calls
import NiffyInsure.Trace

/-!
# Every setting stays within its bounds

A setter checks a new value before it stores it, and the value is then read for as long as it
stands.  `InBounds` lists what the setters check, and the roles that are never given to the zero
address; the rules of the votes and the premium tables have bounds of their own.

* `inBounds_of_setting`: a configuration entrypoint stores values within their bounds.
* `settings_in_bounds`: in every reachable state every stored setting is within its bounds, and so
  is what the code reads where nothing is stored.
-/

namespace NiffyInsure

open Machine

/-! ## The bounds -/

/-- A region that `upsert_region` accepts under the code. -/
structure RegionConfig.ValidAt (config : RegionConfig) (code : Str) : Prop where
  named : code ≠ []
  short : code.length ≤ REGION_CODE_MAX_LEN
  parentShort : config.parent.length ≤ REGION_CODE_MAX_LEN
  parent : config.parent ≠ code
  risk : MIN_MULTIPLIER ≤ config.riskMultiplier ∧ config.riskMultiplier ≤ MAX_MULTIPLIER

/-- The bounds on an entry that holds a setting. -/
def InBounds : (k : DataKey) → k.Val → Prop
  | .admin, (a : Address) | .pendingAdmin, (a : Address) | .token, (a : Address)
  | .pauseAdmin, (a : Address) | .treasuryAdmin, (a : Address) | .paramAdmin, (a : Address) =>
    a ≠ zeroAddress
  | .fraudScoreThreshold, (n : Nat) | .claimFraudScore _, (n : Nat) => n ≤ 100
  | .maxVotersPerClaim, (n : Nat) => 1 ≤ n ∧ n ≤ U32_MAX
  | .maxEvidenceCount, (n : Nat) | .minEvidenceCount, (n : Nat) => n ≤ MAX_EVIDENCE_COUNT_HARD_MAX
  | .maxWeightCap, (n : Int) | .maxSweepPerLedger, (n : Int) => 0 < n
  | .cooldownLedgers, (n : Nat) | .governanceCooldownLedgers, (n : Nat) => n ≤ MAX_COOLDOWN_LEDGERS
  | .proposerCooldownLedgers, (n : Nat) => n ≤ MAX_PROPOSER_COOLDOWN_LEDGERS
  | .maxAppealsPerClaim, (n : Nat) => 1 ≤ n ∧ n ≤ 3
  | .allowedAssetConfig _, (c : AllowedAssetConfig) =>
    0 < c.minClaimAmount ∧ c.minClaimAmount ≤ c.maxClaimAmount
  | .rollingClaimCap, (n : Int) =>
    n = I128_MAX ∨ MIN_ROLLING_CLAIM_CAP ≤ n ∧ n ≤ MAX_ROLLING_CLAIM_CAP
  | .rollingClaimWindowLedgers, (n : Nat) =>
    MIN_ROLLING_WINDOW_LEDGERS ≤ n ∧ n ≤ MAX_ROLLING_WINDOW_LEDGERS
  | .protocolFeeBps, (n : Nat) => n ≤ PROTOCOL_FEE_BPS_MAX
  | .minSolvencyRatioBps, (n : Nat) => n ≤ MIN_SOLVENCY_RATIO_BPS_MAX
  | .minCoverageAmount, (n : Int) => 0 ≤ n
  | .gracePeriodLedgers, (n : Nat) => isValidGracePeriodLedgers n = true
  | .regionRegistry, (regions : AList fun _ : Str => RegionConfig) =>
    ∀ code config, regions.lookup code = some config → config.ValidAt code
  | .commitRevealPhases _, (phases : CommitRevealPhases) =>
    phases.commitPhaseEndLedger < phases.revealPhaseEndLedger
  | _, _ => True

/-- The keys with bounds. -/
def DataKey.bounded : DataKey → Bool
  | .admin | .pendingAdmin | .token | .pauseAdmin | .treasuryAdmin | .paramAdmin
  | .fraudScoreThreshold | .claimFraudScore _ | .maxVotersPerClaim | .maxEvidenceCount
  | .minEvidenceCount | .maxWeightCap | .maxSweepPerLedger | .cooldownLedgers
  | .governanceCooldownLedgers | .proposerCooldownLedgers | .maxAppealsPerClaim
  | .allowedAssetConfig _ | .rollingClaimCap | .rollingClaimWindowLedgers | .protocolFeeBps
  | .minSolvencyRatioBps | .minCoverageAmount | .gracePeriodLedgers | .regionRegistry
  | .commitRevealPhases _ => true
  | _ => false

/-- The kinds that keys with bounds are of. -/
def boundKinds : List Kind :=
  [.admin, .pendingAdmin, .config, .votingRules, .fraudScore, .maxVoters,
    .evidenceRules, .sweepLimit, .rollingConfig, .gracePeriod, .commitReveal]

theorem inBounds_of_unbounded {k : DataKey} (h : k.bounded = false) (v : k.Val) : InBounds k v := by
  cases k <;> trivial

theorem kind_of_bounded {k : DataKey} (h : k.bounded = true) :
    boundKinds.contains k.kind = true := by
  cases k <;> first | rfl | cases h

/-- The stored settings are within their bounds. -/
def State.InBounds (s : State) : Prop := ∀ k v, s.get k = some v → NiffyInsure.InBounds k v

namespace State.InBounds

variable {s s' : State}

theorem set (hs : s.InBounds) {k : DataKey} {v : k.Val} (hv : NiffyInsure.InBounds k v) :
    (s.set k v).InBounds := by
  intro k' v' hget
  by_cases hk : k' = k
  · subst hk
    rw [State.get_set_self, Option.some.injEq] at hget
    rw [← hget]
    exact hv
  · rw [State.get_set_of_ne _ _ hk] at hget
    exact hs k' v' hget

theorem remove (hs : s.InBounds) (k : DataKey) : (s.remove k).InBounds := by
  intro k' v' hget
  by_cases hk : k' = k
  · subst hk
    rw [State.get_remove_self] at hget
    cases hget
  · rw [State.get_remove_of_ne _ hk] at hget
    exact hs k' v' hget

theorem writeAll : ∀ (writes : List Entry) {s : State}, s.InBounds →
    (∀ e ∈ writes, ∀ v, e.2 = some v → NiffyInsure.InBounds e.1 v) →
      (s.writeAll writes).InBounds := by
  intro writes
  induction writes with
  | nil =>
    intro s hs _
    exact hs
  | cons e rest ih =>
    intro s hs hw
    have hrest : ∀ e' ∈ rest, ∀ v, e'.2 = some v → NiffyInsure.InBounds e'.1 v :=
      fun e' he' => hw e' (List.mem_cons_of_mem _ he')
    obtain ⟨k, v⟩ := e
    cases v with
    | none => exact ih (hs.remove k) hrest
    | some v => exact ih (hs.set (hw ⟨k, some v⟩ List.mem_cons_self v rfl)) hrest

theorem of_frame {ks : List Kind} (hs : s.InBounds) (hf : Frame ks s s')
    (hks : (ks.all fun kd => !boundKinds.contains kd) = true) : s'.InBounds := by
  intro k v hget
  cases hk : k.bounded with
  | false => exact inBounds_of_unbounded hk v
  | true =>
    rw [hf.get_of_disjoint hks (kind_of_bounded hk)] at hget
    exact hs k v hget

/-- What is read for a setting is within its bounds, if its default is. -/
theorem read (hs : s.InBounds) (k : DataKey) {default : k.Val}
    (hdefault : NiffyInsure.InBounds k default) :
    NiffyInsure.InBounds k ((s.get k).getD default) := by
  cases h : s.get k with
  | none => exact hdefault
  | some v => exact hs k v h

theorem maxEvidenceCount (hs : s.InBounds) : s.getMaxEvidenceCount ≤ MAX_EVIDENCE_COUNT_HARD_MAX :=
  hs.read .maxEvidenceCount (show IMAGE_URLS_MAX ≤ MAX_EVIDENCE_COUNT_HARD_MAX by decide)

theorem maxAppealsPerClaim (hs : s.InBounds) :
    1 ≤ s.getMaxAppealsPerClaim ∧ s.getMaxAppealsPerClaim ≤ 3 :=
  hs.read .maxAppealsPerClaim (show 1 ≤ MAX_APPEALS_PER_CLAIM ∧ MAX_APPEALS_PER_CLAIM ≤ 3 by decide)

theorem regionRegistry (hs : s.InBounds) :
    ∀ code config, ((s.get .regionRegistry).getD ∅).lookup code = some config →
      config.ValidAt code :=
  hs.read .regionRegistry fun _ _ h => by cases h

end State.InBounds

/-- What the code reads for its settings is within their bounds, the defaults included. -/
structure State.ReadsInBounds (s : State) : Prop where
  fee : s.getProtocolFeeBps ≤ PROTOCOL_FEE_BPS_MAX
  solvency : s.getMinSolvencyRatioBps ≤ MIN_SOLVENCY_RATIO_BPS_MAX
  coverage : 0 ≤ s.getMinCoverageAmount
  grace : MIN_GRACE_PERIOD_LEDGERS ≤ s.getGracePeriodLedgers ∧
    s.getGracePeriodLedgers ≤ MAX_GRACE_PERIOD_LEDGERS
  appeals : 1 ≤ s.getMaxAppealsPerClaim ∧ s.getMaxAppealsPerClaim ≤ 3
  voters : 1 ≤ s.getMaxVotersPerClaim ∧ s.getMaxVotersPerClaim ≤ U32_MAX
  fraud : s.getFraudScoreThreshold ≤ 100
  maxEvidence : s.getMaxEvidenceCount ≤ MAX_EVIDENCE_COUNT_HARD_MAX
  minEvidence : s.getMinEvidenceCount ≤ MAX_EVIDENCE_COUNT_HARD_MAX
  cap : 0 < s.getRollingClaimCap
  window : MIN_ROLLING_WINDOW_LEDGERS ≤ s.getRollingClaimWindowLedgers ∧
    s.getRollingClaimWindowLedgers ≤ MAX_ROLLING_WINDOW_LEDGERS
  cooldown : s.getCooldownLedgers ≤ MAX_COOLDOWN_LEDGERS
  govCooldown : s.getGovernanceCooldownLedgers ≤ MAX_COOLDOWN_LEDGERS
  proposerCooldown : s.getProposerCooldownLedgers ≤ MAX_PROPOSER_COOLDOWN_LEDGERS

theorem State.InBounds.reads {s : State} (hs : s.InBounds) : s.ReadsInBounds where
  fee := hs.read .protocolFeeBps (Nat.zero_le _)
  solvency := hs.read .minSolvencyRatioBps (Nat.zero_le _)
  coverage := hs.read .minCoverageAmount (show 0 ≤ DEFAULT_MIN_COVERAGE_AMOUNT by decide)
  grace := by
    have hgrace : isValidGracePeriodLedgers s.getGracePeriodLedgers = true :=
      hs.read .gracePeriodLedgers (show isValidGracePeriodLedgers DEFAULT_GRACE_PERIOD_LEDGERS =
        true by decide)
    simpa [isValidGracePeriodLedgers] using hgrace
  appeals := hs.maxAppealsPerClaim
  voters := hs.read .maxVotersPerClaim
    (show 1 ≤ DEFAULT_MAX_VOTERS_PER_CLAIM ∧ DEFAULT_MAX_VOTERS_PER_CLAIM ≤ U32_MAX by decide)
  fraud := hs.read .fraudScoreThreshold (show 75 ≤ 100 by decide)
  maxEvidence := hs.maxEvidenceCount
  minEvidence := hs.read .minEvidenceCount (Nat.zero_le _)
  cap := by
    have hcap : s.getRollingClaimCap = I128_MAX ∨ MIN_ROLLING_CLAIM_CAP ≤ s.getRollingClaimCap ∧
        s.getRollingClaimCap ≤ MAX_ROLLING_CLAIM_CAP := hs.read .rollingClaimCap (.inl rfl)
    rw [I128_MAX, MIN_ROLLING_CLAIM_CAP] at hcap
    omega
  window := hs.read .rollingClaimWindowLedgers
    (show MIN_ROLLING_WINDOW_LEDGERS ≤ 1000000 ∧ 1000000 ≤ MAX_ROLLING_WINDOW_LEDGERS by decide)
  cooldown := hs.read .cooldownLedgers (Nat.zero_le _)
  govCooldown := hs.read .governanceCooldownLedgers (Nat.zero_le _)
  proposerCooldown := hs.read .proposerCooldownLedgers (Nat.zero_le _)

/-! ## Configuration -/

section Calls

variable {env : Env} {s s' : State}

theorem inBounds_of_configure {auth : Result Address} {pre check : Result Unit} {cooldown : Bool}
    {writes : List Entry} (h : s.configure auth pre cooldown check writes = .ok s')
    (hs : s.InBounds) (hw : pre = .ok () → check = .ok () →
      ∀ e ∈ writes, ∀ v, e.2 = some v → InBounds e.1 v) : s'.InBounds := by
  obtain ⟨a, -, hrest⟩ := bind_eq_ok.mp h
  obtain ⟨u, hpre, -⟩ := bind_eq_ok.mp hrest
  obtain ⟨s₁, hf, hcheck, rfl⟩ := configure_eq_ok h
  exact State.InBounds.writeAll writes (hs.of_frame hf rfl) (hw hpre hcheck)

/-- A configuration entrypoint that writes one entry with bounds. -/
theorem inBounds_of_configure_one {auth : Result Address} {pre check : Result Unit}
    {cooldown : Bool}
    {k : DataKey} {v : k.Val} (h : s.configure auth pre cooldown check [⟨k, some v⟩] = .ok s')
    (hs : s.InBounds) (hv : pre = .ok () → check = .ok () → InBounds k v) : s'.InBounds := by
  refine inBounds_of_configure h hs fun hpre hcheck e he w hw => ?_
  cases List.mem_singleton.mp he
  cases hw
  exact hv hpre hcheck

theorem inBounds_of_configure_unbounded {auth : Result Address} {pre check : Result Unit}
    {cooldown : Bool} {writes : List Entry}
    (h : s.configure auth pre cooldown check writes = .ok s') (hs : s.InBounds)
    (hw : (writes.all fun e => !e.1.bounded) = true) : s'.InBounds := by
  refine inBounds_of_configure h hs fun _ _ e he v _ => inBounds_of_unbounded ?_ v
  simpa using List.all_eq_true.mp hw e he

theorem inBounds_of_checked {auth : Result Address} {pre : Result Unit} {cooldown : Bool}
    {k : DataKey} {v : k.Val} {p : Prop} [Decidable p] {e : Fault}
    (h : s.configure auth pre cooldown (ensure p e) [⟨k, some v⟩] = .ok s') (hs : s.InBounds)
    (hv : p → InBounds k v) : s'.InBounds :=
  inBounds_of_configure_one h hs fun _ hcheck => hv (ensure_eq_ok.mp hcheck)

/-- Where it passes what is ensured before the cooldown. -/
theorem inBounds_of_prechecked {auth : Result Address} {check : Result Unit} {cooldown : Bool}
    {k : DataKey} {v : k.Val} {p : Prop} [Decidable p] {e : Fault}
    (h : s.configure auth (ensure p e) cooldown check [⟨k, some v⟩] = .ok s') (hs : s.InBounds)
    (hv : p → InBounds k v) : s'.InBounds :=
  inBounds_of_configure_one h hs fun hpre _ => hv (ensure_eq_ok.mp hpre)

theorem inBounds_of_initializeContract {admin token : Address}
    (h : initializeContract env s admin token = .ok s') (hs : s.InBounds) : s'.InBounds := by
  simp only [initializeContract, requireNonZeroAddr, bind_eq_ok, ensure_eq_ok, pure_eq_ok] at h
  obtain ⟨-, -, -, -, -, hadmin, -, htoken, rfl⟩ := h
  refine State.InBounds.writeAll _ hs ?_
  simp only [List.forall_mem_cons, Option.some.injEq]
  refine ⟨?_, ?_, fun _ _ => trivial, fun _ _ => trivial, fun _ _ => trivial, ?_, fun _ _ =>
    trivial,
    ?_, fun _ _ => trivial, fun _ _ => trivial, fun _ _ => trivial, ?_⟩
  · rintro _ rfl
    exact hadmin
  · rintro _ rfl
    exact htoken
  · rintro _ rfl
    exact Nat.zero_le _
  · rintro _ rfl
    exact Nat.zero_le _
  · intro e he
    cases he

/-- The pending admin was checked when it was proposed. -/
theorem inBounds_of_acceptAdmin (h : acceptAdmin env s = .ok s') (hs : s.InBounds) :
    s'.InBounds := by
  simp only [acceptAdmin, bind_eq_ok, okOr_eq_ok, pure_eq_ok] at h
  obtain ⟨pending, hpending, -, -, -, -, -, -, -, -, rfl⟩ := h
  exact ((hs.set (k := .admin) (hs .pendingAdmin pending hpending)).remove .pendingAdmin).remove
    .pendingAdminExpiry

theorem inBounds_of_proposeAdmin {newAdmin : Address} (h : proposeAdmin env s newAdmin = .ok s')
    (hs : s.InBounds) : s'.InBounds := by
  simp only [proposeAdmin, requireNonZeroAddr, bind_eq_ok, ensure_eq_ok, pure_eq_ok] at h
  obtain ⟨-, -, -, hne, rfl⟩ := h
  have hs₁ := hs.of_frame (frame_checkAndClearExpiredAdminAction s) rfl
  exact (hs₁.set (k := .pendingAdmin) hne).set (k := .pendingAdminExpiry) trivial

theorem inBounds_of_upsertRegion {code : Str} {config : RegionConfig}
    (h : upsertRegion env s code config = .ok s') (hs : s.InBounds) : s'.InBounds := by
  refine inBounds_of_configure_one h hs fun hpre _ => ?_
  simp only [validateRegionCode, bind_eq_ok, ensure_eq_ok] at hpre
  obtain ⟨-, ⟨-, hnamed, hshort⟩, -, hparent, -, hself, hrisk⟩ := hpre
  intro code' config' hlook
  by_cases hcode : code' = code
  · subst hcode
    rw [AList.lookup_insert] at hlook
    cases hlook
    exact ⟨hnamed, hshort, hparent, hself, hrisk⟩
  · rw [AList.lookup_insert_ne hcode] at hlook
    exact hs.regionRegistry code' config' hlook

theorem inBounds_of_removeRegion {code : Str} (h : removeRegion env s code = .ok s')
    (hs : s.InBounds) : s'.InBounds := by
  refine inBounds_of_configure_one h hs fun _ _ => ?_
  intro code' config' hlook
  by_cases hcode : code' = code
  · subst hcode
    rw [AList.lookup_erase] at hlook
    cases hlook
  · rw [AList.lookup_erase_ne hcode] at hlook
    exact hs.regionRegistry code' config' hlook

/-- **A configuration entrypoint stores values within their bounds.** -/
theorem inBounds_of_setting {c : Setting} (h : c.exec env s = .ok s') (hs : s.InBounds) :
    s'.InBounds := by
  cases c
  case initializeContract => exact inBounds_of_initializeContract h hs
  case proposeAdmin => exact inBounds_of_proposeAdmin h hs
  case acceptAdmin => exact inBounds_of_acceptAdmin h hs
  case cancelAdminProposal =>
    simp only [Setting.exec, cancelAdminProposal, bind_eq_ok, pure_eq_ok] at h
    obtain ⟨-, -, -, -, rfl⟩ := h
    exact (hs.remove .pendingAdmin).remove .pendingAdminExpiry
  case setPauseAdmin | setTreasuryAdmin | setParamAdmin => exact inBounds_of_prechecked h hs id
  case setToken newToken =>
    obtain ⟨u, hne, h⟩ := bind_eq_ok.mp h
    have hvalid : newToken ≠ zeroAddress := ensure_eq_ok.mp hne
    exact inBounds_of_configure_one h hs fun _ _ => hvalid
  case adminSetFraudScoreThreshold | adminSetMaxEvidenceCount | adminSetMaxWeightCap
      | adminSetCooldownLedgers | adminSetMaxAppealsPerClaim | setRollingClaimCap
      | setRollingClaimWindowLedgers | adminSetProtocolFeeBps | adminSetMinSolvencyRatioBps
      | setGracePeriodLedgers | adminSetMaxSweepPerLedger => exact inBounds_of_checked h hs id
  case adminSetMinCoverageAmount | adminSetGovCooldownLedgers =>
    exact inBounds_of_prechecked h hs id
  case adminSetMaxVotersPerClaim cap =>
    refine inBounds_of_prechecked h hs fun hne => ?_
    have hcap := UInt32.toNat_lt cap
    have hpos : cap.toNat ≠ 0 := fun hzero => hne (UInt32.toNat_inj.mp hzero)
    show 1 ≤ cap.toNat ∧ cap.toNat ≤ U32_MAX
    rw [U32_MAX]
    omega
  case adminSetMinEvidenceCount newMin =>
    exact inBounds_of_checked h hs fun hle => hle.trans hs.maxEvidenceCount
  case adminSetAssetClaimBounds => exact inBounds_of_checked h hs fun hok => ⟨hok.1, hok.2.2⟩
  case upsertRegion => exact inBounds_of_upsertRegion h hs
  case removeRegion => exact inBounds_of_removeRegion h hs
  case grantDelegation =>
    obtain ⟨a, -, h⟩ := bind_eq_ok.mp h
    exact inBounds_of_configure_unbounded h hs rfl
  case addVotersBatch => exact hs.of_frame (frame_settingOf (c := .addVotersBatch _) h) rfl
  case adminRemoveVoter => exact hs.of_frame (frame_settingOf (c := .adminRemoveVoter _) h) rfl
  case updateMultiplierTable =>
    obtain ⟨s₁, h₁, h₂⟩ := bind_eq_ok.mp h
    cases h₂
    have hwritten : s₁.InBounds := inBounds_of_configure_unbounded h₁ hs rfl
    exact hwritten
  case adminSetPremiumMultiplier =>
    simp only [Setting.exec, adminSetPremiumMultiplier, bind_eq_ok, pure_eq_ok] at h
    obtain ⟨-, -, s₁, h₁, -, -, -, -, rfl⟩ := h
    have hs₁ := hs.of_frame (frame_checkAndUpdateGovCooldown h₁) rfl
    exact hs₁.set (k := .premiumTable) trivial
  case adminSetAssetPremiumTable asset table =>
    obtain ⟨s₁, h₁, h₂⟩ := bind_eq_ok.mp h
    cases h₂
    have hwritten : s₁.InBounds := inBounds_of_configure_unbounded h₁ hs rfl
    cases table <;> exact hwritten
  case setAllowedAsset asset allowed decimals =>
    refine inBounds_of_configure_unbounded h hs ?_
    cases allowed <;> rfl
  all_goals exact inBounds_of_configure_unbounded h hs rfl

/-! ## The other calls -/

theorem inBounds_of_claimCall {c : ClaimCall} (h : c.exec env s = .ok s') (hs : s.InBounds) :
    s'.InBounds := by
  cases c
  case setClaimFraudScore caller claimId score =>
    simp only [ClaimCall.exec, setClaimFraudScore, bind_eq_ok, ensure_eq_ok] at h
    obtain ⟨-, -, -, hscore, claim, -, admin, -, hwrite⟩ := h
    have hbounded : (s.set (.claimFraudScore claimId) score).InBounds :=
      hs.set (k := .claimFraudScore claimId) hscore
    split at hwrite
    · simp only [bind_eq_ok, pure_eq_ok] at hwrite
      obtain ⟨-, -, -, -, -, -, rfl⟩ := hwrite
      exact hbounded
    · cases hwrite
      exact hbounded
  case setCommitRevealPhases claimId commitEnd revealEnd =>
    simp only [ClaimCall.exec, setCommitRevealPhases, bind_eq_ok, ensure_eq_ok, pure_eq_ok] at h
    obtain ⟨-, -, -, -, -, hlt, rfl⟩ := h
    exact hs.set (k := .commitRevealPhases claimId) hlt
  case commitVote voter claimId commitment =>
    simp only [ClaimCall.exec, commitVote, bind_eq_ok, pure_eq_ok] at h
    obtain ⟨-, -, -, -, -, -, -, -, rfl⟩ := h
    exact hs.set (k := .voteCommitment claimId voter) trivial
  all_goals exact hs.of_frame (frame_claimCall h) rfl

/-- The two parameters that are voted on have bounds of their own. -/
theorem inBounds_of_voteProposal {voter : Address} {proposalId : Nat} {approve : Bool}
    (h : voteProposal env s voter proposalId approve = .ok s') (hs : s.InBounds) : s'.InBounds := by
  simp only [voteProposal, bind_eq_ok, okOr_eq_ok, pure_eq_ok] at h
  obtain ⟨-, -, p, -, -, -, -, -, rfl⟩ := h
  generalize ht : ((s.set (.proposalVote proposalId voter) approve).emit _ : State) = t
  have hbounded : t.InBounds := by
    rw [← ht]
    exact hs.set (k := .proposalVote proposalId voter) trivial
  unfold State.closeVote
  dsimp only
  split
  · refine State.InBounds.set (k := .proposal _) ?_ trivial
    unfold State.applyParameter
    split
    · exact hbounded.set (k := .quorumBps) trivial
    · split
      · exact hbounded.set (k := .voteDurLedgers) trivial
      · exact hbounded
  · split
    · exact State.InBounds.remove hbounded _
    · exact hbounded.set (k := .proposal _) trivial

theorem inBounds_of_governanceCall {c : GovernanceCall} (h : c.exec env s = .ok s')
    (hs : s.InBounds) : s'.InBounds := by
  cases c with
  | voteProposal => exact inBounds_of_voteProposal h hs
  | adminSetProposerCooldown => exact inBounds_of_checked h hs id
  | createProposal =>
    exact hs.of_frame (frame_governanceCall (c := .createProposal ..) h) rfl
  | finalizeGovernanceProposal =>
    exact hs.of_frame (frame_governanceCall (c := .finalizeGovernanceProposal _) h) rfl

theorem inBounds_of_exec {c : Call} (h : c.exec env s = .ok s') (hs : s.InBounds) :
    s'.InBounds := by
  cases c with
  | claim c => exact inBounds_of_claimCall h hs
  | policy c =>
    refine hs.of_frame (frame_policyCall h) ?_
    cases c <;> rfl
  | treasury c =>
    refine hs.of_frame (frame_treasuryCall h) ?_
    cases c <;> rfl
  | setting c => exact inBounds_of_setting h hs
  | governance c => exact inBounds_of_governanceCall h hs

end Calls

/-! ## Runs -/

section Runs

variable {host : Host} {s : State}

theorem inBounds_of_reach (h : (contract host).Reach always s) : s.InBounds := by
  refine h.invariant (I := State.InBounds) ?_ ?_
  · intro s hs k v hget
    rw [State.Fresh.get host hs] at hget
    cases hget
  · intro s l s' _ hstep hs
    cases l with
    | call env c => exact inBounds_of_exec hstep.2 hs
    | closeLedger n =>
      obtain ⟨-, -, rfl⟩ := hstep
      exact hs
    | tokens b a =>
      obtain ⟨-, rfl⟩ := hstep
      exact hs

/-- **Every setting is within its bounds**, in every reachable state: what is stored for it, and
what is read for it where nothing is stored. -/
theorem settings_in_bounds (h : (contract host).Reach always s) :
    (∀ k v, s.get k = some v → InBounds k v) ∧ s.ReadsInBounds :=
  ⟨inBounds_of_reach h, (inBounds_of_reach h).reads⟩

/-- A refused value leaves the setting as it was: three appeals, and not four. -/
theorem settings_in_bounds_demo : ∃ s, (contract demoHost).Reach always s ∧
    s.get .maxAppealsPerClaim = some 3 ∧
    (adminSetMaxAppealsPerClaim demoEnv s 4).fault = some (.admin .maxAppealsPerClaimOutOfBounds) ∧
    s.ReadsInBounds := by
  obtain ⟨s, hreach, hval⟩ := exists_of_follow always_of_noCheck (deployed 0)
    [demoInit, demoCall (.setting (.adminSetMaxAppealsPerClaim 3))]
    (f := fun s => (s.get .maxAppealsPerClaim, (adminSetMaxAppealsPerClaim demoEnv s 4).fault))
    (a := (some 3, some (.admin .maxAppealsPerClaimOutOfBounds))) (fresh_deployed (by decide))
    (by simp [demoInit]) (by decide +kernel)
  simp only [Prod.mk.injEq] at hval
  exact ⟨s, hreach, hval.1, hval.2, (settings_in_bounds hreach).2⟩

end Runs

end NiffyInsure
