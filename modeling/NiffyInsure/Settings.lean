import NiffyInsure.Premium
import NiffyInsure.Treasury
import NiffyInsure.Voters

/-!
# Settings

Initialisation, admin rotation, and the configuration entrypoints.  A configuration
entrypoint authorises one role, honours the governance cooldown (most of them), checks
the new value and writes a fixed list of entries: `configure` is that shape, and each
entrypoint below is an instance of it under its own name.  Of the notification events of
these entrypoints only those of a change of prices are published here.
-/

namespace NiffyInsure

/-- A storage entry to write, or to remove when there is no value. -/
abbrev Entry := (k : DataKey) × Option k.Val

/-- Write a list of entries, in order. -/
def State.writeAll (s : State) (writes : List Entry) : State :=
  writes.foldl (fun s e => s.setOrRemove e.1 e.2) s

/-- The common shape of the configuration entrypoints.  `pre` stands before the
governance cooldown and `check` after it. -/
def State.configure (s : State) (auth : Result Address) (pre : Result Unit) (cooldown : Bool)
    (check : Result Unit) (writes : List Entry) : Result State := do
  let _ ← auth
  pre
  let s₁ ← if cooldown then checkAndUpdateGovCooldown s else .ok s
  check
  pure (s₁.writeAll writes)

section Roles

variable (env : Env) (s : State)

/-- The stored admin's authorisation, without the typed error of `require_admin`. -/
def requireStoredAdmin : Result Address := do
  let admin ← okOr (s.get .admin) .trap
  requireAuth env admin
  pure admin

/-- The pause entrypoints name the admin and assert that it is the stored one. -/
def requireNamedAdmin (admin : Address) : Result Address := do
  requireAuth env admin
  let stored ← okOr (s.get .admin) .trap
  ensure (admin = stored) .trap
  pure admin

/-- `initialize`. -/
def initializeContract (admin token : Address) : Result State := do
  requireAuth env admin
  ensure ((s.get .admin).isNone = true) .alreadyInitialized
  requireNonZeroAddr admin
  requireNonZeroAddr token
  pure (s.writeAll [⟨.admin, some admin⟩, ⟨.token, some token⟩, ⟨.initLedger, some s.sequence⟩,
    ⟨.premiumTable, some defaultMultiplierTable⟩, ⟨.allowedAsset token, some true⟩,
    ⟨.protocolFeeBps, some 0⟩, ⟨.feeRecipient, some env.contract⟩,
    ⟨.minSolvencyRatioBps, some 0⟩, ⟨.claimFilingFee, some 0⟩,
    ⟨.voteDurLedgers, some VOTE_WINDOW_LEDGERS⟩, ⟨.quorumBps, some DEFAULT_QUORUM_BPS⟩])

/-! ## Admin rotation -/

/-- `propose_admin`. -/
def proposeAdmin (newAdmin : Address) : Result State := do
  let _ ← requireAdmin env s
  requireNonZeroAddr newAdmin
  let s₁ := s.checkAndClearExpiredAdminAction
  let expiry := saturatingAdd32 s.sequence s₁.getAdminActionWindowLedgers
  pure ((s₁.set .pendingAdmin newAdmin).set .pendingAdminExpiry expiry)

/-- `accept_admin`. -/
def acceptAdmin : Result State := do
  let pending ← okOr (s.get .pendingAdmin) (.admin .noPendingAdmin)
  let expiry ← okOr (s.get .pendingAdminExpiry) (.admin .noPendingAdmin)
  ensure (s.sequence ≤ expiry) (.admin .adminActionExpired)
  requireAuth env pending
  let _ ← okOr (s.get .admin) .trap
  pure (s.writeAll [⟨.admin, some pending⟩, ⟨.pendingAdmin, none⟩, ⟨.pendingAdminExpiry, none⟩])

/-- `cancel_admin_proposal`. -/
def cancelAdminProposal : Result State := do
  let _ ← requireAdmin env s
  let _ ← okOr (s.get .pendingAdmin) (.admin .noPendingAdmin)
  pure (s.writeAll [⟨.pendingAdmin, none⟩, ⟨.pendingAdminExpiry, none⟩])

/-- `set_pause_admin`. -/
def setPauseAdmin (addr : Address) : Result State :=
  s.configure (requireAdmin env s) (requireNonZeroAddr addr) false (.ok ())
    [⟨.pauseAdmin, some addr⟩]

/-- `set_treasury_admin`. -/
def setTreasuryAdmin (addr : Address) : Result State :=
  s.configure (requireAdmin env s) (requireNonZeroAddr addr) false (.ok ())
    [⟨.treasuryAdmin, some addr⟩]

/-- `set_param_admin`. -/
def setParamAdmin (addr : Address) : Result State :=
  s.configure (requireAdmin env s) (requireNonZeroAddr addr) false (.ok ())
    [⟨.paramAdmin, some addr⟩]

/-- `set_token`.  The zero check stands before the authorisation. -/
def setToken (newToken : Address) : Result State := do
  requireNonZeroAddr newToken
  s.configure (requireAdmin env s) (.ok ()) true (do let _ ← s.getToken; pure ())
    [⟨.token, some newToken⟩]

end Roles

/-! ## Pausing -/

section Pausing

variable (env : Env) (s : State)

/-- `pause`. -/
def pause (admin : Address) (reason : PauseReason) : Result State :=
  s.configure (requireNamedAdmin env s admin) (.ok ()) false (.ok ())
    [⟨.paused, some ⟨true, true, true⟩⟩, ⟨.pauseReason, some reason⟩]

/-- `unpause`. -/
def unpause (admin : Address) : Result State :=
  s.configure (requireNamedAdmin env s admin) (.ok ()) false (.ok ())
    [⟨.paused, some ⟨false, false, false⟩⟩, ⟨.pauseReason, none⟩]

/-- `pause_bind`. -/
def pauseBind (admin : Address) (reason : PauseReason) : Result State :=
  s.configure (requireNamedAdmin env s admin) (.ok ()) false (.ok ())
    [⟨.paused, some { s.getPauseFlags with bindPaused := true }⟩, ⟨.pauseReason, some reason⟩]

/-- `pause_claims`. -/
def pauseClaims (admin : Address) (reason : PauseReason) : Result State :=
  s.configure (requireNamedAdmin env s admin) (.ok ()) false (.ok ())
    [⟨.paused, some { s.getPauseFlags with claimsPaused := true }⟩, ⟨.pauseReason, some reason⟩]

end Pausing

/-! ## Voting and claims -/

section Voting

variable (env : Env) (s : State)

/-- `admin_set_vote_duration_ledgers`. -/
def adminSetVoteDurationLedgers (ledgers : Nat) : Result State :=
  s.configure (requireStoredAdmin env s) (.ok ()) true
    (ensure (MIN_VOTING_DURATION_LEDGERS ≤ ledgers ∧ ledgers ≤ MAX_VOTING_DURATION_LEDGERS)
      (.error .votingDurationOutOfBounds))
    [⟨.voteDurLedgers, some ledgers⟩]

/-- `validate_quorum_bps`. -/
def validateQuorumBps (bps : Nat) : Result Unit :=
  ensure (QUORUM_BPS_MIN ≤ bps ∧ bps ≤ QUORUM_BPS_MAX) (.error .votingDurationOutOfBounds)

/-- `admin_set_quorum_bps`. -/
def adminSetQuorumBps (quorumBps : Nat) : Result State :=
  s.configure (requireStoredAdmin env s) (.ok ()) true (validateQuorumBps quorumBps)
    [⟨.quorumBps, some quorumBps⟩]

/-- `admin_set_elevated_quorum_bps`. -/
def adminSetElevatedQuorumBps (bps : Nat) : Result State :=
  s.configure (requireAdmin env s) (.ok ()) true (validateQuorumBps bps)
    [⟨.elevatedQuorumBps, some bps⟩]

/-- `admin_set_fraud_score_threshold`. -/
def adminSetFraudScoreThreshold (threshold : Nat) : Result State :=
  s.configure (requireAdmin env s) (.ok ()) true
    (ensure (threshold ≤ 100) (.error .safetyScoreOutOfRange))
    [⟨.fraudScoreThreshold, some threshold⟩]

/-- `admin_set_max_voters_per_claim`.  The argument is a `u32`, which bounds every
electorate. -/
def adminSetMaxVotersPerClaim (cap : UInt32) : Result State :=
  s.configure (requireAdmin env s) (ensure (cap ≠ 0) (.error .votingDurationOutOfBounds)) false
    (.ok ()) [⟨.maxVotersPerClaim, some cap.toNat⟩]

/-- `admin_set_claim_filing_fee`. -/
def adminSetClaimFilingFee (fee : Int) : Result State :=
  s.configure (requireAdmin env s) (.ok ()) false (.ok ()) [⟨.claimFilingFee, some fee⟩]

/-- `admin_set_max_evidence_count`. -/
def adminSetMaxEvidenceCount (newCount : Nat) : Result State :=
  s.configure (requireParamAdmin env s) (.ok ()) true
    (ensure (newCount ≤ MAX_EVIDENCE_COUNT_HARD_MAX) (.admin .maxEvidenceCountOutOfBounds))
    [⟨.maxEvidenceCount, some newCount⟩]

/-- `admin_set_min_evidence_count`. -/
def adminSetMinEvidenceCount (newMin : Nat) : Result State :=
  s.configure (requireParamAdmin env s) (.ok ()) true
    (ensure (newMin ≤ s.getMaxEvidenceCount) (.admin .minEvidenceExceedsMax))
    [⟨.minEvidenceCount, some newMin⟩]

/-- `admin_set_max_weight_cap`. -/
def adminSetMaxWeightCap (newCap : Int) : Result State :=
  s.configure (requireParamAdmin env s) (.ok ()) true
    (ensure (0 < newCap) (.admin .invalidMaxWeightCap)) [⟨.maxWeightCap, some newCap⟩]

/-- `MAX_COOLDOWN_LEDGERS` and `MAX_GOVERNANCE_COOLDOWN_LEDGERS`. -/
def MAX_COOLDOWN_LEDGERS : Nat := 30 * LEDGERS_PER_DAY

/-- `admin_set_cooldown_ledgers`. -/
def adminSetCooldownLedgers (newLedgers : Nat) : Result State :=
  s.configure (requireParamAdmin env s) (.ok ()) true
    (ensure (newLedgers ≤ MAX_COOLDOWN_LEDGERS) (.admin .cooldownLedgersOutOfBounds))
    [⟨.cooldownLedgers, some newLedgers⟩]

/-- `admin_set_max_appeals_per_claim`. -/
def adminSetMaxAppealsPerClaim (newCap : Nat) : Result State :=
  s.configure (requireParamAdmin env s) (.ok ()) true
    (ensure (1 ≤ newCap ∧ newCap ≤ 3) (.admin .maxAppealsPerClaimOutOfBounds))
    [⟨.maxAppealsPerClaim, some newCap⟩]

/-- `admin_set_gateway_allowlist`. -/
def adminSetGatewayAllowlist (gateways : List Str) : Result State :=
  s.configure (requireParamAdmin env s) (.ok ()) true (.ok ()) [⟨.gatewayAllowlist, some gateways⟩]

/-- `admin_set_asset_claim_bounds`. -/
def adminSetAssetClaimBounds (asset : Address) (minClaimAmount maxClaimAmount : Int) :
    Result State :=
  s.configure (requireAdmin env s) (.ok ()) true
    (ensure (0 < minClaimAmount ∧ 0 < maxClaimAmount ∧ minClaimAmount ≤ maxClaimAmount)
      (.error .claimAmountZero))
    [⟨.allowedAssetConfig asset, some ⟨minClaimAmount, maxClaimAmount⟩⟩]

def MIN_ROLLING_CLAIM_CAP : Int := 1
def MAX_ROLLING_CLAIM_CAP : Int := 9999999999999999
def MIN_ROLLING_WINDOW_LEDGERS : Nat := 100
def MAX_ROLLING_WINDOW_LEDGERS : Nat := 100000000

/-- `set_rolling_claim_cap`. -/
def setRollingClaimCap (newCap : Int) : Result State :=
  s.configure (requireAdmin env s) (.ok ()) false
    (ensure (newCap = I128_MAX ∨ MIN_ROLLING_CLAIM_CAP ≤ newCap ∧ newCap ≤ MAX_ROLLING_CLAIM_CAP)
      (.admin .rollingClaimCapOutOfBounds))
    [⟨.rollingClaimCap, some newCap⟩]

/-- `set_rolling_claim_window_ledgers`. -/
def setRollingClaimWindowLedgers (windowLedgers : Nat) : Result State :=
  s.configure (requireAdmin env s) (.ok ()) false
    (ensure (MIN_ROLLING_WINDOW_LEDGERS ≤ windowLedgers ∧
      windowLedgers ≤ MAX_ROLLING_WINDOW_LEDGERS) (.admin .rollingClaimWindowOutOfBounds))
    [⟨.rollingClaimWindowLedgers, some windowLedgers⟩]

/-- `grant_delegation`. -/
def grantDelegation (operator : Address) (expiryLedger : Nat)
    (permissions : DelegationPermissions) : Result State := do
  let admin ← requireAdmin env s
  s.configure (.ok admin) (.ok ()) false
    (ensure (s.sequence < expiryLedger) (.error .delegationInvalid))
    [⟨.delegation operator, some ⟨admin, expiryLedger, permissions⟩⟩]

/-- `revoke_delegation`. -/
def revokeDelegation (operator : Address) : Result State :=
  s.configure (requireAdmin env s) (.ok ()) false (.ok ()) [⟨.delegation operator, none⟩]

/-- `add_voters_batch`. -/
def addVotersBatch (addresses : List Address) : Result State := do
  let admin ← requireAdmin env s
  let (added, s₁) ← mapErr (s.addVotersBatch addresses) fun _ => .error .voterRegistryCapExceeded
  pure (added.foldl (fun s voter => s.emit (.voterAdded voter admin)) s₁)

/-- `admin_remove_voter`. -/
def adminRemoveVoter (voter : Address) : Result State := do
  let _ ← requireStoredAdmin env s
  s.removeVoter voter

end Voting

/-! ## Policies and pricing -/

section Pricing

variable (env : Env) (s : State)

/-- `update_multiplier_table`. -/
def updateMultiplierTable (newTable : MultiplierTable) : Result State := do
  let s₁ ← s.configure (requireStoredAdmin env s) (.ok ()) true
    (do
      let current ← okOr (s.get .premiumTable) .trap
      ensure (current.version < newTable.version) (.error .invalidConfigVersion)
      newTable.validateRows)
    [⟨.premiumTable, some newTable⟩]
  pure (s₁.emit (.multiplierTableUpdated newTable.version))

/-- `admin_set_premium_multiplier`. -/
def adminSetPremiumMultiplier (key : MultiplierKey) (value : Int) : Result State := do
  let _ ← requireStoredAdmin env s
  let s₁ ← checkAndUpdateGovCooldown s
  let table ← okOr (s₁.get .premiumTable) .trap
  key.validate value
  let bumped := table.setEntry key value
  pure (((s₁.set .premiumTable bumped).emit
    (.premiumMultiplierUpdated key (table.entry key) value)).emit
    (.multiplierTableUpdated bumped.version))

/-- The events of `admin_set_asset_premium_table`: the removal of a table is not a new
version. -/
def State.emitAssetPremiumTable (s : State) (asset : Address) : Option MultiplierTable → State
  | none => s.emit (.assetPremiumTableSet asset 0 true)
  | some t =>
    (s.emit (.assetPremiumTableSet asset t.version false)).emit (.multiplierTableUpdated t.version)

/-- `admin_set_asset_premium_table`. -/
def adminSetAssetPremiumTable (asset : Address) (table : Option MultiplierTable) :
    Result State := do
  let s₁ ← s.configure (requireAdmin env s) (.ok ()) true
    (do
      ensure (s.isAllowedAsset asset = true) (.error .invalidAsset)
      match table with
      | none => pure ()
      | some t => do
        ensure ((s.get (.assetPremiumTable asset)).all (fun e => decide (e.version < t.version)) =
          true) (.error .invalidConfigVersion)
        t.validateRows)
    [⟨.assetPremiumTable asset, table⟩]
  pure (s₁.emitAssetPremiumTable asset table)

/-- `set_allowed_asset`. -/
def setAllowedAsset (asset : Address) (allowed : Bool) (decimals : Nat) : Result State :=
  s.configure (requireAdmin env s) (.ok ()) true (.ok ())
    (⟨.allowedAsset asset, some allowed⟩ ::
      if allowed then [⟨.assetDecimals asset, some decimals⟩] else [])

/-- `admin_set_asset_decimals`. -/
def adminSetAssetDecimals (asset : Address) (decimals : Nat) : Result State :=
  s.configure (requireAdmin env s) (.ok ()) false (.ok ()) [⟨.assetDecimals asset, some decimals⟩]

/-- `admin_set_protocol_fee_bps`. -/
def adminSetProtocolFeeBps (feeBps : Nat) : Result State :=
  s.configure (requireStoredAdmin env s) (.ok ()) true
    (ensure (feeBps ≤ PROTOCOL_FEE_BPS_MAX) (.error .protocolFeeOutOfBounds))
    [⟨.protocolFeeBps, some feeBps⟩]

/-- `admin_set_fee_recipient`. -/
def adminSetFeeRecipient (recipient : Address) : Result State :=
  s.configure (requireStoredAdmin env s) (.ok ()) true (.ok ()) [⟨.feeRecipient, some recipient⟩]

/-- `admin_set_min_solvency_ratio_bps`. -/
def adminSetMinSolvencyRatioBps (ratioBps : Nat) : Result State :=
  s.configure (requireStoredAdmin env s) (.ok ()) true
    (ensure (ratioBps ≤ MIN_SOLVENCY_RATIO_BPS_MAX) (.error .solvencyRatioOutOfBounds))
    [⟨.minSolvencyRatioBps, some ratioBps⟩]

/-- `admin_set_min_coverage_amount`. -/
def adminSetMinCoverageAmount (amount : Int) : Result State :=
  s.configure (requireAdmin env s) (ensure (0 ≤ amount) (.error .zeroCoverage)) false (.ok ())
    [⟨.minCoverageAmount, some amount⟩]

/-- `set_grace_period_ledgers`. -/
def setGracePeriodLedgers (ledgers : Nat) : Result State :=
  s.configure (requireAdmin env s) (.ok ()) true
    (ensure (isValidGracePeriodLedgers ledgers = true) .gracePeriodOutOfBounds)
    [⟨.gracePeriodLedgers, some ledgers⟩]

/-- `set_calculator`. -/
def setCalculator (calculator : Address) : Result State :=
  s.configure (requireStoredAdmin env s) (.ok ()) true (.ok ()) [⟨.calcAddress, some calculator⟩]

/-- `set_calculator_with_version`: version zero drops the pin. -/
def setCalculatorWithVersion (calculator : Address) (expectedVersion : Nat) : Result State :=
  s.configure (requireStoredAdmin env s) (.ok ()) true (.ok ())
    [⟨.calcAddress, some calculator⟩,
      ⟨.expectedCalcVersion, if expectedVersion = 0 then none else some expectedVersion⟩]

/-- `clear_calculator`. -/
def clearCalculator : Result State :=
  s.configure (requireStoredAdmin env s) (.ok ()) true (.ok ())
    [⟨.calcAddress, none⟩, ⟨.expectedCalcVersion, none⟩]

/-- `validate_region_code`. -/
def validateRegionCode (region : Str) : Result Unit := do
  ensure (region ≠ []) (.region .emptyRegionCode)
  ensure (region.length ≤ REGION_CODE_MAX_LEN) (.region .regionCodeTooLong)

/-- `upsert_region`. -/
def upsertRegion (region : Str) (config : RegionConfig) : Result State :=
  s.configure (requireAdmin env s)
    (do
      validateRegionCode region
      ensure (config.parent.length ≤ REGION_CODE_MAX_LEN) (.region .parentCodeTooLong)
      ensure (config.parent ≠ region) (.region .selfParent)
      ensure (MIN_MULTIPLIER ≤ config.riskMultiplier ∧ config.riskMultiplier ≤ MAX_MULTIPLIER)
        (.region .riskMultiplierOutOfBounds))
    true (.ok ())
    [⟨.regionRegistry, some (((s.get .regionRegistry).getD ∅).insert region config)⟩]

/-- `remove_region`. -/
def removeRegion (region : Str) : Result State :=
  s.configure (requireAdmin env s)
    (do
      validateRegionCode region
      ensure ((((s.get .regionRegistry).getD ∅).lookup region).isSome = true)
        (.region .regionNotFound))
    true (.ok ())
    [⟨.regionRegistry, some (((s.get .regionRegistry).getD ∅).erase region)⟩]

/-- `admin_register_policy_type`. -/
def adminRegisterPolicyType (policyType : PolicyType) (config : PolicyTypeConfig) : Result State :=
  s.configure (requireAdmin env s) (.ok ()) false (.ok ())
    [⟨.policyTypeConfig policyType, some config⟩, ⟨.policyTypeActive policyType, some true⟩,
      ⟨.policyTypeRegistryEnabled, some true⟩]

/-- `admin_deregister_policy_type`. -/
def adminDeregisterPolicyType (policyType : PolicyType) : Result State :=
  s.configure (requireAdmin env s) (.ok ()) false (.ok ())
    [⟨.policyTypeActive policyType, some false⟩]

/-- `admin_set_whitelist_enabled`. -/
def adminSetWhitelistEnabled (enabled : Bool) : Result State :=
  s.configure (requireAdmin env s) (.ok ()) true (.ok ()) [⟨.whitelistEnabled, some enabled⟩]

/-- `admin_add_to_whitelist`. -/
def adminAddToWhitelist (holder : Address) : Result State :=
  s.configure (requireAdmin env s) (.ok ()) false (.ok ()) [⟨.whitelisted holder, some true⟩]

/-- `admin_remove_from_whitelist`. -/
def adminRemoveFromWhitelist (holder : Address) : Result State :=
  s.configure (requireAdmin env s) (.ok ()) false (.ok ()) [⟨.whitelisted holder, none⟩]

end Pricing

/-! ## The treasury -/

section Treasury

variable (env : Env) (s : State)

/-- `set_sweep_cap`. -/
def setSweepCap (cap : Option Int) : Result State :=
  s.configure (requireTreasuryAdmin env s) (.ok ()) true (.ok ()) [⟨.sweepCap, cap⟩]

/-- `set_sweep_notice_period`. -/
def setSweepNoticePeriod (ledgers : Nat) : Result State :=
  s.configure (requireTreasuryAdmin env s) (.ok ()) true (.ok ())
    [⟨.sweepNoticePeriodLedgers, some ledgers⟩]

/-- `admin_set_max_sweep_per_ledger`. -/
def adminSetMaxSweepPerLedger (cap : Int) : Result State :=
  s.configure (requireTreasuryAdmin env s) (.ok ()) true
    (ensure (0 < cap) (.admin .maxSweepPerLedgerOutOfBounds)) [⟨.maxSweepPerLedger, some cap⟩]

/-- `admin_set_gov_cooldown_ledgers`.  The bound stands before the cooldown here. -/
def adminSetGovCooldownLedgers (newLedgers : Nat) : Result State :=
  s.configure (requireParamAdmin env s)
    (ensure (newLedgers ≤ MAX_COOLDOWN_LEDGERS) (.admin .governanceCooldownOutOfBounds)) true
    (.ok ()) [⟨.governanceCooldownLedgers, some newLedgers⟩]

/-- `admin_set_reinsurance_contract`. -/
def adminSetReinsuranceContract (reinsurance : Address) : Result State :=
  s.configure (requireAdmin env s) (.ok ()) true (.ok ())
    [⟨.reinsuranceContract, some reinsurance⟩]

/-- `admin_clear_reinsurance_contract`. -/
def adminClearReinsuranceContract : Result State :=
  s.configure (requireAdmin env s) (.ok ()) true (.ok ()) [⟨.reinsuranceContract, none⟩]

/-- `set_authorized_depositor`. -/
def setAuthorizedDepositor (depositor : Address) (allowed : Bool) : Result State :=
  s.configure (requireAdmin env s) (.ok ()) false (.ok ())
    [⟨.authorizedDepositor depositor, some allowed⟩]

/-- `set_allowed_payout_recipient`. -/
def setAllowedPayoutRecipient (recipient : Address) (allowed : Bool) : Result State :=
  s.configure (requireAdmin env s) (.ok ()) false (.ok ())
    [⟨.allowedPayoutRecipient recipient, some allowed⟩]

end Treasury

end NiffyInsure
