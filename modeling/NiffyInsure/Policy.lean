import NiffyInsure.Ledger
import NiffyInsure.Premium
import NiffyInsure.Validate
import NiffyInsure.Voters

/-!
# Policies

Binding, renewing, transferring, terminating and lapsing of policies (`policy.rs` and
`policy_lifecycle.rs`), with the checks in the source's order.
-/

namespace NiffyInsure

/-- Result of `renew_policy`. -/
inductive RenewPolicyOutcome where
  | renewed (policy : Policy)
  | lapsed

/-! ## Binding -/

section Binding

variable (env : Env) (s : State)

/-- `policy::require_non_zero`. -/
def requireNonZero (a : Address) : Result Unit := ensure (a ≠ zeroAddress) (.policy .zeroAddress)

/-- `outstanding_approved_claim_obligations`. -/
def State.outstandingApprovedClaimObligations (asset : Address) : Int :=
  (List.range s.getClaimCounter).foldl (fun total i =>
    match s.getClaim (i + 1) with
    | some claim =>
      if claim.status = .approved ∧ claim.asset = asset ∧
          0 < saturatingSub128 claim.amount claim.deductible then
        saturatingAdd128 total (saturatingSub128 claim.amount claim.deductible)
      else total
    | none => total) 0

/-- `check_solvency_ratio`. -/
def State.checkSolvencyRatio (asset : Address) (newCoverage : Int) : Bool :=
  let minRatioBps := s.getMinSolvencyRatioBps
  if minRatioBps = 0 then true
  else if newCoverage < 0 then false
  else
    let obligations := saturatingAdd128 (s.outstandingApprovedClaimObligations asset) newCoverage
    if obligations ≤ 0 then true
    else
      let balance := s.balance asset (s.getTreasury env)
      if balance < 0 then false
      else match checkedMul128 balance 10000 with
        | none => true
        | some numerator => decide ((minRatioBps : Int) ≤ numerator / obligations)

/-- The risk multiplier of the region code, when a region registry is in use. -/
def State.regionRiskMultiplier (regionCode : Option Str) : Result Int :=
  let registry := (s.get .regionRegistry).getD ∅
  if registry.keys = [] then .ok SCALE
  else do
    let code ← okOr regionCode (.policy .invalidRegion)
    let config ← okOr (registry.lookup code) (.policy .invalidRegion)
    ensure (config.active = true) (.policy .invalidRegion)
    pure config.riskMultiplier

/-- The deductible that is stored: zero is dropped, and the rest has to lie below the
coverage. -/
def storedDeductible (deductible : Option Int) (coverage : Int) : Result (Option Int) :=
  match deductible with
  | none => .ok none
  | some d =>
    if d = 0 then .ok none
    else if d < 0 then .error (.policy .invalidDeductible)
    else if coverage ≤ d then .error (.policy .invalidDeductible)
    else .ok (some d)

/-- How `initiate_policy` and `renew_policy` report a failed quote. -/
def quoteError : Fault → Fault
  | .error .calculatorPaused => .policy .contractPaused
  | .error _ => .policy .premiumOverflow
  | f => f

/-- The conflict that `initiate_policy` looks for: an active policy of the same type and
region whose half-open window meets `[start, finish)`. -/
def Policy.conflictsWith (existing : Policy) (policyType : PolicyType) (region : RegionTier)
    (start finish : Nat) : Bool :=
  existing.isActive && existing.policyType == policyType && existing.region == region &&
    decide (existing.startLedger < finish) && decide (start < existing.endLedger)

/-- The scan of the holder's policies up to its policy counter. -/
def State.hasConflict (holder : Address) (policyType : PolicyType) (region : RegionTier)
    (start finish : Nat) : Bool :=
  (List.range (s.getPolicyCounter holder)).any fun i =>
    match s.getPolicy holder (i + 1) with
    | some existing => existing.conflictsWith policyType region start finish
    | none => false

structure InitiatePolicyArgs where
  holder : Address
  policyType : PolicyType
  region : RegionTier
  ageBand : AgeBand
  coverageType : CoverageTier
  safetyScore : Nat
  baseAmount : Int
  asset : Address
  options : InitiatePolicyOptions

/-- The checks of `initiate_policy` before the nonce. -/
def State.checkBindAllowed (a : InitiatePolicyArgs) : Result Unit := do
  s.assertBindNotPaused
  requireNonZero a.holder
  ensure (a.options.beneficiary.all (· ≠ zeroAddress) = true) (.policy .zeroAddress)
  ensure (s.isPolicyTypeRegistryEnabled = false ∨ s.isPolicyTypeActive a.policyType = true)
    (.policy .assetNotAllowed)
  ensure (s.isAllowedAsset a.asset = true) (.policy .assetNotAllowed)
  ensure (s.isWhitelistEnabled = false ∨ s.isWhitelisted a.holder = true) (.policy .notWhitelisted)

/-- The checks of `initiate_policy` on its arguments. -/
def State.checkBindArgs (a : InitiatePolicyArgs) : Result Unit := do
  mapErr (validateMetadataUri a.options.metadataUri) fun _ => .policy .invalidMetadataUri
  ensure (a.safetyScore ≤ 100) (.policy .invalidRiskScore)
  ensure (0 < a.baseAmount) (.policy .invalidCoverage)
  ensure (s.getMinCoverageAmount ≤ a.baseAmount) (.policy .invalidCoverage)
  ensure (a.options.termsHash ≠ Vector.replicate 32 0) (.policy .invalidTermsHash)
  ensure (s.checkSolvencyRatio env a.asset a.baseAmount = true) (.policy .insufficientSolvency)

/-- The record that `initiate_policy` creates. -/
def newPolicy (a : InitiatePolicyArgs) (policyId : Nat) (premium : Int) (deductible : Option Int)
    (startLedger endLedger tokenDecimals : Nat) : Policy where
  holder := a.holder
  policyId := policyId
  policyType := a.policyType
  region := a.region
  premium := premium
  coverage := a.baseAmount
  isActive := true
  startLedger := startLedger
  endLedger := endLedger
  asset := a.asset
  deductible := deductible
  beneficiary := a.options.beneficiary
  terminatedAtLedger := 0
  terminationReason := .none
  terminatedByAdmin := false
  strikeCount := 0
  metadataUri := a.options.metadataUri
  termsHash := a.options.termsHash
  tokenDecimals := tokenDecimals

/-- The events of `initiate_policy`. -/
def State.emitPolicyInitiated (policy : Policy) (feeAmount : Int)
    (feeRecipient : Address) : State :=
  let s₁ := if 0 < feeAmount then
    s.emit (.protocolFeeCollected policy.policyId feeAmount feeRecipient) else s
  let s₂ := s₁.emit (.policyInitiated policy.policyId policy.holder policy.premium policy.asset
    policy.policyType policy.region policy.coverage policy.deductible policy.startLedger
    policy.endLedger policy.termsHash)
  if policy.beneficiary.isSome then
    s₂.emit (.beneficiaryUpdated policy.holder policy.policyId none policy.beneficiary) else s₂

/-- The writes of `initiate_policy` after the premium is collected: reserve the coverage,
store the policy, enter the holder as a voter. -/
def State.bindPolicy (policy : Policy) : Result State := do
  let s₁ ← mapErr (s.reserveCoverage policy.asset policy.coverage) fun f =>
    if f = .error .overflow then .policy .premiumOverflow else .policy .insufficientSolvency
  let s₂ := s₁.set (.assetDecimals policy.asset) policy.tokenDecimals
  mapErr (checkPolicy policy) fun _ => .policy .policyValidation
  let s₃ := s₂.setPolicy policy.holder policy.policyId policy
  let s₄ ← mapErr (s₃.addVoter policy.holder) fun f =>
    if f = .trap then .trap else .policy .voterRegistryFull
  pure (s₄.indexNewPolicy policy.holder policy.policyId policy)

/-- `initiate_policy`. -/
def initiatePolicy (a : InitiatePolicyArgs) : Result (Policy × State) := do
  s.checkBindAllowed a
  let regionRiskMultiplier ← s.regionRiskMultiplier a.options.regionCode
  requireAuth env a.holder
  let s₁ ← mapErr (s.checkAndBumpNonce a.holder a.options.expectedNonce) fun f =>
    if f = .trap then .trap else .policy .nonceMismatch
  s₁.checkBindArgs env a
  let deductible ← storedDeductible a.options.deductible a.baseAmount
  let (quote, s₂) ← mapErr
    (s₁.computeQuote env ⟨a.region, a.ageBand, a.coverageType, a.safetyScore⟩ a.baseAmount
      QUOTE_TTL_LEDGERS a.asset) quoteError
  let premium ← mapErr (checkedMulRatio quote.totalPremium regionRiskMultiplier SCALE .ceil)
    fun _ => .policy .premiumOverflow
  ensure (0 < premium) (.policy .invalidPremium)
  let feeRecipient := s₂.getFeeRecipient env
  let (treasuryAmount, feeAmount) ←
    okOr (env.splitPremium premium s₂.getProtocolFeeBps) (.policy .premiumOverflow)
  ensure (premium ≤ s₂.allowance a.asset a.holder env.contract) (.policy .insufficientAllowance)
  let (policyId, s₃) ← s₂.nextPolicyId a.holder
  ensure (s₃.hasPolicy a.holder policyId = false) (.policy .duplicatePolicyId)
  let start := s₃.sequence
  let finish ← okOr (checkedAdd32 start POLICY_DURATION_LEDGERS) (.policy .ledgerOverflow)
  ensure (s₃.hasConflict a.holder a.policyType a.region start finish = false)
    (.policy .duplicateCoverageActive)
  let s₄ ← s₃.collectPremiumWithFee env a.holder a.asset treasuryAmount feeRecipient feeAmount
  let tokenDecimals ←
    match s₄.get (.assetDecimals a.asset) with
    | some d => pure d
    | none => okOr (env.tokenDecimals a.asset) .trap
  let policy := newPolicy a policyId premium deductible start finish tokenDecimals
  let s₅ ← s₄.bindPolicy policy
  pure (policy, s₅.emitPolicyInitiated policy feeAmount feeRecipient)

end Binding

/-! ## Changing a policy -/

section Changing

variable (env : Env) (s : State)

/-- `set_beneficiary`. -/
def setBeneficiary (holder : Address) (policyId : Nat) (newBeneficiary : Option Address) :
    Result State := do
  requireAuth env holder
  ensure (newBeneficiary.all (· ≠ zeroAddress) = true) (.policy .zeroAddress)
  let policy ← okOr (s.getPolicy holder policyId) (.policy .notFound)
  ensure (policy.holder = holder) (.policy .unauthorized)
  if policy.beneficiary = newBeneficiary then pure s
  else do
    let policy₁ := { policy with beneficiary := newBeneficiary }
    mapErr (checkPolicy policy₁) fun _ => .policy .policyValidation
    pure ((s.setPolicy holder policyId policy₁).emit
      (.beneficiaryUpdated holder policyId policy.beneficiary newBeneficiary))

/-- `update_policy_metadata_uri`. -/
def updatePolicyMetadataUri (holder : Address) (policyId : Nat) (newUri : Str) : Result State := do
  mapErr (validateMetadataUri newUri) fun _ => .policy .invalidMetadataUri
  let policy ← okOr (s.getPolicy holder policyId) (.policy .notFound)
  if policy.metadataUri = newUri then pure s
  else
    pure ((s.setPolicy holder policyId { policy with metadataUri := newUri }).emit
      (.policyMetadataUpdated holder policyId policy.metadataUri newUri))

/-- `publish_policy_expired_if_due`. -/
def State.publishPolicyExpiredIfDue (policy : Policy) (now : Nat) : State :=
  if isExpired now policy.endLedger = false then s
  else if s.get (.policyExpiredEventEndLedger policy.holder policy.policyId) =
      some policy.endLedger then s
  else
    (s.emit (.policyExpired policy.holder policy.policyId policy.endLedger now)).set
      (.policyExpiredEventEndLedger policy.holder policy.policyId) policy.endLedger

/-- `coverage_tier_rank`. -/
def coverageTierRank : CoverageTier → Nat
  | .basic => 0
  | .standard => 1
  | .premium => 2

structure RenewPolicyArgs where
  holder : Address
  policyId : Nat
  ageBand : AgeBand
  coverageType : CoverageTier
  safetyScore : Nat
  newCoverageTier : Option CoverageTier
  newCoverageAmount : Option Int

/-- The checks of `renew_policy` on a policy that has not lapsed. -/
def State.checkRenewal (a : RenewPolicyArgs) (policy : Policy) : Result Unit := do
  ensure (policy.isActive = true) (.policy .policyInactive)
  ensure (s.hasOpenClaim a.holder a.policyId = false) (.policy .openClaimBlocksRenewal)
  ensure (policy.strikeCount < STRIKE_DEACTIVATION_THRESHOLD) (.policy .tooManyStrikesForRenewal)
  ensure (isInRenewalWindowWithGrace s.sequence policy.endLedger RENEWAL_WINDOW_LEDGERS
    s.getGracePeriodLedgers = true) (.policy .notInRenewalWindow)
  ensure (a.safetyScore ≤ 100) (.policy .invalidRiskScore)
  ensure (s.isAllowedAsset policy.asset = true) (.policy .assetNotAllowed)
  ensure (coverageTierRank a.coverageType ≤
      coverageTierRank (a.newCoverageTier.getD a.coverageType) ∧
    policy.coverage ≤ a.newCoverageAmount.getD policy.coverage) (.policy .invalidCoverage)

/-- The policy after a renewal. -/
def Policy.renewed (policy : Policy) (premium coverage : Int) (endLedger : Nat) : Policy :=
  { policy with premium, coverage, endLedger }

/-- `renew_policy`.  A raised coverage is not reserved in the book. -/
def renewPolicy (a : RenewPolicyArgs) : Result (RenewPolicyOutcome × State) := do
  s.assertBindNotPaused
  requireAuth env a.holder
  let policy ← okOr (s.getPolicy a.holder a.policyId) (.policy .notFound)
  let now := s.sequence
  let lapseLedger ←
    okOr (checkedAdd32 policy.endLedger s.getGracePeriodLedgers) (.policy .ledgerOverflow)
  if isExpired now lapseLedger = true then
    pure (.lapsed, s.publishPolicyExpiredIfDue policy now)
  else do
    s.checkRenewal a policy
    let coverageType := a.newCoverageTier.getD a.coverageType
    let coverage := a.newCoverageAmount.getD policy.coverage
    let (quote, s₁) ← mapErr
      (s.computeQuote env ⟨policy.region, a.ageBand, coverageType, a.safetyScore⟩ policy.coverage
        QUOTE_TTL_LEDGERS policy.asset) quoteError
    let premium := quote.totalPremium
    ensure (0 < premium) (.policy .invalidPremium)
    let s₂ ← s₁.collectPremium env a.holder policy.asset premium
    let newEnd ← okOr (checkedAdd32 policy.endLedger POLICY_DURATION_LEDGERS)
      (.policy .ledgerOverflow)
    let policy₁ := policy.renewed premium coverage newEnd
    mapErr (checkPolicy policy₁) fun _ => .policy .policyValidation
    let s₃ := (s₂.setPolicy a.holder a.policyId policy₁).reindexPolicy a.holder
      a.policyId policy policy₁
    let s₄ := s₃.resetOnRenewal a.holder a.policyId now
    pure (.renewed policy₁, s₄.emit (.policyRenewed a.holder a.policyId premium newEnd
      a.coverageType coverageType policy.coverage coverage))

/-- `transfer_policy`.  A fresh id is allocated for the recipient, but the record is written
under the old one. -/
def transferPolicy (holder : Address) (policyId : Nat) (newHolder : Address) : Result State := do
  requireAuth env holder
  requireAuth env newHolder
  ensure (holder ≠ newHolder) (.error .policyTransferInvalid)
  ensure (newHolder ≠ zeroAddress) (.error .policyTransferInvalid)
  let policy ← okOr (s.getPolicy holder policyId) (.error .policyNotFound)
  ensure (policy.isActive = true) (.error .policyInactive)
  ensure (s.getOpenClaimCount holder policyId = 0) (.error .policyTransferInvalid)
  let (newId, s₁) ← s.nextPolicyId newHolder
  let policy₁ := { policy with holder := newHolder }
  let s₂ := (s₁.setPolicy newHolder policyId policy₁).removePolicy holder policyId
  let s₃ := s₂.unindexPolicyByStatus (computePolicyStatus policy s.sequence) ⟨holder, policyId⟩
  let s₄ := s₃.indexNewPolicy newHolder newId policy₁
  let s₅ ← s₄.dropActivePolicy holder
  let s₆ ← s₅.addVoter newHolder
  pure (s₆.emit (.policyTransferred newId holder newHolder s.sequence))

end Changing

/-! ## Ending a policy -/

section Ending

variable (env : Env) (s : State)

/-- `policy_lifecycle::process_expired` on one policy. -/
def lapsePolicy (holder : Address) (policyId : Nat) : Result State := do
  let policy ← okOr (s.getPolicy holder policyId) (.lifecycle .policyNotFound)
  if policy.isActive = false then pure s
  else do
    let now := s.sequence
    let lapseLedger ←
      okOr (checkedAdd32 policy.endLedger s.getGracePeriodLedgers) (.lifecycle .ledgerOverflow)
    ensure (lapseLedger ≤ now) (.lifecycle .policyLapseNotReached)
    let s₁ := s.publishPolicyExpiredIfDue policy now
    let policy₁ := { policy with
      isActive := false
      terminatedAtLedger := now
      terminationReason := .lapsedNonPayment
      terminatedByAdmin := false }
    let s₂ := (s₁.setPolicy holder policyId policy₁).reindexPolicy holder policyId policy policy₁
    s₂.dropActivePolicy holder

/-- One round of the loop of `process_expired`: the expiry is published, and a policy past
its grace period lapses.  A trap ends the call; the errors of a single policy do not.
Returns whether the policy counts as processed. -/
def processExpiredOne (holder : Address) (policyId : Nat) : Result (Bool × State) :=
  match s.getPolicy holder policyId with
  | none => .ok (false, s)
  | some policy =>
    if isExpired s.sequence policy.endLedger = false then .ok (false, s)
    else
      let s₁ := s.publishPolicyExpiredIfDue policy s.sequence
      match lapsePolicy s₁ holder policyId with
      | .ok s₂ => .ok (true, s₂)
      | .error (.lifecycle .policyLapseNotReached) => .ok (true, s₁)
      | .error .trap => .error .trap
      | .error _ => .ok (false, s₁)

/-- The loop of `process_expired`. -/
def processExpiredLoop (holder : Address) : List Nat → State → Nat → Result (Nat × State)
  | [], s, processed => .ok (processed, s)
  | policyId :: rest, s, processed => do
    let (counted, s₁) ← processExpiredOne s holder policyId
    processExpiredLoop holder rest s₁ (if counted then processed + 1 else processed)

/-- `process_expired`: the first `PROCESS_EXPIRED_MAX` ids of the list. -/
def processExpired (holder : Address) (policyIds : List Nat) : Result (Nat × State) :=
  processExpiredLoop holder (policyIds.take PROCESS_EXPIRED_MAX) s 0

/-- `has_processing_claim`. -/
def State.hasProcessingClaim (holder : Address) (policyId : Nat) : Bool :=
  (List.range s.getClaimCounter).any fun i =>
    match s.getClaim (i + 1) with
    | some claim =>
      claim.policyId == policyId && claim.claimant == holder && claim.status == .processing
    | none => false

/-- `compute_prorata_refund`. -/
def computeProrataRefund (policy : Policy) (now : Nat) : Int :=
  let totalLedgers := policy.endLedger - policy.startLedger
  if totalLedgers = 0 then 0
  else
    let remainingLedgers := policy.endLedger - now
    if remainingLedgers = 0 then 0
    else
      let numerator := (checkedMul128 policy.premium remainingLedgers).getD 0
      if numerator ≤ 0 then 0 else numerator / totalLedgers

/-- `termination_reason_tag`. -/
def terminationReasonTag : TerminationReason → Nat
  | .none => 0
  | .voluntaryCancellation => 1
  | .lapsedNonPayment => 2
  | .underwritingVoid => 3
  | .fraudOrMisrepresentation => 4
  | .regulatoryAction => 5
  | .adminOverride => 6
  | .excessiveRejections => 7

/-- The refund of a holder's termination: booked if the book can take it, and paid from the
treasury either way. -/
def State.payRefund (asset holder : Address) (refund : Int) : Result State :=
  let treasury := s.getTreasury env
  let s₁ := s.ignoreErr (s.recordPayoutOut asset refund 0)
  s₁.tokenTransfer env asset treasury holder refund

/-- `terminate_inner`. -/
def terminateInner (holder : Address) (policyId : Nat) (reason : TerminationReason)
    (byAdmin allowOpenClaimBypass : Bool) : Result State := do
  ensure (reason ≠ .none) (.lifecycle .invalidTerminationReason)
  let policy ← okOr (s.getPolicy holder policyId) (.lifecycle .policyNotFound)
  ensure (policy.holder = holder) (.lifecycle .holderMismatch)
  ensure (policy.isActive = true) (.lifecycle .alreadyInactive)
  let openClaims := s.getOpenClaimCount holder policyId
  let bypass := byAdmin && allowOpenClaimBypass
  ensure (openClaims = 0 ∨ bypass = true) (.lifecycle .openClaimsMustFinalize)
  ensure (bypass = true ∨ s.hasProcessingClaim holder policyId = false)
    (.lifecycle .openClaimInProcessing)
  let now := s.sequence
  let refund := computeProrataRefund policy now
  let policy₁ := { policy with
    isActive := false
    terminatedAtLedger := now
    terminationReason := reason
    terminatedByAdmin := byAdmin }
  let s₁ := (s.setPolicy holder policyId policy₁).reindexPolicy holder policyId policy policy₁
  let s₂ ← s₁.dropActivePolicy holder
  let s₃ := s₂.ignoreErr (s₂.releaseCoverage policy.asset policy.coverage)
  let s₄ ←
    if byAdmin = false ∧ 0 < refund then s₃.payRefund env policy.asset holder refund else pure s₃
  pure (s₄.emit (.policyTerminated holder policyId (terminationReasonTag reason)
    (if byAdmin then 1 else 0) (if allowOpenClaimBypass = true ∧ 0 < openClaims then 1 else 0)
    openClaims now (if byAdmin then 0 else refund)))

/-- `terminate_policy`. -/
def terminatePolicy (holder : Address) (policyId : Nat) (reason : TerminationReason) :
    Result State := do
  requireAuth env holder
  terminateInner env s holder policyId reason false false

/-- `admin_terminate_policy`. -/
def adminTerminatePolicy (admin holder : Address) (policyId : Nat) (reason : TerminationReason)
    (allowOpenClaims : Bool) : Result State := do
  requireAuth env admin
  let expected ← okOr (s.get .admin) .trap
  ensure (admin = expected) (.lifecycle .unauthorized)
  terminateInner env s holder policyId reason true allowOpenClaims

end Ending

end NiffyInsure
