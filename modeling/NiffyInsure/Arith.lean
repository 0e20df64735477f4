import NiffyInsure.Types

/-!
# Failures and machine arithmetic

An entrypoint either succeeds, returns one of the contract's errors, or traps
(a panic, an overflow with `overflow-checks` on, a failed `require_auth`, a
trapping call of another contract).  The host discards every write of a call that
does not succeed, so a failing call is modelled by the failure alone.

* `Except.bind_eq_ok` and its companions turn "this call returned `ok`" into the
  list of the checks that passed; every specification below starts with them.
* `checkedAdd32`, `saturatingAdd128`, ... are Rust's operations on `u32` and
  `i128`.
-/

namespace NiffyInsure

/-! ## Errors -/

/-- `validate::Error`. -/
inductive Error where
  | zeroCoverage | zeroPremium | invalidLedgerWindow | policyExpired | policyInactive
  | claimAmountZero | claimExceedsCoverage | detailsTooLong | tooManyImageUrls | imageUrlTooLong
  | reasonTooLong | claimAlreadyTerminal | duplicateVote | invalidBaseAmount
  | safetyScoreOutOfRange | invalidConfigVersion | missingRegionMultiplier | missingAgeMultiplier
  | missingCoverageMultiplier | regionMultiplierOutOfBounds | ageMultiplierOutOfBounds
  | coverageMultiplierOutOfBounds | safetyDiscountOutOfBounds | overflow | divideByZero
  | invalidQuoteTtl | negativePremiumNotSupported | claimNotFound | invalidAsset
  | insufficientTreasury | alreadyPaid | claimNotApproved | duplicateOpenClaim
  | excessiveEvidenceBytes | policyNotFound | calculatorNotSet | calculatorCallFailed
  | calculatorPaused | votingWindowClosed | votingWindowStillOpen | notEligibleVoter
  | rateLimitExceeded | invalidEvidenceUrl | claimEvidenceUpdateNotAllowed
  | evidenceCountOutOfBounds | zeroTreasuryDeposit | unauthorizedTreasuryDepositor
  | payoutRecipientContractNotAllowlisted | votingDurationOutOfBounds | policyBatchTooLarge
  | voterSnapshotExpired | nonceMismatch | claimNotProcessing | rollingClaimCapExceeded
  | payoutDeadlineNotReached | claimBelowMinAmount | claimAboveMaxAmount | delegationInvalid
  | delegationPermissionDenied | noReinsuranceConfigured | overDisbursement
  | policyTransferInvalid | claimBatchTooLarge | disputeWindowActive | appealWindowClosed
  | appealAlreadyUsed | voteDelegated | circularDelegation | insufficientEvidence | cooldownActive
  | protocolFeeOutOfBounds | solvencyRatioOutOfBounds | calculatorVersionMismatch
  | commitRevealNotSet | commitPhaseEnded | revealPhaseNotOpen | revealPhaseEnded
  | commitmentNotFound | commitmentMismatch | duplicateEvidence | selfVoteNotAllowed
  | pageSizeTooLarge | escalationDeadlineNotFuture | escalationDeadlineNotEarlier
  | claimIdOverflow | evidenceUrlTooLong | insufficientAllowanceForFee | voterCapReached
  | voterRegistryCapExceeded | voterRegistryFull | corruptSnapshotEntry
  deriving DecidableEq

/-- `policy::PolicyError`. -/
inductive PolicyError where
  | contractPaused | duplicatePolicyId | invalidCoverage | invalidPremium | premiumOverflow
  | ledgerOverflow | policyValidation | invalidMetadataUri | unauthorized | invalidAge
  | invalidRiskScore | assetNotAllowed | notFound | alreadyActive | notYetExpired
  | notInRenewalWindow | policyInactive | openClaimBlocksRenewal | tooManyStrikesForRenewal
  | expired | nonceMismatch | invalidRegion | notWhitelisted | invalidDeductible
  | insufficientSolvency | invalidTermsHash | zeroAddress | duplicateCoverageActive
  | voterRegistryFull | insufficientAllowance
  deriving DecidableEq

/-- `policy_lifecycle::PolicyError`. -/
inductive LifecycleError where
  | policyNotFound | unauthorized | alreadyInactive | openClaimsMustFinalize | invalidCoverage
  | invalidPremium | invalidTermLedgers | ledgerOverflow | invalidTerminationReason
  | holderMismatch | policyLapseNotReached | openClaimInProcessing | refundTransferFailed
  deriving DecidableEq

/-- `admin::AdminError`. -/
inductive AdminError where
  | unauthorized | alreadyInitialized | noPendingAdmin | notPendingAdmin | invalidAddress
  | invalidDrainAmount | invalidSweepAmount | sweepCapExceeded | assetNotAllowlisted
  | protectedBalanceViolation | rollingClaimCapOutOfBounds | rollingClaimWindowOutOfBounds
  | noPendingAdminAction | adminActionExpired | cannotSelfConfirm | invalidAdminActionWindow
  | sweepNoticePeriodActive | maxEvidenceCountOutOfBounds | payoutAssetOverrideNotAllowlisted
  | minEvidenceExceedsMax | invalidMaxWeightCap | cooldownLedgersOutOfBounds
  | governanceCooldownActive | governanceCooldownOutOfBounds | sweepLedgerLimitExceeded
  | maxSweepPerLedgerOutOfBounds | maxAppealsPerClaimOutOfBounds | notInitialized
  deriving DecidableEq

/-- `RegionError`. -/
inductive RegionError where
  | emptyRegionCode | regionCodeTooLong | parentCodeTooLong | selfParent
  | riskMultiplierOutOfBounds | regionNotFound
  deriving DecidableEq

/-- `governance::GovernanceError`.  The finalizer answers with `ProposalAlreadyClosed`, which the
enumeration of the source leaves out. -/
inductive GovernanceError where
  | notTokenHolder | proposalNotFound | duplicateVote | votingClosed | unsupportedParameter
  | invalidParameterValue | proposerCooldownActive | proposerCooldownOutOfBounds
  | proposalNotExpired | proposalAlreadyApplied | proposalAlreadyClosed
  deriving DecidableEq

/-- How a call fails: with one of the contract's errors, or by a trap. -/
inductive Fault where
  | error (e : Error)
  | policy (e : PolicyError)
  | lifecycle (e : LifecycleError)
  | admin (e : AdminError)
  | region (e : RegionError)
  | governance (e : GovernanceError)
  | gracePeriodOutOfBounds
  | alreadyInitialized
  | trap
  deriving DecidableEq

/-- The result of a call: a value, or the failure that rolled the call back. -/
abbrev Result := Except Fault

/-- `return Err(e)` unless `p` holds. -/
def ensure (p : Prop) [Decidable p] (e : Fault) : Result Unit :=
  if p then .ok () else .error e

/-- `Option::ok_or`. -/
def okOr {α : Type} (o : Option α) (e : Fault) : Result α :=
  match o with
  | some a => .ok a
  | none => .error e

/-- `Result::map_err` with one error for every failure. -/
def mapErr {α : Type} (x : Result α) (f : Fault → Fault) : Result α :=
  match x with
  | .ok a => .ok a
  | .error e => .error (f e)

section Ok

variable {α β : Type}

theorem bind_eq_ok {ε : Type} {x : Except ε α} {f : α → Except ε β} {b : β} :
    (x >>= f) = .ok b ↔ ∃ a, x = .ok a ∧ f a = .ok b := by
  cases x with
  | error e =>
    constructor
    · intro h
      cases h
    · rintro ⟨a, h, -⟩
      cases h
  | ok a =>
    constructor
    · exact fun h => ⟨a, rfl, h⟩
    · rintro ⟨a', h, hf⟩
      cases h
      exact hf

theorem ok_bind {ε : Type} {a : α} {f : α → Except ε β} : (Except.ok a >>= f) = f a := rfl

theorem error_bind {ε : Type} {e : ε} {f : α → Except ε β} : (Except.error e >>= f) = .error e :=
  rfl

/-- A guard that refuses is passed where it does not hold. -/
theorem ite_error_eq_ok {ε : Type} {p : Prop} [Decidable p] {e : ε} {x : Except ε α} {a : α} :
    (if p then .error e else x) = .ok a ↔ ¬ p ∧ x = .ok a := by
  split
  · rename_i hp
    constructor
    · intro h
      cases h
    · exact fun h => absurd hp h.1
  · rename_i hp
    exact (and_iff_right hp).symm

theorem ensure_eq_ok {p : Prop} [Decidable p] {e : Fault} {u : Unit} :
    ensure p e = .ok u ↔ p := by
  unfold ensure
  split <;> simp_all

theorem okOr_eq_ok {o : Option α} {e : Fault} {a : α} : okOr o e = .ok a ↔ o = some a := by
  cases o <;> simp [okOr]

theorem bind_eq_error {x : Result α} {f : α → Result β} {e : Fault} :
    (x >>= f) = .error e ↔ x = .error e ∨ ∃ a, x = .ok a ∧ f a = .error e := by
  cases x with
  | error e' =>
    constructor
    · intro h
      cases h
      exact .inl rfl
    · rintro (h | ⟨a, h, -⟩)
      · cases h
        rfl
      · cases h
  | ok a =>
    constructor
    · intro h
      exact .inr ⟨a, rfl, h⟩
    · rintro (h | ⟨a', h, hf⟩)
      · cases h
      · cases h
        exact hf

theorem ensure_eq_error {p : Prop} [Decidable p] {e e' : Fault} :
    ensure p e = .error e' ↔ ¬ p ∧ e = e' := by
  unfold ensure
  split <;> simp_all

theorem okOr_eq_error {o : Option α} {e e' : Fault} :
    (okOr o e : Result α) = .error e' ↔ o = none ∧ e = e' := by
  cases o <;> simp [okOr]

theorem pure_ne_error {a : α} {e : Fault} : (pure a : Result α) ≠ .error e := by
  simp [pure, Except.pure]

theorem mapErr_eq_ok {x : Result α} {f : Fault → Fault} {a : α} :
    mapErr x f = .ok a ↔ x = .ok a := by
  cases x <;> simp [mapErr]

theorem pure_eq_ok {a b : α} : (pure a : Result α) = .ok b ↔ a = b := by
  simp [pure, Except.pure]

end Ok

/-! ## Machine integers -/

def U32_MAX : Nat := 4294967295
def U64_MAX : Nat := 18446744073709551615
def I128_MAX : Int := 170141183460469231731687303715884105727
def I128_MIN : Int := -170141183460469231731687303715884105728

/-- `u32::checked_add`. -/
def checkedAdd32 (a b : Nat) : Option Nat :=
  if a + b ≤ U32_MAX then some (a + b) else none

/-- `u32::saturating_add`. -/
def saturatingAdd32 (a b : Nat) : Nat := min (a + b) U32_MAX

def saturatingAdd64 (a b : Nat) : Nat := min (a + b) U64_MAX

/-- `+` on `u32`, which traps on overflow. -/
def add32 (a b : Nat) : Result Nat := okOr (checkedAdd32 a b) .trap

/-- The `i128` value `x`, if there is one. -/
def fit128 (x : Int) : Option Int :=
  if I128_MIN ≤ x ∧ x ≤ I128_MAX then some x else none

def checkedAdd128 (a b : Int) : Option Int := fit128 (a + b)
def checkedSub128 (a b : Int) : Option Int := fit128 (a - b)
def checkedMul128 (a b : Int) : Option Int := fit128 (a * b)

/-- Saturation at the ends of the `i128` range. -/
def clamp128 (x : Int) : Int := max I128_MIN (min x I128_MAX)

def saturatingAdd128 (a b : Int) : Int := clamp128 (a + b)
def saturatingSub128 (a b : Int) : Int := clamp128 (a - b)

theorem checkedAdd32_eq_some {a b c : Nat} :
    checkedAdd32 a b = some c ↔ a + b ≤ U32_MAX ∧ c = a + b := by
  unfold checkedAdd32
  split
  · simp_all [eq_comm]
  · constructor
    · intro h
      cases h
    · rintro ⟨h, -⟩
      contradiction

theorem add32_eq_ok {a b c : Nat} : add32 a b = .ok c ↔ a + b ≤ U32_MAX ∧ c = a + b := by
  rw [add32, okOr_eq_ok, checkedAdd32_eq_some]

theorem add32_eq_error {a b : Nat} {e : Fault} (h : add32 a b = .error e) : e = .trap :=
  (okOr_eq_error.mp h).2.symm

theorem fit128_eq_some {x y : Int} :
    fit128 x = some y ↔ (I128_MIN ≤ x ∧ x ≤ I128_MAX) ∧ y = x := by
  unfold fit128
  split
  · simp_all [eq_comm]
  · constructor
    · intro h
      cases h
    · rintro ⟨h, -⟩
      contradiction

end NiffyInsure
