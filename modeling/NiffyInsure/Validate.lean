import NiffyInsure.Storage

/-!
# Checks

The checks of `validate.rs` on policies and claims, and the rolling claim cap
(`rolling_claim_cap.rs`).  A check that passes returns `ok`; only the rolling cap writes,
bringing the policy's window state up to date.
-/

namespace NiffyInsure

/-- `"ipfs://"`. -/
def ipfsScheme : Str := [105, 112, 102, 115, 58, 47, 47]

/-- `"https://"`. -/
def httpsScheme : Str := [104, 116, 116, 112, 115, 58, 47, 47]

/-- `check_policy`. -/
def checkPolicy (policy : Policy) : Result Unit := do
  ensure (0 < policy.coverage) (.error .zeroCoverage)
  ensure (0 < policy.premium) (.error .zeroPremium)
  ensure (policy.startLedger < policy.endLedger) (.error .invalidLedgerWindow)
  ensure (policy.deductible.all (fun d => decide (0 ≤ d ∧ d < policy.coverage)) = true)
    (.error .overflow)

/-- `validate_metadata_uri`. -/
def validateMetadataUri (uri : Str) : Result Unit := do
  ensure (uri ≠ []) (.error .invalidEvidenceUrl)
  ensure (uri.length ≤ MAX_METADATA_URI_BYTES) (.error .evidenceUrlTooLong)
  ensure (ipfsScheme.isPrefixOf uri || httpsScheme.isPrefixOf uri) (.error .invalidEvidenceUrl)

namespace State

variable (s : State)

/-- `validate_evidence_url`. -/
def validateEvidenceUrl (url : Str) : Result Unit :=
  ensure (ipfsScheme.isPrefixOf url || s.getGatewayAllowlist.any (·.isPrefixOf url))
    (.error .invalidEvidenceUrl)

/-- The checks of `check_claim_fields` on one evidence entry. -/
def checkEvidenceEntry (entry : ClaimEvidenceEntry) : Result Unit := do
  ensure (entry.url.length ≤ MAX_EVIDENCE_URL_BYTES) (.error .evidenceUrlTooLong)
  ensure (entry.hash.any (· ≠ 0) = true) (.error .excessiveEvidenceBytes)
  s.validateEvidenceUrl entry.url

/-- `check_claim_fields`. -/
def checkClaimFields (amount coverage : Int) (details : Str) (evidence : List ClaimEvidenceEntry) :
    Result Unit := do
  ensure (0 < amount) (.error .claimAmountZero)
  ensure (amount ≤ coverage) (.error .claimExceedsCoverage)
  ensure (details.length ≤ DETAILS_MAX_LEN) (.error .detailsTooLong)
  ensure (evidence.length ≤ s.getMaxEvidenceCount) (.error .tooManyImageUrls)
  ensure (s.getMinEvidenceCount ≤ evidence.length) (.error .insufficientEvidence)
  evidence.forM s.checkEvidenceEntry
  ensure evidence.Nodup (.error .duplicateEvidence)

/-- `check_claim_evidence_update`: unlike at filing, hashes and duplicates are not looked
at. -/
def checkClaimEvidenceUpdate (evidence : List ClaimEvidenceEntry) : Result Unit := do
  ensure (evidence.length ≤ s.getMaxEvidenceCount) (.error .evidenceCountOutOfBounds)
  ensure (s.getMinEvidenceCount ≤ evidence.length) (.error .insufficientEvidence)
  evidence.forM fun entry => do
    ensure (entry.url.length ≤ MAX_EVIDENCE_URL_BYTES) (.error .evidenceUrlTooLong)
    s.validateEvidenceUrl entry.url

/-! ## The rolling claim cap -/

end State

/-- `window_bucket_start`. -/
def windowBucketStart (now windowLen : Nat) : Nat :=
  if windowLen = 0 then 0 else now / windowLen * windowLen

namespace State

variable (s : State)

/-- `sync_state_to_ledger`. -/
def syncStateToLedger (holder : Address) (policyId now : Nat) : RollingClaimWindowState :=
  let expectedStart := windowBucketStart now s.getRollingClaimWindowLedgers
  match s.get (.rollingClaimState holder policyId) with
  | some st => if st.windowStart = expectedStart then st else ⟨expectedStart, 0⟩
  | none => ⟨expectedStart, 0⟩

/-- `reset_on_renewal`. -/
def resetOnRenewal (holder : Address) (policyId now : Nat) : State :=
  s.set (.rollingClaimState holder policyId)
    ⟨windowBucketStart now s.getRollingClaimWindowLedgers, 0⟩

/-- `check_file_claim`: no check and no write while the cap is at its default. -/
def checkFileClaim (holder : Address) (policyId : Nat) (amount : Int) (now : Nat) :
    Result State :=
  let cap := s.getRollingClaimCap
  if cap = I128_MAX then .ok s
  else do
    let st := s.syncStateToLedger holder policyId now
    let sum ← okOr (checkedAdd128 st.cumulativePaid amount) (.error .overflow)
    ensure (sum ≤ cap) (.error .rollingClaimCapExceeded)
    pure (s.set (.rollingClaimState holder policyId) st)

/-- `record_claim_paid`. -/
def recordClaimPaid (holder : Address) (policyId : Nat) (amount : Int) (now : Nat) : State :=
  let st := s.syncStateToLedger holder policyId now
  s.set (.rollingClaimState holder policyId)
    { st with cumulativePaid := saturatingAdd128 st.cumulativePaid amount }

/-- The rolling cap writes only the policy's window state. -/
theorem checkFileClaim_eq_ok {holder : Address} {policyId : Nat} {amount : Int} {now : Nat}
    {s' : State} (h : s.checkFileClaim holder policyId amount now = .ok s') :
    s' = s ∨ ∃ st, s' = s.set (.rollingClaimState holder policyId) st := by
  dsimp only [checkFileClaim] at h
  split at h
  · cases h
    exact .inl rfl
  · simp only [bind_eq_ok, ensure_eq_ok, okOr_eq_ok, pure_eq_ok] at h
    obtain ⟨sum, -, -, -, rfl⟩ := h
    exact .inr ⟨_, rfl⟩

end State

theorem checkPolicy_eq_ok {policy : Policy} {u : Unit} (h : checkPolicy policy = .ok u) :
    0 < policy.coverage ∧ 0 < policy.premium ∧ policy.startLedger < policy.endLedger := by
  simp only [checkPolicy, bind_eq_ok, ensure_eq_ok] at h
  obtain ⟨-, hc, -, hp, -, hw, -⟩ := h
  exact ⟨hc, hp, hw⟩

end NiffyInsure
