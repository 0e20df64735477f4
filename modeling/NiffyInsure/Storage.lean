import NiffyInsure.State

/-!
# Storage accessors

The typed readers and writers of `storage.rs`.  They are plain reads and writes of
one key, with the source's default where a reader has one, and are reducible: a
proof sees the key they touch.

`Host` is what is fixed for a deployed contract and `Env` what one call brings with
it: which addresses authorised it, and the answers of other contracts.
-/

namespace NiffyInsure

/-- What is fixed for a deployment: the contract's own address, the host's hash and
address encoding, and `premium_pure::split_premium`, which is called at this commit but
not defined. -/
structure Host where
  contract : Address
  sha256 : List UInt8 → Bytes32
  toXdr : Address → List UInt8
  splitPremium : Int → Nat → Option (Int × Int)

/-- How a call of an external premium calculator can go wrong. -/
inductive CalcFailure where
  | callFailed
  | wrongAbi
  | paused
  | panicking
  deriving DecidableEq

/-- One invocation: who authorised it, which addresses are contracts, and what the
external calculator and the token contracts answer.  The contract never authorises a
call of itself: it has no custom account logic and cannot be re-entered. -/
structure Env extends Host where
  auths : Address → Bool
  executable : Address → Bool
  calcAbiVersion : Address → Option Nat
  calcCompute : Address → RiskInput → Int → Except CalcFailure (Int × Nat)
  tokenDecimals : Address → Option Nat
  noSelfAuth : auths contract = false

/-- `Address::require_auth`. -/
def requireAuth (env : Env) (a : Address) : Result Unit := ensure (env.auths a = true) .trap

theorem requireAuth_eq_ok {env : Env} {a : Address} {u : Unit} :
    requireAuth env a = .ok u ↔ env.auths a = true :=
  ensure_eq_ok

theorem ne_contract_of_auths {env : Env} {a : Address} (h : env.auths a = true) :
    a ≠ env.contract := by
  rintro rfl
  rw [env.noSelfAuth] at h
  cases h

def MAX_POLICIES_PER_HOLDER : Nat := 256
def VOTER_BUCKET_SIZE : Nat := 64
def MAX_ELIGIBLE_VOTERS : Nat := 5000
def DEFAULT_MIN_COVERAGE_AMOUNT : Int := 1000000
def DEFAULT_MAX_VOTERS_PER_CLAIM : Nat := 100
def MAX_EVIDENCE_COUNT_HARD_MAX : Nat := 20
def APPEAL_ELEVATED_QUORUM_BPS : Nat := 7500

/-! ## Ledger windows -/

def LEDGERS_PER_HOUR : Nat := 720
def LEDGERS_PER_DAY : Nat := 17280
def LEDGERS_PER_WEEK : Nat := 120960
def POLICY_DURATION_LEDGERS : Nat := 30 * LEDGERS_PER_DAY
def PAYOUT_TIMEOUT_LEDGERS : Nat := 7 * LEDGERS_PER_DAY
def VOTE_WINDOW_LEDGERS : Nat := 7 * LEDGERS_PER_DAY
def MIN_VOTING_DURATION_LEDGERS : Nat := LEDGERS_PER_DAY
def MAX_VOTING_DURATION_LEDGERS : Nat := 8 * LEDGERS_PER_WEEK
def RENEWAL_WINDOW_LEDGERS : Nat := 3 * LEDGERS_PER_DAY
def DEFAULT_GRACE_PERIOD_LEDGERS : Nat := LEDGERS_PER_DAY
def MIN_GRACE_PERIOD_LEDGERS : Nat := LEDGERS_PER_HOUR
def MAX_GRACE_PERIOD_LEDGERS : Nat := 7 * LEDGERS_PER_DAY
def RATE_LIMIT_WINDOW_LEDGERS : Nat := LEDGERS_PER_DAY
def QUOTE_TTL_LEDGERS : Nat := 100
def APPEAL_OPEN_WINDOW_LEDGERS : Nat := 3 * LEDGERS_PER_DAY
def APPEAL_VOTE_WINDOW_LEDGERS : Nat := 7 * LEDGERS_PER_DAY
def MAX_APPEALS_PER_CLAIM : Nat := 1
def DEFAULT_DISPUTE_WINDOW_LEDGERS : Nat := LEDGERS_PER_DAY
def MAX_SAFE_LEDGER : Nat := U32_MAX - MAX_VOTING_DURATION_LEDGERS

def isWithinWindow (now start finish : Nat) : Bool := decide (start ≤ now) && decide (now < finish)

def isPolicyActiveByLedger (policy : Policy) (currentLedger : Nat) : Bool :=
  isWithinWindow currentLedger policy.startLedger policy.endLedger

def isExpired (now finish : Nat) : Bool := decide (finish ≤ now)

def isInRenewalWindowWithGrace (now finish window grace : Nat) : Bool :=
  decide (finish - window ≤ now) && decide (now < saturatingAdd32 finish grace)

def isValidGracePeriodLedgers (v : Nat) : Bool :=
  decide (MIN_GRACE_PERIOD_LEDGERS ≤ v) && decide (v ≤ MAX_GRACE_PERIOD_LEDGERS)

def isClaimVotingOpen (now votingDeadlineLedger : Nat) : Bool := decide (now ≤ votingDeadlineLedger)

def isClaimPastVotingDeadline (now votingDeadlineLedger : Nat) : Bool :=
  decide (votingDeadlineLedger < now)

def isRateLimitElapsed (now lastFiledAt rateLimitWindow : Nat) : Bool :=
  decide (saturatingAdd32 lastFiledAt rateLimitWindow ≤ now)

namespace State

variable (s : State)

/-! ## Configuration -/

abbrev getToken : Result Address := okOr (s.get .token) .trap
abbrev getTreasury (env : Env) : Address := (s.get .treasury).getD env.contract
abbrev getProtocolFeeBps : Nat := (s.get .protocolFeeBps).getD 0
abbrev getFeeRecipient (env : Env) : Address := (s.get .feeRecipient).getD env.contract
abbrev getMinSolvencyRatioBps : Nat := (s.get .minSolvencyRatioBps).getD 0
abbrev getVotingDurationLedgers : Nat := (s.get .voteDurLedgers).getD VOTE_WINDOW_LEDGERS
abbrev getQuorumBps : Nat := (s.get .quorumBps).getD DEFAULT_QUORUM_BPS
abbrev getMaxAppealsPerClaim : Nat := (s.get .maxAppealsPerClaim).getD MAX_APPEALS_PER_CLAIM
abbrev getGracePeriodLedgers : Nat := (s.get .gracePeriodLedgers).getD DEFAULT_GRACE_PERIOD_LEDGERS
abbrev isAllowedAsset (asset : Address) : Bool := (s.get (.allowedAsset asset)).getD false
abbrev getPauseFlags : PauseFlags := (s.get .paused).getD PauseFlags.default
abbrev getAdminActionWindowLedgers : Nat := (s.get .adminActionWindowLedgers).getD 100
abbrev getSweepNoticePeriodLedgers : Nat := (s.get .sweepNoticePeriodLedgers).getD 0
abbrev getMaxEvidenceCount : Nat := (s.get .maxEvidenceCount).getD IMAGE_URLS_MAX
abbrev getMinEvidenceCount : Nat := (s.get .minEvidenceCount).getD 0
abbrev getClaimFilingFee : Int := (s.get .claimFilingFee).getD 0
abbrev getCooldownLedgers : Nat := (s.get .cooldownLedgers).getD 0
abbrev getGatewayAllowlist : List Str := (s.get .gatewayAllowlist).getD []
abbrev getRollingClaimCap : Int := (s.get .rollingClaimCap).getD I128_MAX
abbrev getRollingClaimWindowLedgers : Nat := (s.get .rollingClaimWindowLedgers).getD 1000000
abbrev getFraudScoreThreshold : Nat := (s.get .fraudScoreThreshold).getD 75
abbrev getElevatedQuorumBps : Nat := (s.get .elevatedQuorumBps).getD 7500
abbrev isPolicyTypeActive (t : PolicyType) : Bool := (s.get (.policyTypeActive t)).getD false
abbrev isPolicyTypeRegistryEnabled : Bool := (s.get .policyTypeRegistryEnabled).getD false
abbrev isWhitelistEnabled : Bool := (s.get .whitelistEnabled).getD false
abbrev isWhitelisted (holder : Address) : Bool := (s.get (.whitelisted holder)).getD false
abbrev isAuthorizedDepositor (a : Address) : Bool := (s.get (.authorizedDepositor a)).getD false
abbrev isAllowedPayoutRecipient (a : Address) : Bool :=
  (s.get (.allowedPayoutRecipient a)).getD false
abbrev getGovernanceCooldownLedgers : Nat := (s.get .governanceCooldownLedgers).getD 0
abbrev getCumulativeSweptThisLedger : Int := (s.get .cumulativeSweptThisLedger).getD 0
abbrev getMinCoverageAmount : Int := (s.get .minCoverageAmount).getD DEFAULT_MIN_COVERAGE_AMOUNT
abbrev getMaxVotersPerClaim : Nat := (s.get .maxVotersPerClaim).getD DEFAULT_MAX_VOTERS_PER_CLAIM

/-! ## Policies and claims -/

abbrev hasOpenClaim (holder : Address) (policyId : Nat) : Bool :=
  (s.get (.openClaim holder policyId)).getD false
abbrev setOpenClaim (holder : Address) (policyId : Nat) (isOpen : Bool) : State :=
  s.set (.openClaim holder policyId) isOpen
abbrev getOpenClaimCount (holder : Address) (policyId : Nat) : Nat :=
  if s.hasOpenClaim holder policyId then 1 else 0

abbrev getPolicy (holder : Address) (policyId : Nat) : Option Policy :=
  s.get (.policy holder policyId)
abbrev setPolicy (holder : Address) (policyId : Nat) (policy : Policy) : State :=
  s.set (.policy holder policyId) policy
abbrev removePolicy (holder : Address) (policyId : Nat) : State :=
  s.remove (.policy holder policyId)
abbrev hasPolicy (holder : Address) (policyId : Nat) : Bool := (s.getPolicy holder policyId).isSome
abbrev getPolicyCounter (holder : Address) : Nat := (s.get (.policyCounter holder)).getD 0

abbrev getClaim (claimId : Nat) : Option Claim := s.get (.claim claimId)
abbrev setClaim (claim : Claim) : State := s.set (.claim claim.claimId) claim
abbrev getClaimCounter : Nat := (s.get .claimCounter).getD 0
abbrev getClaimQuorumBps (claimId : Nat) : Nat :=
  (s.get (.claimQuorumBps claimId)).getD DEFAULT_QUORUM_BPS
abbrev getAppealClaimQuorumBps (claimId : Nat) : Nat :=
  (s.get (.appealClaimQuorumBps claimId)).getD APPEAL_ELEVATED_QUORUM_BPS

abbrev getVote (claimId : Nat) (voter : Address) : Option VoteOption := s.get (.vote claimId voter)
abbrev setVote (claimId : Nat) (voter : Address) (vote : VoteOption) : State :=
  s.set (.vote claimId voter) vote
abbrev getAppealVote (claimId : Nat) (voter : Address) : Option VoteOption :=
  s.get (.appealVote claimId voter)
abbrev getClaimVoters (claimId : Nat) : List Address := (s.get (.claimVoters claimId)).getD []
abbrev hasClaimVoters (claimId : Nat) : Bool := (s.get (.claimVoters claimId)).isSome
abbrev getAppealVoters (claimId : Nat) : List Address := (s.get (.appealVoters claimId)).getD []
abbrev hasAppealVoters (claimId : Nat) : Bool := (s.get (.appealVoters claimId)).isSome

abbrev getActivePolicyCount (holder : Address) : Nat := (s.get (.activePolicyCount holder)).getD 0
abbrev getHolderNonce (holder : Address) : Nat := (s.get (.holderNonce holder)).getD 0

/-! ## Counters and nonces -/

/-- `next_claim_id`: bump the claim counter and return the new value. -/
def nextClaimId : Result (Nat × State) := do
  let next := s.getClaimCounter + 1
  ensure (next ≤ U64_MAX) (.error .claimIdOverflow)
  pure (next, s.set .claimCounter next)

/-- `next_policy_id`: bump the holder's policy counter and return the new value. -/
def nextPolicyId (holder : Address) : Result (Nat × State) := do
  let next := s.getPolicyCounter holder + 1
  ensure (next ≤ MAX_POLICIES_PER_HOLDER) .trap
  pure (next, s.set (.policyCounter holder) next)

/-- `check_and_bump_nonce`: the optional nonce has to match, and is bumped either way. -/
def checkAndBumpNonce (holder : Address) (expected : Option Nat) : Result State := do
  ensure (expected.all (· == s.getHolderNonce holder) = true) (.error .nonceMismatch)
  ensure (s.getHolderNonce holder + 1 ≤ U64_MAX) .trap
  pure (s.set (.holderNonce holder) (s.getHolderNonce holder + 1))

/-! ## Pausing -/

/-- `assert_claims_not_paused`. -/
def assertClaimsNotPaused : Result Unit :=
  ensure ((s.getPauseFlags.global || s.getPauseFlags.claimsPaused) = false) .trap

/-- `assert_bind_not_paused`. -/
def assertBindNotPaused : Result Unit :=
  ensure ((s.getPauseFlags.global || s.getPauseFlags.bindPaused) = false) .trap

/-! ## Optional entries -/

/-- Write the entry if there is a value, else leave it (`set_claim_rate_limit_prev`). -/
def setIfSome (k : DataKey) (v : Option k.Val) : State := v.elim s (s.set k)

/-- Write the entry, or remove it when there is no value. -/
def setOrRemove (k : DataKey) (v : Option k.Val) : State := v.elim (s.remove k) (s.set k)

@[simp] theorem get_setIfSome_of_ne {k k' : DataKey} (v : Option k.Val) (h : k' ≠ k) :
    (s.setIfSome k v).get k' = s.get k' := by
  cases v <;> simp [setIfSome, h]

@[simp] theorem get_setOrRemove_of_ne {k k' : DataKey} (v : Option k.Val) (h : k' ≠ k) :
    (s.setOrRemove k v).get k' = s.get k' := by
  cases v <;> simp [setOrRemove, h]

@[simp] theorem get_setOrRemove_self {k : DataKey} (v : Option k.Val) :
    (s.setOrRemove k v).get k = v := by
  cases v <;> simp [setOrRemove]

end State

/-! ## The status index -/

/-- `compute_policy_status`. -/
def computePolicyStatus (policy : Policy) (now : Nat) : PolicyStatus :=
  if isPolicyActiveByLedger policy now then .active
  else if policy.isActive = false ∧ policy.terminationReason ≠ .none ∧
      policy.terminationReason ≠ .lapsedNonPayment then .terminated
  else .expired

namespace State

variable (s : State)

abbrev getPolicyStatusIndexRaw (status : PolicyStatus) : List PolicyLookupKey :=
  (s.get (.policyByStatusIndex status)).getD []

/-- `index_policy_by_status`: append the key unless it is there. -/
def indexPolicyByStatus (status : PolicyStatus) (key : PolicyLookupKey) : State :=
  let index := s.getPolicyStatusIndexRaw status
  if key ∈ index then s else s.set (.policyByStatusIndex status) (index ++ [key])

/-- `unindex_policy_by_status`: write the index back only when it got shorter. -/
def unindexPolicyByStatus (status : PolicyStatus) (key : PolicyLookupKey) : State :=
  let index := s.getPolicyStatusIndexRaw status
  let next := index.filter (· ≠ key)
  if next.length < index.length then s.set (.policyByStatusIndex status) next else s

/-- `reindex_policy`. -/
def reindexPolicy (holder : Address) (policyId : Nat) (oldPolicy newPolicy : Policy) : State :=
  let oldStatus := computePolicyStatus oldPolicy s.sequence
  let newStatus := computePolicyStatus newPolicy s.sequence
  if oldStatus = newStatus then s
  else (s.unindexPolicyByStatus oldStatus ⟨holder, policyId⟩).indexPolicyByStatus newStatus
    ⟨holder, policyId⟩

/-- `index_new_policy`. -/
def indexNewPolicy (holder : Address) (policyId : Nat) (policy : Policy) : State :=
  s.indexPolicyByStatus (computePolicyStatus policy s.sequence) ⟨holder, policyId⟩

end State

end NiffyInsure
