/-!
# On-chain types

The data model of the contract: the enumerations and records of `types.rs`, the
error enumerations of the modules that raise them, and the size limits.  A field
keeps the name it has in the source.  Unsigned machine integers are `Nat`, `i128`
is `Int`; the places where the source checks, saturates or traps at the end of the
range are explicit in the functions that do so (`NiffyInsure.Arith`).
-/

namespace NiffyInsure

/-- An account or contract address. -/
abbrev Address := Nat

/-- A Soroban `String`, as its bytes. -/
abbrev Str := List UInt8

/-- `BytesN<32>`. -/
abbrev Bytes32 := Vector UInt8 32

/-- The account whose key is all zero, which `require_non_zero` refuses. -/
def zeroAddress : Address := 0

/-! ## Limits -/

def DETAILS_MAX_LEN : Nat := 256
def MAX_EVIDENCE_URL_BYTES : Nat := 2048
def IMAGE_URLS_MAX : Nat := 5
def MAX_METADATA_URI_BYTES : Nat := 256
def STRIKE_DEACTIVATION_THRESHOLD : Nat := 3
def DEFAULT_QUORUM_BPS : Nat := 5000
def QUORUM_BPS_MIN : Nat := 1
def QUORUM_BPS_MAX : Nat := 10000
def PROTOCOL_FEE_BPS_MAX : Nat := 2000
def MIN_SOLVENCY_RATIO_BPS_MAX : Nat := 10000
def CLAIM_STATUS_HISTORY_MAX : Nat := 24
def PAGE_SIZE_MAX : Nat := 20
def PROCESS_EXPIRED_MAX : Nat := PAGE_SIZE_MAX
def REGION_CODE_MAX_LEN : Nat := 32

/-! ## Policies -/

inductive PolicyStatus where
  | active
  | expired
  | terminated
  deriving DecidableEq

inductive PolicyType where
  | auto
  | health
  | property
  deriving DecidableEq

inductive RegionTier where
  | low
  | medium
  | high
  deriving DecidableEq

inductive AgeBand where
  | young
  | adult
  | senior
  deriving DecidableEq

inductive CoverageTier where
  | basic
  | standard
  | premium
  deriving DecidableEq

inductive TerminationReason where
  | none
  | voluntaryCancellation
  | lapsedNonPayment
  | underwritingVoid
  | fraudOrMisrepresentation
  | regulatoryAction
  | adminOverride
  | excessiveRejections
  deriving DecidableEq

inductive PauseReason where
  | securityIncident
  | upgradePending
  | solvencyRisk
  | regulatory
  deriving DecidableEq

structure PolicyTypeConfig where
  payoutAssetOverride : Option Address
  deriving DecidableEq

structure Policy where
  holder : Address
  policyId : Nat
  policyType : PolicyType
  region : RegionTier
  premium : Int
  coverage : Int
  isActive : Bool
  startLedger : Nat
  endLedger : Nat
  asset : Address
  deductible : Option Int
  beneficiary : Option Address
  terminatedAtLedger : Nat
  terminationReason : TerminationReason
  terminatedByAdmin : Bool
  strikeCount : Nat
  metadataUri : Str
  termsHash : Bytes32
  tokenDecimals : Nat
  deriving DecidableEq

structure PolicyLookupKey where
  holder : Address
  policyId : Nat
  deriving DecidableEq

/-- The options of `initiate_policy` that do not fit its parameter list. -/
structure InitiatePolicyOptions where
  beneficiary : Option Address
  deductible : Option Int
  expectedNonce : Option Nat
  metadataUri : Str
  regionCode : Option Str
  termsHash : Bytes32

structure RegionConfig where
  parent : Str
  riskMultiplier : Int
  active : Bool
  deriving DecidableEq

/-! ## Premiums -/

structure RiskInput where
  region : RegionTier
  ageBand : AgeBand
  coverage : CoverageTier
  safetyScore : Nat
  deriving DecidableEq

/-- The multiplier table.  A `Map` of the source is a partial function here: no
function of the contract depends on the order of its rows. -/
structure MultiplierTable where
  region : RegionTier → Option Int
  age : AgeBand → Option Int
  coverage : CoverageTier → Option Int
  safetyDiscount : Int
  version : Nat

inductive MultiplierKey where
  | region (tier : RegionTier)
  | age (band : AgeBand)
  | coverage (tier : CoverageTier)
  | safetyDiscount
  deriving DecidableEq

structure PremiumQuote where
  totalPremium : Int
  validUntilLedger : Nat
  configVersion : Nat
  deriving DecidableEq

/-! ## Claims -/

inductive ClaimStatus where
  | processing
  | pending
  | approved
  | payoutTimeout
  | paid
  | rejected
  | underAppeal
  | appealApproved
  | appealRejected
  | withdrawn
  | disputed
  | appealed
  | payoutFailed
  deriving DecidableEq

/-- `ClaimStatus::is_terminal`.  The two appeal-in-progress variants and
`Processing`, `Pending` are the non-terminal ones. -/
def ClaimStatus.isTerminal : ClaimStatus → Bool
  | .approved | .payoutTimeout | .paid | .rejected | .appealApproved
  | .appealRejected | .withdrawn | .payoutFailed | .disputed => true
  | .processing | .pending | .underAppeal | .appealed => false

structure ClaimStatusHistoryEntry where
  status : ClaimStatus
  ledger : Nat
  deriving DecidableEq

structure ClaimEvidenceEntry where
  url : Str
  hash : Bytes32
  deriving DecidableEq

inductive VoteOption where
  | approve
  | reject
  deriving DecidableEq

structure Claim where
  claimId : Nat
  policyId : Nat
  claimant : Address
  amount : Int
  deductible : Int
  asset : Address
  details : Str
  evidence : List ClaimEvidenceEntry
  status : ClaimStatus
  votingDeadlineLedger : Nat
  payoutDeadlineLedger : Nat
  approveVotes : Nat
  rejectVotes : Nat
  filedAt : Nat
  eligibleVoterCount : Nat
  appealOpenDeadlineLedger : Nat
  appealsCount : Nat
  appealDeadlineLedger : Nat
  appealApproveVotes : Nat
  appealRejectVotes : Nat
  statusHistory : List ClaimStatusHistoryEntry
  disputeDeadlineLedger : Nat
  paidAmount : Int
  installmentCount : Nat
  deriving DecidableEq

structure VoteDelegation where
  delegate : Address
  expiryLedger : Nat
  deriving DecidableEq

structure CommitRevealPhases where
  commitPhaseEndLedger : Nat
  revealPhaseEndLedger : Nat
  deriving DecidableEq

structure RollingClaimWindowState where
  windowStart : Nat
  cumulativePaid : Int
  deriving DecidableEq

structure AllowedAssetConfig where
  minClaimAmount : Int
  maxClaimAmount : Int
  deriving DecidableEq

structure DelegationPermissions where
  canSetFraudScore : Bool
  canSetAssetConfig : Bool
  canSetReinsurance : Bool
  canProcessPayout : Bool
  canManageVoters : Bool
  deriving DecidableEq

structure DelegationRecord where
  grantor : Address
  expiryLedger : Nat
  permissions : DelegationPermissions
  deriving DecidableEq

/-! ## Treasury -/

/-- The per-asset book of `ledger.rs`. -/
structure AssetLedger where
  treasuryBalance : Int
  reservedCoverage : Int
  totalPremiums : Int
  totalPaid : Int
  deriving DecidableEq

def AssetLedger.zero : AssetLedger := ⟨0, 0, 0, 0⟩

structure PauseFlags where
  global : Bool
  bindPaused : Bool
  claimsPaused : Bool
  deriving DecidableEq

/-- `PauseFlags::default`. -/
def PauseFlags.default : PauseFlags := ⟨false, false, false⟩

/-- `governance::Proposal`: a change of one parameter, put to the vote of the registry. -/
structure Proposal where
  proposalId : Nat
  creator : Address
  paramKey : Str
  proposedValue : Nat
  deadline : Nat
  approveVotes : Nat
  rejectVotes : Nat
  applied : Bool
  deriving DecidableEq

end NiffyInsure
