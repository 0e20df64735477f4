import NiffyInsure.Arith
import NiffyInsure.Lib.JsString
import NiffyInsure.Lib.ScVal
import NiffyInsure.Types
import Mathlib.Algebra.Group.Int.Defs

/-!
# The arguments of the backend's calls

`soroban.service.ts` writes the arguments of `generate_premium`, `initiate_policy` and `file_claim`
by hand; the entrypoints of `lib.rs` read them by the types of their parameters.  Since the encoders
were written the entrypoints have taken structs and nonces as parameters.

The SDK of the encoders is a parameter: nothing is assumed of how it writes a number, a string, an
address or an optional value.

* `enum_values`: the names of the variants are those of the contract.
* `calls_never_agree`: no call of the three is read as what it was made from, because none has the
  parameters of its entrypoint.
* `fileClaim_with_nonce_traps`: the missing nonce is not all that is wrong with `file_claim`: the
  fields of an evidence entry are in the wrong order.
-/

namespace NiffyInsure.Backend.CallArgs

open ScVal Js

abbrev Val := ScVal Address

/-! ## The entrypoints -/

def asPolicyType : Val → Option PolicyType :=
  asEnum [("Auto", .auto), ("Health", .health), ("Property", .property)]

def asRegionTier : Val → Option RegionTier :=
  asEnum [("Low", .low), ("Medium", .medium), ("High", .high)]

def asAgeBand : Val → Option AgeBand :=
  asEnum [("Young", .young), ("Adult", .adult), ("Senior", .senior)]

def asCoverageTier : Val → Option CoverageTier :=
  asEnum [("Basic", .basic), ("Standard", .standard), ("Premium", .premium)]

def riskInputFields : Fields where
  names := ["age_band", "coverage", "region", "safety_score"]
  ascending := by decide

def asRiskInput (val : Val) : Option RiskInput := do
  match ← asStruct riskInputFields val with
  | [ageBand, coverage, region, safetyScore] =>
    return ⟨← asRegionTier region, ← asAgeBand ageBand, ← asCoverageTier coverage,
      ← asU32 safetyScore⟩
  | _ => none

def initiatePolicyOptionsFields : Fields where
  names := ["beneficiary", "deductible", "expected_nonce", "metadata_uri", "region_code",
    "terms_hash"]
  ascending := by decide

def asInitiatePolicyOptions (val : Val) : Option InitiatePolicyOptions := do
  match ← asStruct initiatePolicyOptionsFields val with
  | [beneficiary, deductible, expectedNonce, metadataUri, regionCode, termsHash] =>
    return ⟨← asOption asAddress beneficiary, ← asOption asI128 deductible,
      ← asOption asU64 expectedNonce, ← asString metadataUri, ← asOption asString regionCode,
      ← asBytes 32 termsHash⟩
  | _ => none

def claimEvidenceEntryFields : Fields where
  names := ["hash", "url"]
  ascending := by decide

def asClaimEvidenceEntry (val : Val) : Option ClaimEvidenceEntry := do
  match ← asStruct claimEvidenceEntryFields val with
  | [hash, url] => return ⟨← asString url, ← asBytes 32 hash⟩
  | _ => none

structure GeneratePremium where
  input : RiskInput
  coverage : Int
  includeBreakdown : Bool

/-- The parameters of `generate_premium`. -/
def asGeneratePremium : List Val → Option GeneratePremium
  | [input, coverage, includeBreakdown] => do
    return ⟨← asRiskInput input, ← asI128 coverage, ← asBool includeBreakdown⟩
  | _ => none

structure InitiatePolicy where
  holder : Address
  policyType : PolicyType
  region : RegionTier
  ageBand : AgeBand
  coverageType : CoverageTier
  safetyScore : Nat
  baseAmount : Int
  asset : Address
  opts : InitiatePolicyOptions

/-- The parameters of `initiate_policy`. -/
def asInitiatePolicy : List Val → Option InitiatePolicy
  | [holder, policyType, region, ageBand, coverageType, safetyScore, baseAmount, asset, opts] => do
    return ⟨← asAddress holder, ← asPolicyType policyType, ← asRegionTier region,
      ← asAgeBand ageBand, ← asCoverageTier coverageType, ← asU32 safetyScore, ← asI128 baseAmount,
      ← asAddress asset, ← asInitiatePolicyOptions opts⟩
  | _ => none

structure FileClaim where
  holder : Address
  policyId : Nat
  amount : Int
  details : Str
  evidence : List ClaimEvidenceEntry
  expectedNonce : Option Nat

/-- The parameters of `file_claim`. -/
def asFileClaim : List Val → Option FileClaim
  | [holder, policyId, amount, details, evidence, expectedNonce] => do
    return ⟨← asAddress holder, ← asU32 policyId, ← asI128 amount, ← asString details,
      ← asVec asClaimEvidenceEntry evidence, ← asOption asU64 expectedNonce⟩
  | _ => none

/-! ## The encoders -/

inductive PolicyTypeEnum where
  | Auto
  | Health
  | Property

inductive RegionTierEnum where
  | Low
  | Medium
  | High

inductive AgeBandEnum where
  | Young
  | Adult
  | Senior

inductive CoverageTierEnum where
  | Basic
  | Standard
  | Premium

def PolicyTypeEnum.value : PolicyTypeEnum → String
  | .Auto => "Auto"
  | .Health => "Health"
  | .Property => "Property"

def RegionTierEnum.value : RegionTierEnum → String
  | .Low => "Low"
  | .Medium => "Medium"
  | .High => "High"

def AgeBandEnum.value : AgeBandEnum → String
  | .Young => "Young"
  | .Adult => "Adult"
  | .Senior => "Senior"

def CoverageTierEnum.value : CoverageTierEnum → String
  | .Basic => "Basic"
  | .Standard => "Standard"
  | .Premium => "Premium"

/-- What the encoders use of the SDK, as they use it; it may throw. -/
structure Sdk where
  /-- `new Address(text).toScVal()`. -/
  address : String → Except String Val
  /-- `nativeToScVal(value, { type: 'u32' })`. -/
  u32 : Int → Except String Val
  /-- `nativeToScVal(value, { type: 'i128' })`. -/
  i128 : Int → Except String Val
  /-- `nativeToScVal(value, { type: 'string' })`. -/
  string : Text → Except String Val
  /-- `nativeToScVal(null)`. -/
  null : Val
  /-- `nativeToScVal(new Address(text), { type: 'option', innerType: 'address' })`. -/
  optionAddress : String → Except String Val
  /-- `nativeToScVal(value, { type: 'option', innerType: 'i128' })`. -/
  optionI128 : Int → Except String Val

/-- `SorobanService.enumVariantToScVal`. -/
def enumVariantToScVal (variant : String) : Val := .vec [.symbol variant]

structure PremiumArgs where
  policyType : PolicyTypeEnum
  region : RegionTierEnum
  age : Int
  riskScore : Int
  sourceAccount : String

/-- The arguments that `_simulateGeneratePremium` passes to `generate_premium`. -/
def Sdk.simulateGeneratePremium (sdk : Sdk) (args : PremiumArgs) : Except String (List Val) := do
  return [enumVariantToScVal args.policyType.value, enumVariantToScVal args.region.value,
    ← sdk.u32 args.age, ← sdk.u32 args.riskScore]

structure PolicyArgs where
  holder : String
  policyType : PolicyTypeEnum
  region : RegionTierEnum
  ageBand : AgeBandEnum
  coverageType : CoverageTierEnum
  safetyScore : Int
  baseAmount : Int
  asset : Option String
  beneficiary : Option String
  deductible : Option Int

def Sdk.beneficiaryScv (sdk : Sdk) (args : PolicyArgs) : Except String Val :=
  match args.beneficiary with
  | none | some "" => .ok sdk.null
  | some beneficiary => sdk.optionAddress beneficiary

def Sdk.deductibleScv (sdk : Sdk) (args : PolicyArgs) : Except String Val :=
  match args.deductible with
  | none => .ok sdk.null
  | some deductible => sdk.optionI128 deductible

/-- The arguments that `_buildInitiatePolicyTransaction` passes to `initiate_policy`. -/
def Sdk.buildInitiatePolicyTransaction (sdk : Sdk) (defaultToken : String) (args : PolicyArgs) :
    Except String (List Val) := do
  let assetAddress := args.asset.getD defaultToken
  let beneficiaryScv ← sdk.beneficiaryScv args
  let deductibleScv ← sdk.deductibleScv args
  return [← sdk.address args.holder, enumVariantToScVal args.policyType.value,
    enumVariantToScVal args.region.value, enumVariantToScVal args.ageBand.value,
    enumVariantToScVal args.coverageType.value, ← sdk.u32 args.safetyScore,
    ← sdk.i128 args.baseAmount, ← sdk.address assetAddress, beneficiaryScv, deductibleScv]

structure ClaimEvidenceInput where
  url : Text
  contentSha256Hex : Text

/-- `claimEvidenceEntryToScVal`. -/
def Sdk.claimEvidenceEntryToScVal (sdk : Sdk) (entry : ClaimEvidenceInput) : Except String Val :=
  let hex := trim entry.contentSha256Hex
  let hash := hexBytes hex
  if ¬ (hex.length = 64 ∧ hex.all (isDigit 16)) then
    .error "contentSha256Hex must be 64 hex characters"
  else if hash.length ≠ 32 then .error "SHA-256 digest must be 32 bytes"
  else do
    return .map [(.symbol "url", ← sdk.string entry.url), (.symbol "hash", .bytes hash)]

/-- `claimEvidenceVecToScVal`. -/
def Sdk.claimEvidenceVecToScVal (sdk : Sdk) (entries : List ClaimEvidenceInput) :
    Except String Val := do
  return .vec (← entries.mapM sdk.claimEvidenceEntryToScVal)

structure ClaimArgs where
  holder : String
  policyId : Int
  amount : Int
  details : Text
  evidence : List ClaimEvidenceInput

/-- The arguments that `_buildFileClaimTransaction` passes to `file_claim`. -/
def Sdk.buildFileClaimTransaction (sdk : Sdk) (args : ClaimArgs) : Except String (List Val) := do
  return [← sdk.address args.holder, ← sdk.u32 args.policyId, ← sdk.i128 args.amount,
    ← sdk.string args.details, ← sdk.claimEvidenceVecToScVal args.evidence]

/-! ## What agrees -/

def PolicyTypeEnum.onChain : PolicyTypeEnum → PolicyType
  | .Auto => .auto
  | .Health => .health
  | .Property => .property

def RegionTierEnum.onChain : RegionTierEnum → RegionTier
  | .Low => .low
  | .Medium => .medium
  | .High => .high

def AgeBandEnum.onChain : AgeBandEnum → AgeBand
  | .Young => .young
  | .Adult => .adult
  | .Senior => .senior

def CoverageTierEnum.onChain : CoverageTierEnum → CoverageTier
  | .Basic => .basic
  | .Standard => .standard
  | .Premium => .premium

/-- **The variants** are read as what they were made from. -/
theorem enum_values :
    (∀ e : PolicyTypeEnum, asPolicyType (enumVariantToScVal e.value) = some e.onChain) ∧
    (∀ e : RegionTierEnum, asRegionTier (enumVariantToScVal e.value) = some e.onChain) ∧
    (∀ e : AgeBandEnum, asAgeBand (enumVariantToScVal e.value) = some e.onChain) ∧
    ∀ e : CoverageTierEnum, asCoverageTier (enumVariantToScVal e.value) = some e.onChain := by
  refine ⟨?_, ?_, ?_, ?_⟩ <;> intro e <;> cases e <;> decide

/-- The encoder passes arguments that the entrypoint reads, and reads as the same values. -/
def Agree {α : Type} (read : List Val → Option α) (scArgs : Except String (List Val))
    (same : α → Prop) : Prop :=
  ∃ l v, scArgs = .ok l ∧ read l = some v ∧ same v

/-- The only value of a quote request that is a parameter of `generate_premium` too. -/
def SamePremium (args : PremiumArgs) (v : GeneratePremium) : Prop :=
  v.input.region = args.region.onChain

def Sdk.SamePolicy (sdk : Sdk) (defaultToken : String) (args : PolicyArgs)
    (v : InitiatePolicy) : Prop :=
  sdk.address args.holder = .ok (.address v.holder) ∧ v.policyType = args.policyType.onChain ∧
    v.region = args.region.onChain ∧ v.ageBand = args.ageBand.onChain ∧
    v.coverageType = args.coverageType.onChain ∧ v.safetyScore = args.safetyScore ∧
    v.baseAmount = args.baseAmount ∧
    sdk.address (args.asset.getD defaultToken) = .ok (.address v.asset) ∧
    (match args.beneficiary with
      | none | some "" => v.opts.beneficiary = none
      | some text => ∃ a, v.opts.beneficiary = some a ∧ sdk.address text = .ok (.address a)) ∧
    v.opts.deductible = args.deductible

def Sdk.SameClaim (sdk : Sdk) (args : ClaimArgs) (v : FileClaim) : Prop :=
  sdk.address args.holder = .ok (.address v.holder) ∧ v.policyId = args.policyId ∧
    v.amount = args.amount ∧ v.details = textEncode args.details ∧
    v.evidence.map (fun entry => (entry.url, entry.hash.toList)) =
      args.evidence.map fun entry => (textEncode entry.url, hexBytes (trim entry.contentSha256Hex))

/-! ## What does not -/

variable {sdk : Sdk} {l : List Val}

theorem length_simulateGeneratePremium {args : PremiumArgs}
    (h : sdk.simulateGeneratePremium args = .ok l) : l.length = 4 := by
  obtain ⟨age, -, h⟩ := bind_eq_ok.mp h
  obtain ⟨riskScore, -, h⟩ := bind_eq_ok.mp h
  cases h
  rfl

theorem length_buildInitiatePolicyTransaction {defaultToken : String} {args : PolicyArgs}
    (h : sdk.buildInitiatePolicyTransaction defaultToken args = .ok l) : l.length = 10 := by
  obtain ⟨beneficiaryScv, -, h⟩ := bind_eq_ok.mp h
  obtain ⟨deductibleScv, -, h⟩ := bind_eq_ok.mp h
  obtain ⟨holder, -, h⟩ := bind_eq_ok.mp h
  obtain ⟨safetyScore, -, h⟩ := bind_eq_ok.mp h
  obtain ⟨baseAmount, -, h⟩ := bind_eq_ok.mp h
  obtain ⟨asset, -, h⟩ := bind_eq_ok.mp h
  cases h
  rfl

theorem buildFileClaimTransaction_eq_ok {args : ClaimArgs}
    (h : sdk.buildFileClaimTransaction args = .ok l) :
    ∃ holder policyId amount details evidence,
      args.evidence.mapM sdk.claimEvidenceEntryToScVal = .ok evidence ∧
        l = [holder, policyId, amount, details, .vec evidence] := by
  obtain ⟨holder, -, h⟩ := bind_eq_ok.mp h
  obtain ⟨policyId, -, h⟩ := bind_eq_ok.mp h
  obtain ⟨amount, -, h⟩ := bind_eq_ok.mp h
  obtain ⟨details, -, h⟩ := bind_eq_ok.mp h
  obtain ⟨evidence, hevidence, h⟩ := bind_eq_ok.mp h
  obtain ⟨vals, hvals, hvec⟩ := bind_eq_ok.mp hevidence
  cases hvec
  cases h
  exact ⟨holder, policyId, amount, details, vals, hvals, rfl⟩

theorem length_of_asGeneratePremium {v : GeneratePremium} (h : asGeneratePremium l = some v) :
    l.length = 3 := by
  unfold asGeneratePremium at h
  split at h
  · rfl
  · cases h

theorem length_of_asInitiatePolicy {v : InitiatePolicy} (h : asInitiatePolicy l = some v) :
    l.length = 9 := by
  unfold asInitiatePolicy at h
  split at h
  · rfl
  · cases h

theorem length_of_asFileClaim {v : FileClaim} (h : asFileClaim l = some v) : l.length = 6 := by
  unfold asFileClaim at h
  split at h
  · rfl
  · cases h

/-- **No call agrees with its entrypoint**, whatever it is made from and however the SDK writes the
values: the encoders pass four, ten and five arguments, the entrypoints have three, nine and six
parameters. -/
theorem calls_never_agree (sdk : Sdk) (defaultToken : String) :
    (∀ args : PremiumArgs,
      ¬ Agree asGeneratePremium (sdk.simulateGeneratePremium args) (SamePremium args)) ∧
    (∀ args : PolicyArgs,
      ¬ Agree asInitiatePolicy (sdk.buildInitiatePolicyTransaction defaultToken args)
        (sdk.SamePolicy defaultToken args)) ∧
    ∀ args : ClaimArgs,
      ¬ Agree asFileClaim (sdk.buildFileClaimTransaction args) (sdk.SameClaim args) := by
  refine ⟨?_, ?_, ?_⟩
  · rintro args ⟨l, v, hl, hv, -⟩
    have hsent := length_simulateGeneratePremium hl
    have hread := length_of_asGeneratePremium hv
    omega
  · rintro args ⟨l, v, hl, hv, -⟩
    have hsent := length_buildInitiatePolicyTransaction hl
    have hread := length_of_asInitiatePolicy hv
    omega
  · rintro args ⟨l, v, hl, hv, -⟩
    obtain ⟨holder, policyId, amount, details, evidence, -, rfl⟩ :=
      buildFileClaimTransaction_eq_ok hl
    have hread : 5 = 6 := length_of_asFileClaim hv
    omega

/-- The account of the holder in the examples of the DTOs, and a token contract. -/
def exampleHolder : String := "GDVOEGATQV4FGUJKDEBEYT5NAPWJ55MEMJVLC5TU7Y74WD73PPAS4TYW"

def exampleToken : String := "CDLZFC3SYJYDZT7K67VZ75HPJVIEUVNIXF47ZG2FB2RMQQVU2HHGCYSC"

def exampleAddress (text : String) : Except String Val :=
  if text = exampleHolder then .ok (.address 1)
  else if text = exampleToken then .ok (.address 2)
  else .error "Unsupported address type"

/-- The SDK, for two addresses: a number must be in its range, an address that is asked for as an
option is written as an address, and a number that is asked for as an option is refused. -/
def exampleSdk : Sdk where
  address := exampleAddress
  u32 n :=
    if 0 ≤ n ∧ n < 2 ^ 32 then .ok (.u32 (UInt32.ofNat n.toNat)) else .error "invalid u32 value"
  i128 n :=
    if -2 ^ 127 ≤ n ∧ n < 2 ^ 127 then .ok (.i128 (BitVec.ofInt 128 n))
    else .error "value too large for 128 bits"
  string text := .ok (.string (textEncode text))
  null := .void
  optionAddress := exampleAddress
  optionI128 _ := .error "invalid type: option"

/-- A quote, a policy and a claim with one piece of evidence: the encoders pass arguments that
trap. -/
theorem calls_trap :
    (∃ l, exampleSdk.simulateGeneratePremium ⟨.Auto, .Low, 30, 5, exampleHolder⟩ = .ok l ∧
      asGeneratePremium l = none) ∧
    (∃ l, exampleSdk.buildInitiatePolicyTransaction exampleToken
        ⟨exampleHolder, .Auto, .Low, .Adult, .Standard, 50, 1000000000, none, none, none⟩ = .ok l ∧
      asInitiatePolicy l = none) ∧
    ∃ l, exampleSdk.buildFileClaimTransaction
        ⟨exampleHolder, 1, 500000000, [0x57, 0x61, 0x74, 0x65, 0x72],
          [⟨[0x69, 0x70, 0x66, 0x73, 0x3A, 0x2F, 0x2F, 0x51],
            0x30 :: 0x31 :: List.replicate 62 0x30⟩]⟩ = .ok l ∧
      asFileClaim l = none :=
  ⟨⟨_, rfl, rfl⟩, ⟨_, rfl, rfl⟩, ⟨_, rfl, rfl⟩⟩

theorem asClaimEvidenceEntry_eq_none {entry : ClaimEvidenceInput} {val : Val}
    (h : sdk.claimEvidenceEntryToScVal entry = .ok val) : asClaimEvidenceEntry val = none := by
  obtain ⟨-, h⟩ := ite_error_eq_ok.mp h
  obtain ⟨-, h⟩ := ite_error_eq_ok.mp h
  obtain ⟨url, -, h⟩ := bind_eq_ok.mp h
  cases h
  -- the struct has `hash` before `url`
  have hfields : asStruct (A := Address) claimEvidenceEntryFields (.map [(.symbol "url", url),
      (.symbol "hash", .bytes (hexBytes (trim entry.contentSha256Hex)))]) = none :=
    asStruct_of_ne (by simp [fieldName, claimEvidenceEntryFields])
  unfold asClaimEvidenceEntry
  rw [hfields]
  rfl

/-- **One more argument is not enough**: a call of `file_claim` with evidence traps also where the
nonce is appended. -/
theorem fileClaim_with_nonce_traps {args : ClaimArgs}
    (h : sdk.buildFileClaimTransaction args = .ok l) (hevidence : args.evidence ≠ [])
    (nonce : Val) :
    asFileClaim (l ++ [nonce]) = none := by
  obtain ⟨holder, policyId, amount, details, evidence, hvals, rfl⟩ :=
    buildFileClaimTransaction_eq_ok h
  obtain ⟨entry, rest, hargs⟩ := List.exists_cons_of_ne_nil hevidence
  rw [hargs, List.mapM_cons] at hvals
  obtain ⟨val, hval, hvals⟩ := bind_eq_ok.mp hvals
  obtain ⟨vals, -, hvals⟩ := bind_eq_ok.mp hvals
  cases hvals
  have hnone : asVec asClaimEvidenceEntry (.vec (val :: vals)) = none :=
    asVec_eq_none (List.mem_cons_self ..) (asClaimEvidenceEntry_eq_none hval)
  rw [Option.eq_none_iff_forall_not_mem]
  intro v hv
  obtain ⟨h₁, -, hv⟩ := Option.bind_eq_some_iff.mp hv
  obtain ⟨h₂, -, hv⟩ := Option.bind_eq_some_iff.mp hv
  obtain ⟨h₃, -, hv⟩ := Option.bind_eq_some_iff.mp hv
  obtain ⟨h₄, -, hv⟩ := Option.bind_eq_some_iff.mp hv
  obtain ⟨entries, hentries, -⟩ := Option.bind_eq_some_iff.mp hv
  rw [hnone] at hentries
  cases hentries

end NiffyInsure.Backend.CallArgs
