import NiffyInsure.Backend.Database
import NiffyInsure.Frame.Policies
import NiffyInsure.Expiry

/-!
# Renewals in the backend and in the contract

Before it builds a renewal, `renewal.service.ts` repeats the checks of `renew_policy`, with a
window, a grace period and a term of its own and with the statuses of the claims' rows, and it
announces the ledger at which the renewed policy ends.

* `eligible_iff`: what the backend accepts.
* `passes_of_renewed`: what the contract has checked when it renews, and the end that it stores.
* `renewal_parity_iff`: when the two agree.
-/

namespace NiffyInsure.Backend.Renewal

/-! ## The backend -/

def SECONDS_PER_LEDGER : Nat := 5

def POLICY_DURATION_LEDGERS : Nat := 6307200

def RENEWAL_OPEN_LEDGERS_BEFORE_EXPIRY : Nat := 120960

def RENEWAL_GRACE_LEDGERS_AFTER_EXPIRY : Nat := 17280

def BLOCKING_CLAIM_STATUSES : List ClaimStatus := [.pending]

def MAX_I128 : Int := 170141183460469231731687303715884105727

structure StoredPolicy extends PolicyRow where
  deletedAt : Option Nat

structure RenewalTables where
  policies : List StoredPolicy
  claims : List ClaimRow

/-- `BuildRenewalTransactionDto`. -/
structure BuildRenewalTransactionDto where
  holder : String
  policyId : Nat
  age : Nat
  riskScore : Nat
  durationLedgers : Option Nat
  asset : Option String

inductive RenewalFault where
  | policyNotFound (holder : String) (policyId : Nat)
  | policyInactive
  | renewalTooEarly (windowOpen : Int) (currentLedger : Nat)
  | renewalTooLate (windowClose currentLedger : Nat)
  | openClaimBlocksRenewal
  | premiumOverflow
  | notAnInteger
  deriving DecidableEq

namespace RenewalFault

/-- The `code` of the response.  A `BigInt` that cannot be read is no response of this service. -/
def code : RenewalFault → Option String
  | policyNotFound .. => some "POLICY_NOT_FOUND"
  | policyInactive => some "POLICY_INACTIVE"
  | renewalTooEarly .. => some "RENEWAL_TOO_EARLY"
  | renewalTooLate .. => some "RENEWAL_TOO_LATE"
  | openClaimBlocksRenewal => some "OPEN_CLAIM_BLOCKS_RENEWAL"
  | premiumOverflow => some "PREMIUM_OVERFLOW"
  | notAnInteger => none

/-- `Math.ceil(ledgers * 5 / 60)`. -/
def minutes (ledgers : Int) : Int := (ledgers * 5 + 59) / 60

def message : RenewalFault → Option String
  | policyNotFound holder policyId =>
    some ("Policy (holder=" ++ holder ++ ", policy_id=" ++ toString policyId ++ ") not found.")
  | policyInactive => some "Policy is not active and cannot be renewed."
  | renewalTooEarly windowOpen currentLedger =>
    some ("Renewal window has not opened yet. Window opens at ledger " ++ toString windowOpen ++
      "; current ledger is " ++ toString currentLedger ++ ". Approximately " ++
      toString (minutes (windowOpen - currentLedger)) ++ " minutes remaining.")
  | renewalTooLate windowClose currentLedger =>
    some ("Renewal grace period has expired. Window closed at ledger " ++ toString windowClose ++
      "; current ledger is " ++ toString currentLedger ++
      ". The policy has lapsed and cannot be renewed.")
  | openClaimBlocksRenewal =>
    some ("This policy has a claim in Processing status. Renewal is blocked until all claims " ++
      "are finalized (Approved, Paid, or Rejected).")
  | premiumOverflow =>
    some "Cumulative premium would exceed i128 maximum. Contact support."
  | notAnInteger => none

end RenewalFault

section

variable (t : RenewalTables) (currentLedger : Nat) (dto : BuildRenewalTransactionDto)

/-- The row of the policy, unless it is deleted. -/
def RenewalTables.findPolicy (id : String) : Option StoredPolicy :=
  t.policies.find? fun r => r.id = id ∧ r.deletedAt = none

/-- The rows of its claims, without the deleted ones. -/
def RenewalTables.claimsOf (policy : StoredPolicy) : List ClaimRow :=
  t.claims.filter fun r => r.policyId = policy.id ∧ r.deletedAt = none

def BuildRenewalTransactionDto.compositeId : String := dto.holder ++ ":" ++ toString dto.policyId

/-- `validateRenewalEligibility`, where the RPC has answered `currentLedger`. -/
def validateRenewalEligibility : Except RenewalFault StoredPolicy :=
  match t.findPolicy dto.compositeId with
  | none => .error (.policyNotFound dto.holder dto.policyId)
  | some policy =>
    if policy.isActive = false then .error .policyInactive
    else
      let windowOpen : Int := policy.endLedger - RENEWAL_OPEN_LEDGERS_BEFORE_EXPIRY
      let windowClose := policy.endLedger + RENEWAL_GRACE_LEDGERS_AFTER_EXPIRY
      if (currentLedger : Int) < windowOpen then .error (.renewalTooEarly windowOpen currentLedger)
      else if windowClose ≤ currentLedger then .error (.renewalTooLate windowClose currentLedger)
      else if (t.claimsOf policy).any (fun c => BLOCKING_CLAIM_STATUSES.contains c.status) then
        .error .openClaimBlocksRenewal
      else .ok policy

/-- What `simulateGeneratePremium` is asked. -/
structure PremiumRequest where
  policyType : String
  region : String
  age : Nat
  riskScore : Nat
  sourceAccount : String

/-- What `buildRenewPolicyTransaction` is asked. -/
structure RenewPolicyRequest where
  holder : String
  policyId : Nat
  policyType : String
  region : String
  age : Nat
  riskScore : Nat
  asset : Option String
  newStartLedger : Nat
  newEndLedger : Nat

/-- The calls of the `SorobanService`, and the reading of a `BigInt`.  The premium is in stroops; of
a built transaction only this and its text are used here. -/
structure Soroban where
  simulateGeneratePremium : PremiumRequest → String
  buildRenewPolicyTransaction : RenewPolicyRequest → String × String
  bigInt : String → Option Int

/-- What both calls answer. -/
structure RenewalAnswer where
  premiumStroops : String
  previousEndLedger : Nat
  newEndLedger : Nat
  currentLedger : Nat
  windowOpenLedger : Int
  windowCloseLedger : Nat

/-- The row of `policyRenewal`. -/
structure PolicyRenewal where
  policyCompositeId : String
  holderAddress : String
  policyType : String
  region : String
  previousEndLedger : Nat
  newEndLedger : Nat
  premiumPaidStroops : String

variable (soroban : Soroban)

/-- `quoteRenewal`. -/
def quoteRenewal : Except RenewalFault RenewalAnswer := do
  let policy ← validateRenewalEligibility t currentLedger dto
  let premiumStroops := soroban.simulateGeneratePremium
    ⟨policy.policyType, policy.region, dto.age, dto.riskScore, dto.holder⟩
  let newEndLedger := policy.endLedger + dto.durationLedgers.getD POLICY_DURATION_LEDGERS
  return ⟨premiumStroops, policy.endLedger, newEndLedger, currentLedger,
    policy.endLedger - RENEWAL_OPEN_LEDGERS_BEFORE_EXPIRY,
    policy.endLedger + RENEWAL_GRACE_LEDGERS_AFTER_EXPIRY⟩

/-- `buildRenewalTransaction`: the unsigned transaction, the answer, and the row that it creates. -/
def buildRenewalTransaction : Except RenewalFault (String × RenewalAnswer × PolicyRenewal) := do
  let policy ← validateRenewalEligibility t currentLedger dto
  let durationLedgers := dto.durationLedgers.getD POLICY_DURATION_LEDGERS
  let newStartLedger := policy.endLedger + 1
  let newEndLedger := newStartLedger + durationLedgers - 1
  let (unsignedXdr, premiumStroops) := soroban.buildRenewPolicyTransaction
    ⟨dto.holder, policy.policyId, policy.policyType, policy.region, dto.age, dto.riskScore,
      dto.asset.or policy.assetContractId, newStartLedger, newEndLedger⟩
  match soroban.bigInt policy.premium, soroban.bigInt premiumStroops with
  | some existingPremium, some renewalPremium =>
    if MAX_I128 < existingPremium + renewalPremium then throw .premiumOverflow
    else
      return (unsignedXdr,
        ⟨premiumStroops, policy.endLedger, newEndLedger, currentLedger,
          policy.endLedger - RENEWAL_OPEN_LEDGERS_BEFORE_EXPIRY,
          policy.endLedger + RENEWAL_GRACE_LEDGERS_AFTER_EXPIRY⟩,
        ⟨policy.id, dto.holder, policy.policyType, policy.region, policy.endLedger, newEndLedger,
          premiumStroops⟩)
  | _, _ => throw .notAnInteger

end

/-! ## The checks of the contract -/

/-- The policy passes the checks of `renew_policy` for lapse, activity, open claims, strikes and the
renewal window. -/
structure PassesRenewal (s : State) (holder : Address) (policyId : Nat)
    (policy : Policy) : Prop where
  lapse : ∃ lapseLedger, checkedAdd32 policy.endLedger s.getGracePeriodLedgers = some lapseLedger ∧
    isExpired s.sequence lapseLedger = false
  active : policy.isActive = true
  noClaim : s.hasOpenClaim holder policyId = false
  strikes : policy.strikeCount < STRIKE_DEACTIVATION_THRESHOLD
  window : isInRenewalWindowWithGrace s.sequence policy.endLedger RENEWAL_WINDOW_LEDGERS
    s.getGracePeriodLedgers = true

section

variable {env : Env} {s s' : State} {a : RenewPolicyArgs} {policy policy' : Policy}

theorem passes_of_renewed (hstored : s.getPolicy a.holder a.policyId = some policy)
    (h : renewPolicy env s a = .ok (.renewed policy', s')) :
    PassesRenewal s a.holder a.policyId policy ∧
      checkedAdd32 policy.endLedger NiffyInsure.POLICY_DURATION_LEDGERS =
        some policy'.endLedger := by
  cases renewRun_of_ok h with
  | renewed _ hfound hlapse halive hchecked _ _ _ hend =>
    rw [hstored] at hfound
    cases hfound
    simp only [State.checkRenewal, bind_eq_ok, ensure_eq_ok] at hchecked
    obtain ⟨-, hactive, -, hclaim, -, hstrikes, -, hwindow, -⟩ := hchecked
    exact ⟨⟨⟨_, hlapse, by simpa using halive⟩, hactive, hclaim, hstrikes, hwindow⟩, hend⟩

theorem checkRenewal_of_passes (h : PassesRenewal s a.holder a.policyId policy) :
    s.checkRenewal a policy = (do
      ensure (a.safetyScore ≤ 100) (.policy .invalidRiskScore)
      ensure (s.isAllowedAsset policy.asset = true) (.policy .assetNotAllowed)
      ensure (coverageTierRank a.coverageType ≤
          coverageTierRank (a.newCoverageTier.getD a.coverageType) ∧
        policy.coverage ≤ a.newCoverageAmount.getD policy.coverage)
        (.policy .invalidCoverage)) := by
  unfold State.checkRenewal
  rw [ensure, if_pos h.active, ensure, if_pos h.noClaim, ensure, if_pos h.strikes, ensure,
    if_pos h.window]
  rfl

end

/-! ## Parity -/

/-- A claim of the policy is in `Processing`. -/
def ProcessingOn (s : State) (holder : Address) (policyId : Nat) : Prop :=
  ∃ id claim, s.getClaim id = some claim ∧ claim.claimant = holder ∧ claim.policyId = policyId ∧
    claim.status = .processing

/-- The request is for the policy of the contract, its row has what the contract has, and the rows
of its claims are those of the claims on it and are `PENDING` where these are in `Processing`. -/
structure Corresponds (text : Address → String) (t : RenewalTables)
    (dto : BuildRenewalTransactionDto)
    (row : StoredPolicy) (s : State) (holder : Address) (policy : Policy) : Prop where
  stored : s.getPolicy holder dto.policyId = some policy
  named : dto.holder = text holder
  found : t.findPolicy dto.compositeId = some row
  active : row.isActive = policy.isActive
  endLedger : row.endLedger = policy.endLedger
  shows : ∀ c ∈ t.claimsOf row, ∃ claim, s.getClaim c.id = some claim ∧ claim.claimant = holder ∧
    claim.policyId = dto.policyId ∧ (c.status = .pending ↔ claim.status = .processing)
  shown : ∀ id claim, s.getClaim id = some claim → claim.claimant = holder →
    claim.policyId = dto.policyId → ∃ c ∈ t.claimsOf row, c.id = id

/-- The window of the backend. -/
def OpensBackend (now endLedger : Nat) : Prop :=
  endLedger ≤ now + RENEWAL_OPEN_LEDGERS_BEFORE_EXPIRY ∧
    now < endLedger + RENEWAL_GRACE_LEDGERS_AFTER_EXPIRY

/-- The window of the contract, with the grace period that is configured. -/
def OpensContract (now endLedger grace : Nat) : Prop :=
  endLedger ≤ now + RENEWAL_WINDOW_LEDGERS ∧ now < endLedger + grace ∧ endLedger + grace ≤ U32_MAX

/-- The open-claim bit is set, or there are too many strikes. -/
def BlockedOnChain (s : State) (holder : Address) (policyId : Nat) (policy : Policy) : Prop :=
  s.hasOpenClaim holder policyId = true ∨ STRIKE_DEACTIVATION_THRESHOLD ≤ policy.strikeCount

/-- Both accept the same policies, and the end that the backend announces is the one that the
contract stores. -/
def RenewalParity (t : RenewalTables) (dto : BuildRenewalTransactionDto) (soroban : Soroban)
    (s : State) (holder : Address) (policy : Policy) : Prop :=
  ((∃ row, validateRenewalEligibility t s.sequence dto = .ok row) ↔
    PassesRenewal s holder dto.policyId policy) ∧
  (∀ answer, quoteRenewal t s.sequence dto soroban = .ok answer →
    checkedAdd32 policy.endLedger NiffyInsure.POLICY_DURATION_LEDGERS = some answer.newEndLedger) ∧
  ∀ xdr answer record, buildRenewalTransaction t s.sequence dto soroban = .ok (xdr,
    answer, record) → checkedAdd32 policy.endLedger NiffyInsure.POLICY_DURATION_LEDGERS =
    some answer.newEndLedger

/-- The policy is inactive; or, where both windows are open, a claim is in `Processing` exactly if
the contract is blocked, where only one is, what that side looks at blocks it, and where the backend
accepts, the term that is asked for is that of the contract. -/
def RenewalAgrees (dto : BuildRenewalTransactionDto) (s : State) (holder : Address)
    (policy : Policy) : Prop :=
  policy.isActive = true →
    (OpensBackend s.sequence policy.endLedger →
      OpensContract s.sequence policy.endLedger s.getGracePeriodLedgers →
        (ProcessingOn s holder dto.policyId ↔ BlockedOnChain s holder dto.policyId policy)) ∧
    (OpensBackend s.sequence policy.endLedger →
      ¬ OpensContract s.sequence policy.endLedger s.getGracePeriodLedgers →
        ProcessingOn s holder dto.policyId) ∧
    (¬ OpensBackend s.sequence policy.endLedger →
      OpensContract s.sequence policy.endLedger s.getGracePeriodLedgers →
        BlockedOnChain s holder dto.policyId policy) ∧
    (OpensBackend s.sequence policy.endLedger → ¬ ProcessingOn s holder dto.policyId →
      dto.durationLedgers = some NiffyInsure.POLICY_DURATION_LEDGERS ∧
        policy.endLedger + NiffyInsure.POLICY_DURATION_LEDGERS ≤ U32_MAX)

section

variable {text : Address → String} {t : RenewalTables} {dto : BuildRenewalTransactionDto}
  {row : StoredPolicy} {s : State} {holder : Address} {policy : Policy} {soroban : Soroban}

theorem Corresponds.pending_iff (h : Corresponds text t dto row s holder policy) :
    (t.claimsOf row).any (fun c => BLOCKING_CLAIM_STATUSES.contains c.status) = true ↔
      ProcessingOn s holder dto.policyId := by
  rw [List.any_eq_true]
  constructor
  · rintro ⟨c, hc, hpending⟩
    obtain ⟨claim, hclaim, hclaimant, hpolicy, hstatus⟩ := h.shows c hc
    exact ⟨c.id, claim, hclaim, hclaimant, hpolicy,
      hstatus.mp (by simpa [BLOCKING_CLAIM_STATUSES] using hpending)⟩
  · rintro ⟨id, claim, hclaim, hclaimant, hpolicy, hprocessing⟩
    obtain ⟨c, hc, rfl⟩ := h.shown id claim hclaim hclaimant hpolicy
    obtain ⟨claim', hclaim', -, -, hstatus⟩ := h.shows c hc
    rw [hclaim] at hclaim'
    cases hclaim'
    exact ⟨c, hc, by simpa [BLOCKING_CLAIM_STATUSES] using hstatus.mpr hprocessing⟩

/-- **What the backend accepts**, in terms of the contract. -/
theorem eligible_iff (h : Corresponds text t dto row s holder policy) {r : StoredPolicy} :
    validateRenewalEligibility t s.sequence dto = .ok r ↔
      r = row ∧ policy.isActive = true ∧ OpensBackend s.sequence policy.endLedger ∧
        ¬ ProcessingOn s holder dto.policyId := by
  unfold validateRenewalEligibility OpensBackend
  rw [h.found, ← h.pending_iff, ← h.active, ← h.endLedger]
  dsimp only
  generalize (t.claimsOf row).any (fun c => BLOCKING_CLAIM_STATUSES.contains c.status) = pending
  by_cases hactive : row.isActive = false
  · rw [if_pos hactive]
    simp [hactive]
  · by_cases hearly : (s.sequence : Int) < row.endLedger - RENEWAL_OPEN_LEDGERS_BEFORE_EXPIRY
    · rw [if_neg hactive, if_pos hearly]
      have hbefore : ¬ row.endLedger ≤ s.sequence + RENEWAL_OPEN_LEDGERS_BEFORE_EXPIRY := by omega
      simp [hbefore]
    · have hopen : row.endLedger ≤ s.sequence + RENEWAL_OPEN_LEDGERS_BEFORE_EXPIRY := by omega
      rw [if_neg hactive, if_neg hearly]
      by_cases hlate : row.endLedger + RENEWAL_GRACE_LEDGERS_AFTER_EXPIRY ≤ s.sequence
      · rw [if_pos hlate]
        simp [Nat.not_lt_of_le hlate]
      · rw [if_neg hlate]
        cases pending with
        | true => simp
        | false =>
          constructor
          · intro heq
            cases heq
            exact ⟨rfl, by simpa using hactive, ⟨hopen, Nat.lt_of_not_le hlate⟩, by simp⟩
          · rintro ⟨rfl, -⟩
            rfl

theorem passes_iff {policyId : Nat} : PassesRenewal s holder policyId policy ↔
    policy.isActive = true ∧ OpensContract s.sequence policy.endLedger s.getGracePeriodLedgers ∧
      ¬ BlockedOnChain s holder policyId policy := by
  have hbit : s.hasOpenClaim holder policyId = false ↔ ¬ s.hasOpenClaim holder policyId = true := by
    simp
  unfold OpensContract BlockedOnChain
  constructor
  · rintro ⟨⟨lapse, hadd, halive⟩, hactive, hclaim, hstrikes, hwindow⟩
    obtain ⟨hfits, rfl⟩ := checkedAdd32_eq_some.mp hadd
    simp only [isInRenewalWindowWithGrace, isExpired, Bool.and_eq_true, decide_eq_true_eq,
      decide_eq_false_iff_not] at hwindow halive
    refine ⟨hactive, ⟨by omega, by omega, hfits⟩, ?_⟩
    rintro (hopen | hmany)
    · exact hbit.mp hclaim hopen
    · omega
  · rintro ⟨hactive, ⟨hopen, hlate, hfits⟩, hblocked⟩
    rw [not_or] at hblocked
    refine ⟨⟨_, checkedAdd32_eq_some.mpr ⟨hfits, rfl⟩, ?_⟩, hactive, hbit.mpr hblocked.1,
      by omega, ?_⟩
    · simp only [isExpired, decide_eq_false_iff_not]
      omega
    · have hsum : saturatingAdd32 policy.endLedger s.getGracePeriodLedgers =
          policy.endLedger + s.getGracePeriodLedgers := Nat.min_eq_left hfits
      simp only [isInRenewalWindowWithGrace, Bool.and_eq_true, decide_eq_true_eq, hsum]
      omega

theorem quoteRenewal_eq_ok {now : Nat} {answer : RenewalAnswer}
    (h : quoteRenewal t now dto soroban = .ok answer) :
    ∃ r, validateRenewalEligibility t now dto = .ok r ∧
      answer.newEndLedger = r.endLedger + dto.durationLedgers.getD POLICY_DURATION_LEDGERS := by
  unfold quoteRenewal at h
  cases hvalid : validateRenewalEligibility t now dto with
  | error e =>
    rw [hvalid] at h
    cases h
  | ok r =>
    rw [hvalid] at h
    cases h
    exact ⟨r, rfl, rfl⟩

variable (soroban) in
theorem exists_quoteRenewal {now : Nat} {r : StoredPolicy}
    (h : validateRenewalEligibility t now dto = .ok r) :
    ∃ answer, quoteRenewal t now dto soroban = .ok answer ∧
      answer.newEndLedger = r.endLedger + dto.durationLedgers.getD POLICY_DURATION_LEDGERS := by
  unfold quoteRenewal
  rw [h]
  exact ⟨_, rfl, rfl⟩

theorem buildRenewalTransaction_eq_ok {now : Nat} {xdr : String} {answer : RenewalAnswer}
    {record : PolicyRenewal} (h : buildRenewalTransaction t now dto soroban =
      .ok (xdr, answer, record)) :
    ∃ r, validateRenewalEligibility t now dto = .ok r ∧
      answer.newEndLedger = r.endLedger + dto.durationLedgers.getD POLICY_DURATION_LEDGERS := by
  unfold buildRenewalTransaction at h
  cases hvalid : validateRenewalEligibility t now dto with
  | error e =>
    rw [hvalid] at h
    cases h
  | ok r =>
    rw [hvalid] at h
    refine ⟨r, rfl, ?_⟩
    dsimp only [Bind.bind, Except.bind] at h
    split at h
    · split at h
      · cases h
      · cases h
        show r.endLedger + 1 + _ - 1 = _
        omega
    · cases h

theorem accept_alike_iff {backend contract pending blocked : Prop} :
    (backend ∧ ¬ pending ↔ contract ∧ ¬ blocked) ↔
      (backend → contract → (pending ↔ blocked)) ∧ (backend → ¬ contract → pending) ∧
        (¬ backend → contract → blocked) := by
  tauto

/-- **When the backend and the contract agree on a renewal.** -/
theorem renewal_parity_iff (h : Corresponds text t dto row s holder policy) :
    RenewalParity t dto soroban s holder policy ↔ RenewalAgrees dto s holder policy := by
  have haccepts : (∃ r, validateRenewalEligibility t s.sequence dto = .ok r) ↔
      policy.isActive = true ∧ OpensBackend s.sequence policy.endLedger ∧
        ¬ ProcessingOn s holder dto.policyId := by
    constructor
    · rintro ⟨r, hr⟩
      exact ((eligible_iff h).mp hr).2
    · exact fun hall => ⟨row, (eligible_iff h).mpr ⟨rfl, hall⟩⟩
  unfold RenewalParity
  rw [haccepts, passes_iff]
  constructor
  · rintro ⟨hsame, hquote, -⟩ hactive
    simp only [hactive, true_and] at hsame
    obtain ⟨hboth, hbackend, hcontract⟩ := accept_alike_iff.mp hsame
    refine ⟨hboth, hbackend, hcontract, ?_⟩
    intro hopen hfree
    obtain ⟨r, hr⟩ := haccepts.mpr ⟨hactive, hopen, hfree⟩
    obtain ⟨answer, hanswer, hend⟩ := exists_quoteRenewal soroban hr
    obtain ⟨hfits, hterm⟩ := checkedAdd32_eq_some.mp (hquote answer hanswer)
    rw [hend, ((eligible_iff h).mp hr).1, h.endLedger, Nat.add_left_cancel_iff] at hterm
    refine ⟨?_, hfits⟩
    cases hduration : dto.durationLedgers with
    | none =>
      rw [hduration] at hterm
      exact absurd hterm (by decide)
    | some n =>
      rw [hduration] at hterm
      exact congrArg some hterm
  · intro hagrees
    -- what is announced is the end of the row and the term that is asked for
    have hends : ∀ r n, validateRenewalEligibility t s.sequence dto = .ok r →
        n = r.endLedger + dto.durationLedgers.getD POLICY_DURATION_LEDGERS →
        checkedAdd32 policy.endLedger NiffyInsure.POLICY_DURATION_LEDGERS = some n := by
      intro r n hr hn
      obtain ⟨rfl, hactive, hopen, hfree⟩ := (eligible_iff h).mp hr
      obtain ⟨hduration, hfits⟩ := (hagrees hactive).2.2.2 hopen hfree
      rw [hduration, h.endLedger] at hn
      exact checkedAdd32_eq_some.mpr ⟨hfits, hn⟩
    refine ⟨?_, ?_, ?_⟩
    · by_cases hactive : policy.isActive = true
      · obtain ⟨hboth, hbackend, hcontract, -⟩ := hagrees hactive
        simp only [hactive, true_and]
        exact accept_alike_iff.mpr ⟨hboth, hbackend, hcontract⟩
      · simp [hactive]
    · intro answer hanswer
      obtain ⟨r, hr, hend⟩ := quoteRenewal_eq_ok hanswer
      exact hends r _ hr hend
    · intro xdr answer record hanswer
      obtain ⟨r, hr, hend⟩ := buildRenewalTransaction_eq_ok hanswer
      exact hends r _ hr hend

end

/-! ## The first policy of account 1 -/

/-- Its row. -/
def demoRow : StoredPolicy where
  id := "G1:1"
  policyId := 1
  holderAddress := "G1"
  policyType := "Auto"
  region := "Low"
  coverageAmount := "10000000"
  premium := "6885000"
  isActive := true
  startLedger := 1000
  endLedger := 519400
  assetContractId := none
  txHash := "aa"
  deletedAt := none

def demoTables : RenewalTables := ⟨[demoRow], []⟩

/-- The request for its renewal. -/
def demoRequest (durationLedgers : Option Nat) : BuildRenewalTransactionDto where
  holder := "G1"
  policyId := 1
  age := 35
  riskScore := 50
  durationLedgers := durationLedgers
  asset := none

/-- What both sides look at. -/
def renewalView (s : State) : Option (Bool × Nat × Nat) × Nat × Bool × Nat × Nat × Bool :=
  ((s.getPolicy 1 1).map fun p => (p.isActive, p.endLedger, p.strikeCount), s.sequence,
    s.hasOpenClaim 1 1, s.getGracePeriodLedgers, s.getClaimCounter, (s.getClaim 0).isNone)

theorem exists_corresponds {s : State} {now : Nat} (durationLedgers : Option Nat)
    (hreach : (contract demoHost).Reach Machine.always s)
    (hview : renewalView s = (some (true, 519400, 0), now, false, 17280, 0, true)) :
    ∃ policy, Corresponds (fun a => "G" ++ toString a) demoTables (demoRequest durationLedgers)
        demoRow s 1 policy ∧
      policy.isActive = true ∧ policy.endLedger = 519400 ∧ policy.strikeCount = 0 ∧
      s.sequence = now ∧ s.hasOpenClaim 1 1 = false ∧ s.getGracePeriodLedgers = 17280 ∧
      ¬ ProcessingOn s 1 1 := by
  simp only [renewalView, Prod.mk.injEq, Option.map_eq_some_iff] at hview
  obtain ⟨⟨policy, hpolicy, hactive, hend, hstrikes⟩, hnow, hclear, hgrace, hcounter, hzero⟩ :=
    hview
  have hnone : ∀ id, s.getClaim id = none := by
    intro id
    cases hclaim : s.getClaim id with
    | none => rfl
    | some claim =>
      have hle := (claimsKeyed_of_reach hreach id claim hclaim).2
      have hid : id = 0 := by omega
      rw [hid] at hclaim
      rw [hclaim] at hzero
      cases hzero
  have hfound : demoTables.findPolicy ("G1" ++ ":" ++ toString 1) = some demoRow :=
    List.find?_cons_of_pos (by decide)
  refine ⟨policy, ?_, hactive, hend, hstrikes, hnow, hclear, hgrace, ?_⟩
  · refine ⟨hpolicy, rfl, hfound, hactive.symm, hend.symm, ?_, ?_⟩
    · intro c hc
      cases hc
    · intro id claim hclaim
      rw [hnone id] at hclaim
      cases hclaim
  · rintro ⟨id, claim, hclaim, -⟩
    rw [hnone id] at hclaim
    cases hclaim

/-- A request for the term of the contract, at the ledger where the policy ends. -/
theorem renewal_parity_at_end : ∃ s policy, (contract demoHost).Reach Machine.always s ∧
    PassesRenewal s 1 1 policy ∧
      ∀ soroban, RenewalParity demoTables (demoRequest (some 518400)) soroban s 1 policy := by
  obtain ⟨s, hreach, hview⟩ := exists_of_follow always_of_noCheck (deployed 0)
    (demoSetup ++ [.closeLedger 519400]) (f := renewalView)
    (a := (some (true, 519400, 0), 519400, false, 17280, 0, true)) (fresh_deployed (by decide))
    (by simp [demoSetup, demoInit, demoBind]) (by decide +kernel)
  obtain ⟨policy, hsame, hactive, hend, hstrikes, hnow, hclear, hgrace, hfree⟩ :=
    exists_corresponds (some 518400) hreach hview
  have hopen : OpensContract s.sequence policy.endLedger s.getGracePeriodLedgers := by
    rw [hnow, hend, hgrace]
    unfold OpensContract
    decide
  have hbackend : OpensBackend s.sequence policy.endLedger := by
    rw [hnow, hend]
    unfold OpensBackend
    decide
  have hblocked : ¬ BlockedOnChain s 1 1 policy := by
    unfold BlockedOnChain
    rw [hclear, hstrikes]
    decide
  refine ⟨s, policy, hreach, passes_iff.mpr ⟨hactive, hopen, hblocked⟩, fun soroban => ?_⟩
  refine (renewal_parity_iff hsame).mpr fun _ => ⟨fun _ _ => iff_of_false hfree hblocked,
    fun _ hnot => absurd hopen hnot, fun hnot _ => absurd hbackend hnot, fun _ _ => ⟨rfl, ?_⟩⟩
  rw [hend]
  decide

/-- 119400 ledgers before the end the backend accepts, and announces the end of a term of
6307200 ledgers; the contract refuses. -/
theorem renewal_accepted_too_early : ∃ s policy, (contract demoHost).Reach Machine.always s ∧
    Corresponds (fun a => "G" ++ toString a) demoTables (demoRequest none) demoRow s 1 policy ∧
    ∀ soroban,
      (∃ answer, quoteRenewal demoTables s.sequence (demoRequest none) soroban = .ok answer ∧
        answer.newEndLedger = 6826600) ∧
      (∀ env a policy' s', a.holder = 1 → a.policyId = 1 →
        renewPolicy env s a ≠ .ok (.renewed policy', s')) ∧
      ¬ RenewalParity demoTables (demoRequest none) soroban s 1 policy := by
  obtain ⟨s, hreach, hview⟩ := exists_of_follow always_of_noCheck (deployed 0)
    (demoSetup ++ [.closeLedger 400000]) (f := renewalView)
    (a := (some (true, 519400, 0), 400000, false, 17280, 0, true)) (fresh_deployed (by decide))
    (by simp [demoSetup, demoInit, demoBind]) (by decide +kernel)
  obtain ⟨policy, hsame, hactive, hend, hstrikes, hnow, hclear, hgrace, hfree⟩ :=
    exists_corresponds none hreach hview
  have hbackend : OpensBackend s.sequence policy.endLedger := by
    rw [hnow, hend]
    unfold OpensBackend
    decide
  have hclosed : ¬ PassesRenewal s 1 1 policy := by
    rw [passes_iff, hnow, hend, hgrace]
    rintro ⟨-, hopen, -⟩
    exact absurd hopen.1 (by decide)
  have haccepted := (eligible_iff hsame).mpr ⟨rfl, hactive, hbackend, hfree⟩
  refine ⟨s, policy, hreach, hsame, fun soroban => ⟨exists_quoteRenewal soroban haccepted, ?_, ?_⟩⟩
  · intro env a policy' s' hholder hid hrenewed
    have hstored : s.getPolicy a.holder a.policyId = some policy := by
      rw [hholder, hid]
      exact hsame.stored
    have hpasses := (passes_of_renewed hstored hrenewed).1
    rw [hholder, hid] at hpasses
    exact hclosed hpasses
  · exact fun hparity => hclosed (hparity.1.mp ⟨_, haccepted⟩)

end NiffyInsure.Backend.Renewal
