import NiffyInsure.RollingMeter

/-!
# The rolling claim cap holds

What bridges the check at filing and the record at payout is that a policy has one open claim at a
time; but an approval frees the slot before anything is paid, `process_claim` records a claim twice,
and the last installment records the net amount.  The runs that avoid these keep the cap.

* `capInv_of_fileClaim`, `capInv_of_renewPolicy` and `capInv_of_disburseInstallment`: the calls that
  write an accumulator keep the invariant.
* `cap_holds_of_reach`: the cap holds in every run with a fixed finite cap whose steps meet
  `KeepsCap`.
-/

namespace NiffyInsure

open Machine Tumbling

/-! ## Steps -/

section Steps

variable {env : Env} {s s' : State} {g : List Renewal}

theorem inBucket_self {w n : Nat} (hw : 0 < w) : InBucket w (n / w) n := (inBucket_iff hw).mpr rfl

theorem CapInv.mono {g' : List Renewal} (hs : CapInv s g) (hsub : ∀ r ∈ g, r ∈ g') :
    CapInv s g' where
  timely := hs.timely
  counter := hs.counter
  bounded := hs.bounded
  positive := hs.positive
  unused := hs.unused
  tracks holder policyId :=
    (hs.tracks holder policyId).mono (fun _ hk r hr => hk r (hsub r hr)) fun _ => rfl
  counted holder policyId k hk := hs.counted holder policyId k fun r hr => hk r (hsub r hr)

theorem paidInBucket_ahead (hs : CapInv s g) {holder : Address} {policyId k : Nat}
    (hk : s.sequence < k * s.getRollingClaimWindowLedgers) :
    s.paidInBucket holder policyId k = 0 := by
  refine claimSum_eq_zero fun id claim hclaim => if_neg ?_
  rintro ⟨-, -, hpaid⟩
  simp only [Claim.paidIn, Option.any_eq_true_iff_get, decide_eq_true_eq] at hpaid
  obtain ⟨hsome, hin⟩ := hpaid
  have hle := (hs.timely id claim hclaim).paid _ (Option.some_get hsome).symm
  exact absurd (Nat.lt_of_lt_of_le hk hin.1) (Nat.not_lt.mpr hle)

theorem capInv_of_closeLedger {n : Nat} (hw : 0 < s.getRollingClaimWindowLedgers)
    (hle : s.sequence ≤ n) (hs : CapInv s g) : CapInv { s with sequence := n } g where
  timely id claim hclaim := by
    have hc := hs.timely id claim hclaim
    exact ⟨hc.id, hc.amount, Nat.le_trans hc.filed hle, fun m hm => Nat.le_trans (hc.paid m hm) hle⟩
  counter := hs.counter
  bounded := hs.bounded
  positive := hs.positive
  unused := hs.unused
  tracks holder policyId :=
    (hs.tracks holder policyId).advance hw hle fun k hk => paidInBucket_ahead hs hk
  counted := hs.counted

/-- What a step that writes the accumulator of one policy has to keep. -/
structure MeterStep (s s' : State) (g' : List Renewal) (holder : Address) (policyId : Nat)
    (st : RollingClaimWindowState) : Prop where
  write : SameKind .rolling (s.set (.rollingClaimState holder policyId) st) s'
  config : SameCap s s'
  sequence : s'.sequence = s.sequence
  start : st.windowStart = windowBucketStart s.sequence s.getRollingClaimWindowLedgers
  nonneg : 0 ≤ st.cumulativePaid
  unused : s'.getClaimCounter = 0 → s.getClaimCounter = 0 ∧ st.cumulativePaid = 0
  own : Unrenewed g' holder policyId s.getRollingClaimWindowLedgers
      (s.sequence / s.getRollingClaimWindowLedgers) →
    st.cumulativePaid = s'.paidInBucket holder policyId
      (s.sequence / s.getRollingClaimWindowLedgers)
  others : ∀ a id, ¬ (a = holder ∧ id = policyId) →
    ∀ k, s'.paidInBucket a id k = s.paidInBucket a id k

theorem MeterStep.tracks {g' : List Renewal} {holder : Address} {policyId : Nat}
    {st : RollingClaimWindowState} (h : MeterStep s s' g' holder policyId st)
    (hw : 0 < s.getRollingClaimWindowLedgers) (hsub : ∀ r ∈ g, r ∈ g') (hs : CapInv s g)
    (a : Address) (id : Nat) : Tracks s'.getRollingClaimWindowLedgers s'.sequence (s'.meter a id)
      (Unrenewed g' a id s'.getRollingClaimWindowLedgers) (s'.paidInBucket a id) := by
  rw [h.config.window, h.sequence, meter_of_write h.write]
  split
  · rename_i heq
    obtain ⟨rfl, rfl⟩ := heq
    rw [h.start, windowBucketStart_eq hw]
    exact .restart h.own
  · rename_i hne
    exact (hs.tracks a id).mono (fun _ hk r hr => hk r (hsub r hr)) (h.others a id hne)

theorem MeterStep.positive {g' : List Renewal} {holder : Address} {policyId : Nat}
    {st : RollingClaimWindowState} (h : MeterStep s s' g' holder policyId st) (hs : CapInv s g)
    (a : Address) (id : Nat) (m : Meter Int) (hm : s'.meter a id = some m) : 0 ≤ m.total := by
  rw [meter_of_write h.write] at hm
  split at hm
  · cases hm
    exact h.nonneg
  · exact hs.positive a id m hm

theorem MeterStep.unused_total {g' : List Renewal} {holder : Address} {policyId : Nat}
    {st : RollingClaimWindowState} (h : MeterStep s s' g' holder policyId st) (hs : CapInv s g)
    (hzero : s'.getClaimCounter = 0) (a : Address) (id : Nat) (m : Meter Int)
    (hm : s'.meter a id = some m) : m.total = 0 := by
  obtain ⟨hold, hst⟩ := h.unused hzero
  rw [meter_of_write h.write] at hm
  split at hm
  · cases hm
    exact hst
  · exact hs.unused hold a id m hm

/-- A renewal resets the accumulator, and takes the window out of account. -/
theorem capInv_of_renewPolicy {a : RenewPolicyArgs} {o : RenewPolicyOutcome}
    (h : renewPolicy env s a = .ok (o, s')) (hw : 0 < s.getRollingClaimWindowLedgers)
    (hs : CapInv s g) : CapInv s' (noteRenewal s (.call env (.policy (.renewPolicy a))) g) := by
  have hf := frame_renewPolicy h
  have hcalm : CalmStep s s' := .of_frame hf rfl rfl rfl
  obtain hmark | ⟨policy, premium, s₁, s₂, -, hget, -, hnot, -, hf₁, h₂, -, -, hlast⟩ :=
    renewPolicy_eq_ok h
  · refine (hcalm.capInv (hmark.sameKind rfl) hs).mono fun r hr => ?_
    unfold noteRenewal
    dsimp only
    split
    · split
      · exact hr
      · exact List.mem_cons_of_mem _ hr
    · exact hr
  · have hnote : noteRenewal s (.call env (.policy (.renewPolicy a))) g =
        ⟨a.holder, a.policyId, s.sequence⟩ :: g := by
      simp only [noteRenewal, hget]
      exact if_neg hnot
    have hsub : ∀ r ∈ g, r ∈ Renewal.mk a.holder a.policyId s.sequence :: g :=
      fun r hr => List.mem_cons_of_mem _ hr
    have hf₂ := frame_collectPremium h₂
    have hseq : s₂.sequence = s.sequence := hf₂.sequence.trans hf₁.sequence
    have hsame : ∀ kd, [Kind.calcVersion, .assetLedger, .cash].contains kd = false →
        SameKind kd s s₂ :=
      fun kd hkd => ((hf₁.mono (by simp)).trans (hf₂.mono (by simp))).sameKind hkd
    have hmeter : MeterStep s s' (⟨a.holder, a.policyId, s.sequence⟩ :: g) a.holder a.policyId
        ⟨windowBucketStart s.sequence s.getRollingClaimWindowLedgers, 0⟩ := by
      refine ⟨?_, hcalm.config, hcalm.sequence, rfl, le_refl 0, ?_, ?_, ?_⟩
      · exact (rolling_renewRecord (hsame .rolling rfl) (hsame .rollingConfig rfl) hseq).trans
          (hlast.sameKind rfl)
      · intro hzero
        rw [getClaimCounter_of_same hcalm.counter] at hzero
        exact ⟨hzero, rfl⟩
      · intro hun
        exact absurd (inBucket_self hw) (hun _ List.mem_cons_self rfl rfl)
      · intro b id _ k
        exact hcalm.paidInBucket b id k
    rw [hnote]
    refine ⟨hcalm.timely hs, ?_, hcalm.bounded hs, hmeter.positive hs, hmeter.unused_total hs,
      hmeter.tracks hw hsub hs, ?_⟩
    · rw [getClaimCounter_of_same hcalm.counter]
      exact hs.counter
    · intro b id k hk
      rw [hcalm.config.window] at hk
      rw [hcalm.config.cap]
      exact le_trans (hcalm.counted hs b id k)
        (hs.counted b id k fun r hr => hk r (hsub r hr))

/-- The accumulator of an unrenewed policy is what was paid in the present window. -/
theorem CapInv.cumulativePaid_eq (hs : CapInv s g) (hw : 0 < s.getRollingClaimWindowLedgers)
    {holder : Address} {policyId : Nat} (hun : Unrenewed g holder policyId
      s.getRollingClaimWindowLedgers (s.sequence / s.getRollingClaimWindowLedgers)) :
    s.cumulativePaid holder policyId =
      s.paidInBucket holder policyId (s.sequence / s.getRollingClaimWindowLedgers) := by
  rw [cumulativePaid_eq_reading hw]
  exact (hs.tracks holder policyId).reads hun

theorem CapInv.cumulativePaid_nonneg (hs : CapInv s g) (hw : 0 < s.getRollingClaimWindowLedgers)
    (holder : Address) (policyId : Nat) : 0 ≤ s.cumulativePaid holder policyId := by
  rw [cumulativePaid_eq_reading hw]
  cases hm : s.meter holder policyId with
  | none => exact le_refl 0
  | some m =>
    unfold reading
    dsimp only
    split
    · exact hs.positive holder policyId m hm
    · exact le_refl 0

/-- What counts in the window is paid in it, or was filed in it and is pending. -/
theorem countedInBucket_le (hs : CapInv s g) (holder : Address) (policyId k : Nat) :
    s.countedInBucket holder policyId k ≤
      s.paidInBucket holder policyId k + s.pendingInBucket holder policyId k := by
  unfold State.countedInBucket State.paidInBucket State.pendingInBucket
  rw [← claimSum_add]
  refine claimSum_mono fun id c hc => ?_
  have hpos := (hs.timely id c hc).amount
  have hnonneg : ∀ P, 0 ≤ c.amountIf holder policyId P := fun P => Claim.amountIf_nonneg hpos
  by_cases hpaid : c.paidIn s.getRollingClaimWindowLedgers k = true
  · refine le_trans ?_ (le_add_of_nonneg_right (hnonneg _))
    exact Claim.amountIf_le (.refl c) hpos fun _ => hpaid
  · refine le_trans ?_ (le_add_of_nonneg_left (hnonneg _))
    refine Claim.amountIf_le (.refl c) hpos fun hcount => ?_
    simpa [hpaid] using hcount

/-- A claim of `amount` on the policy that was filed at `now` and not decided yet. -/
structure Claim.FiledNow (claim : Claim) (holder : Address) (policyId : Nat) (amount : Int)
    (now : Nat) : Prop where
  claimant : claim.claimant = holder
  policyId : claim.policyId = policyId
  amount : claim.amount = amount
  filedAt : claim.filedAt = now
  paidAt : claim.paidAt = none

section Filing

variable {holder : Address} {policyId : Nat} {amount : Int} {claim : Claim}

theorem paidInBucket_of_filed (hnew : claim.FiledNow holder policyId amount s.sequence)
    (hnone : s.getClaim claim.claimId = none) (hrec : SameKind .claim (s.setClaim claim) s')
    (hconfig : SameCap s s') (a : Address) (id k : Nat) :
    s'.paidInBucket a id k = s.paidInBucket a id k := by
  have hzero : claim.amountIf a id (fun c => c.paidIn s.getRollingClaimWindowLedgers k) = 0 := by
    refine if_neg ?_
    rintro ⟨-, -, hin⟩
    simp [Claim.paidIn, hnew.paidAt] at hin
  unfold State.paidInBucket
  rw [hconfig.window, claimSum_of_file hnone hrec, hzero, zero_add]

theorem countedInBucket_of_filed (hnew : claim.FiledNow holder policyId amount s.sequence)
    (hnone : s.getClaim claim.claimId = none) (hrec : SameKind .claim (s.setClaim claim) s')
    (hconfig : SameCap s s') (hw : 0 < s.getRollingClaimWindowLedgers)
    (hroom : s.cumulativePaid holder policyId +
      s.pendingInBucket holder policyId (s.sequence / s.getRollingClaimWindowLedgers) + amount ≤
        s.getRollingClaimCap) (hs : CapInv s g) (a : Address) (id k : Nat)
    (hun : Unrenewed g a id s'.getRollingClaimWindowLedgers k) :
    s'.countedInBucket a id k ≤ s'.getRollingClaimCap := by
  have hwindow := hconfig.window
  have hsplit : s'.countedInBucket a id k = claim.amountIf a id (fun c =>
      c.filedIn s.getRollingClaimWindowLedgers k &&
        (c.paidIn s.getRollingClaimWindowLedgers k || c.isPending)) + s.countedInBucket a id k := by
    unfold State.countedInBucket
    rw [hwindow]
    exact claimSum_of_file hnone hrec _
  rw [hwindow] at hun
  rw [hconfig.cap, hsplit]
  have hold := hs.counted a id k hun
  unfold Claim.amountIf
  split
  · rename_i hon
    obtain ⟨ha, hid, hin⟩ := hon
    rw [hnew.claimant] at ha
    rw [hnew.policyId] at hid
    subst ha hid
    -- the window is the present one, in which the accumulator is what was paid
    have hpresent : s.sequence / s.getRollingClaimWindowLedgers = k := by
      simp only [Bool.and_eq_true, Claim.filedIn, decide_eq_true_eq, hnew.filedAt] at hin
      exact (inBucket_iff hw).mp hin.1
    subst hpresent
    have hcum := hs.cumulativePaid_eq hw hun
    have hparts := countedInBucket_le hs holder policyId
      (s.sequence / s.getRollingClaimWindowLedgers)
    have hamount := hnew.amount
    omega
  · omega

theorem capInv_of_fileClaim {claimId : Nat} {details : Str} {evidence : List ClaimEvidenceEntry}
    {expectedNonce : Option Nat}
    (h : fileClaim env s holder policyId amount details evidence expectedNonce = .ok (claimId, s'))
    (hk : s.ClaimsKeyed) (hconf : s.RollingConfigured) (hcap : s.getRollingClaimCap ≠ I128_MAX)
    (hroom : 0 < s.pendingInBucket holder policyId (s.sequence / s.getRollingClaimWindowLedgers) →
      s.cumulativePaid holder policyId +
        s.pendingInBucket holder policyId (s.sequence / s.getRollingClaimWindowLedgers) + amount ≤
          s.getRollingClaimCap) (hs : CapInv s g) : CapInv s' g := by
  have hf := frame_fileClaim h
  have hw := hconf.window
  have hconfig : SameCap s s' := .of_same (hf.sameKind rfl)
  obtain ⟨policy, voters, deadline, -, -, -, hid, -, -, hrec, -, -, hcounter⟩ := fileClaim_eq_ok h
  obtain ⟨hpos, hmax, hle, hroll⟩ := fileClaim_meter h hcap
  -- without pending claims the check of the call leaves the room
  have hfits : s.cumulativePaid holder policyId +
      s.pendingInBucket holder policyId (s.sequence / s.getRollingClaimWindowLedgers) + amount ≤
        s.getRollingClaimCap := by
    by_cases hpending :
        0 < s.pendingInBucket holder policyId (s.sequence / s.getRollingClaimWindowLedgers)
    · exact hroom hpending
    · omega
  have hcount : s'.getClaimCounter = s.getClaimCounter + 1 := by
    rw [getClaimCounter_of_same hcounter, hid]
    simp [State.getClaimCounter]
  have hnone : s.getClaim claimId = none := hk.unfiled (by omega)
  have hnew : (newClaim claimId policyId holder amount (policy.deductible.getD 0) policy.asset
      details evidence deadline s.sequence voters.length).FiledNow holder policyId amount
        s.sequence := ⟨rfl, rfl, rfl, rfl, rfl⟩
  have hpaid := paidInBucket_of_filed hnew hnone hrec hconfig
  have hmeter : MeterStep s s' g holder policyId
      (s.syncStateToLedger holder policyId s.sequence) := by
    refine ⟨hroll, hconfig, hf.sequence, syncStateToLedger_start _,
      hs.cumulativePaid_nonneg hw holder policyId, ?_, ?_, ?_⟩
    · intro hzero
      omega
    · intro hun
      rw [hpaid]
      exact hs.cumulativePaid_eq hw hun
    · intro a id _ k
      exact hpaid a id k
  refine ⟨?_, ?_, ?_, hmeter.positive hs, hmeter.unused_total hs,
    hmeter.tracks hw (fun r hr => hr) hs, countedInBucket_of_filed hnew hnone hrec
    hconfig hw hfits hs⟩
  · intro id c hc
    rw [hf.sequence]
    rw [getClaim_of_write hrec] at hc
    split at hc
    · rename_i heq
      cases hc
      have hclaimId : id = claimId := heq
      exact ⟨by omega, hpos, le_refl _, nofun⟩
    · exact hs.timely id c hc
  · omega
  · have hfit : amount ≤ MAX_ROLLING_CLAIM_CAP := by
      have hfin := hconf.finite.resolve_left hcap
      have hnonneg := hs.cumulativePaid_nonneg hw holder policyId
      omega
    have hbound := hs.bounded
    rw [claimSum_of_file hnone hrec, hcount]
    push_cast
    rw [Int.mul_add, Int.mul_one, Int.add_comm]
    exact Int.add_le_add hbound hfit

end Filing

theorem paidInBucket_le {now : Nat}
    (htimely : ∀ id claim, s.getClaim id = some claim → claim.Timely id now)
    (hcounter : s.getClaimCounter ≤ U64_MAX)
    (hbounded : s.claimSum (fun c => c.amount) ≤ MAX_ROLLING_CLAIM_CAP * s.getClaimCounter)
    (holder : Address) (policyId k : Nat) : s.paidInBucket holder policyId k ≤ I128_MAX := by
  have hsum : s.paidInBucket holder policyId k ≤ s.claimSum fun c => c.amount := by
    refine claimSum_mono fun id c hc => ?_
    unfold Claim.amountIf
    split
    · exact le_refl _
    · exact (htimely id c hc).amount.le
  have hcount : (s.getClaimCounter : Int) ≤ U64_MAX := by exact_mod_cast hcounter
  calc s.paidInBucket holder policyId k ≤ s.claimSum fun c => c.amount := hsum
    _ ≤ MAX_ROLLING_CLAIM_CAP * s.getClaimCounter := hbounded
    _ ≤ MAX_ROLLING_CLAIM_CAP * U64_MAX := Int.mul_le_mul_of_nonneg_left hcount (by decide)
    _ ≤ I128_MAX := by decide

/-- The pending claim `claim` is paid in full at `now`. -/
structure Claim.PaidNow (claim claim' : Claim) (now : Nat) : Prop where
  terms : claim.SameTerms claim'
  filedAt : claim'.filedAt = claim.filedAt
  pending : claim.isPending = true
  unpaid : claim.paidAt = none
  paidAt : claim'.paidAt = some now

theorem paidNow_of_lastInstallment {claim : Claim} (hst : claim.status = .approved) (amount : Int)
    (now : Nat) : claim.PaidNow ((claim.paidInstallment amount).moveTo .paid now) now where
  terms := ⟨rfl, rfl, rfl, rfl, rfl⟩
  filedAt := rfl
  pending := by
    unfold Claim.isPending
    rw [hst]
    decide
  unpaid := by
    unfold Claim.paidAt
    rw [hst]
    rfl
  paidAt := paidAt_moveTo_paid _ _

section Paying

variable {claim claim' : Claim}

/-- What was paid on the policy in the present window grows by the amount, and nothing else does. -/
theorem paidInBucket_of_paid (hpay : claim.PaidNow claim' s.sequence)
    (hold : s.getClaim claim'.claimId = some claim) (hrec : SameKind .claim (s.setClaim claim') s')
    (hconfig : SameCap s s') (a : Address) (id k : Nat) :
    s'.paidInBucket a id k = s.paidInBucket a id k +
      if claim.claimant = a ∧ claim.policyId = id ∧
        InBucket s.getRollingClaimWindowLedgers k s.sequence then claim.amount else 0 := by
  have hzero : claim.amountIf a id (fun c => c.paidIn s.getRollingClaimWindowLedgers k) = 0 := by
    refine if_neg ?_
    rintro ⟨-, -, hin⟩
    simp [Claim.paidIn, hpay.unpaid] at hin
  have hnew : claim'.amountIf a id (fun c => c.paidIn s.getRollingClaimWindowLedgers k) =
      if claim.claimant = a ∧ claim.policyId = id ∧
        InBucket s.getRollingClaimWindowLedgers k s.sequence then claim.amount else 0 := by
    simp only [Claim.amountIf, Claim.paidIn, hpay.paidAt, hpay.terms.claimant, hpay.terms.policyId,
      hpay.terms.amount, Option.any_some, decide_eq_true_eq]
  have hexchange := claimSum_of_write hold hrec
    (Claim.amountIf a id fun c => c.paidIn s.getRollingClaimWindowLedgers k)
  rw [hzero, zero_add, hnew] at hexchange
  unfold State.paidInBucket
  rw [hconfig.window, hexchange, Int.add_comm]

theorem countedInBucket_of_paid (hpay : claim.PaidNow claim' s.sequence)
    (hpos : 0 < claim.amount) (hold : s.getClaim claim'.claimId = some claim)
    (hrec : SameKind .claim (s.setClaim claim') s') (hconfig : SameCap s s')
    (a : Address) (id k : Nat) : s'.countedInBucket a id k ≤ s.countedInBucket a id k := by
  have hle : claim'.amountIf a id (fun c => c.filedIn s.getRollingClaimWindowLedgers k &&
        (c.paidIn s.getRollingClaimWindowLedgers k || c.isPending)) ≤
      claim.amountIf a id (fun c => c.filedIn s.getRollingClaimWindowLedgers k &&
        (c.paidIn s.getRollingClaimWindowLedgers k || c.isPending)) := by
    refine Claim.amountIf_le hpay.terms hpos ?_
    simp only [Bool.and_eq_true, Bool.or_eq_true, Claim.filedIn, hpay.filedAt]
    exact fun hin => ⟨hin.1, .inr hpay.pending⟩
  have hexchange := claimSum_of_write hold hrec (Claim.amountIf a id fun c =>
    c.filedIn s.getRollingClaimWindowLedgers k &&
      (c.paidIn s.getRollingClaimWindowLedgers k || c.isPending))
  unfold State.countedInBucket
  rw [hconfig.window]
  omega

theorem Claim.Timely.of_paidNow {id : Nat} (hc : claim.Timely id s.sequence)
    (hpay : claim.PaidNow claim' s.sequence) : claim'.Timely id s.sequence where
  id := hc.id
  amount := by
    rw [hpay.terms.amount]
    exact hc.amount
  filed := by
    rw [hpay.filedAt]
    exact hc.filed
  paid n hn := by
    rw [hpay.paidAt] at hn
    cases hn
    exact le_refl _

/-- The amount is added to the accumulator, which does not saturate. -/
theorem meterStep_of_paid (hk : s.ClaimsKeyed) (hw : 0 < s.getRollingClaimWindowLedgers)
    (hpay : claim.PaidNow claim' s.sequence) (hold : s.getClaim claim'.claimId = some claim)
    (hrec : SameKind .claim (s.setClaim claim') s')
    (hroll : SameKind .rolling
      (s.recordClaimPaid claim.claimant claim.policyId claim.amount s.sequence) s')
    (hconfig : SameCap s s') (hcounter : SameKind .claimCounter s s')
    (hseq : s'.sequence = s.sequence) (hs : CapInv s g)
    (hfit : ∀ k, s'.paidInBucket claim.claimant claim.policyId k ≤ I128_MAX) :
    MeterStep s s' g claim.claimant claim.policyId
      { s.syncStateToLedger claim.claimant claim.policyId s.sequence with
        cumulativePaid :=
          saturatingAdd128 (s.cumulativePaid claim.claimant claim.policyId) claim.amount } := by
  have hcount := getClaimCounter_of_same hcounter
  have hpaid := paidInBucket_of_paid hpay hold hrec hconfig
  have hnonneg := hs.cumulativePaid_nonneg hw claim.claimant claim.policyId
  have hpos := (hs.timely _ claim hold).amount
  refine ⟨hroll, hconfig, hseq, syncStateToLedger_start _, ?_, ?_, ?_, ?_⟩
  · simp only [saturatingAdd128, clamp128, I128_MAX, I128_MIN]
    omega
  · intro hzero
    have hbound := (hk _ claim hold).2
    have hid := (hs.timely _ claim hold).id
    omega
  · intro hun
    have hpresent := hpaid claim.claimant claim.policyId
      (s.sequence / s.getRollingClaimWindowLedgers)
    rw [if_pos ⟨rfl, rfl, inBucket_self hw⟩, ← hs.cumulativePaid_eq hw hun] at hpresent
    have hsum := hfit (s.sequence / s.getRollingClaimWindowLedgers)
    rw [hpresent] at hsum ⊢
    simp only [saturatingAdd128, clamp128, I128_MAX, I128_MIN] at hsum ⊢
    omega
  · intro a id hne k
    rw [hpaid, if_neg, Int.add_zero]
    rintro ⟨rfl, rfl, -⟩
    exact hne ⟨rfl, rfl⟩

/-- The last installment of a claim without a deductible moves its amount from the pending claims to
the paid ones, and records it. -/
theorem capInv_of_lastInstallment (hk : s.ClaimsKeyed) (hw : 0 < s.getRollingClaimWindowLedgers)
    (hpay : claim.PaidNow claim' s.sequence) (hold : s.getClaim claim'.claimId = some claim)
    (hrec : SameKind .claim (s.setClaim claim') s')
    (hroll : SameKind .rolling
      (s.recordClaimPaid claim.claimant claim.policyId claim.amount s.sequence) s')
    (hconfig : SameCap s s') (hcounter : SameKind .claimCounter s s')
    (hseq : s'.sequence = s.sequence) (hs : CapInv s g) : CapInv s' g := by
  have hcount := getClaimCounter_of_same hcounter
  have htimely := hs.timely _ claim hold
  have htime : ∀ id c, s'.getClaim id = some c → c.Timely id s'.sequence := by
    intro id c hc
    rw [hseq]
    rw [getClaim_of_write hrec] at hc
    split at hc
    · rename_i heq
      subst heq
      cases hc
      exact htimely.of_paidNow hpay
    · exact hs.timely id c hc
  have hbounded : s'.claimSum (fun c => c.amount) ≤ MAX_ROLLING_CLAIM_CAP * s'.getClaimCounter := by
    have hexchange := claimSum_of_write hold hrec fun c => c.amount
    have hsame := hpay.terms.amount
    have hle := hs.bounded
    rw [hcount]
    omega
  have hsmall : s'.getClaimCounter ≤ U64_MAX := by
    rw [hcount]
    exact hs.counter
  have hmeter := meterStep_of_paid hk hw hpay hold hrec hroll hconfig hcounter hseq hs
    (paidInBucket_le htime hsmall hbounded claim.claimant claim.policyId)
  refine ⟨htime, hsmall, hbounded, hmeter.positive hs, hmeter.unused_total hs,
    hmeter.tracks hw (fun r hr => hr) hs, ?_⟩
  intro a id k hun
  rw [hconfig.window] at hun
  rw [hconfig.cap]
  exact le_trans (countedInBucket_of_paid hpay htimely.amount hold hrec hconfig a id k)
    (hs.counted a id k hun)

end Paying

theorem capInv_of_disburseInstallment {claimId : Nat} {amount : Int}
    (h : disburseInstallment env s claimId amount = .ok s') (hk : s.ClaimsKeyed)
    (hw : 0 < s.getRollingClaimWindowLedgers)
    (hok : KeepsCap s (.call env (.claim (.disburseInstallment claimId amount))))
    (hs : CapInv s g) : CapInv s' g := by
  have hf := frame_disburseInstallment h
  obtain ⟨claim, p, hclaim, hst, hpos, hle, -, -, -, hdone, hmore⟩ := disburseInstallment_eq_ok h
  obtain ⟨hlast, hsame⟩ := disburseInstallment_meter h hclaim
  have hkey := (hk claimId claim hclaim).1
  by_cases hcomp : claim.Completes amount
  · have hroll := hlast hcomp
    rw [hok claim hclaim hcomp, Int.sub_zero] at hroll
    refine capInv_of_lastInstallment hk hw (paidNow_of_lastInstallment hst amount s.sequence) ?_
      (hdone hcomp).1 hroll (.of_same (hf.sameKind rfl)) (hf.sameKind rfl) hf.sequence hs
    change s.getClaim claim.claimId = some claim
    rw [hkey, hclaim]
  · have hrec := (hmore hcomp).1
    have hcalm : claim.Calm (claim.paidInstallment amount) :=
      ⟨⟨rfl, rfl, rfl, rfl, rfl⟩, rfl, rfl, fun h => h⟩
    refine CalmStep.capInv ⟨?_, ?_, .of_same (hf.sameKind rfl), hf.sameKind rfl, hf.sequence⟩
      (hsame hcomp) hs
    · exact .of_edit hk hclaim (.installment amount hst hpos hle) hrec
    · intro id c c' hc hc'
      rw [getClaim_of_write hrec] at hc'
      split at hc'
      · rename_i heq
        have hid : id = claimId := heq.trans hkey
        subst hid
        rw [hclaim] at hc
        cases hc
        cases hc'
        exact hcalm
      · rw [hc] at hc'
        cases hc'
        exact .refl c

theorem capInv_of_noClaims (hnone : ∀ id, s.getClaim id = none) (hzero : s.getClaimCounter = 0)
    (hcap : 0 ≤ s.getRollingClaimCap)
    (hstart : ∀ holder policyId m, s.meter holder policyId = some m → m.start ≤ s.sequence)
    (htotal : ∀ holder policyId m, s.meter holder policyId = some m → m.total = 0) :
    CapInv s g := by
  have hsum : ∀ f, s.claimSum f = 0 := by
    intro f
    refine claimSum_eq_zero fun id claim hget => ?_
    rw [hnone id] at hget
    cases hget
  refine ⟨?_, ?_, ?_, ?_, fun _ => htotal, ?_, ?_⟩
  · intro id claim hget
    rw [hnone id] at hget
    cases hget
  · rw [hzero]
    exact Nat.zero_le _
  · rw [hsum, hzero]
    decide
  · intro holder policyId m hm
    exact (htotal holder policyId m hm).ge
  · intro holder policyId
    exact .idle (hstart holder policyId) (htotal holder policyId) fun _ => hsum _
  · intro holder policyId k _
    have hcount : s.countedInBucket holder policyId k = 0 := hsum _
    rw [hcount]
    exact hcap

/-- As long as no claim is filed the cap and the window may change. -/
theorem capInv_of_unused (hk : s.ClaimsKeyed) (hzero : s.getClaimCounter = 0)
    (hconf : s'.RollingConfigured) (hclaim : SameKind .claim s s')
    (hcounter : SameKind .claimCounter s s') (hroll : SameKind .rolling s s')
    (hseq : s'.sequence = s.sequence) (hs : CapInv s g) : CapInv s' g := by
  refine capInv_of_noClaims ?_ ?_ hconf.nonneg ?_ ?_
  · intro id
    rw [getClaim_of_same hclaim]
    cases hget : s.getClaim id with
    | none => rfl
    | some claim =>
      have hbound := (hk id claim hget).2
      have hid := (hs.timely id claim hget).id
      omega
  · rw [getClaimCounter_of_same hcounter, hzero]
  · intro holder policyId m hm
    rw [meter_of_same hroll] at hm
    rw [hseq]
    exact (hs.tracks holder policyId).started m hm
  · intro holder policyId m hm
    rw [meter_of_same hroll] at hm
    exact hs.unused hzero holder policyId m hm

theorem capInv_of_claimCall {c : ClaimCall} (h : c.exec env s = .ok s') (hk : s.ClaimsKeyed)
    (hlive : s.ClaimsLive) (hconf : s.RollingConfigured)
    (hfixed : CapFixed s (.call env (.claim c))) (hok : KeepsCap s (.call env (.claim c)))
    (hs : CapInv s g) : CapInv s' g := by
  have hf := frame_claimCall h
  have hran := ran_of_exec h
  have hcalm : c.files = false → c.pays = false → SameKind .rolling s s' → CapInv s' g := by
    intro hfiles hpays hroll
    obtain ⟨hedited, hcalm⟩ := calm_of_claimCall h hk hlive hfiles hpays hok
    refine CalmStep.capInv ⟨hedited, hcalm, .of_same (hf.sameKind (c.untouched rfl)), ?_,
      hf.sequence⟩ hroll hs
    cases c with
    | fileClaim => cases hfiles
    | _ => exact hf.sameKind rfl
  cases c with
  | fileClaim =>
    obtain ⟨claimId, hran⟩ := hran
    exact capInv_of_fileClaim hran hk hconf hfixed hok hs
  | processClaim => exact hok.elim
  | disburseInstallment => exact capInv_of_disburseInstallment hran hk hconf.window hok hs
  | _ => exact hcalm rfl rfl (hf.sameKind rfl)

theorem capInv_of_setting {c : Setting} (h : c.exec env s = .ok s') (hk : s.ClaimsKeyed)
    (hconf : s.RollingConfigured) (hfixed : CapFixed s (.call env (.setting c)))
    (hs : CapInv s g) : CapInv s' g := by
  have hf := frame_settingOf h
  have hconf' := rollingConfigured_of_setting h hconf
  cases c with
  | setRollingClaimCap cap =>
    rcases hfixed with hzero | rfl
    · exact capInv_of_unused hk hzero hconf' (hf.sameKind rfl) (hf.sameKind rfl) (hf.sameKind rfl)
        hf.sequence hs
    · obtain ⟨-, hsame⟩ := setRollingClaimCap_eq_ok h
      exact (CalmStep.of_sameCap hf rfl rfl ⟨hsame.1, hsame.2⟩).capInv (hf.sameKind rfl) hs
  | setRollingClaimWindowLedgers w =>
    rcases hfixed with hzero | rfl
    · exact capInv_of_unused hk hzero hconf' (hf.sameKind rfl) (hf.sameKind rfl) (hf.sameKind rfl)
        hf.sequence hs
    · obtain ⟨-, hsame⟩ := setRollingClaimWindowLedgers_eq_ok h
      exact (CalmStep.of_sameCap hf rfl rfl ⟨hsame.1, hsame.2⟩).capInv (hf.sameKind rfl) hs
  | _ => exact (CalmStep.of_frame hf rfl rfl rfl).capInv (hf.sameKind rfl) hs

theorem capInv_of_policyCall {c : PolicyCall} (h : c.exec env s = .ok s')
    (hw : 0 < s.getRollingClaimWindowLedgers) (hs : CapInv s g) :
    CapInv s' (noteRenewal s (.call env (.policy c)) g) := by
  have hf := frame_policyCall h
  have hran := policyRan_of_exec h
  cases c with
  | renewPolicy =>
    obtain ⟨o, hran⟩ := hran
    exact capInv_of_renewPolicy hran hw hs
  | _ => exact (CalmStep.of_frame hf rfl rfl rfl).capInv (hf.sameKind rfl) hs

theorem capInv_of_step {host : Host} {l : Label} (hstep : (contract host).step s l s')
    (hk : s.ClaimsKeyed) (hlive : s.ClaimsLive) (hconf : s.RollingConfigured)
    (hfixed : CapFixed s l) (hok : KeepsCap s l) (hs : CapInv s g) :
    CapInv s' (noteRenewal s l g) := by
  cases l with
  | closeLedger n =>
    obtain ⟨hle, -, rfl⟩ := hstep
    exact capInv_of_closeLedger hconf.window hle hs
  | tokens b a =>
    obtain ⟨-, rfl⟩ := hstep
    exact ⟨hs.timely, hs.counter, hs.bounded, hs.positive, hs.unused, hs.tracks, hs.counted⟩
  | call env c =>
    obtain ⟨-, h⟩ := hstep
    cases c with
    | claim c => exact capInv_of_claimCall h hk hlive hconf hfixed hok hs
    | policy c => exact capInv_of_policyCall h hconf.window hs
    | setting c => exact capInv_of_setting h hk hconf hfixed hs
    | treasury c =>
      have hf := frame_treasuryCall h
      refine (CalmStep.of_frame hf ?_ ?_ ?_).capInv (hf.sameKind (c.untouched rfl)) hs
      · cases c <;> rfl
      · cases c <;> rfl
      · cases c <;> rfl
    | governance c =>
      have hf := frame_governanceCall h
      refine (CalmStep.of_frame hf ?_ ?_ ?_).capInv (hf.sameKind (c.untouched rfl)) hs
      · cases c <;> rfl
      · cases c <;> rfl
      · cases c <;> rfl

end Steps

/-! ## Runs -/

theorem capInv_of_fresh {host : Host} {s : State} (hs : s.Fresh host) : CapInv s [] := by
  have hget := State.Fresh.get host hs
  have hmeter : ∀ holder policyId, s.meter holder policyId = none := by
    intro holder policyId
    rw [State.meter, hget]
    rfl
  refine capInv_of_noClaims (fun id => hget _) ?_ ?_ ?_ ?_
  · rw [State.getClaimCounter, hget]
    rfl
  · rw [State.getRollingClaimCap, hget]
    decide
  · intro holder policyId m hm
    rw [hmeter] at hm
    cases hm
  · intro holder policyId m hm
    rw [hmeter] at hm
    cases hm

theorem reach_of_renewing {host : Host} {p : State × List Renewal}
    (h : (renewing host).Reach (fun p l => CapFixed p.1 l ∧ KeepsCap p.1 l) p) :
    (contract host).Reach always p.1 := by
  have hall : ((contract host).withHistory [] noteRenewal).Reach (fun p l => always p.1 l) p :=
    h.mono fun _ _ _ => trivial
  exact hall.forget

theorem capInv_of_reach {host : Host} {p : State × List Renewal}
    (h : (renewing host).Reach (fun p l => CapFixed p.1 l ∧ KeepsCap p.1 l) p) :
    CapInv p.1 p.2 := by
  refine h.invariant_with
    (J := fun p => p.1.ClaimsKeyed ∧ p.1.ClaimsLive ∧ p.1.RollingConfigured)
    (I := fun p => CapInv p.1 p.2) ?_ ?_ ?_
  · intro q hq
    have hreach := reach_of_renewing hq
    exact ⟨claimsKeyed_of_reach hreach, live_of_reach hreach, rollingConfigured_of_reach hreach⟩
  · rintro ⟨s, g⟩ ⟨hs, rfl⟩
    exact capInv_of_fresh hs
  · rintro ⟨s, g⟩ l ⟨s', g'⟩ ⟨hk, hlive, hconf⟩ ⟨hfixed, hok⟩ ⟨hstep, rfl⟩ hs
    exact capInv_of_step hstep hk hlive hconf hfixed hok hs

/-- **The cap holds in every run with a fixed finite cap** whose steps meet the condition: what is
filed and paid in a window without a renewal is within it, and the accumulator is what was paid. -/
theorem cap_holds_of_reach {host : Host} {s : State} {g : List Renewal}
    (h : (renewing host).Reach (fun p l => CapFixed p.1 l ∧ KeepsCap p.1 l) (s, g)) :
    CapHolds s g := by
  have hs : CapInv s g := capInv_of_reach h
  have hw : 0 < s.getRollingClaimWindowLedgers :=
    (rollingConfigured_of_reach (reach_of_renewing h)).window
  constructor
  · intro holder policyId k hun
    refine le_trans (claimSum_mono fun id c hc => ?_) (hs.counted holder policyId k hun)
    refine Claim.amountIf_le (.refl c) (hs.timely id c hc).amount ?_
    simp only [Bool.and_eq_true, Bool.or_eq_true]
    exact fun hin => ⟨hin.1, .inl hin.2⟩
  · intro holder policyId k hun hin
    have hk : s.sequence / s.getRollingClaimWindowLedgers = k := (inBucket_iff hw).mp hin
    subst hk
    exact hs.cumulativePaid_eq hw hun

/-! ## Runs of the deployment -/

/-- The check of a run in which the cap is set before the first claim. -/
def checkCapFixed (s : State) : Label → Bool
  | .call _ (.setting (.initializeContract ..)) => true
  | .call _ (.setting (.setRollingClaimCap _)) => decide (s.getClaimCounter = 0)
  | .call _ (.policy (.initiatePolicy _)) => true
  | .call _ (.claim (.fileClaim ..)) => decide (s.getRollingClaimCap ≠ I128_MAX)
  | .call _ (.claim (.voteOnClaim ..)) => true
  | .call _ (.claim (.processClaim _)) => true
  | .call _ (.claim (.disburseInstallment ..)) => true
  | .closeLedger _ => true
  | _ => false

theorem capFixed_of_check (s : State) (l : Label) (h : checkCapFixed s l = true) :
    CapFixed s l := by
  unfold checkCapFixed at h
  split at h
  case h_2 => exact .inl (of_decide_eq_true h)
  case h_4 =>
    rw [decide_eq_true_eq] at h
    exact h
  case h_9 => cases h
  all_goals trivial

/-- The check of one that keeps it, too. -/
def checkKeepsCap (s : State) (l : Label) : Bool :=
  checkCapFixed s l && match l with
    | .call _ (.setting (.initializeContract ..)) => true
    | .call _ (.setting (.setRollingClaimCap _)) => true
    | .call _ (.policy (.initiatePolicy _)) => true
    | .call _ (.claim (.fileClaim holder policyId amount _ _ _)) =>
      decide (0 < s.pendingInBucket holder policyId
          (s.sequence / s.getRollingClaimWindowLedgers) →
        s.cumulativePaid holder policyId +
          s.pendingInBucket holder policyId (s.sequence / s.getRollingClaimWindowLedgers) +
            amount ≤ s.getRollingClaimCap)
    | .call _ (.claim (.voteOnClaim _ claimId _)) =>
      (s.getClaim claimId).all fun claim => claim.status != .underAppeal
    | .call _ (.claim (.disburseInstallment claimId _)) =>
      (s.getClaim claimId).all fun claim => claim.deductible == 0
    | .closeLedger _ => true
    | _ => false

theorem keepsCap_of_check (s : State) (l : Label) (h : checkKeepsCap s l = true) :
    CapFixed s l ∧ KeepsCap s l := by
  unfold checkKeepsCap at h
  rw [Bool.and_eq_true] at h
  obtain ⟨hfixed, hkeeps⟩ := h
  refine ⟨capFixed_of_check s l hfixed, ?_⟩
  split at hkeeps
  case h_4 =>
    rw [decide_eq_true_eq] at hkeeps
    exact hkeeps
  case h_5 =>
    intro claim w hclaim _ _
    simpa [hclaim] using hkeeps
  case h_6 =>
    intro claim hclaim _
    simpa [hclaim] using hkeeps
  case h_8 => cases hkeeps
  all_goals trivial

theorem unrenewed_nil (holder : Address) (policyId w k : Nat) :
    Unrenewed [] holder policyId w k := by
  intro r hr
  exact absurd hr List.not_mem_nil

/-- Under a cap, account 1 files a claim of 1000 and account 2 approves it. -/
def cappedTrace (cap : Int) : List Label :=
  demoSetup ++ [demoCall (.setting (.setRollingClaimCap cap)), demoFile 1 1 1000,
    demoCall (.claim (.voteOnClaim 2 1 .approve))]

/-- A claim under the cap is paid, and recorded once. -/
theorem cap_holds_demo :
    ∃ s, (renewing demoHost).Reach (fun p l => CapFixed p.1 l ∧ KeepsCap p.1 l) (s, []) ∧
      s.filedAndPaidInBucket 1 1 0 = 1000 ∧ s.getRollingClaimCap = 1500 ∧
      s.cumulativePaid 1 1 = s.paidInBucket 1 1 0 := by
  obtain ⟨⟨s, g⟩, hreach, hval⟩ := exists_of_followWith noteRenewal []
    keepsCap_of_check (deployed 5000)
    (cappedTrace 1500 ++ [demoCall (.claim (.disburseInstallment 1 1000))])
    (f := fun p => (p.1.filedAndPaidInBucket 1 1 0, p.1.getRollingClaimCap, p.2.length,
      p.1.getRollingClaimWindowLedgers, p.1.sequence))
    (a := (1000, 1500, 0, 1000000, 1000)) (fresh_deployed (by decide))
    (by simp [cappedTrace, demoSetup, demoInit, demoBind, demoFile]) (by decide +kernel)
  simp only [Prod.mk.injEq, List.length_eq_zero_iff] at hval
  obtain ⟨hpaid, hcap, rfl, hw, hseq⟩ := hval
  refine ⟨s, hreach, hpaid, hcap, (cap_holds_of_reach hreach).recorded 1 1 0
    (unrenewed_nil _ _ _ _) ?_⟩
  rw [hw, hseq]
  decide

/-- Two claims pass the check, as the first is approved and not paid when the second is filed. -/
def overlappingTrace : List Label :=
  cappedTrace 1500 ++ [.closeLedger 20000, demoFile 1 1 1000,
    demoCall (.claim (.voteOnClaim 2 2 .approve)),
    demoCall (.claim (.disburseInstallment 1 1000)),
    demoCall (.claim (.disburseInstallment 2 1000))]

/-- **The cap fails under a fixed finite cap.**  Two claims of 1000 are filed and paid in one window
under a cap of 1500; and `process_claim` records its one claim of 1000 as 2000. -/
theorem cap_exceeded :
    (∃ s, (renewing demoHost).Reach (fun p l => CapFixed p.1 l) (s, []) ∧
      s.getRollingClaimCap = 1500 ∧ s.filedAndPaidInBucket 1 1 0 = 2000 ∧ ¬ CapHolds s []) ∧
    ∃ s, (renewing demoHost).Reach (fun p l => CapFixed p.1 l) (s, []) ∧
      s.cumulativePaid 1 1 = 2000 ∧ s.paidInBucket 1 1 0 = 1000 ∧ ¬ CapHolds s [] := by
  constructor
  · obtain ⟨⟨s, g⟩, hreach, hval⟩ := exists_of_followWith noteRenewal []
      capFixed_of_check (deployed 5000) overlappingTrace
      (f := fun p => (p.1.filedAndPaidInBucket 1 1 0, p.1.getRollingClaimCap, p.2.length))
      (a := (2000, 1500, 0)) (fresh_deployed (by decide))
      (by simp [overlappingTrace, cappedTrace, demoSetup, demoInit, demoBind, demoFile])
      (by decide +kernel)
    simp only [Prod.mk.injEq, List.length_eq_zero_iff] at hval
    obtain ⟨hpaid, hcap, rfl⟩ := hval
    refine ⟨s, hreach, hcap, hpaid, fun hholds => ?_⟩
    have hle := hholds.capped 1 1 0 (unrenewed_nil _ _ _ _)
    rw [hpaid, hcap] at hle
    exact absurd hle (by decide)
  · obtain ⟨⟨s, g⟩, hreach, hval⟩ := exists_of_followWith noteRenewal []
      capFixed_of_check (deployed 5000)
      (cappedTrace 1500 ++ [demoCall (.claim (.processClaim 1))])
      (f := fun p => (p.1.cumulativePaid 1 1, p.1.paidInBucket 1 1 0, p.2.length,
        p.1.getRollingClaimWindowLedgers, p.1.sequence))
      (a := (2000, 1000, 0, 1000000, 1000)) (fresh_deployed (by decide))
      (by simp [cappedTrace, demoSetup, demoInit, demoBind, demoFile]) (by decide +kernel)
    simp only [Prod.mk.injEq, List.length_eq_zero_iff] at hval
    obtain ⟨hcum, hpaid, rfl, hw, hseq⟩ := hval
    refine ⟨s, hreach, hcum, hpaid, fun hholds => ?_⟩
    have hpresent : InBucket s.getRollingClaimWindowLedgers 0 s.sequence := by
      rw [hw, hseq]
      decide
    have heq := hholds.recorded 1 1 0 (unrenewed_nil _ _ _ _) hpresent
    rw [hcum, hpaid] at heq
    exact absurd heq (by decide)

end NiffyInsure
