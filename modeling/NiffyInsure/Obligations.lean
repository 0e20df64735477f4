import NiffyInsure.AdminActions
import NiffyInsure.Book
import NiffyInsure.ClaimEdit

/-!
# What a sweep leaves for the claims

Two guards stand between a sweep and the approved claims.  `sweep_token`, also as a confirmed
action, compares the remaining cash with the reserved coverage and with the scan
`calculate_protected_balance`; `admin_sweep` looks at the book alone.  The scan counts `Approved`
claims whose policy is bound to the asset.  `process_claim` also accepts `AppealApproved` claims,
and pays in the override of the policy type where there is one.

* `min_scanned_le_protected`: the scan finds the sum of what it counts, or the largest `i128`.
* `obligations_le_scanned`: where the scan sees every claim that is owed something, this sum covers
  what is owed.
* `obligations_covered_of_sweep`: a sweep then leaves enough for all of them.
-/

namespace NiffyInsure

open Machine KeyedStore

/-! ## What the contract owes -/

/-- The net amount that is not yet paid. -/
def Claim.unpaid (claim : Claim) : Int :=
  max 0 (claim.amount - claim.deductible - claim.paidAmount)

/-- `process_claim` would still accept the claim, and pay it in the asset. -/
def State.PaysIn (s : State) (asset : Address) (claim : Claim) : Prop :=
  (claim.status = .approved ∨ claim.status = .appealApproved) ∧
    (s.getPolicy claim.claimant claim.policyId).map s.effectiveAsset = some asset

instance (s : State) (asset : Address) (claim : Claim) : Decidable (s.PaysIn asset claim) := by
  unfold State.PaysIn
  infer_instance

/-- What is still to be paid on the claim in the asset. -/
def State.owedOn (s : State) (asset : Address) (claim : Claim) : Int :=
  if s.PaysIn asset claim then claim.unpaid else 0

/-- What an entry adds to the obligations in the asset. -/
def State.owed (s : State) (asset : Address) : (k : DataKey) → k.Val → Int
  | .claim _, claim => s.owedOn asset claim
  | _, _ => 0

/-- The sum, over all stored claims that `process_claim` would still accept and pay in the asset,
of the net amount that is not yet paid. -/
def State.obligations (s : State) (asset : Address) : Int := total (s.owed asset) s.storage

theorem owed_eq_zero {s : State} {asset : Address} (k : DataKey) (v : k.Val)
    (hk : ¬ k.kind = .claim) : s.owed asset k v = 0 := by
  unfold State.owed
  split
  · exact absurd rfl hk
  · rfl

theorem Claim.unpaid_nonneg (claim : Claim) : 0 ≤ claim.unpaid := by
  unfold Claim.unpaid
  omega

theorem owed_nonneg (s : State) (asset : Address) (k : DataKey) (v : k.Val) :
    0 ≤ s.owed asset k v := by
  unfold State.owed
  split
  · unfold State.owedOn
    split
    · exact Claim.unpaid_nonneg _
    · exact le_refl 0
  · exact le_refl 0

theorem obligations_nonneg (s : State) (asset : Address) : 0 ≤ s.obligations asset := by
  refine List.sum_nonneg fun x hx => ?_
  obtain ⟨e, -, rfl⟩ := List.mem_map.mp hx
  exact owed_nonneg s asset e.1 e.2

theorem obligations_of_frame {ks : List Kind} {s s' : State} (h : Frame ks s s')
    (hclaim : ks.contains .claim = false) (hpolicy : ks.contains .policy = false)
    (hconfig : ks.contains .config = false) (asset : Address) :
    s'.obligations asset = s.obligations asset := by
  have hpays : ∀ claim, s'.PaysIn asset claim ↔ s.PaysIn asset claim := by
    intro claim
    have heff : s'.effectiveAsset = s.effectiveAsset := by
      funext p
      simp only [State.effectiveAsset, h.get (.policyTypeConfig p.policyType) hconfig]
    simp only [State.PaysIn, State.getPolicy, heff,
      h.get (.policy claim.claimant claim.policyId) hpolicy]
  have howed : s'.owed asset = s.owed asset := by
    funext k v
    unfold State.owed
    split
    · simp only [State.owedOn, hpays]
    · rfl
  unfold State.obligations
  rw [howed]
  exact AgreeOn.total_eq (P := fun k => k.kind = .claim)
    (fun k hk => (h.sameKind hclaim) k hk) owed_eq_zero

theorem claims_positive_of_reach {host : Host} {s : State} (h : (contract host).Reach always s) :
    ∀ id claim, s.getClaim id = some claim → 0 < id ∧ 0 ≤ claim.paidAmount := by
  refine claims_rule h (P := fun id claim => 0 < id ∧ 0 ≤ claim.paidAmount) ?_ ?_
  · intro n _ _ _ _ _ _ _ _ _ _
    exact ⟨Nat.succ_pos n, le_refl _⟩
  · rintro id now c c' hedit ⟨hid, hpaid⟩
    refine ⟨hid, ?_⟩
    cases hedit with
    | tally vote => cases vote <;> exact hpaid
    | tallyAppeal vote => cases vote <;> exact hpaid
    | process failed => cases failed <;> exact hpaid
    | installment amount hst hpos =>
      change 0 ≤ c.paidAmount + amount
      omega
    | lastInstallment amount hst hpos =>
      change 0 ≤ c.paidAmount + amount
      omega
    | _ => exact hpaid

/-! ## What the scan counts -/

/-- What the scan of `calculate_protected_balance` counts for the claim, without saturation. -/
def State.scannedOn (s : State) (asset : Address) (claim : Claim) : Int :=
  if claim.status = .approved ∧
      (s.getPolicy claim.claimant claim.policyId).map (·.asset) = some asset then
    max 0 (claim.amount - claim.deductible)
  else 0

/-- What the scan counts at the `i`-th claim. -/
def State.scannedAt (s : State) (asset : Address) (i : Nat) : Int :=
  ((s.getClaim (i + 1)).map (s.scannedOn asset)).getD 0

theorem scannedAt_nonneg (s : State) (asset : Address) (i : Nat) : 0 ≤ s.scannedAt asset i := by
  unfold State.scannedAt
  cases s.getClaim (i + 1) with
  | none => simp
  | some claim =>
    simp only [Option.map_some, Option.getD_some, State.scannedOn]
    split
    · exact le_max_left _ _
    · exact le_refl 0

theorem scan_step {t a b sum : Int} (ht : min I128_MAX sum ≤ t) (hsum : 0 ≤ sum) :
    min I128_MAX (sum + max 0 (a - b)) ≤
      if 0 < saturatingSub128 a b then saturatingAdd128 t (saturatingSub128 a b) else t := by
  have hmax : (0 : Int) ≤ I128_MAX := by decide
  have hmin : I128_MIN ≤ 0 := by decide
  by_cases hpos : 0 < saturatingSub128 a b
  · rw [if_pos hpos]
    simp only [saturatingAdd128, saturatingSub128, clamp128] at hpos ⊢
    omega
  · rw [if_neg hpos]
    simp only [saturatingSub128, clamp128] at hpos
    omega

/-- **The scan finds the sum of what it counts, or the largest `i128`.** -/
theorem min_scanned_le_protected (s : State) (asset : Address) :
    min I128_MAX (∑ i ∈ Finset.range s.getClaimCounter, s.scannedAt asset i) ≤
      s.calculateProtectedBalance asset := by
  unfold State.calculateProtectedBalance
  induction s.getClaimCounter with
  | zero => simp [I128_MAX]
  | succ n ih =>
    rw [List.range_succ, List.foldl_append, Finset.sum_range_succ]
    generalize List.foldl _ 0 (List.range n) = t at ih ⊢
    have hsum : 0 ≤ ∑ i ∈ Finset.range n, s.scannedAt asset i :=
      Finset.sum_nonneg fun i _ => scannedAt_nonneg s asset i
    generalize ∑ i ∈ Finset.range n, s.scannedAt asset i = sum at ih hsum ⊢
    simp only [List.foldl_cons, List.foldl_nil, State.scannedAt]
    cases s.getClaim (n + 1) with
    | none => simpa using ih
    | some claim =>
      simp only [Option.map_some, Option.getD_some, State.scannedOn]
      by_cases hst : claim.status = .approved
      · simp only [hst, if_true, true_and]
        cases s.getPolicy claim.claimant claim.policyId with
        | none => simpa using ih
        | some policy =>
          simp only [Option.map_some, Option.some.injEq]
          by_cases hasset : policy.asset = asset
          · simp only [hasset, if_true, true_and]
            exact scan_step ih hsum
          · simpa [hasset] using ih
      · simpa [hst] using ih

/-- The scan sees every claim that is owed something in the asset: it is `Approved`, and its policy
is bound to the asset. -/
def State.ScanSees (s : State) (asset : Address) : Prop :=
  ∀ claim ∈ s.claims, s.PaysIn asset claim → 0 < claim.unpaid →
    claim.status = .approved ∧
      (s.getPolicy claim.claimant claim.policyId).map (·.asset) = some asset

section Scan

variable {s : State} {asset : Address}

theorem owedOn_le_scannedOn {claim : Claim} (hpaid : 0 ≤ claim.paidAmount)
    (hsees : s.PaysIn asset claim → 0 < claim.unpaid → claim.status = .approved ∧
      (s.getPolicy claim.claimant claim.policyId).map (·.asset) = some asset) :
    s.owedOn asset claim ≤ s.scannedOn asset claim := by
  have hscan : 0 ≤ s.scannedOn asset claim := by
    unfold State.scannedOn
    split
    · exact le_max_left _ _
    · exact le_refl 0
  unfold State.owedOn
  split
  · rename_i hpays
    by_cases hpos : 0 < claim.unpaid
    · unfold State.scannedOn
      rw [if_pos (hsees hpays hpos)]
      unfold Claim.unpaid
      omega
    · omega
  · exact hscan

theorem obligations_eq_sum (hk : s.ClaimsKeyed)
    (hids : ∀ id claim, s.getClaim id = some claim → 0 < id) :
    s.obligations asset = ∑ i ∈ Finset.range s.getClaimCounter,
      share (s.owed asset) (.claim (i + 1)) (s.getClaim (i + 1)) := by
  let ids := (Finset.range s.getClaimCounter).image fun i => DataKey.claim (i + 1)
  have hkeys : ∀ k ∈ s.storage, k ∈ ids ∪ s.storage.keys.toFinset := by
    intro k hk
    simp [AList.mem_keys.mp hk]
  unfold State.obligations
  rw [total_eq_sum (s.owed asset) s.storage hkeys, ← Finset.sum_subset Finset.subset_union_left ?_,
    Finset.sum_image ?_]
  · rfl
  · intro i _ j _ heq
    cases heq
    rfl
  · intro k _ hout
    cases hv : s.storage.lookup k with
    | none => rfl
    | some v =>
      rw [share_some]
      cases k with
      | claim id =>
        -- every stored claim has one of these ids
        have hpos := hids id v hv
        have hle := (hk id v hv).2
        refine absurd ?_ hout
        refine Finset.mem_image.mpr ⟨id - 1, Finset.mem_range.mpr (by omega), ?_⟩
        rw [Nat.sub_add_cancel hpos]
      | _ => rfl

/-- **Where the scan sees every claim that is owed something, it counts what is owed.** -/
theorem obligations_le_scanned (hk : s.ClaimsKeyed)
    (hpos : ∀ id claim, s.getClaim id = some claim → 0 < id ∧ 0 ≤ claim.paidAmount)
    (hsees : s.ScanSees asset) :
    s.obligations asset ≤ ∑ i ∈ Finset.range s.getClaimCounter, s.scannedAt asset i := by
  rw [obligations_eq_sum hk fun id claim hclaim => (hpos id claim hclaim).1]
  refine Finset.sum_le_sum fun i _ => ?_
  unfold State.scannedAt
  cases hclaim : s.getClaim (i + 1) with
  | none => exact le_refl 0
  | some claim =>
    exact owedOn_le_scannedOn (hpos _ claim hclaim).2 (hsees claim (mem_claims.mpr ⟨_, hclaim⟩))

end Scan

/-! ## Sweeps -/

section Sweeps

variable {env : Env} {s s' : State} {asset recipient : Address} {amount : Int}

theorem balance_after_transfer {t t' : State}
    (h : t.tokenTransfer env asset env.contract recipient amount = .ok t') (hpos : 0 ≤ amount) :
    t.balance asset env.contract - amount ≤ t'.balance asset env.contract := by
  obtain ⟨-, -, -, rfl⟩ := tokenTransfer_eq_ok.mp h
  simp only [State.moveTokens, if_true]
  split <;> omega

theorem protected_of_frame (h : Frame [.sweepUse] s s') (asset : Address) :
    s'.calculateProtectedBalance asset = s.calculateProtectedBalance asset := by
  have hclaim : ∀ id, s'.getClaim id = s.getClaim id := fun id => h.get (.claim id) rfl
  have hpolicy : ∀ a id, s'.getPolicy a id = s.getPolicy a id :=
    fun a id => h.get (.policy a id) rfl
  have hcounter : s'.getClaimCounter = s.getClaimCounter :=
    getClaimCounter_of_same (h.sameKind rfl)
  simp only [State.calculateProtectedBalance, hclaim, hpolicy, hcounter]

/-- What `sweep_token` has checked: the cash that remains is at least the reserved coverage and
the protected balance. -/
theorem floor_of_sweepTokenInner {reasonCode : Nat}
    (h : sweepTokenInner env s asset recipient amount reasonCode = .ok s') :
    0 < amount ∧
      (s.getAssetLedger asset).reservedCoverage ≤
        saturatingSub128 (s.balance asset env.contract) amount ∧
      s.calculateProtectedBalance asset ≤ saturatingSub128 (s.balance asset env.contract) amount ∧
      s.balance asset env.contract - amount ≤ s'.balance asset env.contract := by
  simp only [sweepTokenInner, bind_eq_ok, ensure_eq_ok, pure_eq_ok] at h
  obtain ⟨-, hpos, -, -, s₁, h₁, -, -, -, -, -, hfloor, s₃, h₃, admin, -, rfl⟩ := h
  have hf := frame_checkSweepLimit h₁
  have hbook : Frame [.assetLedger] s₁ (s₁.ignoreErr (s₁.recordSweep asset amount)) :=
    (Frame.refl _ s₁).ignoreErr fun t ht => frame_recordSweep ht
  have hledger : s₁.getAssetLedger asset = s.getAssetLedger asset :=
    getAssetLedger_of_same (hf.sameKind rfl) asset
  have hmove := balance_after_transfer h₃ (Int.le_of_lt hpos)
  rw [hbook.balance rfl, hf.balance rfl] at hmove
  rw [hf.balance rfl, hledger, protected_of_frame hf] at hfloor
  exact ⟨hpos, le_trans (le_max_left _ _) hfloor, le_trans (le_max_right _ _) hfloor, hmove⟩

theorem floor_of_adminSweep (h : adminSweep env s asset recipient amount = .ok s') :
    (s.getAssetLedger asset).reservedCoverage ≤
        (s.getAssetLedger asset).treasuryBalance - amount ∧
      s.balance asset env.contract - amount ≤ s'.balance asset env.contract := by
  obtain ⟨s₁, s₂, s₃, hquiet, h₂, h₃, hquiet'⟩ := adminSweep_book h
  obtain ⟨hpos, -, hle, rfl⟩ := State.recordSweep_eq_ok_iff.mp h₂
  have hmove := balance_after_transfer h₃ (Int.le_of_lt hpos)
  rw [getAssetLedger_of_same hquiet.ledger] at hle
  have hcash : (s₁.setAssetLedger asset { s₁.getAssetLedger asset with
      treasuryBalance := (s₁.getAssetLedger asset).treasuryBalance - amount }).balance =
      s.balance := hquiet.balance
  rw [hcash] at hmove
  rw [hquiet'.balance]
  exact ⟨hle, hmove⟩

end Sweeps

/-- The guard that the sweep passes looks at all that is owed in the asset.  For `sweep_token` and
the confirmed action the scan sees every claim that is owed something, or the reserved coverage
covers them all; for `admin_sweep` the reserved coverage covers them, and the cash covers the
book. -/
def Sweep.Guarded (w : Sweep) (contract : Address) (s : State) : Prop :=
  match w.reasonCode with
  | some _ => s.ScanSees w.asset ∨
      s.obligations w.asset ≤ (s.getAssetLedger w.asset).reservedCoverage
  | none => s.obligations w.asset ≤ (s.getAssetLedger w.asset).reservedCoverage ∧
      (s.getAssetLedger w.asset).treasuryBalance ≤ s.balance w.asset contract

section Covered

variable {host : Host} {env : Env} {s s' : State}

theorem obligations_covered_of_sweepTokenInner {asset recipient : Address} {amount : Int}
    {reasonCode : Nat} (hreach : (contract host).Reach always s)
    (h : sweepTokenInner env s asset recipient amount reasonCode = .ok s')
    (hfit : s.balance asset env.contract ≤ I128_MAX)
    (hok : s.ScanSees asset ∨ s.obligations asset ≤ (s.getAssetLedger asset).reservedCoverage) :
    s.obligations asset ≤ s'.balance asset env.contract := by
  obtain ⟨hpos, hreserved, hprotected, hmove⟩ := floor_of_sweepTokenInner h
  have hmin : I128_MIN < 0 := by decide
  have hmax : (0 : Int) ≤ I128_MAX := by decide
  have hnonneg := obligations_nonneg s asset
  -- what is at most the saturated rest, and not negative, is at most the rest
  have hrest : ∀ x, 0 ≤ x → x ≤ saturatingSub128 (s.balance asset env.contract) amount →
      x ≤ s.balance asset env.contract - amount := by
    intro x hx hle
    simp only [saturatingSub128, clamp128] at hle
    omega
  rcases hok with hsees | hcovered
  · have hscan := obligations_le_scanned (claimsKeyed_of_reach hreach)
      (claims_positive_of_reach hreach) hsees
    have hmin := le_trans (min_scanned_le_protected s asset) hprotected
    have hle := hrest _ (le_min hmax (le_trans hnonneg hscan)) hmin
    omega
  · have hle := hrest _ hnonneg (le_trans hcovered hreserved)
    omega

end Covered

/-- **A sweep leaves what is owed on the claims.**  After every successful sweep of an asset whose
guard looks at all that is owed in it, the remaining balance covers, over all claims that
`process_claim` would still accept and pay in the asset, the net amount that is not yet paid.
Balances are `i128`, as in the token interface. -/
theorem obligations_covered_of_sweep {host : Host} {s s' : State} {l : Label} {w : Sweep}
    (hreach : (contract host).Reach always s) (hstep : (contract host).step s l s')
    (hsweep : s.sweepBy l = some w) (hfit : s.balance w.asset host.contract ≤ I128_MAX)
    (hok : w.Guarded host.contract s) :
    s'.obligations w.asset ≤ s'.balance w.asset host.contract := by
  unfold State.sweepBy at hsweep
  split at hsweep
  · rename_i env asset recipient amount reasonCode
    cases hsweep
    obtain ⟨rfl, h⟩ := hstep
    rw [obligations_of_frame (frame_exec h) rfl rfl rfl]
    obtain ⟨admin, -, hinner⟩ := bind_eq_ok.mp h
    exact obligations_covered_of_sweepTokenInner hreach hinner hfit hok
  · rename_i env asset recipient amount
    cases hsweep
    obtain ⟨rfl, h⟩ := hstep
    rw [obligations_of_frame (frame_exec h) rfl rfl rfl]
    obtain ⟨hbook, hmove⟩ := floor_of_adminSweep h
    obtain ⟨hreserved, hcash⟩ := hok
    dsimp only at hreserved hcash hfit ⊢
    omega
  · rename_i env confirmer
    split at hsweep
    · rename_i proposer asset recipient amount reasonCode expiry hpending
      cases hsweep
      obtain ⟨rfl, h⟩ := hstep
      rw [obligations_of_frame (frame_exec h) rfl rfl rfl]
      obtain ⟨pending, s₁, hpending', hexec, hquiet⟩ := confirmAdminAction_book h
      rw [hpending, Option.some.injEq] at hpending'
      subst hpending'
      rw [hquiet.balance]
      exact obligations_covered_of_sweepTokenInner hreach hexec hfit hok
    · cases hsweep
  · cases hsweep

/-- The check that the scan sees what is owed. -/
def State.checkScanSees (s : State) (asset : Address) : Bool :=
  s.claims.all fun claim => decide (s.PaysIn asset claim → 0 < claim.unpaid →
    claim.status = .approved ∧
      (s.getPolicy claim.claimant claim.policyId).map (·.asset) = some asset)

theorem scanSees_of_check {s : State} {asset : Address} (h : s.checkScanSees asset = true) :
    s.ScanSees asset :=
  fun claim hmem => of_decide_eq_true (List.all_eq_true.mp h claim hmem)

/-- The admin terminates the three policies, which releases their coverage. -/
def terminateAll : List Label :=
  [1, 2, 3].map fun holder =>
    demoCall (.policy (.adminTerminatePolicy adminAddress holder 1 .regulatoryAction false))

/-- Account 1 files a claim of 1000 and account 2 approves it; then the policies end. -/
def endedApprovedTrace : List Label :=
  demoSetup ++ [demoFile 1 1 1000, demoCall (.claim (.voteOnClaim 2 1 .approve))] ++ terminateAll

/-- Account 1 files a claim of 1000, account 2 rejects it, and the appeal is approved; then the
policies end. -/
def endedAppealTrace : List Label :=
  demoSetup ++ [demoFile 1 1 1000, demoCall (.claim (.voteOnClaim 2 1 .reject)),
    demoCall (.claim (.openAppeal 1 1)), demoCall (.claim (.voteOnAppeal 1 1 .approve)),
    demoCall (.claim (.voteOnAppeal 2 1 .approve)),
    demoCall (.claim (.voteOnAppeal 3 1 .approve))] ++ terminateAll

/-- A sweep of the deployment's asset to account 7. -/
def demoSweep (amount : Int) : TreasuryCall := .sweepToken assetAddress 7 amount 1

/-- A sweep leaves the 1000 that are owed on an approved claim. -/
theorem obligations_covered_demo :
    ∃ s s', (contract demoHost).Reach always s ∧
      (contract demoHost).step s (demoTreasury (demoSweep 20654000)) s' ∧
      s'.obligations assetAddress = 1000 ∧ 1000 ≤ s'.balance assetAddress contractAddress := by
  obtain ⟨s, s', hreach, hstep, hval⟩ := exists_of_followCall always_of_noCheck
    (deployed 0) endedApprovedTrace (c := .treasury (demoSweep 20654000))
    (f := fun s s' => (s.checkScanSees assetAddress,
      decide (s.balance assetAddress contractAddress ≤ I128_MAX), s'.obligations assetAddress))
    (a := (true, true, 1000)) (fresh_deployed (by decide))
    (by simp [endedApprovedTrace, terminateAll, demoSetup, demoInit, demoBind, demoFile])
    (by decide +kernel)
  simp only [Prod.mk.injEq, decide_eq_true_eq] at hval
  obtain ⟨hsees, hfit, howed⟩ := hval
  refine ⟨s, s', hreach, hstep, howed, ?_⟩
  rw [← howed]
  exact obligations_covered_of_sweep (w := ⟨assetAddress, 7, 20654000, some 1⟩) hreach hstep rfl
    hfit (.inl (scanSees_of_check hsees))

/-- **A sweep takes what is owed on a claim that was approved on appeal.**  The scan counts
`Approved` claims only: `sweep_token` empties the contract while `process_claim` still accepts the
claim of 1000. -/
theorem appeal_approved_swept :
    ∃ s s', (contract demoHost).Reach always s ∧
      (contract demoHost).step s (demoTreasury (demoSweep 20655000)) s' ∧
      (s'.getClaim 1).map (·.status) = some .appealApproved ∧
      s'.obligations assetAddress = 1000 ∧ s'.balance assetAddress contractAddress = 0 := by
  obtain ⟨s, s', hreach, hstep, hval⟩ := exists_of_followCall always_of_noCheck
    (deployed 0) endedAppealTrace (c := .treasury (demoSweep 20655000))
    (f := fun _ s' => ((s'.getClaim 1).map (·.status), s'.obligations assetAddress,
      s'.balance assetAddress contractAddress))
    (a := (some .appealApproved, 1000, 0)) (fresh_deployed (by decide))
    (by simp [endedAppealTrace, terminateAll, demoSetup, demoInit, demoBind, demoFile])
    (by decide +kernel)
  simp only [Prod.mk.injEq] at hval
  exact ⟨s, s', hreach, hstep, hval⟩

end NiffyInsure
