import NiffyInsure.PolicyStep
import NiffyInsure.PremiumFormula

/-!
# What is quoted and what is charged

`generate_premium_for_asset` quotes a coverage without writing anything, `initiate_policy` and
`renew_policy` ask the same engine and charge.

* `State.answer`: what the engine answers, external or local, whatever the call that asks.
* `quote_eq_charge_of_scale`: when the premium of a new policy is the quoted one.
* `renewal_charge_of_kept`: when the premium of a renewal is the quote for the renewed coverage.
-/

namespace NiffyInsure

/-! ## Read-only quotes -/

/-- `CalcSource`. -/
inductive CalcSource where
  | callLocal
  | external
  deriving DecidableEq

structure QuoteResult where
  premium : Int
  coverage : Int
  asset : Option Address
  tableVersion : Nat
  calcSource : CalcSource
  deriving DecidableEq

def SAFETY_SCORE_MAX : Nat := 100

namespace State

variable (env : Env) (s : State)

/-- `call_local` for a quote that may name no asset. -/
def callLocalFor (input : RiskInput) (baseAmount : Int) (quoteTtl : Nat) (asset : Option Address) :
    Result PremiumQuote :=
  match asset with
  | some asset => s.callLocal input baseAmount quoteTtl asset
  | none => do
    let table ← okOr (s.get .premiumTable) .trap
    let (totalPremium, configVersion) ← computePremium input baseAmount table
    let validUntilLedger ← okOr (checkedAdd32 s.sequence quoteTtl) (.error .overflow)
    pure { totalPremium, validUntilLedger, configVersion }

/-- `compute_quote_readonly`: the interface version of the calculator is not noted. -/
def computeQuoteReadonly (input : RiskInput) (baseAmount : Int) (quoteTtl : Nat)
    (asset : Option Address) : Result ((PremiumQuote × CalcSource) × State) :=
  match s.get .calcAddress with
  | some calculator =>
    match (s.tryCallExternal env calculator input baseAmount quoteTtl).1 with
    | .ok quote => .ok ((quote, .external), s)
    | .error _ => do
      let s₁ := s.emit (.calculatorFallback calculator)
      let quote ← s₁.callLocalFor input baseAmount quoteTtl asset
      pure ((quote, .callLocal), s₁)
  | none => do
    let quote ← s.callLocalFor input baseAmount quoteTtl asset
    pure ((quote, .callLocal), s)

/-- The part of `validate_quote_coverage` on the asset, with the bounds that a claim in it has. -/
def checkQuoteAsset (coverage : Int) (asset : Option Address) : Result Unit :=
  match asset with
  | none => .ok ()
  | some asset => do
    ensure (s.isAllowedAsset asset = true) (.error .invalidAsset)
    s.checkAssetBounds asset coverage

/-- `validate_quote_coverage`. -/
def validateQuoteCoverage (coverage : Int) (asset : Option Address) : Result Unit := do
  ensure (0 < coverage) (.error .invalidBaseAmount)
  ensure (s.getMinCoverageAmount ≤ coverage) (.error .claimBelowMinAmount)
  s.checkQuoteAsset coverage asset
  ensure (s.isPolicyTypeRegistryEnabled = false ∨
    [PolicyType.auto, .health, .property].any s.isPolicyTypeActive = true) (.error .policyInactive)

/-- `generate_premium`.  With an asset it is the entrypoint `generate_premium_for_asset`. -/
def generatePremium (input : RiskInput) (coverage : Int) (asset : Option Address) :
    Result (QuoteResult × State) := do
  ensure (input.safetyScore ≤ SAFETY_SCORE_MAX) (.error .safetyScoreOutOfRange)
  s.validateQuoteCoverage coverage asset
  let ((quote, calcSource), s₁) ←
    s.computeQuoteReadonly env input coverage QUOTE_TTL_LEDGERS asset
  pure (⟨quote.totalPremium, coverage, asset, quote.configVersion, calcSource⟩, s₁)

/-! ## What the engine answers -/

/-- The answer of the engine: the external calculator's where there is one that answers, the local
engine's otherwise. -/
def answer (input : RiskInput) (baseAmount : Int) (asset : Address) : Result PremiumQuote :=
  match s.get .calcAddress with
  | none => s.callLocal input baseAmount QUOTE_TTL_LEDGERS asset
  | some calculator =>
    match (s.tryCallExternal env calculator input baseAmount QUOTE_TTL_LEDGERS).1 with
    | .ok quote => .ok quote
    | .error _ => s.callLocal input baseAmount QUOTE_TTL_LEDGERS asset

variable {env s} {s' : State} {input : RiskInput} {baseAmount : Int} {quoteTtl : Nat}
  {asset : Address} {quote : PremiumQuote}

theorem callLocal_congr
    (hasset : s'.get (.assetPremiumTable asset) = s.get (.assetPremiumTable asset))
    (htable : s'.get .premiumTable = s.get .premiumTable) (hseq : s'.sequence = s.sequence) :
    s'.callLocal input baseAmount quoteTtl asset = s.callLocal input baseAmount quoteTtl asset := by
  rw [callLocal, callLocal, getTableForAsset, getTableForAsset, hasset, htable, hseq]

theorem tryCallExternal_congr {calculator : Address}
    (hversion : s'.get .expectedCalcVersion = s.get .expectedCalcVersion)
    (hseq : s'.sequence = s.sequence) :
    (s'.tryCallExternal env calculator input baseAmount quoteTtl).1 =
      (s.tryCallExternal env calculator input baseAmount quoteTtl).1 := by
  rw [tryCallExternal, tryCallExternal, hversion, hseq]
  cases env.calcAbiVersion calculator with
  | none => rfl
  | some abi =>
    dsimp only
    split
    · cases env.calcCompute calculator input baseAmount with
      | error e => rfl
      | ok p =>
        dsimp only
        cases checkedAdd32 s.sequence quoteTtl <;> rfl
    · rfl

theorem answer_congr {ks : List Kind} (h : Frame ks s s')
    (hks : ∀ k ∈ ks, k = .nonce ∨ k = .calcVersion) :
    s'.answer env input baseAmount asset = s.answer env input baseAmount asset := by
  have hget : ∀ k : DataKey, k.kind ≠ .nonce → k.kind ≠ .calcVersion → s'.get k = s.get k := by
    intro k hnonce hversion
    apply h.get
    rw [← Bool.not_eq_true, List.contains_iff_mem]
    intro hmem
    rcases hks _ hmem with heq | heq
    · exact hnonce heq
    · exact hversion heq
  have hlocal : s'.callLocal input baseAmount QUOTE_TTL_LEDGERS asset =
      s.callLocal input baseAmount QUOTE_TTL_LEDGERS asset :=
    callLocal_congr (hget (.assetPremiumTable asset) (by simp) (by simp))
      (hget .premiumTable (by decide) (by decide)) h.sequence
  rw [answer, answer, hget .calcAddress (by decide) (by decide)]
  cases s.get .calcAddress with
  | none => exact hlocal
  | some calculator =>
    dsimp only
    rw [tryCallExternal_congr (hget .expectedCalcVersion (by decide) (by decide)) h.sequence,
      hlocal]

theorem callLocal_emit (e : Event) :
    (s.emit e).callLocal input baseAmount quoteTtl asset =
      s.callLocal input baseAmount quoteTtl asset :=
  rfl

/-- **`compute_quote` gives the answer.** -/
theorem computeQuote_eq_ok :
    (∃ t, s.computeQuote env input baseAmount QUOTE_TTL_LEDGERS asset = .ok (quote, t)) ↔
      s.answer env input baseAmount asset = .ok quote := by
  unfold computeQuote answer
  cases s.get .calcAddress with
  | none =>
    simp only [bind_eq_ok, pure_eq_ok, Prod.mk.injEq]
    constructor
    · rintro ⟨t, q, hq, rfl, -⟩
      exact hq
    · exact fun hq => ⟨s, quote, hq, rfl, rfl⟩
  | some calculator =>
    dsimp only
    have hframe := s.quoteFrame_tryCallExternal env calculator input baseAmount QUOTE_TTL_LEDGERS
    obtain ⟨result, s₁, hext⟩ : ∃ result s₁, s.tryCallExternal env calculator input baseAmount
        QUOTE_TTL_LEDGERS = (result, s₁) := ⟨_, _, rfl⟩
    rw [hext] at hframe ⊢
    cases result with
    | ok q =>
      simp only [Except.ok.injEq, Prod.mk.injEq]
      constructor
      · rintro ⟨t, rfl, -⟩
        rfl
      · exact fun hq => ⟨s₁, hq, rfl⟩
    | error e =>
      obtain ⟨hget, -, -, hseq, -, -⟩ := hframe
      have hlocal : s₁.callLocal input baseAmount QUOTE_TTL_LEDGERS asset =
          s.callLocal input baseAmount QUOTE_TTL_LEDGERS asset :=
        callLocal_congr (hget _ (by simp)) (hget _ (by simp)) hseq
      simp only [bind_eq_ok, pure_eq_ok, Prod.mk.injEq, callLocal_emit, hlocal]
      constructor
      · rintro ⟨t, q, hq, rfl, -⟩
        exact hq
      · exact fun hq => ⟨_, quote, hq, rfl, rfl⟩

theorem computeQuoteReadonly_eq_ok :
    (∃ source t, s.computeQuoteReadonly env input baseAmount QUOTE_TTL_LEDGERS (some asset) =
        .ok ((quote, source), t)) ↔
      s.answer env input baseAmount asset = .ok quote := by
  unfold computeQuoteReadonly answer
  cases s.get .calcAddress with
  | none =>
    simp only [bind_eq_ok, pure_eq_ok, Prod.mk.injEq, callLocalFor]
    constructor
    · rintro ⟨source, t, q, hq, ⟨rfl, -⟩, -⟩
      exact hq
    · exact fun hq => ⟨_, s, quote, hq, ⟨rfl, rfl⟩, rfl⟩
  | some calculator =>
    dsimp only
    cases (s.tryCallExternal env calculator input baseAmount QUOTE_TTL_LEDGERS).1 with
    | ok q =>
      simp only [Except.ok.injEq, Prod.mk.injEq]
      constructor
      · rintro ⟨source, t, ⟨rfl, -⟩, -⟩
        rfl
      · exact fun hq => ⟨_, s, ⟨hq, rfl⟩, rfl⟩
    | error e =>
      simp only [bind_eq_ok, pure_eq_ok, Prod.mk.injEq, callLocalFor, callLocal_emit]
      constructor
      · rintro ⟨source, t, q, hq, ⟨rfl, -⟩, -⟩
        exact hq
      · exact fun hq => ⟨_, _, quote, hq, ⟨rfl, rfl⟩, rfl⟩

end State

/-- `compute_quote` quotes this premium for the coverage. -/
def State.Quotes (env : Env) (s : State) (input : RiskInput) (coverage : Int) (asset : Address)
    (premium : Int) : Prop :=
  ∃ quote t, s.computeQuote env input coverage QUOTE_TTL_LEDGERS asset = .ok (quote, t) ∧
    quote.totalPremium = premium

section Quotes

variable {env : Env} {s : State} {input : RiskInput} {coverage : Int} {asset : Address} {p q : Int}

theorem quotes_iff :
    s.Quotes env input coverage asset p ↔
      ∃ quote, s.answer env input coverage asset = .ok quote ∧ quote.totalPremium = p := by
  constructor
  · rintro ⟨quote, t, hquote, hp⟩
    exact ⟨quote, State.computeQuote_eq_ok.mp ⟨t, hquote⟩, hp⟩
  · rintro ⟨quote, hquote, hp⟩
    obtain ⟨t, ht⟩ := State.computeQuote_eq_ok.mpr hquote
    exact ⟨quote, t, ht, hp⟩

theorem Quotes.unique (hp : s.Quotes env input coverage asset p)
    (hq : s.Quotes env input coverage asset q) : p = q := by
  obtain ⟨quote, t, hquote, rfl⟩ := hp
  obtain ⟨quote', t', hquote', rfl⟩ := hq
  rw [hquote] at hquote'
  cases hquote'
  rfl

end Quotes

/-! ## What is quoted for more -/

section More

variable {x y m k : Int}

theorem mul_add_le (hm : SCALE ≤ 2 * m) (hk : 0 ≤ k) (h : x + 2 * k ≤ y) :
    ((x * m : Int) : ℚ) / SCALE + k ≤ ((y * m : Int) : ℚ) / SCALE := by
  have hscale : (0 : ℚ) < SCALE := by norm_num [SCALE]
  have hpos : 0 ≤ m := by
    simp only [SCALE] at hm
    omega
  have hmul : x * m + k * SCALE ≤ y * m :=
    calc x * m + k * SCALE ≤ x * m + k * (2 * m) := by gcongr
      _ = (x + 2 * k) * m := by ring
      _ ≤ y * m := Int.mul_le_mul_of_nonneg_right h hpos
  have hcast : ((x * m : Int) : ℚ) + k * SCALE ≤ (y * m : Int) := by exact_mod_cast hmul
  rw [div_add' _ _ _ hscale.ne']
  exact div_le_div_of_nonneg_right hcast hscale.le

theorem ceilRatio_add_le (hm : SCALE ≤ 2 * m) (hk : 0 ≤ k) (h : x + 2 * k ≤ y) :
    ceilRatio x m + k ≤ ceilRatio y m := by
  rw [ceilRatio, ceilRatio, ← Int.ceil_add_intCast]
  exact Int.ceil_le_ceil (mul_add_le hm hk h)

theorem floorRatio_add_le (hm : SCALE ≤ 2 * m) (hk : 0 ≤ k) (h : x + 2 * k ≤ y) :
    floorRatio x m + k ≤ floorRatio y m := by
  rw [floorRatio, floorRatio, ← Int.floor_add_intCast]
  exact Int.floor_le_floor (mul_add_le hm hk h)

theorem stagedPremium_lt_of_add_le {r a c f : Int} (hr : SCALE ≤ 2 * r) (ha : SCALE ≤ 2 * a)
    (hc : SCALE ≤ 2 * c) (hf : SCALE ≤ 2 * f) (hx : 0 ≤ x) (h : x + 32 ≤ y) :
    stagedPremium x r a c f < stagedPremium y r a c f := by
  have hnonneg : ∀ {m : Int}, SCALE ≤ 2 * m → 0 ≤ m := by
    intro m hm
    simp only [SCALE] at hm
    omega
  have hregion : ceilRatio x r + 16 ≤ ceilRatio y r := ceilRatio_add_le hr (by decide) h
  have hage := ceilRatio_add_le ha (k := 8) (by decide) hregion
  have hcoverage := ceilRatio_add_le hc (k := 4) (by decide) hage
  have hsafety := floorRatio_add_le hf (k := 2) (by decide) hcoverage
  have hleast := floorRatio_nonneg (ceilRatio_nonneg (ceilRatio_nonneg
    (ceilRatio_nonneg hx (hnonneg hr)) (hnonneg ha)) (hnonneg hc)) (hnonneg hf)
  rw [stagedPremium, stagedPremium]
  omega

theorem stagedPremium_of_computePremium {t : MultiplierTable} {input : RiskInput} {b : Int}
    {p : Int × Nat} (h : computePremium input b t = .ok p) :
    ∃ r a c, t.region input.region = some r ∧ t.age input.ageBand = some a ∧
      t.coverage input.coverage = some c ∧ 0 < b ∧
        p.1 = stagedPremium b r a c (safetyFactor input.safetyScore t.safetyDiscount) := by
  simp only [computePremium, bind_eq_ok, ensure_eq_ok, okOr_eq_ok, checkedMulRatio_ceil_eq_ok,
    checkedMulRatio_floor_eq_ok (show (0 : Int) < SCALE by decide), pure_eq_ok] at h
  obtain ⟨-, hb, r, hr, a, ha, c, hc, m, hm, x₁, ⟨-, -, rfl⟩, x₂, ⟨-, -, rfl⟩, x₃, ⟨-, -, rfl⟩, x₄,
    ⟨⟨-, hm₀⟩, -, rfl⟩, -, -, rfl⟩ := h
  obtain ⟨-, -, rfl⟩ := safetyMultiplier_eq_ok.mp ⟨hm, hm₀⟩
  refine ⟨r, a, c, hr, ha, hc, hb, ?_⟩
  rw [stagedPremium, floorRatio]
  dsimp only
  split <;> omega

theorem scale_le_of_rowsSound {α : Type} {rows : α → Option Int} (h : RowsSound rows) {key : α}
    {m : Int} (hm : rows key = some m) : SCALE ≤ 2 * m := by
  obtain ⟨m', hm', hmin, -⟩ := h key
  rw [hm] at hm'
  cases hm'
  simp only [SCALE, MIN_MULTIPLIER] at hmin ⊢
  omega

/-- **The local engine quotes more for 32 units more.** -/
theorem computePremium_lt_of_add_le {t : MultiplierTable} (ht : t.Sound) {input : RiskInput}
    (hscore : input.safetyScore ≤ 100) {p q : Int × Nat} (hp : computePremium input x t = .ok p)
    (hq : computePremium input y t = .ok q) (h : x + 32 ≤ y) : p.1 < q.1 := by
  obtain ⟨r, a, c, hr, ha, hc, hx, hp⟩ := stagedPremium_of_computePremium hp
  obtain ⟨r', a', c', hr', ha', hc', -, hq⟩ := stagedPremium_of_computePremium hq
  obtain rfl := Option.some.inj (hr.symm.trans hr')
  obtain rfl := Option.some.inj (ha.symm.trans ha')
  obtain rfl := Option.some.inj (hc.symm.trans hc')
  obtain ⟨hfactor, -⟩ := safetyFactor_bounds hscore ht.discount.1 ht.discount.2
  have hf : SCALE ≤ 2 * safetyFactor input.safetyScore t.safetyDiscount := by
    simp only [SCALE, MAX_SAFETY_DISCOUNT] at hfactor ⊢
    omega
  rw [hp, hq]
  exact stagedPremium_lt_of_add_le (scale_le_of_rowsSound ht.region hr)
    (scale_le_of_rowsSound ht.age ha) (scale_le_of_rowsSound ht.coverage hc) hf hx.le h

variable {env : Env} {s : State} {input : RiskInput} {asset : Address} {p q : Int}

theorem quotes_local (hlocal : s.get .calcAddress = none) (h : s.Quotes env input x asset p) :
    ∃ t version, s.getTableForAsset asset = .ok t ∧
      computePremium input x t = .ok (p, version) := by
  obtain ⟨quote, hanswer, rfl⟩ := quotes_iff.mp h
  rw [State.answer, hlocal] at hanswer
  simp only [State.callLocal, bind_eq_ok, pure_eq_ok, Prod.exists] at hanswer
  obtain ⟨t, ht, premium, version, hpremium, -, -, rfl⟩ := hanswer
  exact ⟨t, version, ht, hpremium⟩

theorem sound_of_getTableForAsset (hs : s.TablesSound) {t : MultiplierTable}
    (h : s.getTableForAsset asset = .ok t) : t.Sound := by
  unfold State.getTableForAsset at h
  split at h
  · rename_i table htable
    cases h
    exact hs.asset asset _ htable
  · exact hs.default t (okOr_eq_ok.mp h)

theorem premium_lt_of_raised (hs : s.TablesSound) (hlocal : s.get .calcAddress = none)
    (hscore : input.safetyScore ≤ 100) (hp : s.Quotes env input x asset p)
    (hq : s.Quotes env input y asset q) (h : x + 32 ≤ y) : p < q := by
  obtain ⟨t, v, ht, hp⟩ := quotes_local hlocal hp
  obtain ⟨t', v', ht', hq⟩ := quotes_local hlocal hq
  rw [ht] at ht'
  cases ht'
  exact computePremium_lt_of_add_le (sound_of_getTableForAsset hs ht) hscore hp hq h

end More

/-! ## What is collected -/

section Collected

variable {env : Env} {s s' : State} {src asset : Address} {amount : Int}

theorem moveTokens_zero (s : State) (asset src dst : Address) :
    (s.moveTokens asset src dst 0).balance = s.balance := by
  funext a x
  simp [State.moveTokens]

theorem balance_of_tokenTransferFrom {dst : Address}
    (h : s.tokenTransferFrom env asset src dst amount = .ok s') :
    s'.balance = (s.moveTokens asset src dst amount).balance := by
  simp only [State.tokenTransferFrom, bind_eq_ok, pure_eq_ok] at h
  obtain ⟨-, -, -, -, -, -, rfl⟩ := h
  rfl

theorem moveTokens_congr (h : s'.balance = s.balance) (asset src dst : Address) (amount : Int) :
    (s'.moveTokens asset src dst amount).balance = (s.moveTokens asset src dst amount).balance := by
  simp only [State.moveTokens, h]

theorem balance_of_collectPremium (hamount : 0 ≤ amount)
    (h : s.collectPremium env src asset amount = .ok s') :
    s'.balance = (s.moveTokens asset src (s.getTreasury env) amount).balance := by
  dsimp only [State.collectPremium] at h
  split at h
  · cases h
    rw [show amount = 0 by omega, moveTokens_zero]
  · have hframe : Frame [.assetLedger] s (s.ignoreErr (s.recordPremiumIn asset amount)) :=
      (Frame.refl _ s).ignoreErr fun t ht => frame_recordPremiumIn ht
    have htreasury : (s.ignoreErr (s.recordPremiumIn asset amount)).getTreasury env =
        s.getTreasury env := by
      rw [State.getTreasury, State.getTreasury, hframe.get .treasury rfl]
    rw [balance_of_tokenTransferFrom h, htreasury, moveTokens_congr (hframe.balance rfl)]

/-- The holder has paid the amount: to the treasury, or in part to the recipient of a fee. -/
def Collected (env : Env) (s s' : State) (asset holder : Address) (amount : Int) : Prop :=
  ∃ treasuryAmount feeAmount feeRecipient, 0 ≤ treasuryAmount ∧ 0 ≤ feeAmount ∧
    treasuryAmount + feeAmount = amount ∧
    s'.balance = ((s.moveTokens asset holder (s.getTreasury env) treasuryAmount).moveTokens asset
      holder feeRecipient feeAmount).balance

theorem collected_of_collectPremiumWithFee {treasuryAmount feeAmount : Int} {feeRecipient : Address}
    (ht : 0 ≤ treasuryAmount) (hf : 0 ≤ feeAmount)
    (h : s.collectPremiumWithFee env src asset treasuryAmount feeRecipient feeAmount = .ok s') :
    Collected env s s' asset src (treasuryAmount + feeAmount) := by
  refine ⟨treasuryAmount, feeAmount, feeRecipient, ht, hf, rfl, ?_⟩
  obtain ⟨s₁, h₁, h₂⟩ : ∃ s₁, s.collectPremium env src asset treasuryAmount = .ok s₁ ∧
      (if 0 < feeAmount then s₁.tokenTransferFrom env asset src feeRecipient feeAmount
        else .ok s₁) = .ok s' := by
    dsimp only [State.collectPremiumWithFee] at h
    by_cases hpos : 0 < treasuryAmount
    · rw [if_pos hpos, if_pos hpos] at h
      obtain ⟨s₁, h₁, h₂⟩ := bind_eq_ok.mp h
      refine ⟨s₁, ?_, h₂⟩
      rw [State.collectPremium, if_neg (by omega)]
      exact h₁
    · rw [if_neg hpos, if_neg hpos] at h
      obtain ⟨s₁, h₁, h₂⟩ := bind_eq_ok.mp h
      cases h₁
      refine ⟨s, ?_, h₂⟩
      rw [State.collectPremium, if_pos (by omega)]
  have hfirst := balance_of_collectPremium ht h₁
  split at h₂
  · rw [balance_of_tokenTransferFrom h₂, moveTokens_congr hfirst]
  · cases h₂
    rw [show feeAmount = 0 by omega, moveTokens_zero, hfirst]

end Collected

/-! ## New policies -/

section Binding

variable {env : Env} {s s' : State} {a : InitiatePolicyArgs} {policy : Policy}

/-- The risk input of a new policy. -/
def InitiatePolicyArgs.riskInput (a : InitiatePolicyArgs) : RiskInput :=
  ⟨a.region, a.ageBand, a.coverageType, a.safetyScore⟩

/-- What a quote checks and a binding checks too. -/
structure State.Quotable (s : State) (a : InitiatePolicyArgs) : Prop where
  score : a.safetyScore ≤ SAFETY_SCORE_MAX
  positive : 0 < a.baseAmount
  atLeast : s.getMinCoverageAmount ≤ a.baseAmount
  asset : s.isAllowedAsset a.asset = true
  types : s.isPolicyTypeRegistryEnabled = false ∨
    [PolicyType.auto, .health, .property].any s.isPolicyTypeActive = true

/-- The coverage lies within the claim bounds of the asset, if it has any. -/
def State.WithinAssetBounds (s : State) (asset : Address) (coverage : Int) : Prop :=
  ∀ bounds, s.get (.allowedAssetConfig asset) = some bounds →
    bounds.minClaimAmount ≤ coverage ∧ coverage ≤ bounds.maxClaimAmount

/-- The parts that the premium is split into are not negative and add up to it. -/
def SplitsExactly (env : Env) (premium : Int) (bps : Nat) : Prop :=
  ∀ treasuryAmount feeAmount, env.splitPremium premium bps = some (treasuryAmount, feeAmount) →
    0 ≤ treasuryAmount ∧ 0 ≤ feeAmount ∧ treasuryAmount + feeAmount = premium

/-- **The premium of a new policy** is the quote times the multiplier of the region, rounded up; it
is stored and collected. -/
theorem initiatePolicy_charges (h : initiatePolicy env s a = .ok (policy, s'))
    (hsplit : SplitsExactly env policy.premium s.getProtocolFeeBps) :
    s.Quotable a ∧ 0 < policy.premium ∧ s'.getPolicy a.holder policy.policyId = some policy ∧
      Collected env s s' a.asset a.holder policy.premium ∧
      ∃ quoted multiplier, s.Quotes env a.riskInput a.baseAmount a.asset quoted ∧
        s.regionRiskMultiplier a.options.regionCode = .ok multiplier ∧
        policy.premium = ceilRatio quoted multiplier := by
  obtain ⟨hstored, hholder, -⟩ := initiatePolicy_records h
  have hget : s'.getPolicy a.holder policy.policyId = some policy := by
    rw [← hholder, State.getPolicy, hstored (.policy policy.holder policy.policyId) rfl]
    simp [State.setPolicy]
  obtain ⟨hallowed, hmultiplier, -, h₁, hargs, h₂, hpriced, hpos, hparts, h₃, -, -, -, h₄, h₅⟩ :=
    initiateRun_of_ok h
  rename_i multiplier premium treasuryAmount feeAmount deductible quote policyId
    finish d s₁ s₂ s₃ s₄ s₅
  obtain ⟨-, -, hpremium⟩ := checkedMulRatio_ceil_eq_ok.mp hpriced
  have hf₁ := frame_checkAndBumpNonce h₁
  have hf₂ := frame_computeQuote h₂
  obtain ⟨-, rfl⟩ := nextPolicyId_eq_ok h₃
  have hf₃ : Frame [.nonce, .calcVersion, .policyCounter] s
      (s₂.set (.policyCounter a.holder) policyId) := by
    rw [Frame.set_iff (by simp)]
    exact (hf₁.mono (by simp)).trans (hf₂.mono (by simp))
  have hbalance : ∀ t, Frame [.premiumEvent] s₅ t → t.balance = s₄.balance := by
    intro t ht
    rw [ht.balance rfl, (frame_bindPolicy h₅).balance rfl]
  have hbps : s₂.getProtocolFeeBps = s.getProtocolFeeBps := by
    rw [State.getProtocolFeeBps, State.getProtocolFeeBps, hf₂.get .protocolFeeBps rfl,
      hf₁.get .protocolFeeBps rfl]
  rw [← hbps] at hsplit
  obtain ⟨ht, hf, hsum⟩ := hsplit _ _ hparts
  refine ⟨?_, hpos, hget, ?_, quote.totalPremium, multiplier, ?_, hmultiplier, hpremium⟩
  · simp only [State.checkBindArgs, bind_eq_ok, ensure_eq_ok] at hargs
    obtain ⟨-, -, -, hscore, -, hbase, -, hmin, -⟩ := hargs
    simp only [State.checkBindAllowed, bind_eq_ok, ensure_eq_ok] at hallowed
    obtain ⟨-, -, -, -, -, -, -, htype, -, hasset, -⟩ := hallowed
    refine ⟨hscore, hbase, ?_, hasset, ?_⟩
    · have hsame : s₁.getMinCoverageAmount = s.getMinCoverageAmount := by
        rw [State.getMinCoverageAmount, State.getMinCoverageAmount, hf₁.get .minCoverageAmount rfl]
      rwa [hsame] at hmin
    · refine htype.imp_right fun hactive => ?_
      rw [List.any_eq_true]
      exact ⟨a.policyType, by cases a.policyType <;> simp, hactive⟩
  · obtain ⟨t, f, r, ht', hf', hsum', hbal⟩ := collected_of_collectPremiumWithFee ht hf h₄
    have htreasury : (s₂.set (.policyCounter a.holder) policyId).getTreasury env =
        s.getTreasury env := by
      rw [State.getTreasury, State.getTreasury, hf₃.get .treasury rfl]
    refine ⟨t, f, r, ht', hf', hsum'.trans hsum, ?_⟩
    rw [hbalance _ (frame_emitPolicyInitiated _ _ _ _), hbal, htreasury]
    exact moveTokens_congr (moveTokens_congr (hf₃.balance rfl) _ _ _ _) _ _ _ _
  · rw [quotes_iff]
    refine ⟨quote, ?_, rfl⟩
    rw [← State.answer_congr hf₁ (by simp)]
    exact State.computeQuote_eq_ok.mp ⟨s₂, h₂⟩

/-- Why a quote is refused because of the coverage amount. -/
def coverageErrors : List Error :=
  [.invalidBaseAmount, .claimBelowMinAmount, .claimAboveMaxAmount, .overflow]

def RefusedForCoverage (x : Result (QuoteResult × State)) : Prop :=
  ∃ e ∈ coverageErrors, x = .error (.error e)

/-- A quote for what a binding has accepted: it is given within the bounds of the asset, and refused
because of the coverage amount outside them. -/
theorem generatePremium_of_quotable {quoted : Int} (hq : s.Quotable a)
    (hquoted : s.Quotes env a.riskInput a.baseAmount a.asset quoted) :
    (s.WithinAssetBounds a.asset a.baseAmount ∧ ∃ q t,
        s.generatePremium env a.riskInput a.baseAmount (some a.asset) = .ok (q, t) ∧
        q.premium = quoted) ∨
      ¬ s.WithinAssetBounds a.asset a.baseAmount ∧
        RefusedForCoverage (s.generatePremium env a.riskInput a.baseAmount (some a.asset)) := by
  obtain ⟨quote, hanswer, rfl⟩ := quotes_iff.mp hquoted
  obtain ⟨source, t, hreadonly⟩ := State.computeQuoteReadonly_eq_ok.mpr hanswer
  have hgenerate : ∀ u : Unit, s.validateQuoteCoverage a.baseAmount (some a.asset) = .ok u →
      ∃ q t, s.generatePremium env a.riskInput a.baseAmount (some a.asset) = .ok (q, t) ∧
        q.premium = quote.totalPremium := by
    intro u hvalid
    refine ⟨⟨quote.totalPremium, a.baseAmount, some a.asset, quote.configVersion, source⟩,
      t, ?_, rfl⟩
    rw [State.generatePremium, ensure, if_pos (show a.riskInput.safetyScore ≤ _ from hq.score),
      hvalid, hreadonly]
    rfl
  have hrefuse : ∀ e : Error, s.validateQuoteCoverage a.baseAmount (some a.asset) =
    .error (.error e) →
      s.generatePremium env a.riskInput a.baseAmount (some a.asset) = .error (.error e) := by
    intro e hinvalid
    rw [State.generatePremium, ensure, if_pos (show a.riskInput.safetyScore ≤ _ from hq.score),
      hinvalid]
    rfl
  have hvalidate : s.validateQuoteCoverage a.baseAmount (some a.asset) =
      s.checkAssetBounds a.asset a.baseAmount := by
    rw [State.validateQuoteCoverage, State.checkQuoteAsset, ensure, if_pos hq.positive, ensure,
      if_pos hq.atLeast, ensure, if_pos hq.asset, ensure, if_pos hq.types]
    simp only [ok_bind]
    cases s.checkAssetBounds a.asset a.baseAmount <;> rfl
  rw [State.checkAssetBounds] at hvalidate
  cases hbounds : s.get (.allowedAssetConfig a.asset) with
  | none =>
    rw [hbounds] at hvalidate
    refine .inl ⟨fun bounds hb => ?_, hgenerate () hvalidate⟩
    rw [hbounds] at hb
    cases hb
  | some bounds =>
    rw [hbounds] at hvalidate
    dsimp only at hvalidate
    by_cases hmin : bounds.minClaimAmount ≤ a.baseAmount
    · rw [ensure, if_pos hmin, ok_bind] at hvalidate
      by_cases hmax : a.baseAmount ≤ bounds.maxClaimAmount
      · rw [ensure, if_pos hmax] at hvalidate
        refine .inl ⟨fun b hb => ?_, hgenerate () hvalidate⟩
        rw [hbounds] at hb
        cases hb
        exact ⟨hmin, hmax⟩
      · rw [ensure, if_neg hmax] at hvalidate
        exact .inr ⟨fun hwithin => hmax (hwithin bounds hbounds).2, .claimAboveMaxAmount, by decide,
          hrefuse _ hvalidate⟩
    · rw [ensure, if_neg hmin, error_bind] at hvalidate
      exact .inr ⟨fun hwithin => hmin (hwithin bounds hbounds).1, .claimBelowMinAmount, by decide,
        hrefuse _ hvalidate⟩

theorem ceilRatio_scale (x : Int) : ceilRatio x SCALE = x := by
  rw [ceilRatio, ceil_div _ (by decide), if_pos (Int.mul_emod_left x SCALE)]
  exact Int.mul_ediv_cancel x (by decide)

theorem le_scale_of_ceilRatio_le {x m : Int} (hx : 0 < x) (h : ceilRatio x m ≤ x) : m ≤ SCALE := by
  rw [ceilRatio, Int.ceil_le, div_le_iff₀ (by norm_num [SCALE])] at h
  have hmul : x * m ≤ x * SCALE := by exact_mod_cast h
  exact le_of_mul_le_mul_left hmul hx

/-- What is charged is what was quoted, and the quote is not refused because of the coverage. -/
def ChargesQuote (env : Env) (s : State) (a : InitiatePolicyArgs) (policy : Policy)
    (s' : State) : Prop :=
  (∀ q t, s.generatePremium env a.riskInput a.baseAmount (some a.asset) = .ok (q, t) →
    policy.premium = q.premium ∧ s'.getPolicy a.holder policy.policyId = some policy ∧
      Collected env s s' a.asset a.holder q.premium) ∧
  ¬ RefusedForCoverage (s.generatePremium env a.riskInput a.baseAmount (some a.asset))

/-- Account 1 binds a policy, with this region code. -/
def demoPolicy (regionCode : Option Str) : InitiatePolicyArgs where
  holder := 1
  policyType := .auto
  region := .low
  ageBand := .adult
  coverageType := .basic
  safetyScore := 50
  baseAmount := 10000000
  asset := assetAddress
  options :=
    { beneficiary := none, deductible := none, expectedNonce := none, metadataUri := ipfsScheme,
      regionCode, termsHash := demoTerms }

/-- What a binding charges, and what it is quoted, or why it is not. -/
def State.bindingOutcome (s : State) (a : InitiatePolicyArgs) : Option (Int × Int ⊕ Int × Fault) :=
  match initiatePolicy demoEnv s a with
  | .ok (policy, _) =>
    match s.generatePremium demoEnv a.riskInput a.baseAmount (some a.asset) with
    | .ok (q, _) => some (.inl (policy.premium, q.premium))
    | .error e => some (.inr (policy.premium, e))
  | .error _ => none

theorem binding_of_quoted {charged quoted : Int}
    (h : s.bindingOutcome a = some (.inl (charged, quoted))) :
    ∃ policy s' q t, initiatePolicy demoEnv s a = .ok (policy, s') ∧ policy.premium = charged ∧
      s.generatePremium demoEnv a.riskInput a.baseAmount (some a.asset) = .ok (q, t) ∧
      q.premium = quoted := by
  unfold State.bindingOutcome at h
  split at h
  · rename_i policy s' hbind
    split at h
    · rename_i q t hquote
      cases h
      exact ⟨policy, s', q, t, hbind, rfl, hquote, rfl⟩
    · cases h
  · cases h

theorem binding_of_refused {charged : Int} {e : Fault}
    (h : s.bindingOutcome a = some (.inr (charged, e))) :
    ∃ policy s', initiatePolicy demoEnv s a = .ok (policy, s') ∧
      s.generatePremium demoEnv a.riskInput a.baseAmount (some a.asset) = .error e := by
  unfold State.bindingOutcome at h
  split at h
  · rename_i policy s' hbind
    split at h
    · cases h
    · rename_i e' hquote
      cases h
      exact ⟨policy, s', hbind, hquote⟩
  · cases h

end Binding

/-! ## Renewals -/

section Renewals

variable {env : Env} {s s' : State} {a : RenewPolicyArgs} {old policy : Policy}

/-- The risk input of a renewal. -/
def RenewPolicyArgs.riskInput (a : RenewPolicyArgs) (old : Policy) : RiskInput :=
  ⟨old.region, a.ageBand, a.newCoverageTier.getD a.coverageType, a.safetyScore⟩

/-- The premium of a renewal is the quote for the coverage before it; it is stored and collected. -/
theorem renewPolicy_charges (h : renewPolicy env s a = .ok (.renewed policy, s'))
    (hold : s.getPolicy a.holder a.policyId = some old) :
    policy.coverage = a.newCoverageAmount.getD old.coverage ∧
      s.Quotes env (a.riskInput old) old.coverage old.asset policy.premium ∧
      s'.getPolicy a.holder a.policyId = some policy ∧
      Collected env s s' old.asset a.holder policy.premium := by
  cases renewRun_of_ok h with
  | @renewed _ _ _ quote s₁ s₂ _ hold' _ _ _ h₁ hpos h₂ _ =>
    rw [hold] at hold'
    cases hold'
    have hf₁ := frame_computeQuote h₁
    refine ⟨rfl, ⟨_, _, h₁, rfl⟩, ?_, ?_⟩
    · rw [State.getPolicy, State.get_emit, State.resetOnRenewal, State.get_set_of_ne _ _ (by simp)]
      rw [(frame_reindexPolicy _ _ _ _ _).get _ rfl, State.setPolicy, State.get_set_self]
    · have htreasury : s₁.getTreasury env = s.getTreasury env := by
        rw [State.getTreasury, State.getTreasury, hf₁.get .treasury rfl]
      refine ⟨quote.totalPremium, 0, a.holder, hpos.le, le_rfl, Int.add_zero _, ?_⟩
      rw [moveTokens_zero, ← htreasury, ← moveTokens_congr (hf₁.balance rfl),
        ← balance_of_collectPremium hpos.le h₂, State.balance_emit, State.resetOnRenewal,
        State.balance_set, (frame_reindexPolicy _ _ _ _ _).balance rfl, State.setPolicy,
        State.balance_set]

theorem score_of_renewed (h : renewPolicy env s a = .ok (.renewed policy, s')) :
    a.safetyScore ≤ 100 := by
  cases renewRun_of_ok h with
  | renewed _ _ _ _ hcheck =>
    simp only [State.checkRenewal, bind_eq_ok, ensure_eq_ok] at hcheck
    obtain ⟨-, -, -, -, -, -, -, -, -, hscore, -⟩ := hcheck
    exact hscore

/-- **A raised coverage is free**: whatever amount a renewal raises the coverage to, it charges the
same premium. -/
theorem renewal_premium_eq {a' : RenewPolicyArgs} {policy' : Policy} {t' : State}
    (ha : a' = { a with newCoverageAmount := a'.newCoverageAmount })
    (h : renewPolicy env s a = .ok (.renewed policy, s'))
    (h' : renewPolicy env s a' = .ok (.renewed policy', t')) :
      policy'.premium = policy.premium := by
  have hholder : a'.holder = a.holder := by rw [ha]
  have hid : a'.policyId = a.policyId := by rw [ha]
  obtain ⟨old, -, hold, -⟩ := renewPolicy_cases h
  have hold' : s.getPolicy a'.holder a'.policyId = some old := by rw [hholder, hid, hold]
  have hinput : a'.riskInput old = a.riskInput old := by rw [ha]; rfl
  have hquote := (renewPolicy_charges h hold).2.1
  have hquote' := (renewPolicy_charges h' hold').2.1
  rw [hinput] at hquote'
  exact Quotes.unique hquote' hquote

/-- The premium is the quote for the coverage after the renewal; it is stored and collected. -/
def ChargesGrant (env : Env) (s : State) (a : RenewPolicyArgs) (old policy : Policy)
    (s' : State) : Prop :=
  s.Quotes env (a.riskInput old) policy.coverage old.asset policy.premium ∧
    s'.getPolicy a.holder a.policyId = some policy ∧
    Collected env s s' old.asset a.holder policy.premium

/-- The renewal of the first policy, with this coverage. -/
def demoRenewal (newCoverageAmount : Option Int) : RenewPolicyArgs where
  holder := 1
  policyId := 1
  ageBand := .adult
  coverageType := .basic
  safetyScore := 50
  newCoverageTier := none
  newCoverageAmount := newCoverageAmount

/-- What a renewal grants and charges, and what the granted coverage is quoted. -/
def State.renewalOutcome (s : State) (a : RenewPolicyArgs) : Option (Int × Int × Int) :=
  match renewPolicy demoEnv s a, s.getPolicy a.holder a.policyId with
  | .ok (.renewed policy, _), some old =>
    match s.computeQuote demoEnv (a.riskInput old) policy.coverage QUOTE_TTL_LEDGERS old.asset with
    | .ok (quote, _) => some (policy.coverage, policy.premium, quote.totalPremium)
    | .error _ => none
  | _, _ => none

theorem renewal_of_outcome {granted charged quoted : Int}
    (h : s.renewalOutcome a = some (granted, charged, quoted)) :
    ∃ policy s' old, renewPolicy demoEnv s a = .ok (.renewed policy, s') ∧
      s.getPolicy a.holder a.policyId = some old ∧ policy.coverage = granted ∧
      policy.premium = charged ∧ s.Quotes demoEnv (a.riskInput old) granted old.asset quoted := by
  unfold State.renewalOutcome at h
  split at h
  · rename_i policy s' old hrenew hold
    split at h
    · rename_i quote t hquote
      cases h
      exact ⟨policy, s', old, hrenew, hold, rfl, rfl, quote, t, hquote, rfl⟩
    · cases h
  · cases h

end Renewals

end NiffyInsure
