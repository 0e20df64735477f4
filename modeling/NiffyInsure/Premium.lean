import NiffyInsure.Storage

/-!
# Premium quotes

The local premium engine (`premium_pure.rs`) and the calculator front end
(`calculator.rs`): when an external calculator is configured it is asked first, and any
failure of it falls back to the local engine and publishes an event.  The itemised
breakdown of a quote is never stored or read, so a quote is its total, its validity and
its table version.
-/

namespace NiffyInsure

def SCALE : Int := 10000
def PERCENT_SCALE : Int := 100

inductive Rounding where
  | floor
  | ceil
  deriving DecidableEq

/-- `checked_mul_ratio`. -/
def checkedMulRatio (amount numerator denominator : Int) (rounding : Rounding) : Result Int := do
  ensure (0 ≤ amount ∧ 0 ≤ numerator ∧ 0 ≤ denominator) (.error .negativePremiumNotSupported)
  let product ← okOr (checkedMul128 amount numerator) (.error .overflow)
  ensure (denominator ≠ 0) (.error .divideByZero)
  let quotient := product / denominator
  match rounding with
  | .floor => pure quotient
  | .ceil =>
    if product % denominator = 0 then pure quotient
    else okOr (checkedAdd128 quotient 1) (.error .overflow)

/-- `safety_multiplier`. -/
def safetyMultiplier (safetyScore : Nat) (maxDiscount : Int) : Result Int := do
  let earned ← checkedMulRatio safetyScore maxDiscount PERCENT_SCALE .floor
  okOr (checkedSub128 SCALE earned) (.error .overflow)

/-- `premium_pure::compute_premium`: the total and the table version. -/
def computePremium (input : RiskInput) (baseAmount : Int) (table : MultiplierTable) :
    Result (Int × Nat) := do
  ensure (0 < baseAmount) (.error .invalidBaseAmount)
  let regionM ← okOr (table.region input.region) (.error .missingRegionMultiplier)
  let ageM ← okOr (table.age input.ageBand) (.error .missingAgeMultiplier)
  let coverageM ← okOr (table.coverage input.coverage) (.error .missingCoverageMultiplier)
  let safetyM ← safetyMultiplier input.safetyScore table.safetyDiscount
  let afterRegion ← checkedMulRatio baseAmount regionM SCALE .ceil
  let afterAge ← checkedMulRatio afterRegion ageM SCALE .ceil
  let afterCoverage ← checkedMulRatio afterAge coverageM SCALE .ceil
  let afterSafety ← checkedMulRatio afterCoverage safetyM SCALE .floor
  -- rounding to a multiple of one leaves a non-negative value as it is
  ensure (0 ≤ afterSafety) (.error .negativePremiumNotSupported)
  pure (if afterSafety < 1 then 1 else afterSafety, table.version)

/-- `default_multiplier_table`. -/
def defaultMultiplierTable : MultiplierTable where
  region
    | .low => some 8500
    | .medium => some 10000
    | .high => some 13500
  age
    | .young => some 12500
    | .adult => some 10000
    | .senior => some 11500
  coverage
    | .basic => some 9000
    | .standard => some 10000
    | .premium => some 13000
  safetyDiscount := 2000
  version := 1

/-! ## Changing a table -/

def MIN_MULTIPLIER : Int := 5000
def MAX_MULTIPLIER : Int := 50000
def MAX_SAFETY_DISCOUNT : Int := 5000

/-- `Map::len`, for a map whose keys are among `keys`. -/
def rowCount {α : Type} (rows : α → Option Int) (keys : List α) : Nat :=
  keys.countP fun k => (rows k).isSome

def RegionTier.all : List RegionTier := [.low, .medium, .high]
def AgeBand.all : List AgeBand := [.young, .adult, .senior]
def CoverageTier.all : List CoverageTier := [.basic, .standard, .premium]

/-- `check_multiplier_table_shape`. -/
def MultiplierTable.checkShape (table : MultiplierTable) : Result Unit := do
  ensure (rowCount table.region RegionTier.all = 3) (.error .missingRegionMultiplier)
  ensure (rowCount table.age AgeBand.all = 3) (.error .missingAgeMultiplier)
  ensure (rowCount table.coverage CoverageTier.all = 3) (.error .missingCoverageMultiplier)

/-- `validate_table_rows`: the rows are counted, and each lies within the bounds. -/
def validateTableRows {α : Type} (rows : α → Option Int) (keys : List α) (missing bounds : Error) :
    Result Unit := do
  ensure (rowCount rows keys = 3) (.error missing)
  ensure (keys.all (fun k => (rows k).all fun v => decide (MIN_MULTIPLIER ≤ v ∧ v ≤ MAX_MULTIPLIER))
    = true) (.error bounds)

/-- `validate_table` and `validate_asset_table`, after the version check. -/
def MultiplierTable.validateRows (table : MultiplierTable) : Result Unit := do
  table.checkShape
  validateTableRows table.region RegionTier.all .missingRegionMultiplier
    .regionMultiplierOutOfBounds
  validateTableRows table.age AgeBand.all .missingAgeMultiplier .ageMultiplierOutOfBounds
  validateTableRows table.coverage CoverageTier.all .missingCoverageMultiplier
    .coverageMultiplierOutOfBounds
  ensure (0 ≤ table.safetyDiscount ∧ table.safetyDiscount ≤ MAX_SAFETY_DISCOUNT)
    (.error .safetyDiscountOutOfBounds)

/-- The bounds of `admin_set_premium_multiplier` on one entry. -/
def MultiplierKey.validate (key : MultiplierKey) (value : Int) : Result Unit :=
  match key with
  | .region _ =>
    ensure (MIN_MULTIPLIER ≤ value ∧ value ≤ MAX_MULTIPLIER) (.error .regionMultiplierOutOfBounds)
  | .age _ =>
    ensure (MIN_MULTIPLIER ≤ value ∧ value ≤ MAX_MULTIPLIER) (.error .ageMultiplierOutOfBounds)
  | .coverage _ =>
    ensure (MIN_MULTIPLIER ≤ value ∧ value ≤ MAX_MULTIPLIER) (.error .coverageMultiplierOutOfBounds)
  | .safetyDiscount =>
    ensure (0 ≤ value ∧ value ≤ MAX_SAFETY_DISCOUNT) (.error .safetyDiscountOutOfBounds)

/-- The stored value of one entry, zero for a missing row. -/
def MultiplierTable.entry (table : MultiplierTable) : MultiplierKey → Int
  | .region tier => (table.region tier).getD 0
  | .age band => (table.age band).getD 0
  | .coverage tier => (table.coverage tier).getD 0
  | .safetyDiscount => table.safetyDiscount

/-- The table with one entry changed and its version bumped. -/
def MultiplierTable.setEntry (table : MultiplierTable) (key : MultiplierKey) (value : Int) :
    MultiplierTable :=
  let version := saturatingAdd32 table.version 1
  match key with
  | .region tier =>
    { table with region := fun t => if t = tier then some value else table.region t, version }
  | .age band =>
    { table with age := fun b => if b = band then some value else table.age b, version }
  | .coverage tier =>
    { table with coverage := fun t => if t = tier then some value else table.coverage t, version }
  | .safetyDiscount => { table with safetyDiscount := value, version }

/-! ## Quotes -/

namespace State

variable (s : State)

/-- `get_table_for_asset`: the asset's own table, else the global one. -/
def getTableForAsset (asset : Address) : Result MultiplierTable :=
  match s.get (.assetPremiumTable asset) with
  | some table => .ok table
  | none => okOr (s.get .premiumTable) .trap

/-- `call_local`. -/
def callLocal (input : RiskInput) (baseAmount : Int) (quoteTtl : Nat) (asset : Address) :
    Result PremiumQuote := do
  let table ← s.getTableForAsset asset
  let (totalPremium, configVersion) ← computePremium input baseAmount table
  let validUntilLedger ← okOr (checkedAdd32 s.sequence quoteTtl) (.error .overflow)
  pure { totalPremium, validUntilLedger, configVersion }

/-- `try_call_external`.  The interface version is noted before the validity of the quote
is computed, so that write stays even when the computation overflows. -/
def tryCallExternal (env : Env) (calculator : Address) (input : RiskInput) (baseAmount : Int)
    (quoteTtl : Nat) : Except CalcFailure PremiumQuote × State :=
  match env.calcAbiVersion calculator with
  | none => (.error .callFailed, s)
  | some abi =>
    if (s.get .expectedCalcVersion).all (· == abi) then
      match env.calcCompute calculator input baseAmount with
      | .error e => (.error e, s)
      | .ok (totalPremium, configVersion) =>
        match checkedAdd32 s.sequence quoteTtl with
        | none => (.error .callFailed, s.set .lastCalcAbiVersion abi)
        | some validUntilLedger =>
          (.ok { totalPremium, validUntilLedger, configVersion }, s.set .lastCalcAbiVersion abi)
    else (.error .wrongAbi, s)

/-- `compute_quote`. -/
def computeQuote (env : Env) (input : RiskInput) (baseAmount : Int) (quoteTtl : Nat)
    (asset : Address) : Result (PremiumQuote × State) :=
  match s.get .calcAddress with
  | none => do
    let quote ← s.callLocal input baseAmount quoteTtl asset
    pure (quote, s)
  | some calculator =>
    match s.tryCallExternal env calculator input baseAmount quoteTtl with
    | (.ok quote, s₁) => .ok (quote, s₁)
    | (.error _, s₁) => do
      let s₂ := s₁.emit (.calculatorFallback calculator)
      let quote ← s₂.callLocal input baseAmount quoteTtl asset
      pure (quote, s₂)

/-- What a quote leaves alone: everything but the calculator's interface version and the
event log. -/
def QuoteFrame (s' : State) : Prop :=
  (∀ k, k ≠ .lastCalcAbiVersion → s'.get k = s.get k) ∧ s'.balance = s.balance ∧
    s'.allowance = s.allowance ∧ s'.sequence = s.sequence ∧ s'.payouts = s.payouts ∧
    ∃ fallbacks : List Address, s'.events = s.events ++ fallbacks.map .calculatorFallback

theorem quoteFrame_tryCallExternal (env : Env) (calculator : Address) (input : RiskInput)
    (baseAmount : Int) (quoteTtl : Nat) :
    s.QuoteFrame (s.tryCallExternal env calculator input baseAmount quoteTtl).2 := by
  have hrefl : s.QuoteFrame s := ⟨fun _ _ => rfl, rfl, rfl, rfl, rfl, [], by simp⟩
  have hset : ∀ abi, s.QuoteFrame (s.set .lastCalcAbiVersion abi) := fun abi =>
    ⟨fun k hk => s.get_set_of_ne abi hk, rfl, rfl, rfl, rfl, [], by simp [State.set]⟩
  unfold tryCallExternal
  split
  · exact hrefl
  · split
    · split
      · exact hrefl
      · split
        · exact hset _
        · exact hset _
    · exact hrefl

theorem quoteFrame_of_computeQuote {env : Env} {input : RiskInput} {baseAmount : Int}
    {quoteTtl : Nat} {asset : Address} {q : PremiumQuote} {s' : State}
    (h : s.computeQuote env input baseAmount quoteTtl asset = .ok (q, s')) :
    s.QuoteFrame s' := by
  unfold computeQuote at h
  split at h
  · obtain ⟨quote, -, hq⟩ := bind_eq_ok.mp h
    cases hq
    exact ⟨fun _ _ => rfl, rfl, rfl, rfl, rfl, [], by simp⟩
  · rename_i calculator _
    have hframe := s.quoteFrame_tryCallExternal env calculator input baseAmount quoteTtl
    split at h
    · rename_i quote s₁ hext
      cases h
      rwa [hext] at hframe
    · rename_i e s₁ hext
      obtain ⟨quote, -, hq⟩ := bind_eq_ok.mp h
      cases hq
      rw [hext] at hframe
      obtain ⟨hget, hb, ha, hs, hp, fallbacks, he⟩ := hframe
      refine ⟨hget, hb, ha, hs, hp, fallbacks ++ [calculator], ?_⟩
      rw [State.emit, he, List.map_append, List.append_assoc]
      rfl

end State

end NiffyInsure
