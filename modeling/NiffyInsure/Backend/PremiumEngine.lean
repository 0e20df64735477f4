import NiffyInsure.PremiumFormula

/-!
# The premium engine of the backend

`calculatePremium` repeats the staged formula with `BigInt` divisions, which round every stage down,
where the contract rounds the first three up.

* `calculatePremium_eq`: the formula of the backend, as a run of stages.
* `calculatePremium_le`: it is never above the premium that the contract charges.
* `parity_iff`: when the two are equal.
-/

namespace NiffyInsure.Backend.PremiumEngine

open Staged

/-- `RiskInput` of the engine. -/
structure RiskInput where
  baseAmount : Int
  safetyScore : Int
  deductibleAmount : Option Int

structure RateTable where
  riskRate : Int
  regionFactor : Int
  ageFactor : Int
  coverageMult : Int

def BPS : Int := 10000

/-- `calculatePremium`.  A `BigInt` division drops the fraction. -/
def calculatePremium (risk : RiskInput) (table : RateTable) : Int :=
  let basePremium := (risk.baseAmount * table.riskRate).tdiv BPS
  let regionAdj := (basePremium * table.regionFactor).tdiv BPS
  let ageAdj := (regionAdj * table.ageFactor).tdiv BPS
  let coverageAdj := (ageAdj * table.coverageMult).tdiv BPS
  let safetyDiscount := (coverageAdj * (BPS - risk.safetyScore * 10)).tdiv BPS
  let deductible := risk.deductibleAmount.getD 0
  let premium := safetyDiscount - deductible
  if 0 < premium then premium else 1

/-- The arguments that correspond to a risk input of the contract: no risk rate of its own, and no
deductible. -/
def quoteFor (input : NiffyInsure.RiskInput) (b r a c : Int) : Int :=
  calculatePremium ⟨b, input.safetyScore, none⟩ ⟨10000, r, a, c⟩

/-! ## The formula of the backend -/

theorem tdiv_eq_floorRatio {x m : Int} (hx : 0 ≤ x) (hm : 0 ≤ m) :
    (x * m).tdiv BPS = floorRatio x m := by
  rw [floorRatio, floor_div _ (by decide), Int.tdiv_eq_ediv_of_nonneg (Int.mul_nonneg hx hm)]
  rfl

/-- The first three factors. -/
def earlyRates (r a c : Rate) : List {f : ℚ // 0 ≤ f} := [r.factor, a.factor, c.factor]

/-- The amount before the safety discount, as the backend computes it. -/
def beforeSafety (b : Int) (r a c : Rate) : Int := run ((earlyRates r a c).map Stage.down) b

/-- What the contract has gained on that by rounding up. -/
def gained (b : Int) (r a c : Rate) : Int := carry (earlyRates r a c) b 0

theorem beforeSafety_nonneg {b : Int} (hb : 0 ≤ b) (r a c : Rate) : 0 ≤ beforeSafety b r a c :=
  run_nonneg _ hb

theorem gained_nonneg (b : Int) (r a c : Rate) : 0 ≤ gained b r a c := carry_nonneg _ _ le_rfl

theorem calculatePremium_eq {input : NiffyInsure.RiskInput} {b : Int} (hb : 0 < b)
    (hscore : input.safetyScore ≤ 100) (r a c : Rate) :
    quoteFor input b r a c =
      max 1 (floorRatio (beforeSafety b r a c) (10000 - input.safetyScore * 10)) := by
  have hbase : (b * 10000).tdiv BPS = b := Int.mul_tdiv_cancel _ (by decide)
  have hstages : beforeSafety b r a c = floorRatio (floorRatio (floorRatio b r) a) c := by
    simp only [beforeSafety, earlyRates, run, List.map_cons, List.map_nil, List.foldl_cons,
      List.foldl_nil, apply_down_factor]
  have h₁ := floorRatio_nonneg hb.le r.2
  have h₂ := floorRatio_nonneg h₁ a.2
  have hs : 0 ≤ BPS - input.safetyScore * 10 := by
    rw [BPS]
    omega
  have hlast := tdiv_eq_floorRatio (beforeSafety_nonneg hb.le r a c) hs
  simp only [quoteFor, calculatePremium, hbase, Option.getD_none, Int.sub_zero,
    tdiv_eq_floorRatio hb.le r.2, tdiv_eq_floorRatio h₁ a.2, tdiv_eq_floorRatio h₂ c.2, ← hstages,
    hlast]
  change _ = max 1 (floorRatio (beforeSafety b r a c) (BPS - input.safetyScore * 10))
  split <;> omega

theorem stagedPremium_eq (b s : Int) (r a c : Rate) :
    stagedPremium b r a c s = max 1 (floorRatio (beforeSafety b r a c + gained b r a c) s) := by
  have hup := run_up (earlyRates r a c) b 0
  rw [Int.add_zero] at hup
  rw [beforeSafety, gained, ← hup]
  simp only [stagedPremium, earlyRates, run, List.map_cons, List.map_nil, List.foldl_cons,
    List.foldl_nil, apply_up_factor]

theorem safetyFactor_thousand (score : Nat) : safetyFactor score 1000 = 10000 - score * 10 := by
  rw [safetyFactor, floor_div _ (by decide)]
  simp only [SCALE, PERCENT_SCALE]
  omega

theorem floorRatio_mono {x y s : Int} (hs : 0 ≤ s) (h : x ≤ y) :
    floorRatio x s ≤ floorRatio y s := by
  rw [floorRatio, floorRatio, floor_div _ (by decide), floor_div _ (by decide)]
  exact Int.ediv_le_ediv (by decide) (Int.mul_le_mul_of_nonneg_right h hs)

/-- **The backend never quotes more than the contract charges.** -/
theorem calculatePremium_le {input : NiffyInsure.RiskInput} {b : Int} (hb : 0 < b)
    (hscore : input.safetyScore ≤ 100) (r a c : Rate) :
    quoteFor input b r a c ≤ stagedPremium b r a c (safetyFactor input.safetyScore 1000) := by
  rw [calculatePremium_eq hb hscore, stagedPremium_eq, safetyFactor_thousand]
  apply max_le_max_left 1
  apply floorRatio_mono
  · omega
  · have := gained_nonneg b r a c
    omega

theorem calculatePremium_le_default :
    quoteFor ⟨.medium, .young, .basic, 37⟩ 1000003 10000 12500 9000 ≤
      stagedPremium 1000003 10000 12500 9000 (safetyFactor 37 1000) :=
  have hscore : NiffyInsure.RiskInput.safetyScore ⟨.medium, .young, .basic, 37⟩ ≤ 100 := by decide
  calculatePremium_le (b := 1000003) (by decide) hscore ⟨10000, by decide⟩ ⟨12500, by decide⟩
    ⟨9000, by decide⟩

/-! ## Parity -/

/-- The last stage drops all that the first three have gained by rounding up, or neither premium is
above the least one. -/
def GainDropped (b s : Int) (r a c : Rate) : Prop :=
  beforeSafety b r a c * s % SCALE + gained b r a c * s < SCALE ∨
    (beforeSafety b r a c + gained b r a c) * s < 2 * SCALE

theorem max_floorRatio_eq_iff {x e s : Int} (he : 0 ≤ e) (hs : 0 ≤ s) :
    max 1 (floorRatio (x + e) s) = max 1 (floorRatio x s) ↔
      x * s % SCALE + e * s < SCALE ∨ (x + e) * s < 2 * SCALE := by
  have hgain : 0 ≤ e * s := Int.mul_nonneg he hs
  rw [floorRatio, floorRatio, floor_div _ (by decide), floor_div _ (by decide), Int.add_mul]
  simp only [SCALE]
  omega

/-- **When the backend quotes what the contract charges**: for the base amounts that the contract
can price, where the last stage drops what rounding up has gained. -/
theorem parity_iff {t : MultiplierTable} {input : NiffyInsure.RiskInput} {b : Int} {r a c : Rate}
    (hdiscount : t.safetyDiscount = 1000)
    (hscore : input.safetyScore ≤ 100) (hb : 0 < b) (hmax : b ≤ I128_MAX)
    (hr : t.region input.region = some r.1) (ha : t.age input.ageBand = some a.1)
    (hc : t.coverage input.coverage = some c.1) :
    computePremium input b t = .ok (quoteFor input b r a c, t.version) ↔
      b ≤ premiumLimit r a c (10000 - input.safetyScore * 10) ∧
        GainDropped b (10000 - input.safetyScore * 10) r a c := by
  have hs : (0 : Int) ≤ 10000 - input.safetyScore * 10 := by omega
  have hfactor : safetyFactor input.safetyScore t.safetyDiscount =
      10000 - input.safetyScore * 10 := by
    rw [hdiscount, safetyFactor_thousand]
  have hformula : stagedPremium b r a c (10000 - input.safetyScore * 10) = quoteFor input b r a c ↔
      GainDropped b (10000 - input.safetyScore * 10) r a c := by
    rw [stagedPremium_eq, calculatePremium_eq hb hscore]
    exact max_floorRatio_eq_iff (gained_nonneg b r a c) hs
  rw [computePremium_eq_ok hmax, ← hformula]
  constructor
  · rintro ⟨r', a', c', hpriced, hp⟩
    have hrow := hpriced.region
    rw [hr] at hrow
    cases hrow
    have hrow := hpriced.age
    rw [ha] at hrow
    cases hrow
    have hrow := hpriced.coverage
    rw [hc] at hrow
    cases hrow
    have hlimit := hpriced.limit
    rw [hfactor] at hp hlimit
    exact ⟨hlimit, (Prod.mk.inj hp).1.symm⟩
  · rintro ⟨hlimit, htotal⟩
    refine ⟨r, a, c, ⟨hr, ha, hc, ⟨r.2, a.2, c.2⟩, by rw [hdiscount]; decide, ?_, hb, ?_⟩, ?_⟩
    · rwa [hfactor]
    · rwa [hfactor]
    · rw [hfactor, htotal]

theorem parity_iff_default :
    computePremium ⟨.medium, .young, .basic, 37⟩ 1000000
      { defaultMultiplierTable with safetyDiscount := 1000 } =
      .ok (quoteFor ⟨.medium, .young, .basic, 37⟩ 1000000 10000 12500 9000, 1) :=
  (parity_iff (t := { defaultMultiplierTable with safetyDiscount := 1000 })
    (r := ⟨10000, by decide⟩) (a := ⟨12500, by decide⟩) (c := ⟨9000, by decide⟩) rfl (by decide)
    (by decide) (by decide) rfl rfl rfl).mpr
      ⟨by decide +kernel, .inl (by decide +kernel)⟩

/-- Three quarters of a unit: the contract charges it as a whole one, the backend leaves it out. -/
theorem not_parity :
    ({ defaultMultiplierTable with safetyDiscount := 1000 } : MultiplierTable).validateTable =
      .ok () ∧ computePremium ⟨.medium, .young, .standard, 0⟩ 1000003
        { defaultMultiplierTable with safetyDiscount := 1000 } = .ok (1250004, 1) ∧
      calculatePremium ⟨1000003, 0, none⟩ ⟨10000, 10000, 12500, 10000⟩ = 1250003 :=
  ⟨by decide, by rfl, by decide⟩

end NiffyInsure.Backend.PremiumEngine
