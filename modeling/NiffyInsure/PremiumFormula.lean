import NiffyInsure.Lib.Staged
import NiffyInsure.Pricing

/-!
# The formula of the premium

What `compute_premium` computes, over the rationals: three stages that round up, one that rounds
down, and a floor of one unit.  Each stage multiplies before it divides, so a premium exists for the
base amounts up to a limit that the four factors determine.

* `computePremium_eq_ok`: when the engine succeeds, and with what.
* `computePremium_of_accepted`: against a validated table, the formula, its distance from the exact
  product, and how it moves with each of its arguments.
-/

namespace NiffyInsure

open Staged

/-! ## The formula -/

/-- `⌈x * m / SCALE⌉`. -/
def ceilRatio (x m : Int) : Int := ⌈((x * m : Int) : ℚ) / SCALE⌉

/-- `⌊x * m / SCALE⌋`. -/
def floorRatio (x m : Int) : Int := ⌊((x * m : Int) : ℚ) / SCALE⌋

/-- The factor of the last stage: the scale less the discount that the score has earned. -/
def safetyFactor (score : Nat) (discount : Int) : Int :=
  SCALE - ⌊((score * discount : Int) : ℚ) / PERCENT_SCALE⌋

/-- The premium for the base amount `b` under the four factors. -/
def stagedPremium (b r a c s : Int) : Int :=
  max 1 (floorRatio (ceilRatio (ceilRatio (ceilRatio b r) a) c) s)

/-- The largest base amount that the engine can price under the four factors. -/
def premiumLimit (r a c s : Int) : Int := limit I128_MAX SCALE [r, a, c, s]

theorem floor_div (p : Int) {d : Int} (hd : 0 < d) : ⌊(p : ℚ) / d⌋ = p / d := by
  obtain ⟨n, rfl⟩ := Int.eq_ofNat_of_zero_le hd.le
  exact_mod_cast Rat.floor_intCast_div_natCast p n

theorem ceil_div (p : Int) {d : Int} (hd : 0 < d) :
    ⌈(p : ℚ) / d⌉ = if p % d = 0 then p / d else p / d + 1 := by
  have hneg : ⌈(p : ℚ) / d⌉ = -(-p / d) := by
    rw [← floor_div (-p) hd, Int.cast_neg, neg_div, Int.floor_neg, neg_neg]
  have hp := Int.emod_add_mul_ediv p d
  have hlt := Int.emod_lt_of_pos p hd
  have hge := Int.emod_nonneg p hd.ne'
  rw [hneg]
  split
  · rename_i hzero
    rw [Int.neg_ediv_of_dvd (Int.dvd_of_emod_eq_zero hzero), neg_neg]
  · rename_i hrem
    have : -p / d = -(p / d + 1) := by
      refine ((Int.ediv_emod_unique (r := d - p % d) hd).mpr ⟨?_, by omega, by omega⟩).1
      have : d * -(p / d + 1) = -(d * (p / d)) - d := by ring
      omega
    rw [this, neg_neg]

theorem ceilRatio_nonneg {x m : Int} (hx : 0 ≤ x) (hm : 0 ≤ m) : 0 ≤ ceilRatio x m := by
  have : (0 : ℚ) ≤ (x * m : Int) := by exact_mod_cast Int.mul_nonneg hx hm
  exact Int.ceil_nonneg (div_nonneg this (by norm_num [SCALE]))

theorem ceilRatio_le {x m k : Int} (hx : 0 ≤ x) (hm : m ≤ SCALE * k) : ceilRatio x m ≤ x * k := by
  rw [ceilRatio, Int.ceil_le, div_le_iff₀ (by norm_num [SCALE])]
  have : x * m ≤ x * k * SCALE := by nlinarith
  exact_mod_cast this

/-! ## The stages of the engine -/

/-- **One stage that rounds up.** -/
theorem checkedMulRatio_ceil_eq_ok {x m v : Int} :
    checkedMulRatio x m SCALE .ceil = .ok v ↔
      (0 ≤ x ∧ 0 ≤ m) ∧ x * m ≤ I128_MAX ∧ v = ceilRatio x m := by
  have hscale : (0 : Int) < SCALE := by decide
  rw [ceilRatio, ceil_div _ hscale]
  simp only [checkedMulRatio, bind_eq_ok, ensure_eq_ok, okOr_eq_ok, checkedMul128, checkedAdd128,
    fit128_eq_some]
  constructor
  · rintro ⟨-, ⟨hx, hm, -⟩, product, ⟨hfit, rfl⟩, -, -, h⟩
    refine ⟨⟨hx, hm⟩, hfit.2, ?_⟩
    split at h
    · rename_i hrem
      rw [pure_eq_ok] at h
      rw [if_pos hrem, h]
    · rename_i hrem
      rw [if_neg hrem]
      exact (fit128_eq_some.mp (okOr_eq_ok.mp h)).2
  · rintro ⟨⟨hx, hm⟩, hfit, rfl⟩
    have hprod : 0 ≤ x * m := Int.mul_nonneg hx hm
    refine ⟨(), ⟨hx, hm, hscale.le⟩, x * m, ⟨⟨le_trans (by decide) hprod, hfit⟩, rfl⟩, (),
      hscale.ne', ?_⟩
    split
    · rfl
    · rw [okOr_eq_ok, fit128_eq_some]
      refine ⟨?_, rfl⟩
      simp only [SCALE, I128_MIN, I128_MAX] at hfit ⊢
      omega

theorem checkedMulRatio_floor_eq_ok {x m d v : Int} (hd : 0 < d) :
    checkedMulRatio x m d .floor = .ok v ↔
      (0 ≤ x ∧ 0 ≤ m) ∧ x * m ≤ I128_MAX ∧ v = ⌊((x * m : Int) : ℚ) / d⌋ := by
  rw [floor_div _ hd]
  simp only [checkedMulRatio, bind_eq_ok, ensure_eq_ok, okOr_eq_ok, checkedMul128, fit128_eq_some,
    pure_eq_ok]
  constructor
  · rintro ⟨-, ⟨hx, hm, -⟩, product, ⟨hfit, rfl⟩, -, -, rfl⟩
    exact ⟨⟨hx, hm⟩, hfit.2, rfl⟩
  · rintro ⟨⟨hx, hm⟩, hfit, rfl⟩
    have hprod : 0 ≤ x * m := Int.mul_nonneg hx hm
    exact ⟨(), ⟨hx, hm, hd.le⟩, x * m, ⟨⟨le_trans (by decide) hprod, hfit⟩, rfl⟩, (), hd.ne', rfl⟩

theorem safetyMultiplier_eq_ok {score : Nat} {d m : Int} :
    safetyMultiplier score d = .ok m ∧ 0 ≤ m ↔
      0 ≤ d ∧ 0 ≤ safetyFactor score d ∧ m = safetyFactor score d := by
  simp only [safetyMultiplier, bind_eq_ok, okOr_eq_ok, checkedSub128, fit128_eq_some,
    checkedMulRatio_floor_eq_ok (show (0 : Int) < PERCENT_SCALE by decide), safetyFactor]
  constructor
  · rintro ⟨⟨earned, ⟨⟨-, hd⟩, -, rfl⟩, -, rfl⟩, hm⟩
    exact ⟨hd, hm, rfl⟩
  · rintro ⟨hd, hm, rfl⟩
    rw [floor_div _ (by decide)] at hm ⊢
    have hprod : 0 ≤ score * d := Int.mul_nonneg (Int.natCast_nonneg _) hd
    simp only [SCALE, PERCENT_SCALE, I128_MIN, I128_MAX] at hm ⊢
    refine ⟨⟨_, ⟨⟨Int.natCast_nonneg _, hd⟩, by omega, rfl⟩, by omega, rfl⟩, hm⟩

/-! ## When the engine succeeds -/

/-- The engine prices the base amount: the rows are there, no factor is negative, and the base
amount is positive and up to the limit. -/
structure Priced (t : MultiplierTable) (input : RiskInput) (b r a c : Int) : Prop where
  region : t.region input.region = some r
  age : t.age input.ageBand = some a
  coverage : t.coverage input.coverage = some c
  nonneg : 0 ≤ r ∧ 0 ≤ a ∧ 0 ≤ c
  discount : 0 ≤ t.safetyDiscount
  safety : 0 ≤ safetyFactor input.safetyScore t.safetyDiscount
  base : 0 < b
  limit : b ≤ premiumLimit r a c (safetyFactor input.safetyScore t.safetyDiscount)

theorem fits_iff_le_premiumLimit {b r a c s : Int} (hb : 0 ≤ b) (hmax : b ≤ I128_MAX)
    (hr : 0 ≤ r) (ha : 0 ≤ a) (hc : 0 ≤ c) (hs : 0 ≤ s) :
    b * r ≤ I128_MAX ∧ ceilRatio b r * a ≤ I128_MAX ∧ ceilRatio (ceilRatio b r) a * c ≤ I128_MAX ∧
      ceilRatio (ceilRatio (ceilRatio b r) a) c * s ≤ I128_MAX ↔ b ≤ premiumLimit r a c s := by
  have hns : ∀ n ∈ [r, a, c, s], 0 ≤ n := by simp [hr, ha, hc, hs]
  rw [premiumLimit, ← fits_iff (by decide) (by decide) hns hb hmax]
  simp only [Fits, ceilRatio, and_true]

theorem floorRatio_nonneg {x m : Int} (hx : 0 ≤ x) (hm : 0 ≤ m) : 0 ≤ floorRatio x m := by
  rw [floorRatio, floor_div _ (by decide)]
  exact Int.ediv_nonneg (Int.mul_nonneg hx hm) (by decide)

/-- **What the engine computes, and when it does.** -/
theorem computePremium_eq_ok {t : MultiplierTable} {input : RiskInput} {b : Int} {p : Int × Nat}
    (hmax : b ≤ I128_MAX) :
    computePremium input b t = .ok p ↔ ∃ r a c, Priced t input b r a c ∧
      p = (stagedPremium b r a c (safetyFactor input.safetyScore t.safetyDiscount), t.version) := by
  simp only [computePremium, bind_eq_ok, ensure_eq_ok, okOr_eq_ok, checkedMulRatio_ceil_eq_ok,
    checkedMulRatio_floor_eq_ok (show (0 : Int) < SCALE by decide), pure_eq_ok]
  constructor
  · rintro ⟨-, hb, r, hr, a, ha, c, hc, m, hm, x₁, ⟨⟨-, hr₀⟩, h₁, rfl⟩, x₂, ⟨⟨hx₁, ha₀⟩, h₂, rfl⟩,
      x₃, ⟨⟨hx₂, hc₀⟩, h₃, rfl⟩, x₄, ⟨⟨hx₃, hm₀⟩, h₄, rfl⟩, -, hx₄, rfl⟩
    obtain ⟨hd, hs, rfl⟩ := safetyMultiplier_eq_ok.mp ⟨hm, hm₀⟩
    refine ⟨r, a, c, ⟨hr, ha, hc, ⟨hr₀, ha₀, hc₀⟩, hd, hs, hb, ?_⟩, ?_⟩
    · exact (fits_iff_le_premiumLimit hb.le hmax hr₀ ha₀ hc₀ hs).mp ⟨h₁, h₂, h₃, h₄⟩
    · rw [stagedPremium, floorRatio]
      congr 1
      split <;> omega
  · rintro ⟨r, a, c, ⟨hr, ha, hc, ⟨hr₀, ha₀, hc₀⟩, hd, hs, hb, hlimit⟩, rfl⟩
    obtain ⟨hm, -⟩ := safetyMultiplier_eq_ok.mpr ⟨hd, hs, rfl⟩
    obtain ⟨h₁, h₂, h₃, h₄⟩ := (fits_iff_le_premiumLimit hb.le hmax hr₀ ha₀ hc₀ hs).mpr hlimit
    have hx₁ := ceilRatio_nonneg hb.le hr₀
    have hx₂ := ceilRatio_nonneg hx₁ ha₀
    have hx₃ := ceilRatio_nonneg hx₂ hc₀
    have hx₄ := floorRatio_nonneg hx₃ hs
    refine ⟨(), hb, r, hr, a, ha, c, hc, _, hm, _, ⟨⟨hb.le, hr₀⟩, h₁, rfl⟩, _,
      ⟨⟨hx₁, ha₀⟩, h₂, rfl⟩, _, ⟨⟨hx₂, hc₀⟩, h₃, rfl⟩, _, ⟨⟨hx₃, hs⟩, h₄, rfl⟩, (), hx₄, ?_⟩
    rw [stagedPremium, floorRatio]
    congr 1
    split <;> omega

/-! ## The formula as a run of stages -/

/-- A multiplier that is not negative. -/
abbrev Rate := {m : Int // 0 ≤ m}

def Rate.factor (m : Rate) : {f : ℚ // 0 ≤ f} :=
  ⟨m.1 / SCALE, div_nonneg (by exact_mod_cast m.2) (by norm_num [SCALE])⟩

theorem Rate.factor_mono {m m' : Rate} (h : m ≤ m') : m.factor ≤ m'.factor := by
  have : (m.1 : ℚ) ≤ m'.1 := by exact_mod_cast h
  exact div_le_div_of_nonneg_right this (by norm_num [SCALE])

def premiumStages (r a c s : Rate) : List (Stage ℚ) :=
  [.up r.factor, .up a.factor, .up c.factor, .down s.factor]

theorem apply_up_factor (m : Rate) (x : Int) : (Stage.up m.factor).apply x = ceilRatio x m := by
  rw [Stage.apply_up, ceilRatio, Int.cast_mul, mul_div_assoc]
  rfl

theorem apply_down_factor (m : Rate) (x : Int) :
    (Stage.down m.factor).apply x = floorRatio x m := by
  rw [Stage.apply_down, floorRatio, Int.cast_mul, mul_div_assoc]
  rfl

theorem stagedPremium_eq_run (b : Int) (r a c s : Rate) :
    stagedPremium b r a c s = max 1 (run (premiumStages r a c s) b) := by
  simp only [stagedPremium, premiumStages, run, List.foldl_cons, List.foldl_nil, apply_up_factor,
    apply_down_factor]

theorem stagedPremium_mono {b b' r r' a a' c c' s s' : Int} (hb : 0 ≤ b) (hr : 0 ≤ r) (ha : 0 ≤ a)
    (hc : 0 ≤ c) (hs : 0 ≤ s) (hbb : b ≤ b') (hrr : r ≤ r') (haa : a ≤ a') (hcc : c ≤ c')
    (hss : s ≤ s') : stagedPremium b r a c s ≤ stagedPremium b' r' a' c' s' := by
  have hstages : List.Forall₂ Stage.Le
      (premiumStages ⟨r, hr⟩ ⟨a, ha⟩ ⟨c, hc⟩ ⟨s, hs⟩)
      (premiumStages ⟨r', hr.trans hrr⟩ ⟨a', ha.trans haa⟩ ⟨c', hc.trans hcc⟩ ⟨s', hs.trans hss⟩) :=
    .cons (Stage.up_le (Rate.factor_mono hrr)) (.cons (Stage.up_le (Rate.factor_mono haa))
      (.cons (Stage.up_le (Rate.factor_mono hcc))
        (.cons (Stage.down_le (Rate.factor_mono hss)) .nil)))
  have hrun := run_mono hstages hb hbb
  rw [stagedPremium_eq_run b ⟨r, hr⟩ ⟨a, ha⟩ ⟨c, hc⟩ ⟨s, hs⟩,
    stagedPremium_eq_run b' ⟨r', hr.trans hrr⟩ ⟨a', ha.trans haa⟩ ⟨c', hc.trans hcc⟩
    ⟨s', hs.trans hss⟩]
  exact max_le_max_left 1 hrun

/-- **The premium is near the exact product**, by a bound that does not depend on the base amount:
each unit that a stage adds is multiplied by the later factors, of which two are at most five. -/
theorem stagedPremium_near {b r a c s : Int} (hb : 0 ≤ b) (hr : 0 ≤ r) (ha : 0 ≤ a ∧ a ≤ 5 * SCALE)
    (hc : 0 ≤ c ∧ c ≤ 5 * SCALE) (hs : 0 ≤ s ∧ s ≤ SCALE) :
    |(stagedPremium b r a c s : ℚ) - b * r * a * c * s / 10 ^ 16| < 32 := by
  have hscale : ((SCALE : Int) : ℚ) = 10000 := by norm_num [SCALE]
  have hnear := near_run (.up (Rate.factor ⟨r, hr⟩))
    [.up (Rate.factor ⟨a, ha.1⟩), .up (Rate.factor ⟨c, hc.1⟩), .down (Rate.factor ⟨s, hs.1⟩)] b
  have hexact : exact (premiumStages ⟨r, hr⟩ ⟨a, ha.1⟩ ⟨c, hc.1⟩ ⟨s, hs.1⟩) (b : ℚ) =
      b * r * a * c * s / 10 ^ 16 := by
    simp only [exact, premiumStages, List.foldl_cons, List.foldl_nil, Stage.up,
      Stage.down, Rate.factor, hscale]
    ring
  have hslack : slack [.up (Rate.factor ⟨a, ha.1⟩), .up (Rate.factor ⟨c, hc.1⟩),
      .down (Rate.factor ⟨s, hs.1⟩)] (1 : ℚ) ≤ 32 := by
    have ha' : (a : ℚ) / 10000 ≤ 5 := by
      rw [div_le_iff₀ (by norm_num)]
      exact_mod_cast ha.2
    have hc' : (c : ℚ) / 10000 ≤ 5 := by
      rw [div_le_iff₀ (by norm_num)]
      exact_mod_cast hc.2
    have hs' : (s : ℚ) / 10000 ≤ 1 := by
      rw [div_le_iff₀ (by norm_num), one_mul]
      exact_mod_cast hs.2
    have ha₀ : (0 : ℚ) ≤ a / 10000 := div_nonneg (by exact_mod_cast ha.1) (by norm_num)
    have hc₀ : (0 : ℚ) ≤ c / 10000 := div_nonneg (by exact_mod_cast hc.1) (by norm_num)
    have hs₀ : (0 : ℚ) ≤ s / 10000 := div_nonneg (by exact_mod_cast hs.1) (by norm_num)
    simp only [slack, List.foldl_cons, List.foldl_nil, Stage.up, Stage.down, Rate.factor, hscale]
    have h₂ : ((1 : ℚ) * (a / 10000) + 1) * (c / 10000) ≤ 6 * 5 :=
      mul_le_mul (by linarith) hc' hc₀ (by norm_num)
    have h₃ : (((1 : ℚ) * (a / 10000) + 1) * (c / 10000) + 1) * (s / 10000) ≤ 31 * 1 :=
      mul_le_mul (by linarith) hs' hs₀ (by norm_num)
    linarith
  change |((run (premiumStages ⟨r, hr⟩ ⟨a, ha.1⟩ ⟨c, hc.1⟩ ⟨s, hs.1⟩) b : Int) : ℚ) -
    exact (premiumStages ⟨r, hr⟩ ⟨a, ha.1⟩ ⟨c, hc.1⟩ ⟨s, hs.1⟩) b| < _ at hnear
  rw [hexact] at hnear
  have hrun : 0 ≤ run (premiumStages ⟨r, hr⟩ ⟨a, ha.1⟩ ⟨c, hc.1⟩ ⟨s, hs.1⟩) b := run_nonneg _ hb
  have hprod : (0 : ℚ) ≤ b * r * a * c * s / 10 ^ 16 := by
    have := Int.mul_nonneg (Int.mul_nonneg (Int.mul_nonneg (Int.mul_nonneg hb hr) ha.1) hc.1) hs.1
    exact div_nonneg (by exact_mod_cast this) (by norm_num)
  rw [stagedPremium_eq_run b ⟨r, hr⟩ ⟨a, ha.1⟩ ⟨c, hc.1⟩ ⟨s, hs.1⟩]
  have hlt := abs_lt.mp (hnear.trans_le hslack)
  -- only a run that ends at zero is raised, to one
  rcases le_total 1 (run (premiumStages ⟨r, hr⟩ ⟨a, ha.1⟩ ⟨c, hc.1⟩ ⟨s, hs.1⟩) b) with hone | hone
  · rw [max_eq_right hone]
    exact abs_lt.mpr hlt
  · have hone' : ((run (premiumStages ⟨r, hr⟩ ⟨a, ha.1⟩ ⟨c, hc.1⟩ ⟨s, hs.1⟩) b : Int) : ℚ) ≤ 1 := by
      exact_mod_cast hone
    rw [max_eq_left hone, abs_lt]
    push_cast
    constructor
    · linarith
    · linarith

/-! ## Against a validated table -/

/-- The rows under the keys lie within the bounds. -/
def rowsWithin {α : Type} (rows : α → Option Int) (keys : List α) : Bool :=
  keys.all fun k => (rows k).all fun v => decide (MIN_MULTIPLIER ≤ v ∧ v ≤ MAX_MULTIPLIER)

/-- `premium_pure::validate_table`: the three counts first, then the bounds. -/
def MultiplierTable.validateTable (table : MultiplierTable) : Result Unit := do
  ensure (rowCount table.region RegionTier.all = 3) (.error .missingRegionMultiplier)
  ensure (rowCount table.age AgeBand.all = 3) (.error .missingAgeMultiplier)
  ensure (rowCount table.coverage CoverageTier.all = 3) (.error .missingCoverageMultiplier)
  ensure (rowsWithin table.region RegionTier.all = true) (.error .regionMultiplierOutOfBounds)
  ensure (rowsWithin table.age AgeBand.all = true) (.error .ageMultiplierOutOfBounds)
  ensure (rowsWithin table.coverage CoverageTier.all = true) (.error .coverageMultiplierOutOfBounds)
  ensure (0 ≤ table.safetyDiscount ∧ table.safetyDiscount ≤ MAX_SAFETY_DISCOUNT)
    (.error .safetyDiscountOutOfBounds)

theorem validateTable_eq_ok {t : MultiplierTable} :
    t.validateTable = .ok () ↔ t.validateRows = .ok () := by
  simp only [MultiplierTable.validateTable, MultiplierTable.validateRows,
    MultiplierTable.checkShape, validateTableRows, bind_eq_ok, ensure_eq_ok]
  constructor
  · rintro ⟨-, hr, -, ha, -, hc, -, hr', -, ha', -, hc', hd⟩
    exact ⟨(), ⟨(), hr, (), ha, hc⟩, (), ⟨(), hr, hr'⟩, (), ⟨(), ha, ha'⟩, (), ⟨(), hc, hc'⟩, hd⟩
  · rintro ⟨-, ⟨-, hr, -, ha, hc⟩, -, ⟨-, -, hr'⟩, -, ⟨-, -, ha'⟩, -, ⟨-, -, hc'⟩, hd⟩
    exact ⟨(), hr, (), ha, (), hc, (), hr', (), ha', (), hc', hd⟩

/-- The table has passed `validate_table`, the score and the base amount are in range. -/
structure Accepted (t : MultiplierTable) (input : RiskInput) (b : Int) : Prop where
  table : t.validateTable = .ok ()
  score : input.safetyScore ≤ 100
  base : 0 < b
  limit : b ≤ 2 ^ 127 / (50000 * 140)

/-- One input selects multipliers no larger than another one, and earns no smaller a discount. -/
structure RatesLe (t t' : MultiplierTable) (input input' : RiskInput) : Prop where
  region : ∀ r r', t.region input.region = some r → t'.region input'.region = some r' → r ≤ r'
  age : ∀ a a', t.age input.ageBand = some a → t'.age input'.ageBand = some a' → a ≤ a'
  coverage : ∀ c c', t.coverage input.coverage = some c →
    t'.coverage input'.coverage = some c' → c ≤ c'
  score : input'.safetyScore ≤ input.safetyScore
  discount : t'.safetyDiscount ≤ t.safetyDiscount

theorem safetyFactor_antitone {score score' : Nat} {d d' : Int} (hd : 0 ≤ d)
    (hscore : score ≤ score') (hdd : d ≤ d') : safetyFactor score' d' ≤ safetyFactor score d := by
  have hprod : (score : Int) * d ≤ score' * d' :=
    Int.mul_le_mul (by exact_mod_cast hscore) hdd hd (Int.natCast_nonneg _)
  rw [safetyFactor, safetyFactor, floor_div _ (by decide), floor_div _ (by decide)]
  exact Int.sub_le_sub_left (Int.ediv_le_ediv (by decide) hprod) _

theorem safetyFactor_bounds {score : Nat} {d : Int} (hscore : score ≤ 100) (hd : 0 ≤ d)
    (hd' : d ≤ MAX_SAFETY_DISCOUNT) :
    SCALE - MAX_SAFETY_DISCOUNT ≤ safetyFactor score d ∧ safetyFactor score d ≤ SCALE := by
  have hprod : (0 : Int) ≤ score * d := Int.mul_nonneg (Int.natCast_nonneg _) hd
  have hprod' : (score : Int) * d ≤ 100 * MAX_SAFETY_DISCOUNT :=
    Int.mul_le_mul (by exact_mod_cast hscore) hd' hd (by decide)
  rw [safetyFactor, floor_div _ (by decide)]
  simp only [SCALE, MAX_SAFETY_DISCOUNT, PERCENT_SCALE] at hprod' ⊢
  omega

/-- Up to that base amount no product leaves the range: the three stages grow by at most five
each, and the last factor is at most one. -/
theorem priced_of_accepted {t : MultiplierTable} {input : RiskInput} {b : Int}
    (h : Accepted t input b) : ∃ r a c, Priced t input b r a c ∧
      r ≤ MAX_MULTIPLIER ∧ a ≤ MAX_MULTIPLIER ∧ c ≤ MAX_MULTIPLIER := by
  have hsound := sound_of_validateRows (validateTable_eq_ok.mp h.table)
  obtain ⟨r, hregion, hr, hr'⟩ := hsound.region input.region
  obtain ⟨a, hage, ha, ha'⟩ := hsound.age input.ageBand
  obtain ⟨c, hcoverage, hc, hc'⟩ := hsound.coverage input.coverage
  obtain ⟨hs, hs'⟩ := safetyFactor_bounds h.score hsound.discount.1 hsound.discount.2
  have hpos : ∀ {m : Int}, MIN_MULTIPLIER ≤ m → 0 ≤ m := fun hm => le_trans (by decide) hm
  have hb := h.base
  have hlimit : b * (50000 * 140) ≤ 2 ^ 127 := by
    have := h.limit
    rw [Int.le_ediv_iff_mul_le (by decide)] at this
    exact this
  have hs₀ : 0 ≤ safetyFactor input.safetyScore t.safetyDiscount := le_trans (by decide) hs
  have hgrow : ∀ {x m : Int}, 0 ≤ x → m ≤ MAX_MULTIPLIER → ceilRatio x m ≤ x * 5 := fun hx hm =>
    ceilRatio_le hx (hm.trans (by decide))
  have hx₁ := ceilRatio_nonneg hb.le (hpos hr)
  have hx₂ := ceilRatio_nonneg hx₁ (hpos ha)
  have hx₃ := ceilRatio_nonneg hx₂ (hpos hc)
  have hle₁ := hgrow hb.le hr'
  have hle₂ := hgrow hx₁ ha'
  have hle₃ := hgrow hx₂ hc'
  have hmul : ∀ {x m k : Int}, 0 ≤ x → m ≤ k → x * m ≤ x * k := fun hx hm =>
    Int.mul_le_mul_of_nonneg_left hm hx
  refine ⟨r, a, c, ⟨hregion, hage, hcoverage, ⟨hpos hr, hpos ha, hpos hc⟩, hsound.discount.1, hs₀,
    hb, ?_⟩, hr', ha', hc'⟩
  have hp₁ := hmul hb.le hr'
  have hp₂ := hmul hx₁ ha'
  have hp₃ := hmul hx₂ hc'
  have hp₄ := hmul hx₃ hs'
  simp only [MAX_MULTIPLIER, SCALE] at hp₁ hp₂ hp₃ hp₄
  rw [← fits_iff_le_premiumLimit hb.le (by rw [I128_MAX]; omega) (hpos hr) (hpos ha)
    (hpos hc) hs₀, I128_MAX]
  refine ⟨by omega, by omega, by omega, by omega⟩

/-- **The premium against a validated table**: the engine succeeds, its total is the formula, at
most 32 units from the exact product, and no premium with a smaller base amount, smaller
multipliers, a better score or a larger discount is larger. -/
theorem computePremium_of_accepted {t : MultiplierTable} {input : RiskInput} {b : Int}
    (h : Accepted t input b) :
    ∃ r a c s, t.region input.region = some r ∧ t.age input.ageBand = some a ∧
      t.coverage input.coverage = some c ∧
      s = 10000 - ⌊((input.safetyScore * t.safetyDiscount : Int) : ℚ) / 100⌋ ∧
      computePremium input b t = .ok (stagedPremium b r a c s, t.version) ∧
      |(stagedPremium b r a c s : ℚ) - b * r * a * c * s / 10 ^ 16| < 32 ∧
      ∀ t' input' b' total' version', Accepted t' input' b' → b ≤ b' → RatesLe t t' input input' →
        computePremium input' b' t' = .ok (total', version') →
        stagedPremium b r a c s ≤ total' := by
  have hsound := sound_of_validateRows (validateTable_eq_ok.mp h.table)
  have hmax : ∀ {b : Int}, b ≤ 2 ^ 127 / (50000 * 140) → b ≤ I128_MAX := fun hb =>
    hb.trans (by decide)
  obtain ⟨r, a, c, hpriced, hr, ha, hc⟩ := priced_of_accepted h
  obtain ⟨hs, hs'⟩ := safetyFactor_bounds h.score hsound.discount.1 hsound.discount.2
  refine ⟨r, a, c, safetyFactor input.safetyScore t.safetyDiscount, hpriced.region, hpriced.age,
    hpriced.coverage, rfl, ?_, ?_, ?_⟩
  · exact (computePremium_eq_ok (hmax h.limit)).mpr ⟨r, a, c, hpriced, rfl⟩
  · exact stagedPremium_near h.base.le hpriced.nonneg.1 ⟨hpriced.nonneg.2.1, ha.trans (by decide)⟩
      ⟨hpriced.nonneg.2.2, hc.trans (by decide)⟩ ⟨hpriced.safety, hs'⟩
  · intro t' input' b' total' version' h' hbb hrates htotal
    obtain ⟨r', a', c', hpriced', htotal⟩ := (computePremium_eq_ok (hmax h'.limit)).mp htotal
    cases htotal
    exact stagedPremium_mono h.base.le hpriced.nonneg.1 hpriced.nonneg.2.1 hpriced.nonneg.2.2
      hpriced.safety hbb (hrates.region _ _ hpriced.region hpriced'.region)
      (hrates.age _ _ hpriced.age hpriced'.age)
      (hrates.coverage _ _ hpriced.coverage hpriced'.coverage)
      (safetyFactor_antitone hpriced'.discount hrates.score hrates.discount)

/-- The default table, at the largest base amount of the range. -/
theorem computePremium_of_accepted_default :
    ∃ r a c s, defaultMultiplierTable.region .high = some r ∧
      defaultMultiplierTable.age .young = some a ∧
      defaultMultiplierTable.coverage .premium = some c ∧
      computePremium ⟨.high, .young, .premium, 100⟩ (2 ^ 127 / (50000 * 140))
      defaultMultiplierTable =
        .ok (stagedPremium (2 ^ 127 / (50000 * 140)) r a c s, 1) := by
  have hacc : Accepted defaultMultiplierTable ⟨.high, .young, .premium, 100⟩
      (2 ^ 127 / (50000 * 140)) :=
    ⟨by decide, by decide, by decide, le_rfl⟩
  obtain ⟨r, a, c, s, hr, ha, hc, -, htotal, -⟩ := computePremium_of_accepted hacc
  exact ⟨r, a, c, s, hr, ha, hc, htotal⟩

end NiffyInsure
