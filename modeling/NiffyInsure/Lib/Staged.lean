import Mathlib.Algebra.Order.Floor.Ring
import Mathlib.Data.Int.ConditionallyCompleteOrder
import Mathlib.Data.Rat.Floor
import Mathlib.Tactic.Linarith
import Mathlib.Tactic.Ring
import Mathlib.Tactic.Positivity

/-!
# Products taken in stages

An amount is multiplied by one factor after the other, and rounded to an integer after each.

* `run_mono`: a run is monotone in the amount and in each of its stages.
* `near_run`: how far the roundings can carry a run away from the exact product.
* `run_up`: by how much rounding up everywhere exceeds rounding down everywhere, from the fractions
  that rounding down drops.
* `fits_iff`: when the products are computed within a bound, the amounts for which none exceeds it
  are those up to a limit that the factors determine.
-/

universe u

namespace Staged

variable {K : Type u} [Field K] [LinearOrder K] [IsStrictOrderedRing K]

/-- A rounding to the integers: monotone, and by less than one. -/
structure Rounds (round : K → ℤ) : Prop where
  mono : Monotone round
  near : ∀ x, |(round x : K) - x| < 1

theorem Rounds.intCast {round : K → ℤ} (h : Rounds round) (n : ℤ) : round n = n := by
  have hnear := abs_lt.mp (h.near n)
  have hlow : n - 1 < round n := by
    have : ((n - 1 : ℤ) : K) < round n := by
      push_cast
      linarith
    exact_mod_cast this
  have hhigh : round n < n + 1 := by
    have : (round n : K) < (n + 1 : ℤ) := by
      push_cast
      linarith
    exact_mod_cast this
  omega

theorem rounds_floor [FloorRing K] : Rounds (Int.floor : K → ℤ) where
  mono := Int.floor_mono
  near x := by
    rw [abs_lt]
    exact ⟨by linarith [Int.lt_floor_add_one x], by linarith [Int.floor_le x]⟩

theorem rounds_ceil [FloorRing K] : Rounds (Int.ceil : K → ℤ) where
  mono := Int.ceil_mono
  near x := by
    rw [abs_lt]
    exact ⟨by linarith [Int.le_ceil x], by linarith [Int.ceil_lt_add_one x]⟩

/-- A stage: the factor, and how the product is rounded. -/
structure Stage (K : Type u) [Field K] [LinearOrder K] where
  round : K → ℤ
  factor : K
  rounds : Rounds round
  nonneg : 0 ≤ factor

namespace Stage

def apply (s : Stage K) (x : ℤ) : ℤ := s.round (x * s.factor)

/-- One stage is at most another one: it rounds no higher, and its factor is no larger. -/
def Le (s t : Stage K) : Prop := (∀ x, s.round x ≤ t.round x) ∧ s.factor ≤ t.factor

omit [IsStrictOrderedRing K] in
theorem le_refl (s : Stage K) : s.Le s := ⟨fun _ => le_rfl, le_rfl⟩

section Floor

variable [FloorRing K]

/-- The stage that rounds up. -/
def up (f : {f : K // 0 ≤ f}) : Stage K := ⟨Int.ceil, f, rounds_ceil, f.2⟩

/-- The stage that rounds down. -/
def down (f : {f : K // 0 ≤ f}) : Stage K := ⟨Int.floor, f, rounds_floor, f.2⟩

theorem apply_up (f : {f : K // 0 ≤ f}) (x : ℤ) : (up f).apply x = ⌈(x : K) * f⌉ := rfl

theorem apply_down (f : {f : K // 0 ≤ f}) (x : ℤ) : (down f).apply x = ⌊(x : K) * f⌋ := rfl

theorem up_le {f g : {f : K // 0 ≤ f}} (h : f ≤ g) : (up f).Le (up g) := ⟨fun _ => le_rfl, h⟩

theorem down_le {f g : {f : K // 0 ≤ f}} (h : f ≤ g) : (down f).Le (down g) := ⟨fun _ => le_rfl, h⟩

end Floor

variable {s t : Stage K} {x y : ℤ}

theorem apply_mono (hst : s.Le t) (hx : 0 ≤ x) (hxy : x ≤ y) : s.apply x ≤ t.apply y := by
  have hx' : (0 : K) ≤ x := by exact_mod_cast hx
  have hxy' : (x : K) ≤ y := by exact_mod_cast hxy
  calc s.round (x * s.factor)
      ≤ t.round (x * s.factor) := hst.1 _
    _ ≤ t.round (y * t.factor) := t.rounds.mono (by
        have := t.nonneg
        exact mul_le_mul hxy' hst.2 s.nonneg (hx'.trans hxy'))

theorem apply_nonneg (hx : 0 ≤ x) : 0 ≤ s.apply x := by
  have hzero : s.apply 0 = 0 := by
    have := s.rounds.intCast 0
    rwa [apply, Int.cast_zero, zero_mul, ← Int.cast_zero]
  rw [← hzero]
  exact apply_mono s.le_refl le_rfl hx

/-- A stage multiplies the error made before, and adds less than one. -/
theorem near_apply {z e : K} (h : |(x : K) - z| ≤ e) :
    |(s.apply x : K) - z * s.factor| < e * s.factor + 1 := by
  have hround := s.rounds.near (x * s.factor)
  have hbefore : |(x : K) * s.factor - z * s.factor| ≤ e * s.factor := by
    rw [← sub_mul, abs_mul, abs_of_nonneg s.nonneg]
    exact mul_le_mul_of_nonneg_right h s.nonneg
  calc |(s.apply x : K) - z * s.factor|
      ≤ |(s.apply x : K) - x * s.factor| + |(x : K) * s.factor - z * s.factor| :=
        abs_sub_le _ _ _
    _ < e * s.factor + 1 := by
        rw [apply]
        linarith

end Stage

/-! ## Runs -/

/-- The stages, one after the other. -/
def run (stages : List (Stage K)) (x : ℤ) : ℤ := stages.foldl (fun x s => s.apply x) x

/-- The product without any rounding. -/
def exact (stages : List (Stage K)) (x : K) : K := stages.foldl (fun x s => x * s.factor) x

/-- How far an error of `e` can have grown after the stages. -/
def slack (stages : List (Stage K)) (e : K) : K := stages.foldl (fun e s => e * s.factor + 1) e

omit [IsStrictOrderedRing K] in
theorem run_cons (s : Stage K) (stages : List (Stage K)) (x : ℤ) :
    run (s :: stages) x = run stages (s.apply x) := rfl

theorem run_nonneg (stages : List (Stage K)) {x : ℤ} (hx : 0 ≤ x) : 0 ≤ run stages x := by
  induction stages generalizing x with
  | nil => exact hx
  | cons s stages ih => exact ih (Stage.apply_nonneg hx)

/-- **A run is monotone** in the amount and in each stage. -/
theorem run_mono {stages stages' : List (Stage K)} (h : List.Forall₂ Stage.Le stages stages')
    {x y : ℤ} (hx : 0 ≤ x) (hxy : x ≤ y) : run stages x ≤ run stages' y := by
  induction h generalizing x y with
  | nil => exact hxy
  | cons hst _ ih => exact ih (Stage.apply_nonneg hx) (Stage.apply_mono hst hx hxy)

theorem near_of_near (stages : List (Stage K)) {x : ℤ} {z e : K} (h : |(x : K) - z| < e) :
    |(run stages x : K) - exact stages z| < slack stages e := by
  induction stages generalizing x z e with
  | nil => exact h
  | cons s stages ih => exact ih (Stage.near_apply h.le)

/-- **A run stays near the exact product**: what each stage rounds away is multiplied by the later
factors only. -/
theorem near_run (s : Stage K) (stages : List (Stage K)) (x : ℤ) :
    |(run (s :: stages) x : K) - exact (s :: stages) x| < slack stages 1 := by
  have hfirst : |(s.apply x : K) - x * s.factor| < 1 := s.rounds.near _
  exact near_of_near stages hfirst

/-! ## Rounding up against rounding down -/

section Carry

variable [FloorRing K]

/-- What rounding up has gained on rounding down after the stages, when it started `e` ahead of
`x`. -/
def carry : List {f : K // 0 ≤ f} → ℤ → ℤ → ℤ
  | [], _, e => e
  | f :: fs, x, e => carry fs ⌊(x : K) * f⌋ ⌈Int.fract ((x : K) * f) + e * f⌉

/-- **Rounding up everywhere**, from rounding down everywhere and the carries. -/
theorem run_up (fs : List {f : K // 0 ≤ f}) (x e : ℤ) :
    run (fs.map Stage.up) (x + e) = run (fs.map Stage.down) x + carry fs x e := by
  induction fs generalizing x e with
  | nil => rfl
  | cons f fs ih =>
    have hstep : (Stage.up f).apply (x + e) =
        (Stage.down f).apply x + ⌈Int.fract ((x : K) * f) + e * f⌉ := by
      rw [Stage.apply_up, Stage.apply_down, ← Int.ceil_intCast_add]
      congr 1
      have := Int.floor_add_fract ((x : K) * f)
      push_cast
      linarith
    rw [List.map_cons, List.map_cons, run_cons, run_cons, hstep, ih]
    rfl

theorem carry_nonneg (fs : List {f : K // 0 ≤ f}) (x : ℤ) {e : ℤ} (he : 0 ≤ e) :
    0 ≤ carry fs x e := by
  induction fs generalizing x e with
  | nil => exact he
  | cons f fs ih =>
    apply ih
    have he' : (0 : K) ≤ e := by exact_mod_cast he
    exact Int.ceil_nonneg (add_nonneg (Int.fract_nonneg _) (mul_nonneg he' f.2))

end Carry

/-! ## Products within a bound -/

section Limit

variable (bound den : ℤ)

/-- No product on the way exceeds the bound; after each the amount is divided by `den`, rounding
up. -/
def Fits : List ℤ → ℤ → Prop
  | [], _ => True
  | n :: ns, x => x * n ≤ bound ∧ Fits ns ⌈((x * n : ℤ) : ℚ) / den⌉

/-- The largest amount that fits. -/
def limit : List ℤ → ℤ
  | [] => bound
  | n :: ns => if n = 0 then bound else min bound (min bound (den * limit ns) / n)

variable {bound den}

theorem limit_nonneg (hbound : 0 ≤ bound) (hden : 0 < den) {ns : List ℤ} (hns : ∀ n ∈ ns, 0 ≤ n) :
    0 ≤ limit bound den ns := by
  induction ns with
  | nil => exact hbound
  | cons n ns ih =>
    rw [limit]
    split
    · exact hbound
    · have hrest := ih fun m hm => hns m (List.mem_cons_of_mem _ hm)
      have hn := hns n List.mem_cons_self
      exact le_min hbound (Int.ediv_nonneg (le_min hbound (Int.mul_nonneg hden.le hrest)) hn)

/-- **The amounts that fit are those up to the limit.** -/
theorem fits_iff (hbound : 0 ≤ bound) (hden : 0 < den) {ns : List ℤ} (hns : ∀ n ∈ ns, 0 ≤ n) {x : ℤ}
    (hx : 0 ≤ x) (hxb : x ≤ bound) : Fits bound den ns x ↔ x ≤ limit bound den ns := by
  induction ns generalizing x with
  | nil => exact iff_of_true trivial hxb
  | cons n ns ih =>
    have hn := hns n List.mem_cons_self
    have hrest : ∀ m ∈ ns, 0 ≤ m := fun m hm => hns m (List.mem_cons_of_mem _ hm)
    have hden' : (0 : ℚ) < den := by exact_mod_cast hden
    have hprod : 0 ≤ x * n := Int.mul_nonneg hx hn
    rw [Fits, limit]
    split
    · rename_i hzero
      subst hzero
      have hceil : ⌈((x * 0 : ℤ) : ℚ) / den⌉ = 0 := by simp
      rw [hceil, ih hrest le_rfl hbound]
      exact iff_of_true ⟨by omega, limit_nonneg hbound hden hrest⟩ hxb
    · have hpos : 0 < n := by omega
      have hnext : 0 ≤ ⌈((x * n : ℤ) : ℚ) / den⌉ := by
        have : (0 : ℚ) ≤ (x * n : ℤ) := by exact_mod_cast hprod
        exact Int.ceil_nonneg (div_nonneg this hden'.le)
      have hgalois : ∀ l : ℤ, ⌈((x * n : ℤ) : ℚ) / den⌉ ≤ l ↔ x * n ≤ den * l := by
        intro l
        rw [Int.ceil_le, div_le_iff₀ hden', mul_comm (l : ℚ)]
        exact_mod_cast Iff.rfl
      have hlimit : x ≤ min bound (min bound (den * limit bound den ns) / n) ↔
          x * n ≤ bound ∧ x * n ≤ den * limit bound den ns := by
        rw [le_min_iff, Int.le_ediv_iff_mul_le hpos, le_min_iff]
        exact and_iff_right hxb
      rw [hlimit]
      refine and_congr_right fun hle => ?_
      have hnextb : ⌈((x * n : ℤ) : ℚ) / den⌉ ≤ bound :=
        (hgalois bound).mpr (hle.trans (by nlinarith))
      rw [ih hrest hnext hnextb, hgalois]

end Limit

end Staged
