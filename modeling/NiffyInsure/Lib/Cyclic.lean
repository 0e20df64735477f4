import Mathlib.Data.Int.ModEq

/-!
# Intervals of a cycle

The integers modulo a period `p` are a cycle, on which one goes forward from any point to any other.
`Arc p start stop` is the interval from `start` on, in which one is as long as one has not come to
`stop`; it may contain the point at which the numbers start again.

* `arc_iff`: for numbers below the period, the interval is between them, or around them.
* `Arc.advance`, `not_arc_stop`: one stays in the interval until one comes to its end.
-/

namespace Cyclic

variable {p start stop x y k : Int}

/-- How far it is from `a` forward to `b`. -/
def ahead (p a b : Int) : Int := (b - a) % p

/-- Going forward from `start`, one comes to `x` before one comes to `stop`. -/
def Arc (p start stop x : Int) : Prop := ahead p start x < ahead p start stop

instance (p start stop x : Int) : Decidable (Arc p start stop x) :=
  inferInstanceAs (Decidable (_ < _))

theorem ahead_nonneg (hp : 0 < p) (a b : Int) : 0 ≤ ahead p a b := Int.emod_nonneg _ hp.ne'

theorem ahead_lt (hp : 0 < p) (a b : Int) : ahead p a b < p := Int.emod_lt_of_pos _ hp

/-- Numbers that are the same on the cycle, and both within one turn, are equal. -/
theorem eq_of_dvd_sub (hdvd : p ∣ x - y) (hlt : x - y < p) (hgt : y - x < p) : x = y := by
  have hzero : x - y = 0 := Int.eq_zero_of_abs_lt_dvd hdvd (abs_lt.mpr ⟨by omega, hlt⟩)
  omega

theorem dvd_ahead_sub (p a b : Int) : p ∣ b - a - ahead p a b := Int.dvd_self_sub_emod

theorem ahead_eq {a b : Int} (hp : 0 < p) (hk : 0 ≤ k) (hlt : k < p) (hdvd : p ∣ b - a - k) :
    ahead p a b = k := by
  have hnonneg := ahead_nonneg hp a b
  have hbound := ahead_lt hp a b
  have hsub := Int.dvd_sub hdvd (dvd_ahead_sub p a b)
  have heq : b - a - k - (b - a - ahead p a b) = ahead p a b - k := by omega
  rw [heq] at hsub
  exact eq_of_dvd_sub hsub (by omega) (by omega)

/-- **Between two numbers, or around them.** -/
theorem arc_iff (hstart : 0 ≤ start) (hstart' : start < p) (hstop : 0 ≤ stop) (hstop' : stop < p)
    (hx : 0 ≤ x) (hx' : x < p) :
    Arc p start stop x ↔
      if start ≤ stop then start ≤ x ∧ x < stop else start ≤ x ∨ x < stop := by
  have hahead : ∀ y, 0 ≤ y → y < p →
      ahead p start y = if start ≤ y then y - start else y - start + p := by
    intro y hy hy'
    split
    · exact ahead_eq (by omega) (by omega) (by omega) (by simp)
    · refine ahead_eq (by omega) (by omega) (by omega) ⟨-1, ?_⟩
      omega
  rw [Arc, hahead x hx hx', hahead stop hstop hstop']
  split <;> split <;> omega

/-- The way to a point of the interval and the way on to its end are the way through it. -/
theorem Arc.ahead_add (hp : 0 < p) (h : Arc p start stop x) :
    ahead p start x + ahead p x stop = ahead p start stop := by
  have h₁ := ahead_nonneg hp start x
  have h₂ := ahead_nonneg hp x stop
  have h₃ := ahead_lt hp x stop
  have h₄ := ahead_lt hp start stop
  have h₅ : ahead p start x < ahead p start stop := h
  have hsub := Int.dvd_sub (dvd_ahead_sub p start stop)
    (Int.dvd_add (dvd_ahead_sub p start x) (dvd_ahead_sub p x stop))
  have heq : stop - start - ahead p start stop -
      (x - start - ahead p start x + (stop - x - ahead p x stop)) =
      ahead p start x + ahead p x stop - ahead p start stop := by omega
  rw [heq] at hsub
  exact eq_of_dvd_sub hsub (by omega) (by omega)

theorem Arc.ahead_pos (hp : 0 < p) (h : Arc p start stop x) : 0 < ahead p x stop := by
  have hadd := h.ahead_add hp
  have hlt : ahead p start x < ahead p start stop := h
  omega

/-- **One stays in the interval until one comes to its end.** -/
theorem Arc.advance (hp : 0 < p) (h : Arc p start stop x) (hk : 0 ≤ k) (hlt : k < ahead p x stop)
    (hy : p ∣ y - (x + k)) : Arc p start stop y := by
  have hadd := h.ahead_add hp
  have hnonneg := ahead_nonneg hp start x
  have hbound := ahead_lt hp start stop
  have hahead : ahead p start y = ahead p start x + k := by
    refine ahead_eq hp (by omega) (by omega) ?_
    have hsum := Int.dvd_add hy (dvd_ahead_sub p start x)
    have heq : y - (x + k) + (x - start - ahead p start x) = y - start - (ahead p start x + k) := by
      omega
    rwa [heq] at hsum
  rw [Arc, hahead]
  omega

theorem not_arc_stop (hy : p ∣ y - stop) : ¬ Arc p start stop y := by
  have heq : ahead p start y = ahead p start stop := by
    have heq : y - start - (stop - start) = y - stop := by omega
    rw [ahead, ahead, Int.emod_eq_emod_iff_emod_sub_eq_zero, ← Int.dvd_iff_emod_eq_zero, heq]
    exact hy
  rw [Arc, heq]
  exact lt_irrefl _

end Cyclic
