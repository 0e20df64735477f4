import Mathlib.Algebra.Group.Defs

/-!
# Tumbling windows

Time is cut into buckets of `w` ticks; the bucket `k` is the interval from `k * w` up to
`(k + 1) * w`.  A meter holds the total of one bucket and the tick at which that bucket starts; in
any other bucket it reads zero.

* `inBucket_iff`: a tick lies in the bucket that the division gives.
* `Tracks`: the meter reads what has been booked in the present bucket, for the buckets that are
  followed.
* `Tracks.advance`: it still does as time goes on, as long as nothing is booked ahead of time.
* `Tracks.restart`: it does after it was written in the present bucket.
-/

namespace Tumbling

universe u

/-- The tick lies in the `k`-th bucket. -/
def InBucket (w k n : Nat) : Prop := k * w ≤ n ∧ n < (k + 1) * w

instance (w k n : Nat) : Decidable (InBucket w k n) := inferInstanceAs (Decidable (_ ∧ _))

theorem inBucket_iff {w k n : Nat} (hw : 0 < w) : InBucket w k n ↔ n / w = k := by
  constructor
  · rintro ⟨hlo, hhi⟩
    exact Nat.div_eq_of_lt_le hlo hhi
  · rintro rfl
    exact ⟨Nat.div_mul_le_self n w, Nat.lt_mul_of_div_lt (Nat.lt_succ_self _) hw⟩

/-- A total, and the start of the bucket that it is for. -/
structure Meter (M : Type u) where
  start : Nat
  total : M

variable {M : Type u} [Zero M] {w now now' : Nat} {m : Option (Meter M)} {followed : Nat → Prop}
  {booked booked' : Nat → M}

/-- What a meter reads at `now`: its total, or zero when it is for another bucket. -/
def reading (w now : Nat) : Option (Meter M) → M
  | some m => if m.start = now / w * w then m.total else 0
  | none => 0

/-- The meter was started by now, and reads what has been booked in the present bucket if this is
one of those followed. -/
structure Tracks (w now : Nat) (m : Option (Meter M)) (followed : Nat → Prop)
    (booked : Nat → M) : Prop where
  started : ∀ x ∈ m, x.start ≤ now
  reads : followed (now / w) → reading w now m = booked (now / w)

theorem reading_of_lt (h : ∀ x ∈ m, x.start < now / w * w) : reading w now m = 0 := by
  cases m with
  | none => rfl
  | some x => exact if_neg (Nat.ne_of_lt (h x rfl))

theorem Tracks.idle (hstart : ∀ x ∈ m, x.start ≤ now) (htotal : ∀ x ∈ m, x.total = 0)
    (hb : ∀ k, booked k = 0) : Tracks w now m followed booked where
  started := hstart
  reads _ := by
    rw [hb]
    cases m with
    | none => rfl
    | some x =>
      have hzero : x.total = 0 := htotal x rfl
      unfold reading
      dsimp only
      rw [hzero, ite_self]

/-- **As time goes on** the meter goes on reading what has been booked. -/
theorem Tracks.advance (h : Tracks w now m followed booked) (hw : 0 < w) (hle : now ≤ now')
    (hahead : ∀ k, now < k * w → booked k = 0) : Tracks w now' m followed booked where
  started x hx := Nat.le_trans (h.started x hx) hle
  reads hf := by
    have hmono : now / w ≤ now' / w := Nat.div_le_div_right hle
    by_cases hsame : now' / w = now / w
    · have hread : reading w now' m = reading w now m := by
        unfold reading
        rw [hsame]
      rw [hread, hsame]
      rw [hsame] at hf
      exact h.reads hf
    · have hlater : now < now' / w * w :=
        Nat.lt_mul_of_div_lt (Nat.lt_of_le_of_ne hmono (Ne.symm hsame)) hw
      rw [hahead _ hlater]
      exact reading_of_lt fun x hx => Nat.lt_of_le_of_lt (h.started x hx) hlater

theorem Tracks.restart {v : M} (hv : followed (now / w) → v = booked (now / w)) :
    Tracks w now (some ⟨now / w * w, v⟩) followed booked where
  started x hx := by
    cases hx
    exact Nat.div_mul_le_self now w
  reads hf := by
    have hread : reading w now (some ⟨now / w * w, v⟩) = v := if_pos rfl
    rw [hread]
    exact hv hf

/-- Fewer buckets are followed, and those show the same. -/
theorem Tracks.mono {followed' : Nat → Prop} (h : Tracks w now m followed booked)
    (hf : ∀ k, followed' k → followed k) (hb : ∀ k, booked' k = booked k) :
    Tracks w now m followed' booked' where
  started := h.started
  reads hk := by
    rw [hb]
    exact h.reads (hf _ hk)

end Tumbling
