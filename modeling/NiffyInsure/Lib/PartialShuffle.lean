import Mathlib.Data.List.Perm.Basic
import Mathlib.Data.List.Nodup

/-!
# Partial shuffles

The first places of a list are filled one after the other, each with an entry that is drawn among
those not placed yet.  An exchange with a place that is not there fails, and so does a draw among no
entries.

* `exists_run`: a run whose draws are in range fails nowhere, and permutes the list.
* `length_take_of_perm`, `nodup_take_of_perm`: what the first places of a permuted list are.
-/

universe u v

namespace PartialShuffle

variable {α : Type u} {σ : Type v}

/-- Exchange the entries at two places. -/
def exchange (work : List α) (i j : ℕ) : Option (List α) :=
  work[i]?.bind fun a => work[j]?.map fun b => (work.set i b).set j a

/-- `steps` exchanges from the place `i` on, each with a place drawn among the rest of the list. -/
def run (draw : σ → ℕ → Option (σ × ℕ)) : ℕ → ℕ → σ → List α → Option (List α)
  | 0, _, _, work => some work
  | steps + 1, i, s, work =>
    (draw s (work.length - i)).bind fun p =>
      if p.2 = 0 then run draw steps (i + 1) p.1 work
      else (exchange work i (i + p.2)).bind (run draw steps (i + 1) p.1)

/-- What is drawn among some entries is one of them. -/
def InRange (draw : σ → ℕ → Option (σ × ℕ)) : Prop :=
  ∀ s n, 0 < n → ∃ s' d, draw s n = some (s', d) ∧ d < n

variable {work work' : List α} {i j : ℕ}

theorem exchange_eq (hi : i < work.length) (hj : j < work.length) :
    exchange work i j = some ((work.set i work[j]).set j work[i]) := by
  rw [exchange, List.getElem?_eq_getElem hi, List.getElem?_eq_getElem hj]
  rfl

theorem exchange_perm (hi : i < work.length) (hj : j < work.length) :
    ∃ work', exchange work i j = some work' ∧ work'.Perm work :=
  ⟨_, exchange_eq hi hj, List.set_set_perm hi hj⟩

/-- **A partial shuffle is a permutation**, and none of its exchanges is out of range. -/
theorem exists_run {draw : σ → ℕ → Option (σ × ℕ)} (hdraw : InRange draw) (steps : ℕ) :
    ∀ (i : ℕ) (s : σ) (work : List α), i + steps ≤ work.length →
      ∃ work', run draw steps i s work = some work' ∧ work'.Perm work := by
  induction steps with
  | zero =>
    intro i s work _
    exact ⟨work, rfl, List.Perm.refl _⟩
  | succ steps ih =>
    intro i s work h
    obtain ⟨s', d, hd, hlt⟩ := hdraw s (work.length - i) (by omega)
    rw [run, hd, Option.bind_some]
    by_cases hzero : d = 0
    · rw [if_pos hzero]
      exact ih (i + 1) s' work (by omega)
    · rw [if_neg hzero]
      have hi : i < work.length := by omega
      have hj : i + d < work.length := by omega
      obtain ⟨work₁, hexchange, hperm⟩ := exchange_perm hi hj
      rw [hexchange, Option.bind_some]
      have hlen : work₁.length = work.length := hperm.length_eq
      obtain ⟨work', hrun, hperm'⟩ := ih (i + 1) s' work₁ (by omega)
      exact ⟨work', hrun, hperm'.trans hperm⟩

theorem length_take_of_perm (h : work'.Perm work) (n : ℕ) :
    (work'.take n).length = min n work.length := by
  rw [List.length_take, h.length_eq]

theorem nodup_take_of_perm (h : work'.Perm work) (hnodup : work.Nodup) (n : ℕ) :
    (work'.take n).Nodup :=
  (h.nodup_iff.mpr hnodup).sublist (List.take_sublist n work')

theorem mem_of_mem_take_of_perm (h : work'.Perm work) {n : ℕ} {a : α} (ha : a ∈ work'.take n) :
    a ∈ work :=
  h.mem_iff.mp (List.mem_of_mem_take ha)

end PartialShuffle
