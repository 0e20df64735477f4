import NiffyInsure.Lib.History

/-!
# Registers that are written once

A register is a part of the state that is empty at the start, that some moves fill, and that no move
changes once it is full.

* `WriteOnce`: the register, with what the moves write to it.
* `WriteOnce.writes`: the writes of a trace are what the register holds.
* `WriteOnce.exists_write`: what it holds was written by one move of the trace.
* `WriteOnce.alone`: a write of a trace is the only one, and the register holds it from then on.
-/

universe u v w

namespace Machine

variable {σ : Type u} {L : Type v} {α : Type w}

/-- The moves with `w` fill the empty register `r`, and the others leave it as it is. -/
structure WriteOnce (M : Machine σ L) (ok : σ → L → Prop) (r : σ → Option α)
    (w : Move σ L → Option α) : Prop where
  init : ∀ s, M.init s → r s = none
  write : ∀ s l t a, M.Reach ok s → M.step s l t → w ⟨s, l, t⟩ = some a → r s = none ∧ r t = some a
  keep : ∀ s l t, M.Reach ok s → M.step s l t → w ⟨s, l, t⟩ = none → r t = r s

namespace WriteOnce

variable {M : Machine σ L} {ok : σ → L → Prop} {r : σ → Option α} {w : Move σ L → Option α}
  {s : σ} {g g₁ g₂ : List (Move σ L)} {m : Move σ L} {a : α}

theorem of_cases (hinit : ∀ s, M.init s → r s = none)
    (hstep : ∀ s l t, M.Reach ok s → M.step s l t → (w ⟨s, l, t⟩ = none ∧ r t = r s) ∨
      ∃ a, w ⟨s, l, t⟩ = some a ∧ r s = none ∧ r t = some a) : WriteOnce M ok r w where
  init := hinit
  write s l t a hs h hw := by
    obtain ⟨hno, -⟩ | ⟨b, hb, hempty, hfull⟩ := hstep s l t hs h
    · rw [hno] at hw
      cases hw
    · rw [hb] at hw
      cases hw
      exact ⟨hempty, hfull⟩
  keep s l t hs h hw := by
    obtain ⟨-, hsame⟩ | ⟨b, hb, -⟩ := hstep s l t hs h
    · exact hsame
    · rw [hb] at hw
      cases hw

/-- **The writes of a trace are what the register holds.** -/
theorem writes (h : WriteOnce M ok r w)
    (hrun : M.traced.Reach (fun p l => ok p.1 l) (s, g)) : g.filterMap w = (r s).toList := by
  refine hrun.trace_invariant (I := fun s g => g.filterMap w = (r s).toList) ?_ ?_
  · intro s hs
    rw [h.init s hs]
    rfl
  · intro s g l t hreach _ hstep ih
    rw [List.filterMap_append, ih]
    cases hw : w ⟨s, l, t⟩ with
    | none =>
      rw [h.keep s l t hreach hstep hw, List.filterMap_cons_none hw]
      exact List.append_nil _
    | some a =>
      obtain ⟨hempty, hfull⟩ := h.write s l t a hreach hstep hw
      rw [hempty, hfull, List.filterMap_cons_some hw]
      rfl

theorem exists_write (h : WriteOnce M ok r w)
    (hrun : M.traced.Reach (fun p l => ok p.1 l) (s, g)) (ha : r s = some a) :
    ∃ g₁ m g₂, g = g₁ ++ m :: g₂ ∧ w m = some a := by
  have hwrites := h.writes hrun
  rw [ha] at hwrites
  have hmem : a ∈ g.filterMap w := by
    rw [hwrites]
    exact List.mem_singleton_self a
  obtain ⟨m, hm, hw⟩ := List.mem_filterMap.mp hmem
  obtain ⟨g₁, g₂, rfl⟩ := List.append_of_mem hm
  exact ⟨g₁, m, g₂, rfl, hw⟩

/-- **A write of a trace is the only one**, and the register holds it from then on. -/
theorem alone (h : WriteOnce M ok r w)
    (hrun : M.traced.Reach (fun p l => ok p.1 l) (s, g₁ ++ m :: g₂)) (hm : w m = some a) :
    r s = some a ∧ ∀ m' ∈ g₁ ++ g₂, w m' = none := by
  have hwrites := h.writes hrun
  rw [List.filterMap_append, List.filterMap_cons_some hm] at hwrites
  cases hr : r s with
  | none =>
    rw [hr] at hwrites
    exact absurd hwrites (by simp)
  | some b =>
    rw [hr] at hwrites
    -- one write fits in the register
    obtain ⟨hbefore, hrest⟩ : g₁.filterMap w = [] ∧ a :: g₂.filterMap w = [b] := by
      rcases List.append_eq_singleton_iff.mp hwrites with hc | ⟨-, hc⟩
      · exact hc
      · cases hc
    obtain ⟨rfl, hafter⟩ := List.cons.inj hrest
    refine ⟨rfl, fun m' hm' => ?_⟩
    rcases List.mem_append.mp hm' with hmem | hmem
    · exact List.filterMap_eq_nil_iff.mp hbefore m' hmem
    · exact List.filterMap_eq_nil_iff.mp hafter m' hmem

end WriteOnce

end Machine
