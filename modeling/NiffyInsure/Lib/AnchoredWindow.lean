import Mathlib.Data.List.Count

/-!
# Windows that start where they are needed

A limiter opens a window of `w` ticks at the tick at which it needs one, and counts what it admits
in the window that it opened last.

* `Tracks`: the count of the last window is right, no two windows overlap, and no window has
  admitted more than the limit.
* `Tracks.start`, `Tracks.reopen` and `Tracks.allow`: a window may be opened once the last one is
  over, or opened again as long as nothing was counted; a tick of the last window may be admitted as
  long as the count is below the limit.
-/

namespace AnchoredWindow

/-- The window of `w` ticks from `a` on. -/
def InWindow (w a n : Nat) : Prop := a ≤ n ∧ n < a + w

instance (w a n : Nat) : Decidable (InWindow w a n) := inferInstanceAs (Decidable (_ ∧ _))

/-- How many of these ticks lie in the window. -/
def admittedIn (w a : Nat) (admitted : List Nat) : Nat := admitted.countP fun n => InWindow w a n

variable {w limit a n x : Nat} {anchors admitted : List Nat}

theorem admittedIn_of_inWindow (h : InWindow w a x) :
    admittedIn w a (admitted ++ [x]) = admittedIn w a admitted + 1 := by
  unfold admittedIn
  rw [List.countP_append, List.countP_singleton, if_pos (decide_eq_true h)]

theorem admittedIn_of_not_inWindow (h : ¬ InWindow w a x) :
    admittedIn w a (admitted ++ [x]) = admittedIn w a admitted := by
  unfold admittedIn
  rw [List.countP_append, List.countP_singleton, decide_eq_false h]
  rfl

theorem admittedIn_zero (a : Nat) (admitted : List Nat) : admittedIn 0 a admitted = 0 := by
  apply List.countP_eq_zero.mpr
  intro n _ hn
  obtain ⟨hle, hlt⟩ := of_decide_eq_true hn
  omega

/-- The last window was opened at `a` and has the count `n`, beside the windows opened so far and
the ticks admitted so far. -/
structure Tracks (w limit a n : Nat) (anchors admitted : List Nat) : Prop where
  apart : ∀ b ∈ anchors, b = a ∨ b + w ≤ a
  before : ∀ x ∈ admitted, x < a + w
  count : admittedIn w a admitted = n
  bounded : ∀ b ∈ anchors, admittedIn w b admitted ≤ limit

theorem Tracks.first (w limit a : Nat) : Tracks w limit a 0 [a] [] where
  apart b hb := .inl (List.mem_singleton.mp hb)
  before x hx := by cases hx
  count := rfl
  bounded _ _ := Nat.zero_le limit

/-- **The last window is over**, and another one is opened. -/
theorem Tracks.start (h : Tracks w limit a n anchors admitted) {b : Nat} (hb : a + w ≤ b) :
    Tracks w limit b 0 (anchors ++ [b]) admitted := by
  have hempty : admittedIn w b admitted = 0 := by
    apply List.countP_eq_zero.mpr
    intro x hx hin
    have hle : b ≤ x := (of_decide_eq_true hin).1
    have hlt := h.before x hx
    omega
  refine ⟨fun c hc => ?_, fun x hx => ?_, hempty, fun c hc => ?_⟩
  · rcases List.mem_append.mp hc with hc | hc
    · have hapart := h.apart c hc
      omega
    · exact .inl (List.mem_singleton.mp hc)
  · have hlt := h.before x hx
    omega
  · rcases List.mem_append.mp hc with hc | hc
    · exact h.bounded c hc
    · rw [List.mem_singleton.mp hc, hempty]
      exact Nat.zero_le limit

/-- The last window is opened again before anything was counted in it. -/
theorem Tracks.reopen (h : Tracks w limit a 0 anchors admitted) :
    Tracks w limit a 0 (anchors ++ [a]) admitted := by
  refine ⟨fun c hc => ?_, h.before, h.count, fun c hc => ?_⟩
  · rcases List.mem_append.mp hc with hc | hc
    · exact h.apart c hc
    · exact .inl (List.mem_singleton.mp hc)
  · rcases List.mem_append.mp hc with hc | hc
    · exact h.bounded c hc
    · rw [List.mem_singleton.mp hc, h.count]
      exact Nat.zero_le limit

/-- **A tick of the last window is admitted** and counted. -/
theorem Tracks.allow (h : Tracks w limit a n anchors admitted) (hx : InWindow w a x)
    (hn : n < limit) : Tracks w limit a (n + 1) anchors (admitted ++ [x]) := by
  refine ⟨h.apart, fun y hy => ?_, ?_, fun b hb => ?_⟩
  · rcases List.mem_append.mp hy with hy | hy
    · exact h.before y hy
    · rw [List.mem_singleton.mp hy]
      exact hx.2
  · rw [admittedIn_of_inWindow hx, h.count]
  · rcases h.apart b hb with rfl | hover
    · rw [admittedIn_of_inWindow hx, h.count]
      exact hn
    · have hout : ¬ InWindow w b x := by
        rintro ⟨-, hlt⟩
        have hle := hx.1
        omega
      rw [admittedIn_of_not_inWindow hout]
      exact h.bounded b hb

end AnchoredWindow
