import Mathlib.Data.List.Count

/-!
# Windows that slide

The window at tick `t` are the `w` ticks that end with `t`.  A limiter keeps a list of ticks from
which it prunes those that the window has left.

* `Keeps`: what is kept is, from now on, as good as the whole log.
* `admittedIn_append_le`: a tick may be admitted as long as fewer than the limit are in the window
  then.
* `length_live_lt`: once the oldest tick has left, there is room.
-/

namespace SlidingWindow

/-- The tick `e` is in the window at `t`. -/
def InWindow (w t e : Nat) : Prop := e ≤ t ∧ t < e + w

instance (w t e : Nat) : Decidable (InWindow w t e) := inferInstanceAs (Decidable (_ ∧ _))

/-- How many of these ticks are in the window at `t`. -/
def admittedIn (w t : Nat) (log : List Nat) : Nat := log.countP fun e => InWindow w t e

/-- The ticks that the window at `t` has not left. -/
def live (w t : Nat) (log : List Nat) : List Nat := log.filter fun e => t < e + w

variable {w t now now' e limit : Nat} {kept log : List Nat}

/-- The clock does not go back, so the last tick is the latest. -/
theorem le_of_mem_append (hbefore : ∀ e ∈ log, e ≤ now) (hle : now ≤ now') :
    ∀ e ∈ log ++ [now'], e ≤ now' := by
  intro e he
  rcases List.mem_append.mp he with he | he
  · exact Nat.le_trans (hbefore e he) hle
  · exact Nat.le_of_eq (List.mem_singleton.mp he)

theorem live_append : live w t (kept ++ log) = live w t kept ++ live w t log :=
  List.filter_append ..

theorem live_live (h : now ≤ t) : live w t (live w now log) = live w t log := by
  rw [live, live, live, List.filter_filter]
  refine List.filter_congr fun e _ => ?_
  rw [Bool.and_eq_left_iff_imp, decide_eq_true_eq, decide_eq_true_eq]
  omega

/-- The ticks that are in the window are among those that it has not left. -/
theorem admittedIn_le_length_live (h : now ≤ t) :
    admittedIn w t log ≤ (live w now log).length := by
  rw [live, ← List.countP_eq_length_filter]
  refine List.countP_mono_left fun e _ hin => ?_
  have hwindow : InWindow w t e := of_decide_eq_true hin
  exact decide_eq_true (Nat.lt_of_le_of_lt h hwindow.2)

/-- **A tick is admitted** that is not before the others and finds room in its window. -/
theorem admittedIn_append_le (hle : ∀ t, admittedIn w t log ≤ limit)
    (hroom : (live w now log).length < limit) (t : Nat) :
    admittedIn w t (log ++ [now]) ≤ limit := by
  rw [admittedIn, List.countP_append, List.countP_singleton]
  by_cases hin : InWindow w t now
  · rw [if_pos (decide_eq_true hin)]
    exact Nat.lt_of_le_of_lt (admittedIn_le_length_live hin.1) hroom
  · rw [if_neg fun h => hin (of_decide_eq_true h)]
    exact hle t

/-! ## What is kept -/

/-- From `now` on, what is kept has the ticks of the log that no window has left. -/
def Keeps (w now : Nat) (kept log : List Nat) : Prop := ∀ t, now ≤ t → live w t kept = live w t log

theorem Keeps.mono (h : Keeps w now kept log) (hle : now ≤ now') : Keeps w now' kept log :=
  fun t ht => h t (Nat.le_trans hle ht)

theorem Keeps.prune (h : Keeps w now kept log) : Keeps w now (live w now kept) log :=
  fun t ht => (live_live ht).trans (h t ht)

theorem Keeps.append (h : Keeps w now kept log) (e : Nat) :
    Keeps w now (kept ++ [e]) (log ++ [e]) := by
  intro t ht
  rw [live_append, live_append, h t ht]

/-- When all ticks have left, nothing need be kept. -/
theorem Keeps.clear (hleft : ∀ e ∈ log, e + w ≤ now) : Keeps w now [] log := by
  intro t ht
  rw [eq_comm]
  refine List.filter_eq_nil_iff.mpr fun e he h => ?_
  have hlt : t < e + w := of_decide_eq_true h
  have hle := hleft e he
  omega

/-! ## When there is room again -/

theorem length_live_lt (he : e ∈ kept) (hleft : e + w ≤ t) :
    (live w t kept).length < kept.length := by
  refine Nat.lt_of_le_of_ne (List.length_filter_le ..) fun hsame => ?_
  have hall := List.length_filter_eq_length_iff.mp hsame e he
  have hlt : t < e + w := of_decide_eq_true hall
  omega

/-- Milliseconds in whole seconds, rounded up. -/
def ceilSeconds (ms : Int) : Int := -(-ms / 1000)

theorem le_ceilSeconds (ms : Int) : ms ≤ 1000 * ceilSeconds ms := by
  unfold ceilSeconds
  omega

end SlidingWindow
