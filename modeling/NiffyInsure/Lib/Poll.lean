import Mathlib.Data.Bool.Count
import Mathlib.Data.List.Perm.Basic

/-!
# Polls that stop at the quorum

A poll takes ballots one after the other, up to a cap.  The ballot that brings it to the quorum
decides it by plurality, and later ballots are refused; a poll that was not decided by a ballot
is decided at its end, against the motion when the quorum was missed.

Such a poll reads its ballots in order, and the order can matter.

* `Rule.need`: how many ballots are read before the poll is decided.
* `outcome_running`: the outcome is decided by the first `need` ballots.
* `outcome_perm_iff`: the outcome is the same for every order of the ballots exactly when fewer
  ballots than needed are taken, or no choice of the first `need` ballots can tip the poll.
-/

namespace Poll

/-- How many ballots decide a poll, and how many it takes at most. -/
structure Rule where
  quorum : Nat
  cap : Nat

/-- A poll under way with its tallies, or decided. -/
inductive Stage where
  | running (yes no : Nat)
  | decided (carried : Bool)
  deriving DecidableEq

/-- The ballots for and against, with one more. -/
def Stage.add (yes no : Nat) : Bool → Stage
  | true => .running (yes + 1) no
  | false => .running yes (no + 1)

namespace Rule

variable (R : Rule)

/-- A running poll that has come to the quorum is decided. -/
def settle : Stage → Stage
  | .running yes no =>
    if R.quorum ≤ yes + no then .decided (decide (no < yes)) else .running yes no
  | .decided b => .decided b

/-- Take one ballot, or refuse it. -/
def cast : Stage → Bool → Stage
  | .running yes no, b =>
    if R.cap ≤ yes + no then .running yes no else R.settle (Stage.add yes no b)
  | .decided c, _ => .decided c

/-- The end of a poll. -/
def finish : Stage → Bool
  | .running yes no => decide (R.quorum ≤ yes + no ∧ no < yes)
  | .decided b => b

/-- The outcome of a poll that takes the ballots in this order. -/
def outcome (p : Stage) (ballots : List Bool) : Bool := R.finish (ballots.foldl R.cast p)

/-- The number of ballots that are still read. -/
def need (yes no : Nat) : Nat := max 1 (R.quorum - (yes + no))

variable {R}

theorem foldl_cast_decided (c : Bool) (l : List Bool) :
    l.foldl R.cast (.decided c) = .decided c := by
  induction l with
  | nil => rfl
  | cons b l ih => exact ih

theorem outcome_cons (p : Stage) (b : Bool) (l : List Bool) :
    R.outcome p (b :: l) = R.outcome (R.cast p b) l :=
  rfl

theorem outcome_decided (c : Bool) (l : List Bool) : R.outcome (.decided c) l = c := by
  rw [outcome, foldl_cast_decided, finish]

/-- The outcome when `need` ballots are taken, `x` of them in favour. -/
def carries (yes no need x : Nat) : Bool := decide (no + (need - x) < yes + x)

theorem carries_true (yes no m x : Nat) : carries (yes + 1) no m x =
    carries yes no (m + 1) (x + 1) := by
  simp only [carries, decide_eq_decide]
  omega

theorem carries_false {m x : Nat} (yes no : Nat) (hx : x ≤ m) :
    carries yes (no + 1) m x = carries yes no (m + 1) x := by
  simp only [carries, decide_eq_decide]
  omega

theorem count_take_le (b : Bool) (l : List Bool) (m : Nat) : (l.take m).count b ≤ m :=
  le_trans List.count_le_length (List.length_take_le m l)

/-- **The first ballots decide.**  The outcome is read off the first `need` ballots, or off the
tallies when so many are not taken. -/
theorem outcome_running (l : List Bool) :
    ∀ yes no : Nat, R.outcome (.running yes no) l =
      if R.need yes no ≤ l.length ∧ yes + no + R.need yes no ≤ R.cap then
        carries yes no (R.need yes no) ((l.take (R.need yes no)).count true)
      else decide (R.quorum ≤ yes + no ∧ no < yes) := by
  induction l with
  | nil =>
    intro yes no
    have hpos : ¬ R.need yes no ≤ 0 := by
      unfold need
      omega
    rw [List.length_nil, if_neg (fun h => hpos h.1)]
    rfl
  | cons b l ih =>
    intro yes no
    have hpos : 1 ≤ R.need yes no := le_max_left _ _
    rw [outcome_cons]
    by_cases hcap : R.cap ≤ yes + no
    · -- the poll is full: this ballot and all others are refused
      rw [cast, if_pos hcap, ih, if_neg (by omega), if_neg (by omega)]
    rw [cast, if_neg hcap]
    by_cases hq : R.quorum ≤ yes + no + 1
    · -- this ballot decides
      have hneed : R.need yes no = 1 := by
        unfold need
        omega
      rw [hneed, if_pos ⟨by simp, by omega⟩]
      cases b with
      | true =>
        rw [Stage.add, settle, if_pos (by omega), outcome_decided]
        simp [carries]
      | false =>
        rw [Stage.add, settle, if_pos (by omega), outcome_decided]
        simp [carries]
    · -- this ballot is counted, and one ballot less is needed
      obtain ⟨m, hm⟩ : ∃ m, R.need yes no = m + 1 := ⟨R.need yes no - 1, by omega⟩
      have hlate : decide (R.quorum ≤ yes + no ∧ no < yes) = false := by
        simp only [decide_eq_false_iff_not]
        omega
      rw [hm, hlate, List.take_succ_cons, List.length_cons]
      cases b with
      | true =>
        have hnext : R.need (yes + 1) no = m := by
          unfold need at hm ⊢
          omega
        have hlate' : decide (R.quorum ≤ yes + 1 + no ∧ no < yes + 1) = false := by
          simp only [decide_eq_false_iff_not]
          omega
        rw [Stage.add, settle, if_neg (by omega), ih, hnext, hlate', List.count_cons_self,
          carries_true]
        exact if_congr (by omega) rfl rfl
      | false =>
        have hnext : R.need yes (no + 1) = m := by
          unfold need at hm ⊢
          omega
        have hlate' : decide (R.quorum ≤ yes + (no + 1) ∧ no + 1 < yes) = false := by
          simp only [decide_eq_false_iff_not]
          omega
        rw [Stage.add, settle, if_neg (by omega), ih, hnext, hlate',
          List.count_cons_of_ne (by decide), carries_false yes no (count_take_le true l m)]
        exact if_congr (by omega) rfl rfl

/-! ## The order of the ballots -/

/-- The outcome cannot be tipped by the order of `inFavour` ballots in favour and `against` ballots
against: too few of them are taken, or the first ones carry the motion, or miss it, however
they are chosen. -/
def Steady (R : Rule) (yes no inFavour against : Nat) : Prop :=
  inFavour + against < R.need yes no ∨ R.cap < yes + no + R.need yes no ∨
    carries yes no (R.need yes no) (min inFavour (R.need yes no)) = false ∨
    carries yes no (R.need yes no) (R.need yes no - min against (R.need yes no)) = true

theorem carries_mono {yes no k x y : Nat} (hxy : x ≤ y) (h : carries yes no k x = true) :
    carries yes no k y = true := by
  simp only [carries, decide_eq_true_eq] at h ⊢
  omega

/-- Among the first `k` ballots there are at most all that are in favour, and at least those
that the ballots against leave room for. -/
theorem count_take_bounds {l : List Bool} {k : Nat} (hk : k ≤ l.length) :
    k - min (l.count false) k ≤ (l.take k).count true ∧
      (l.take k).count true ≤ min (l.count true) k := by
  have hsum : (l.take k).count true + (l.take k).count false = k := by
    rw [List.count_true_add_count_false, List.length_take, min_eq_left hk]
  have htrue := (List.take_sublist k l).count_le true
  have hfalse := (List.take_sublist k l).count_le false
  omega

/-- All ballots of one kind first. -/
def sorted (b : Bool) (l : List Bool) : List Bool :=
  List.replicate (l.count b) b ++ List.replicate (l.count !b) !b

theorem sorted_perm (b : Bool) (l : List Bool) : (sorted b l).Perm l := by
  rw [List.perm_iff_count]
  intro c
  rw [sorted, List.count_append, List.count_replicate, List.count_replicate]
  cases b <;> cases c <;> simp

theorem count_take_sorted (b : Bool) (l : List Bool) (k : Nat) :
    ((sorted b l).take k).count b = min (l.count b) k := by
  rw [sorted, List.take_append, List.take_replicate, List.take_replicate, List.count_append,
    List.count_replicate_self, List.count_replicate, if_neg (by simp)]
  omega

/-- The orders that bring most and least approval among the first `k` ballots. -/
theorem count_take_sorted_false {l : List Bool} {k : Nat} (hk : k ≤ l.length) :
    ((sorted false l).take k).count true = k - min (l.count false) k := by
  have hsum := List.count_true_add_count_false ((sorted false l).take k)
  rw [List.length_take, (sorted_perm false l).length_eq, min_eq_left hk, count_take_sorted] at hsum
  omega

/-- **When the order of the ballots does not matter.** -/
theorem outcome_perm_iff (yes no : Nat) (l : List Bool) :
    (∀ l₁ l₂ : List Bool, l₁.Perm l → l₂.Perm l →
      R.outcome (.running yes no) l₁ = R.outcome (.running yes no) l₂) ↔
      R.Steady yes no (l.count true) (l.count false) := by
  have hlen := List.count_true_add_count_false l
  unfold Steady
  generalize hk : R.need yes no = k
  have hout : ∀ l' : List Bool, l'.Perm l → R.outcome (.running yes no) l' =
      if k ≤ l.length ∧ yes + no + k ≤ R.cap then carries yes no k ((l'.take k).count true)
      else decide (R.quorum ≤ yes + no ∧ no < yes) := by
    intro l' hl'
    rw [outcome_running, hk, hl'.length_eq]
  by_cases htaken : k ≤ l.length ∧ yes + no + k ≤ R.cap
  · simp only [if_pos htaken] at hout
    constructor
    · -- the two extreme orders
      intro h
      have hextreme := h _ _ (sorted_perm true l) (sorted_perm false l)
      rw [hout _ (sorted_perm true l), hout _ (sorted_perm false l), count_take_sorted,
        count_take_sorted_false htaken.1] at hextreme
      cases hmost : carries yes no k (min (l.count true) k) with
      | false => exact .inr (.inr (.inl rfl))
      | true =>
        rw [hmost] at hextreme
        exact .inr (.inr (.inr hextreme.symm))
    · -- every order lies between them
      intro h l₁ l₂ hl₁ hl₂
      have hbounds : ∀ l' : List Bool, l'.Perm l →
          k - min (l.count false) k ≤ (l'.take k).count true ∧
            (l'.take k).count true ≤ min (l.count true) k := by
        intro l' hl'
        have hb := count_take_bounds (l := l') (k := k) (by rw [hl'.length_eq]; exact htaken.1)
        rwa [hl'.count_eq, hl'.count_eq] at hb
      rw [hout l₁ hl₁, hout l₂ hl₂]
      rcases h with h | h | h | h
      · omega
      · omega
      · have hmiss : ∀ l' : List Bool, l'.Perm l →
            carries yes no k ((l'.take k).count true) = false := by
          intro l' hl'
          rw [← Bool.not_eq_true]
          intro hcarries
          rw [carries_mono (hbounds l' hl').2 hcarries] at h
          cases h
        rw [hmiss l₁ hl₁, hmiss l₂ hl₂]
      · rw [carries_mono (hbounds l₁ hl₁).1 h, carries_mono (hbounds l₂ hl₂).1 h]
  · simp only [if_neg htaken] at hout
    constructor
    · intro _
      omega
    · intro _ l₁ l₂ hl₁ hl₂
      rw [hout l₁ hl₁, hout l₂ hl₂]

end Rule

end Poll
