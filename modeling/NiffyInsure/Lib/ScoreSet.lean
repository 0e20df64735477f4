import NiffyInsure.Lib.SlidingWindow

/-!
# A key with a sorted set of scores

The members of the set are left out: they are all different.  A key whose set is empty is not there,
and has no expiry.  It is dropped at some time from its expiry on.

* `Follows`: the set has what the windows of a log need, and the key does not expire before the last
  tick has left the window.
* `Follows.found`, `Follows.zremrangebyscore`, `Follows.zadd`: it goes on doing so.
-/

/-- The scores in the order in which they were added, and the expiry of the key. -/
structure ScoreSet where
  scores : List Nat
  expiresAt : Option Nat
  deriving DecidableEq

namespace ScoreSet

open SlidingWindow

variable (k : ScoreSet)

def empty : ScoreSet := ⟨[], none⟩

/-- `ZREMRANGEBYSCORE key min max`; `none` stands for `-inf`. -/
def zremrangebyscore (min : Option Int) (max : Int) : ScoreSet :=
  let scores := k.scores.filter fun e : Nat => ¬ ((∀ m ∈ min, m ≤ (e : Int)) ∧ (e : Int) ≤ max)
  ⟨scores, if scores = [] then none else k.expiresAt⟩

def zcard : Nat := k.scores.length

/-- `ZADD key score member`, with a new member. -/
def zadd (score : Nat) : ScoreSet := { k with scores := k.scores ++ [score] }

/-- `PEXPIRE key ms` at `now`. -/
def pexpire (now ms : Nat) : ScoreSet :=
  { k with expiresAt := if k.scores = [] then none else some (now + ms) }

/-- The score of `ZRANGE key 0 0 WITHSCORES`. -/
def zfirst : Option Nat := k.scores.min?

/-- The key may be dropped. -/
def Expired (now : Nat) : Prop := ∃ expiry ∈ k.expiresAt, expiry ≤ now

instance (now : Nat) : Decidable (k.Expired now) := inferInstanceAs (Decidable (∃ _ ∈ _, _))

/-- A call that uses the key, and whether the key was dropped before it. -/
structure Call where
  nowMs : Nat
  gone : Bool
  deriving DecidableEq

/-- The call can come after the one at `clock`. -/
def Accepts (clock : Nat) (c : Call) : Prop :=
  clock ≤ c.nowMs ∧ (c.gone = true → k.Expired c.nowMs)

instance (clock : Nat) (c : Call) : Decidable (k.Accepts clock c) :=
  inferInstanceAs (Decidable (_ ∧ (_ → _)))

/-- The key as the call finds it. -/
def found (c : Call) : ScoreSet := if c.gone then empty else k

variable {k} {w now ms e : Nat} {log : List Nat} {c : Call}

@[simp] theorem scores_zadd (e : Nat) : (k.zadd e).scores = k.scores ++ [e] := rfl

@[simp] theorem scores_pexpire (now ms : Nat) : (k.pexpire now ms).scores = k.scores := rfl

/-- All scores up to the start of the window are removed. -/
theorem scores_zremrangebyscore {min : Option Int} (hmin : ∀ m ∈ min, m ≤ 0) :
    (k.zremrangebyscore min ((now : Int) - w)).scores = live w now k.scores := by
  refine List.filter_congr fun e _ => ?_
  rw [decide_eq_decide]
  constructor
  · intro h
    by_contra hle
    exact h ⟨fun m hm => Int.le_trans (hmin m hm) (by omega), by omega⟩
  · rintro h ⟨-, hle⟩
    omega

/-- The set has what the windows of the log need, from now on, and the key expires when the last
tick has left the window, or later. -/
structure Follows (k : ScoreSet) (w now : Nat) (log : List Nat) : Prop where
  keeps : Keeps w now k.scores log
  expires : ∀ expiry ∈ k.expiresAt, ∀ e ∈ log, e + w ≤ expiry

theorem Follows.empty (w now : Nat) : empty.Follows w now [] where
  keeps _ _ := rfl
  expires _ h := by cases h

theorem length_found_le : (k.found c).scores.length ≤ k.scores.length := by
  unfold found
  split
  · exact Nat.zero_le _
  · exact Nat.le_refl _

/-- It still does when the next call finds it. -/
theorem Follows.found (h : k.Follows w now log) (hc : k.Accepts now c) :
    (k.found c).Follows w c.nowMs log := by
  unfold ScoreSet.found
  split
  · rename_i hgone
    obtain ⟨expiry, hexpiry, hle⟩ := hc.2 hgone
    exact ⟨.clear fun e he => Nat.le_trans (h.expires expiry hexpiry e he) hle, nofun⟩
  · exact ⟨h.keeps.mono hc.1, h.expires⟩

theorem Follows.zremrangebyscore (h : k.Follows w now log) {min : Option Int}
    (hmin : ∀ m ∈ min, m ≤ 0) :
    (k.zremrangebyscore min ((now : Int) - w)).Follows w now log where
  keeps := by
    rw [scores_zremrangebyscore hmin]
    exact h.keeps.prune
  expires expiry hexpiry := by
    change expiry ∈ ite _ none k.expiresAt at hexpiry
    split at hexpiry
    · cases hexpiry
    · exact h.expires expiry hexpiry

/-- A tick that is added, with a new expiry. -/
theorem Follows.zadd (h : k.Follows w now log) (hlog : ∀ e ∈ log, e ≤ now) (hms : w ≤ ms) :
    ((k.zadd now).pexpire now ms).Follows w now (log ++ [now]) where
  keeps := h.keeps.append now
  expires expiry hexpiry e he := by
    change expiry ∈ ite _ none (some (now + ms)) at hexpiry
    split at hexpiry
    · cases hexpiry
    · cases hexpiry
      have hle : e ≤ now := by
        rcases List.mem_append.mp he with he | he
        · exact hlog e he
        · exact Nat.le_of_eq (List.mem_singleton.mp he)
      omega

end ScoreSet
