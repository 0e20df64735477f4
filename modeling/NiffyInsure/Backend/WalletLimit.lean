import NiffyInsure.Lib.Machine
import NiffyInsure.Lib.ScoreSet

/-!
# The limit for a wallet

`checkWalletLimit` keeps in a sorted set the times at which it has admitted the wallet, prunes those
that the window has left, and admits a call if fewer than the limit remain.  A call that it denies
is told when the oldest of them leaves.

The calls for the wallet come one after the other, and Redis answers.  It may drop the key once that
has expired.

* `Kept`: the set has the calls of the window, and no more than the limit.
* `wallet_window_of_reach`: no window admits more than the limit, and a call that comes when the
  last one was told is admitted.
-/

namespace NiffyInsure.Backend.WalletLimit

open SlidingWindow ScoreSet

/-! ## The service -/

structure Config where
  WALLET_RATE_LIMIT_WINDOW_SECONDS : Nat
  WALLET_RATE_LIMIT : Nat
  deriving DecidableEq

/-- `WALLET_RATE_LIMIT_DEFAULTS`. -/
def Config.defaults : Config := ⟨3600, 3⟩

variable (cfg : Config)

def Config.windowMs : Nat := cfg.WALLET_RATE_LIMIT_WINDOW_SECONDS * 1000

structure Result where
  allowed : Bool
  retryAfterSeconds : Int
  deriving DecidableEq

/-- `checkWalletLimit` at `nowMs`. -/
def checkWalletLimit (key : ScoreSet) (nowMs : Nat) : ScoreSet × Result :=
  let windowStart : Int := nowMs - cfg.windowMs
  let key := key.zremrangebyscore (some 0) windowStart
  if key.zcard ≥ cfg.WALLET_RATE_LIMIT then
    let oldestTimestamp := key.zfirst.elim windowStart Int.ofNat
    (key, ⟨false, max 1 (ceilSeconds (oldestTimestamp + cfg.windowMs - nowMs))⟩)
  else ((key.zadd nowMs).pexpire nowMs (cfg.windowMs * 2), ⟨true, 0⟩)

/-! ## A history of calls -/

/-- The key, the time of the last call, and the times of those that were admitted. -/
structure State where
  key : ScoreSet
  clock : Nat
  admitted : List Nat
  deriving DecidableEq

/-- What the call does to the key, and what it returns. -/
def State.check (s : State) (c : ScoreSet.Call) : ScoreSet × Result :=
  checkWalletLimit cfg (s.key.found c) c.nowMs

/-- The state after the call. -/
def State.after (s : State) (c : ScoreSet.Call) : State where
  key := (s.check cfg c).1
  clock := c.nowMs
  admitted := if (s.check cfg c).2.allowed then s.admitted ++ [c.nowMs] else s.admitted

def act (s : State) (c : ScoreSet.Call) : Option State :=
  if s.key.Accepts s.clock c then some (s.after cfg c) else none

/-- No call has come yet. -/
def State.fresh : State := ⟨.empty, 0, []⟩

def machine : Machine State ScoreSet.Call := .ofAct (act cfg) (· = .fresh)

/-! ## What a call does -/

variable {cfg} {s : State} {c c' : ScoreSet.Call} {key : ScoreSet} {nowMs : Nat}

theorem scores_pruned (cfg : Config) (key : ScoreSet) (nowMs : Nat) :
    (key.zremrangebyscore (some 0) ((nowMs : Int) - cfg.windowMs)).scores =
      live cfg.windowMs nowMs key.scores :=
  ScoreSet.scores_zremrangebyscore fun _ hm => Int.le_of_eq (Option.some_inj.mp hm).symm

theorem allowed_iff :
    (checkWalletLimit cfg key nowMs).2.allowed = true ↔
      (live cfg.windowMs nowMs key.scores).length < cfg.WALLET_RATE_LIMIT := by
  rw [checkWalletLimit, ScoreSet.zcard, scores_pruned]
  split
  · rename_i hfull
    exact iff_of_false nofun (Nat.not_lt.mpr hfull)
  · rename_i hroom
    exact iff_of_true rfl (Nat.not_le.mp hroom)

theorem check_of_allowed (h : (checkWalletLimit cfg key nowMs).2.allowed = true) :
    (checkWalletLimit cfg key nowMs).1 =
      ((key.zremrangebyscore (some 0) ((nowMs : Int) - cfg.windowMs)).zadd nowMs).pexpire nowMs
        (cfg.windowMs * 2) := by
  rw [allowed_iff] at h
  rw [checkWalletLimit, ScoreSet.zcard, scores_pruned, if_neg (Nat.not_le.mpr h)]

theorem check_of_denied (h : (checkWalletLimit cfg key nowMs).2.allowed = false) :
    (checkWalletLimit cfg key nowMs).1 =
      key.zremrangebyscore (some 0) ((nowMs : Int) - cfg.windowMs) := by
  rw [← Bool.not_eq_true, allowed_iff, Nat.not_lt] at h
  rw [checkWalletLimit, ScoreSet.zcard, scores_pruned, if_pos h]

theorem oldest_left (hlimit : 1 ≤ cfg.WALLET_RATE_LIMIT)
    (h : (checkWalletLimit cfg key nowMs).2.allowed = false) :
    ∃ e ∈ (checkWalletLimit cfg key nowMs).1.scores,
      ((e + cfg.windowMs : Nat) : Int) ≤
        nowMs + 1000 * (checkWalletLimit cfg key nowMs).2.retryAfterSeconds := by
  have hfull := h
  rw [← Bool.not_eq_true, allowed_iff, Nat.not_lt] at hfull
  rw [check_of_denied h, scores_pruned, checkWalletLimit, ScoreSet.zcard,
    scores_pruned, if_pos hfull, ScoreSet.zfirst, scores_pruned]
  cases hfirst : (live cfg.windowMs nowMs key.scores).min? with
  | none =>
    rw [List.min?_eq_none_iff] at hfirst
    rw [hfirst] at hfull
    exact absurd hfull (Nat.not_le.mpr hlimit)
  | some e =>
    refine ⟨e, List.min?_mem hfirst, ?_⟩
    have hceil := le_ceilSeconds ((e : Int) + cfg.windowMs - nowMs)
    have hmax := Int.le_max_right 1 (ceilSeconds ((e : Int) + cfg.windowMs - nowMs))
    show _ ≤ (nowMs : Int) + 1000 * max 1 (ceilSeconds ((e : Int) + cfg.windowMs - nowMs))
    omega

/-! ## Over a history -/

/-- What the state is like between two calls. -/
structure Kept (cfg : Config) (s : State) : Prop where
  follows : s.key.Follows cfg.windowMs s.clock s.admitted
  before : ∀ e ∈ s.admitted, e ≤ s.clock
  room : s.key.scores.length ≤ cfg.WALLET_RATE_LIMIT
  window : ∀ t, admittedIn cfg.windowMs t s.admitted ≤ cfg.WALLET_RATE_LIMIT

theorem Kept.fresh (cfg : Config) : Kept cfg .fresh where
  follows := .empty ..
  before _ h := by cases h
  room := Nat.zero_le _
  window t := by
    rw [State.fresh, admittedIn, List.countP_nil]
    exact Nat.zero_le _

theorem Kept.follows_pruned (h : Kept cfg s) (hc : s.key.Accepts s.clock c) :
    ((s.key.found c).zremrangebyscore (some 0) ((c.nowMs : Int) - cfg.windowMs)).Follows
      cfg.windowMs c.nowMs s.admitted :=
  (h.follows.found hc).zremrangebyscore fun _ hm => Int.le_of_eq (Option.some_inj.mp hm).symm

theorem Kept.after_denied (h : Kept cfg s) (hc : s.key.Accepts s.clock c)
    (hdenied : (s.check cfg c).2.allowed = false) : Kept cfg (s.after cfg c) := by
  have hkey : (s.after cfg c).key = _ := check_of_denied hdenied
  have hadmitted : (s.after cfg c).admitted = s.admitted := by
    rw [State.after, hdenied]
    rfl
  refine ⟨?_, ?_, ?_, ?_⟩
  · rw [hkey, hadmitted]
    exact h.follows_pruned hc
  · rw [hadmitted]
    exact fun e he => Nat.le_trans (h.before e he) hc.1
  · rw [hkey, scores_pruned]
    exact Nat.le_trans (List.length_filter_le ..) (Nat.le_trans length_found_le h.room)
  · rw [hadmitted]
    exact h.window

theorem Kept.after_allowed (h : Kept cfg s) (hc : s.key.Accepts s.clock c)
    (hallowed : (s.check cfg c).2.allowed = true) : Kept cfg (s.after cfg c) := by
  have hroom := allowed_iff.mp hallowed
  have hkey : (s.after cfg c).key = _ := check_of_allowed hallowed
  have hadmitted : (s.after cfg c).admitted = s.admitted ++ [c.nowMs] := by
    rw [State.after, hallowed]
    rfl
  have hbefore : ∀ e ∈ s.admitted, e ≤ c.nowMs := fun e he => Nat.le_trans (h.before e he) hc.1
  refine ⟨?_, ?_, ?_, ?_⟩
  · rw [hkey, hadmitted]
    exact (h.follows_pruned hc).zadd hbefore (by omega)
  · rw [hadmitted]
    exact le_of_mem_append h.before hc.1
  · rw [hkey, ScoreSet.scores_pexpire, ScoreSet.scores_zadd, scores_pruned, List.length_append]
    exact hroom
  · rw [hadmitted]
    rw [(h.follows.found hc).keeps c.nowMs (Nat.le_refl _)] at hroom
    exact admittedIn_append_le h.window hroom

/-- **A call keeps it.** -/
theorem Kept.after (h : Kept cfg s) (hc : s.key.Accepts s.clock c) : Kept cfg (s.after cfg c) := by
  cases hallowed : (s.check cfg c).2.allowed with
  | false => exact h.after_denied hc hallowed
  | true => exact h.after_allowed hc hallowed

theorem kept_of_reach (h : (machine cfg).Reach Machine.always s) : Kept cfg s := by
  refine h.invariant ?_ ?_
  · rintro s rfl
    exact .fresh cfg
  · intro s c t _ hstep hkept
    obtain ⟨haccepts, hafter⟩ := Option.ite_none_right_eq_some.mp hstep
    cases hafter
    exact hkept.after haccepts

/-- A call that comes when the denied one before it was told to come finds room. -/
theorem allowed_after_denied (hlimit : 1 ≤ cfg.WALLET_RATE_LIMIT) (h : Kept cfg s)
    (hc : s.key.Accepts s.clock c) (hdenied : (s.check cfg c).2.allowed = false)
    (htime : (c.nowMs : Int) + 1000 * (s.check cfg c).2.retryAfterSeconds ≤ c'.nowMs) :
    ((s.after cfg c).check cfg c').2.allowed = true := by
  have hafter := h.after hc
  obtain ⟨e, he, hleft⟩ := oldest_left hlimit hdenied
  have hleft' : e + cfg.windowMs ≤ c'.nowMs := by
    have hall := Int.le_trans hleft htime
    omega
  refine allowed_iff.mpr ?_
  unfold found
  split
  · exact hlimit
  · exact Nat.lt_of_lt_of_le (length_live_lt he hleft') hafter.room

/-- **The window of a wallet.**  No window admits more than the limit.  After a call was denied, the
next one is admitted that comes no earlier than that was told. -/
theorem wallet_window_of_reach (hlimit : 1 ≤ cfg.WALLET_RATE_LIMIT)
    (h : (machine cfg).Reach Machine.always s) :
    (∀ t, admittedIn cfg.windowMs t s.admitted ≤ cfg.WALLET_RATE_LIMIT) ∧
    ∀ c c', s.key.Accepts s.clock c → (s.check cfg c).2.allowed = false →
      (s.after cfg c).key.Accepts c.nowMs c' →
      (c.nowMs : Int) + 1000 * (s.check cfg c).2.retryAfterSeconds ≤ c'.nowMs →
        ((s.after cfg c).check cfg c').2.allowed = true := by
  have hkept := kept_of_reach h
  exact ⟨hkept.window, fun c c' hc hdenied _ htime =>
    allowed_after_denied hlimit hkept hc hdenied htime⟩

/-- Two calls within a second, and a limit of one. -/
theorem wallet_window_of_reach_one :
    let cfg : Config := ⟨60, 1⟩
    ∃ s, (machine cfg).Reach Machine.always s ∧ s.admitted = [1000] ∧
      (s.check cfg ⟨1700, false⟩).2 = ⟨false, 60⟩ ∧
      ((s.after cfg ⟨1700, false⟩).check cfg ⟨61700, false⟩).2.allowed = true := by
  intro cfg
  obtain ⟨s, hs, hadmitted, hdenied, hc, hc'⟩ : ∃ s, (machine cfg).Reach Machine.always s ∧
      s.admitted = [1000] ∧ (s.check cfg ⟨1700, false⟩).2 = ⟨false, 60⟩ ∧
      s.key.Accepts s.clock ⟨1700, false⟩ ∧
      (s.after cfg ⟨1700, false⟩).key.Accepts 1700 ⟨61700, false⟩ :=
    Machine.exists_reach_of_runAll [⟨1000, false⟩] (s := .fresh) rfl (by decide)
  refine ⟨s, hs, hadmitted, hdenied, ?_⟩
  refine (wallet_window_of_reach (by decide) hs).2 _ _ hc (by rw [hdenied]) hc' ?_
  rw [hdenied]
  decide

end NiffyInsure.Backend.WalletLimit
