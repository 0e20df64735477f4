import NiffyInsure.Lib.Machine
import NiffyInsure.Lib.ScoreSet

/-!
# The limit for the Horizon proxy

`HorizonRateLimitService.check` keeps in a sorted set the times of all calls of an account, also of
those that it denies, and allows a call if the window has fewer than `maxRequests` others.  A call
that it denies is told when the oldest of them leaves, although more than one may have to leave.

The calls are atomic, and Redis answers.  It may drop the key once that has expired.

* `Kept`: the set has the calls of the window, and no window allows more than `maxRequests`.
* `retry_after_iff`: whoever comes when he was told is allowed, exactly if by then fewer than
  `maxRequests` of the calls so far, the denied ones among them, are still in the window.
-/

namespace NiffyInsure.Backend.HorizonLimit

open SlidingWindow ScoreSet

/-! ## The service -/

/-- `HORIZON_RATE_LIMIT_MAX` and `HORIZON_RATE_LIMIT_WINDOW_MS`. -/
structure Config where
  maxRequests : Nat
  windowMs : Nat
  deriving DecidableEq

/-- `MAX_REQUESTS` and `WINDOW_MS`. -/
def Config.defaults : Config := ⟨30, 60000⟩

structure RateLimitResult where
  allowed : Bool
  retryAfterSeconds : Int
  deriving DecidableEq

variable (cfg : Config)

/-- The time to live in milliseconds: `expire` takes whole seconds. -/
def Config.ttlMs : Nat := 1000 * (ceilSeconds cfg.windowMs).toNat

/-- What the transaction leaves. -/
def exec (key : ScoreSet) (now : Nat) : ScoreSet :=
  ((key.zremrangebyscore none ((now : Int) - cfg.windowMs)).zadd now).pexpire now cfg.ttlMs

/-- `check` at `now`. -/
def check (key : ScoreSet) (now : Nat) : ScoreSet × RateLimitResult :=
  let count := (key.zremrangebyscore none ((now : Int) - cfg.windowMs)).zcard
  let key := exec cfg key now
  if count ≥ cfg.maxRequests then
    let oldestTs := key.zfirst.getD now
    (key, ⟨false, max 1 (ceilSeconds ((oldestTs : Int) + cfg.windowMs - now))⟩)
  else (key, ⟨true, 0⟩)

/-! ## A history of calls -/

/-- The key, the time of the last call, the times of all calls, and of those that were allowed. -/
structure State where
  key : ScoreSet
  clock : Nat
  calls : List Nat
  allowed : List Nat
  deriving DecidableEq

/-- What the call does to the key, and what it returns. -/
def State.check (s : State) (c : ScoreSet.Call) : ScoreSet × RateLimitResult :=
  HorizonLimit.check cfg (s.key.found c) c.nowMs

/-- The state after the call. -/
def State.after (s : State) (c : ScoreSet.Call) : State where
  key := (s.check cfg c).1
  clock := c.nowMs
  calls := s.calls ++ [c.nowMs]
  allowed := if (s.check cfg c).2.allowed then s.allowed ++ [c.nowMs] else s.allowed

def act (s : State) (c : ScoreSet.Call) : Option State :=
  if s.key.Accepts s.clock c then some (s.after cfg c) else none

/-- No call has come yet. -/
def State.fresh : State := ⟨.empty, 0, [], []⟩

def machine : Machine State ScoreSet.Call := .ofAct (act cfg) (· = .fresh)

/-! ## When there is room -/

/-- The earliest of the calls in the window at `now`, and of the call that is made then. -/
def oldestCall (calls : List Nat) (now : Nat) : Nat :=
  ((live cfg.windowMs now calls ++ [now]).min?).getD now

/-- When that one has left the window, in whole seconds from `now` on and after one at least. -/
def leaves (calls : List Nat) (now : Nat) : Nat :=
  now + 1000 * (max 1 (ceilSeconds ((oldestCall cfg calls now : Int) + cfg.windowMs - now))).toNat

/-- By then fewer than `maxRequests` of the calls, and that at `now`, are still in the window. -/
def RoomThen (calls : List Nat) (now : Nat) : Prop :=
  (live cfg.windowMs (leaves cfg calls now) (calls ++ [now])).length < cfg.maxRequests

instance (calls : List Nat) (now : Nat) : Decidable (RoomThen cfg calls now) :=
  inferInstanceAs (Decidable (_ < _))

/-! ## What a call does -/

variable {cfg} {s : State} {c c' : ScoreSet.Call} {key : ScoreSet} {now : Nat}

theorem windowMs_le_ttlMs (cfg : Config) : cfg.windowMs ≤ cfg.ttlMs := by
  have hceil := le_ceilSeconds cfg.windowMs
  unfold Config.ttlMs
  omega

theorem scores_pruned (cfg : Config) (key : ScoreSet) (now : Nat) :
    (key.zremrangebyscore none ((now : Int) - cfg.windowMs)).scores =
      live cfg.windowMs now key.scores :=
  ScoreSet.scores_zremrangebyscore nofun

theorem scores_exec (cfg : Config) (key : ScoreSet) (now : Nat) :
    (exec cfg key now).scores = live cfg.windowMs now key.scores ++ [now] := by
  rw [exec, scores_pexpire, scores_zadd, scores_pruned]

theorem check_fst (cfg : Config) (key : ScoreSet) (now : Nat) :
    (check cfg key now).1 = exec cfg key now := by
  rw [check]
  split <;> rfl

theorem allowed_iff :
    (check cfg key now).2.allowed = true ↔
      (live cfg.windowMs now key.scores).length < cfg.maxRequests := by
  rw [check, ScoreSet.zcard, scores_pruned]
  split
  · rename_i hfull
    exact iff_of_false nofun (Nat.not_lt.mpr hfull)
  · rename_i hroom
    exact iff_of_true rfl (Nat.not_le.mp hroom)

theorem retryAfter_of_denied (h : (check cfg key now).2.allowed = false) :
    (check cfg key now).2.retryAfterSeconds =
      max 1 (ceilSeconds (((live cfg.windowMs now key.scores ++ [now]).min?.getD now : Nat) +
        cfg.windowMs - now)) := by
  rw [← Bool.not_eq_true, allowed_iff, Nat.not_lt] at h
  rw [check, ScoreSet.zcard, scores_pruned, if_pos h, ScoreSet.zfirst, scores_exec]

/-! ## Over a history -/

/-- What the state is like between two calls. -/
structure Kept (cfg : Config) (s : State) : Prop where
  follows : s.key.Follows cfg.windowMs s.clock s.calls
  before : ∀ e ∈ s.calls, e ≤ s.clock
  sublist : s.allowed.Sublist s.calls
  window : ∀ t, admittedIn cfg.windowMs t s.allowed ≤ cfg.maxRequests

theorem Kept.fresh (cfg : Config) : Kept cfg .fresh where
  follows := .empty ..
  before _ h := by cases h
  sublist := List.Sublist.refl _
  window t := by
    rw [State.fresh, admittedIn, List.countP_nil]
    exact Nat.zero_le _

theorem Kept.follows_after (h : Kept cfg s) (hc : s.key.Accepts s.clock c) :
    (s.after cfg c).key.Follows cfg.windowMs c.nowMs (s.calls ++ [c.nowMs]) := by
  have hbefore : ∀ e ∈ s.calls, e ≤ c.nowMs := fun e he => Nat.le_trans (h.before e he) hc.1
  have hpruned : ((s.key.found c).zremrangebyscore none
      ((c.nowMs : Int) - cfg.windowMs)).Follows cfg.windowMs c.nowMs s.calls :=
    (h.follows.found hc).zremrangebyscore nofun
  rw [State.after, State.check, check_fst]
  exact hpruned.zadd hbefore (windowMs_le_ttlMs cfg)

theorem Kept.room_of_allowed (h : Kept cfg s) (hc : s.key.Accepts s.clock c)
    (hallowed : (s.check cfg c).2.allowed = true) :
    (live cfg.windowMs c.nowMs s.allowed).length < cfg.maxRequests := by
  have hroom := allowed_iff.mp hallowed
  rw [(h.follows.found hc).keeps c.nowMs (Nat.le_refl _)] at hroom
  exact Nat.lt_of_le_of_lt (h.sublist.filter _).length_le hroom

/-- **A call keeps it.** -/
theorem Kept.after (h : Kept cfg s) (hc : s.key.Accepts s.clock c) : Kept cfg (s.after cfg c) := by
  refine ⟨h.follows_after hc, le_of_mem_append h.before hc.1, ?_, fun t => ?_⟩
  · show (ite _ (s.allowed ++ [c.nowMs]) s.allowed).Sublist (s.calls ++ [c.nowMs])
    split
    · exact h.sublist.append (List.Sublist.refl _)
    · exact h.sublist.trans (List.sublist_append_left ..)
  · show admittedIn cfg.windowMs t (ite _ (s.allowed ++ [c.nowMs]) s.allowed) ≤ cfg.maxRequests
    split
    · rename_i hallowed
      exact admittedIn_append_le h.window (h.room_of_allowed hc hallowed) t
    · exact h.window t

theorem kept_of_reach (h : (machine cfg).Reach Machine.always s) : Kept cfg s := by
  refine h.invariant ?_ ?_
  · rintro s rfl
    exact .fresh cfg
  · intro s c t _ hstep hkept
    obtain ⟨haccepts, hafter⟩ := Option.ite_none_right_eq_some.mp hstep
    cases hafter
    exact hkept.after haccepts

theorem Kept.told (h : Kept cfg s) (hc : s.key.Accepts s.clock c)
    (hdenied : (s.check cfg c).2.allowed = false) :
    (c.nowMs : Int) + 1000 * (s.check cfg c).2.retryAfterSeconds = leaves cfg s.calls c.nowMs := by
  have hkeeps := (h.follows.found hc).keeps c.nowMs (Nat.le_refl _)
  have hretry := retryAfter_of_denied hdenied
  rw [hkeeps] at hretry
  rw [State.check, hretry, leaves, oldestCall]
  omega

/-- **The promise of a denied call** is kept exactly if there is room then. -/
theorem Kept.promise_iff (h : Kept cfg s) (hc : s.key.Accepts s.clock c)
    (hdenied : (s.check cfg c).2.allowed = false) :
    (∀ c', (s.after cfg c).key.Accepts c.nowMs c' →
      (c.nowMs : Int) + 1000 * (s.check cfg c).2.retryAfterSeconds ≤ c'.nowMs →
        ((s.after cfg c).check cfg c').2.allowed = true) ↔ RoomThen cfg s.calls c.nowMs := by
  have hfollows := h.follows_after hc
  rw [h.told hc hdenied]
  constructor
  · intro hall
    have hlater : c.nowMs ≤ leaves cfg s.calls c.nowMs := Nat.le_add_right ..
    have hallowed := hall ⟨leaves cfg s.calls c.nowMs, false⟩ ⟨hlater, nofun⟩ (Int.le_refl _)
    have hroom := allowed_iff.mp hallowed
    rw [show (s.after cfg c).key.found ⟨leaves cfg s.calls c.nowMs, false⟩ = (s.after cfg c).key
      from rfl, hfollows.keeps _ hlater] at hroom
    exact hroom
  · intro hroom c' hc' htime
    refine allowed_iff.mpr ?_
    rw [(hfollows.found hc').keeps c'.nowMs (Nat.le_refl _), ← live_live (Int.ofNat_le.mp htime)]
    exact Nat.lt_of_le_of_lt (List.length_filter_le ..) hroom

/-- **The limit, and the promise.**  No window allows more than `maxRequests`.  Whoever was denied
and comes next, no earlier than he was told, is always allowed, exactly if there is room then. -/
theorem retry_after_iff (h : (machine cfg).Reach Machine.always s) :
    (∀ t, admittedIn cfg.windowMs t s.allowed ≤ cfg.maxRequests) ∧
    ∀ c, s.key.Accepts s.clock c → (s.check cfg c).2.allowed = false →
      ((∀ c', (s.after cfg c).key.Accepts c.nowMs c' →
        (c.nowMs : Int) + 1000 * (s.check cfg c).2.retryAfterSeconds ≤ c'.nowMs →
          ((s.after cfg c).check cfg c').2.allowed = true) ↔ RoomThen cfg s.calls c.nowMs) := by
  have hkept := kept_of_reach h
  exact ⟨hkept.window, fun c hc hdenied => hkept.promise_iff hc hdenied⟩

/-- Two calls are allowed, the third one is denied and told to come when the first one has left; by
then there is room if the second one leaves as well. -/
theorem retry_after_iff_two :
    let cfg : Config := ⟨2, 60000⟩
    ∃ s, (machine cfg).Reach Machine.always s ∧ s.allowed = [1000, 1200] ∧
      (s.check cfg ⟨60500, false⟩).2 = ⟨false, 1⟩ ∧
      ((s.after cfg ⟨60500, false⟩).check cfg ⟨61500, false⟩).2.allowed = true := by
  intro cfg
  obtain ⟨s, hs, hallowed, hdenied, hc, hc', hroom⟩ : ∃ s, (machine cfg).Reach Machine.always s ∧
      s.allowed = [1000, 1200] ∧ (s.check cfg ⟨60500, false⟩).2 = ⟨false, 1⟩ ∧
      s.key.Accepts s.clock ⟨60500, false⟩ ∧
      (s.after cfg ⟨60500, false⟩).key.Accepts 60500 ⟨61500, false⟩ ∧
      RoomThen cfg s.calls 60500 :=
    Machine.exists_reach_of_runAll [⟨1000, false⟩, ⟨1200, false⟩] (s := .fresh) rfl (by decide)
  refine ⟨s, hs, hallowed, hdenied, ?_⟩
  refine ((retry_after_iff hs).2 _ hc (by rw [hdenied])).mpr hroom _ hc' ?_
  rw [hdenied]
  decide

/-- With one request in a minute, the call at the thirtieth second is denied and told to come after
thirty more.  The next one is denied because of that call. -/
theorem retry_after_broken : ¬ ∀ (cfg : Config) (s : State), (machine cfg).Reach Machine.always s →
    ∀ c c', s.key.Accepts s.clock c → (s.check cfg c).2.allowed = false →
      (s.after cfg c).key.Accepts c.nowMs c' →
      (c.nowMs : Int) + 1000 * (s.check cfg c).2.retryAfterSeconds ≤ c'.nowMs →
        ((s.after cfg c).check cfg c').2.allowed = true := by
  intro h
  let cfg : Config := ⟨1, 60000⟩
  obtain ⟨s, hs, hdenied, hc, hc', hagain⟩ : ∃ s, (machine cfg).Reach Machine.always s ∧
      (s.check cfg ⟨30000, false⟩).2 = ⟨false, 30⟩ ∧ s.key.Accepts s.clock ⟨30000, false⟩ ∧
      (s.after cfg ⟨30000, false⟩).key.Accepts 30000 ⟨60000, false⟩ ∧
      ((s.after cfg ⟨30000, false⟩).check cfg ⟨60000, false⟩).2.allowed = false :=
    Machine.exists_reach_of_runAll [⟨0, false⟩] (s := .fresh) rfl (by decide)
  have hallowed := h cfg s hs ⟨30000, false⟩ ⟨60000, false⟩ hc (by rw [hdenied]) hc'
    (by rw [hdenied]; decide)
  rw [hagain] at hallowed
  cases hallowed

end NiffyInsure.Backend.HorizonLimit
