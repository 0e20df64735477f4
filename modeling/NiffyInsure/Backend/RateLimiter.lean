import NiffyInsure.Lib.AnchoredWindow
import NiffyInsure.Lib.Concurrent

/-!
# The claim rate limiter

`checkAndIncrement` (`rate-limit.service.ts`) reads the counter of a policy, resets it when its
window is over, reads the settings, and increments the counter if the count that it has read is
below the limit.  Each of these is one Redis command, and the commands of concurrent calls come in
any order: `HINCRBY` is atomic, but the count that decided is an older one.

The model is about one policy, whose settings stay as they are, and keeps beside the counter the
window anchors that were ever stored and the ledgers of the calls that were admitted.

* `admitted_le_limit_of_reach`: no window admits more than the limit, as long as a call resets the
  counter and increments it only where the counter is still the one that it has read.
-/

namespace NiffyInsure.Backend.RateLimiter

open AnchoredWindow

/-! ## Redis -/

/-- The hash `rate_limit:counter:<policyId>`. -/
structure Counter where
  count : Option Nat
  windowAnchor : Option Nat
  deriving DecidableEq

/-- The hash `rate_limit:config:<policyId>` (`customLimit` is its field `limit`) and the hash
`rate_limit:defaults`. -/
structure Settings where
  customLimit : Option Nat
  overrideActive : Bool
  defaultLimit : Option Nat
  windowSize : Option Nat

def DEFAULT_LIMIT : Nat := 5

def WINDOW_SIZE_LEDGERS : Nat := 17280

/-- What Redis answers to a command. -/
inductive Reply where
  | ok
  | error
  deriving DecidableEq

/-- `getWindowSize`. -/
def Settings.getWindowSize (cfg : Settings) : Reply → Nat
  | .ok => cfg.windowSize.getD WINDOW_SIZE_LEDGERS
  | .error => WINDOW_SIZE_LEDGERS

/-- What `getEffectiveLimit` returns when Redis answers. -/
def Settings.limit (cfg : Settings) : Nat :=
  cfg.customLimit.getD (cfg.defaultLimit.getD DEFAULT_LIMIT)

/-- The counter, the highest ledger that a call was made at, the anchors that were stored and the
ledgers of the admitted calls. -/
structure Store where
  counter : Counter
  ledger : Nat
  anchors : List Nat
  admitted : List Nat
  deriving DecidableEq

/-- `HSET counter count 0 windowAnchor ledger`. -/
def Store.hset (s : Store) (ledger : Nat) : Store :=
  { s with counter := ⟨some 0, some ledger⟩, anchors := s.anchors ++ [ledger] }

/-- `HINCRBY counter count 1`. -/
def Store.hincrby (s : Store) : Store :=
  { s with counter := { s.counter with count := some (s.counter.count.getD 0 + 1) } }

/-- A call at `ledger` is allowed. -/
def Store.allow (s : Store) (ledger : Nat) : Store :=
  { s with admitted := s.admitted ++ [ledger] }

/-! ## One call -/

/-- What `checkAndResetWindow` returns. -/
structure Window where
  count : Nat
  windowAnchor : Nat
  deriving DecidableEq

structure RateLimitCheckResult where
  allowed : Bool
  currentCount : Nat
  limit : Nat
  windowAnchor : Nat
  windowResetLedger : Nat
  overrideActive : Bool
  deriving DecidableEq

/-- The answer when Redis fails. -/
def failOpen (ledger : Nat) : RateLimitCheckResult where
  allowed := true
  currentCount := 0
  limit := DEFAULT_LIMIT
  windowAnchor := ledger
  windowResetLedger := ledger + WINDOW_SIZE_LEDGERS
  overrideActive := false

/-- How far a call of `checkAndIncrement` has come: the command that it sends next, and what it has
read so far. -/
inductive Call where
  | hgetall (ledger : Nat)
  | hgetWindowSize (ledger : Nat) (data : Window)
  | hset (ledger : Nat) (found : Option Nat)
  | hgetOverride (ledger : Nat) (window : Window)
  | hgetLimit (ledger : Nat) (window : Window) (overrideActive : Bool)
  | hgetDefaultLimit (ledger : Nat) (window : Window) (overrideActive : Bool)
  | hgetResetSize (ledger : Nat) (window : Window) (overrideActive : Bool) (limit : Nat)
  | hincrby (ledger : Nat) (result : RateLimitCheckResult)
  | done (result : RateLimitCheckResult)
  deriving DecidableEq

/-- The next command of a call and what the call makes of the reply.  `checkAndResetWindow`,
`getWindowSize` and `getEffectiveLimit` catch their own errors; where `checkAndIncrement` catches
one, the claim is allowed. -/
def next (cfg : Settings) (s : Store) : Call → Reply → Option (Store × Call)
  -- `checkAndResetWindow`
  | .hgetall ledger, .ok =>
    match s.counter.windowAnchor with
    | none => some (s, .hset ledger none)
    | some anchor => some (s, .hgetWindowSize ledger ⟨s.counter.count.getD 0, anchor⟩)
  | .hgetall ledger, .error => some (s, .hgetOverride ledger ⟨0, ledger⟩)
  | .hgetWindowSize ledger data, reply =>
    if data.windowAnchor + cfg.getWindowSize reply ≤ ledger then
      some (s, .hset ledger (some data.windowAnchor))
    else some (s, .hgetOverride ledger data)
  | .hset ledger _, .ok => some (s.hset ledger, .hgetOverride ledger ⟨0, ledger⟩)
  | .hset ledger _, .error => some (s, .hgetOverride ledger ⟨0, ledger⟩)
  -- `checkAndIncrement`
  | .hgetOverride ledger window, .ok => some (s, .hgetLimit ledger window cfg.overrideActive)
  | .hgetOverride ledger _, .error => some (s.allow ledger, .done (failOpen ledger))
  -- `getEffectiveLimit`
  | .hgetLimit ledger window overrideActive, .ok =>
    match cfg.customLimit with
    | some limit => some (s, .hgetResetSize ledger window overrideActive limit)
    | none => some (s, .hgetDefaultLimit ledger window overrideActive)
  | .hgetLimit ledger window overrideActive, .error =>
    some (s, .hgetResetSize ledger window overrideActive DEFAULT_LIMIT)
  | .hgetDefaultLimit ledger window overrideActive, .ok =>
    some (s, .hgetResetSize ledger window overrideActive (cfg.defaultLimit.getD DEFAULT_LIMIT))
  | .hgetDefaultLimit ledger window overrideActive, .error =>
    some (s, .hgetResetSize ledger window overrideActive DEFAULT_LIMIT)
  | .hgetResetSize ledger window overrideActive limit, reply =>
    let windowResetLedger := window.windowAnchor + cfg.getWindowSize reply
    if overrideActive then
      some (s, .hincrby ledger
        ⟨true, window.count + 1, limit, window.windowAnchor, windowResetLedger, true⟩)
    else if window.count ≥ limit then
      some (s, .done ⟨false, window.count, limit, window.windowAnchor, windowResetLedger, false⟩)
    else
      some (s, .hincrby ledger
        ⟨true, window.count + 1, limit, window.windowAnchor, windowResetLedger, false⟩)
  | .hincrby ledger result, .ok => some (s.hincrby.allow ledger, .done result)
  | .hincrby ledger _, .error => some (s.allow ledger, .done (failOpen ledger))
  | .done _, _ => none

/-- The calls of `checkAndIncrement` for one policy, each with its ledger. -/
def program (cfg : Settings) : Concurrent.Program Store Call Nat Reply Empty where
  start s ledger := some ({ s with ledger := max s.ledger ledger }, .hgetall ledger)
  next := next cfg
  around _ e := e.elim

/-- No claim has been filed. -/
def Store.fresh : Store := ⟨⟨none, none⟩, 0, [], []⟩

/-- The calls for a policy that has had no claim. -/
def machine (cfg : Settings) :
    Machine (Concurrent.State Store Call) (Concurrent.Label Nat Reply Empty) :=
  (program cfg).machine (· = .fresh)

/-! ## What the condition is -/

/-- Redis answers, and a call is made at no lower ledger than those before it. -/
def Regular (s : Concurrent.State Store Call) : Concurrent.Label Nat Reply Empty → Prop
  | .start ledger => s.shared.ledger ≤ ledger
  | .next _ reply => reply = .ok
  | .around _ => True

/-- What the other calls must have left as it is when a call writes: it resets the counter where the
anchor is still the one that it has read (or is this ledger, with nothing counted yet), and it
increments the counter where the anchor and the count are, and the window has begun. -/
def Call.Undisturbed (s : Store) : Call → Prop
  | .hset ledger found =>
    s.counter.windowAnchor = found ∨ s.counter = ⟨some 0, some ledger⟩
  | .hincrby ledger result =>
    s.counter.windowAnchor = some result.windowAnchor ∧ result.windowAnchor ≤ ledger ∧
      s.counter.count.getD 0 + 1 = result.currentCount
  | _ => True

/-- The step is regular, and a call that writes is undisturbed. -/
def LimiterClear (s : Concurrent.State Store Call)
    (l : Concurrent.Label Nat Reply Empty) : Prop :=
  Regular s l ∧ match l with
    | .next i _ => ∀ p ∈ s.calls[i]?, p.Undisturbed s.shared
    | _ => True

instance (s : Concurrent.State Store Call) (l : Concurrent.Label Nat Reply Empty) :
    Decidable (Regular s l) :=
  match l with
  | .start ledger => inferInstanceAs (Decidable (s.shared.ledger ≤ ledger))
  | .next _ reply => inferInstanceAs (Decidable (reply = .ok))
  | .around _ => inferInstanceAs (Decidable True)

instance (s : Store) (p : Call) : Decidable (p.Undisturbed s) :=
  match p with
  | .hset ledger found => inferInstanceAs
      (Decidable (s.counter.windowAnchor = found ∨ s.counter = ⟨some 0, some ledger⟩))
  | .hincrby ledger result =>
    inferInstanceAs (Decidable (s.counter.windowAnchor = some result.windowAnchor ∧
      result.windowAnchor ≤ ledger ∧ s.counter.count.getD 0 + 1 = result.currentCount))
  | .hgetall _ | .hgetWindowSize _ _ | .hgetOverride _ _ | .hgetLimit _ _ _
  | .hgetDefaultLimit _ _ _ | .hgetResetSize _ _ _ _ | .done _ => inferInstanceAs (Decidable True)

instance (s : Concurrent.State Store Call) (l : Concurrent.Label Nat Reply Empty) :
    Decidable (LimiterClear s l) :=
  match l with
  | .next i reply => inferInstanceAs
      (Decidable (Regular s (.next i reply) ∧ ∀ p ∈ s.calls[i]?, p.Undisturbed s.shared))
  | .start ledger => inferInstanceAs (Decidable (Regular s (.start ledger) ∧ True))
  | .around e => inferInstanceAs (Decidable (Regular s (.around e) ∧ True))

variable {cfg : Settings} {s t : Store} {p q : Call} {σ : Concurrent.State Store Call}

/-- The stored window and its count are those of the calls that were admitted. -/
def Store.Tracked (cfg : Settings) (s : Store) : Prop :=
  match s.counter.windowAnchor with
  | none => s.anchors = [] ∧ s.admitted = []
  | some anchor =>
    Tracks (cfg.getWindowSize .ok) cfg.limit anchor (s.counter.count.getD 0) s.anchors s.admitted

/-- The window that the call resets is over at its ledger, the one that it goes by is not, the limit
that it has read is the policy's, and the claim is only let through below it. -/
def Call.Current (cfg : Settings) : Call → Prop
  | .hset ledger found => ∀ anchor ∈ found, anchor + cfg.getWindowSize .ok ≤ ledger
  | .hgetOverride ledger window => ledger < window.windowAnchor + cfg.getWindowSize .ok
  | .hgetLimit ledger window overrideActive =>
    ledger < window.windowAnchor + cfg.getWindowSize .ok ∧ overrideActive = cfg.overrideActive
  | .hgetDefaultLimit ledger window overrideActive =>
    ledger < window.windowAnchor + cfg.getWindowSize .ok ∧ overrideActive = cfg.overrideActive ∧
      cfg.customLimit = none
  | .hgetResetSize ledger window overrideActive limit =>
    ledger < window.windowAnchor + cfg.getWindowSize .ok ∧ overrideActive = cfg.overrideActive ∧
      limit = cfg.limit
  | .hincrby ledger result =>
    ledger < result.windowAnchor + cfg.getWindowSize .ok ∧ result.currentCount ≤ cfg.limit
  | _ => True

/-! ## The two writes -/

theorem Store.Tracked.hset {ledger : Nat} {found : Option Nat} (h : s.Tracked cfg)
    (hclear : (Call.hset ledger found).Undisturbed s)
    (hcurrent : (Call.hset ledger found).Current cfg) : (s.hset ledger).Tracked cfg := by
  show Tracks _ _ ledger 0 (s.anchors ++ [ledger]) s.admitted
  unfold Store.Tracked at h
  cases hanchor : s.counter.windowAnchor with
  | none =>
    rw [hanchor] at h
    rw [h.1, h.2]
    exact .first ..
  | some anchor =>
    rw [hanchor] at h
    rcases hclear with hsame | heq
    -- what is stored is what the call has compared with its ledger
    · exact h.start (hcurrent anchor (hsame ▸ hanchor))
    · rw [heq] at h hanchor
      cases hanchor
      exact h.reopen

theorem Store.Tracked.hincrby {ledger : Nat} {result : RateLimitCheckResult} (h : s.Tracked cfg)
    (hclear : (Call.hincrby ledger result).Undisturbed s)
    (hcurrent : (Call.hincrby ledger result).Current cfg) :
    (s.hincrby.allow ledger).Tracked cfg := by
  obtain ⟨hanchor, hbegun, hcount⟩ := hclear
  obtain ⟨hcurrent, hlimit⟩ := hcurrent
  -- the count that decided is the stored one
  have hroom : s.counter.count.getD 0 < cfg.limit := by omega
  unfold Store.Tracked at h ⊢
  rw [hanchor] at h
  have hsame : (s.hincrby.allow ledger).counter.windowAnchor = some result.windowAnchor := hanchor
  rw [hsame]
  exact h.allow ⟨hbegun, hcurrent⟩ hroom

/-! ## One step of a call, and a run -/

/-- **What a command keeps.**  The counter goes on to count the admitted calls, and the call goes by
a window that is not over and by the policy's limit. -/
theorem tracked_next (hw : 0 < cfg.getWindowSize .ok) (hov : cfg.overrideActive = false)
    (hclear : p.Undisturbed s) (hs : s.Tracked cfg) (hp : p.Current cfg)
    (h : next cfg s p .ok = some (t, q)) : t.Tracked cfg ∧ q.Current cfg := by
  cases p with
  | hgetall ledger =>
    rw [next] at h
    split at h <;> cases h
    · exact ⟨hs, nofun⟩
    · exact ⟨hs, trivial⟩
  | hgetWindowSize ledger data =>
    rw [next] at h
    split at h
    · rename_i hover
      cases h
      refine ⟨hs, fun anchor hanchor => ?_⟩
      cases hanchor
      exact hover
    · rename_i hcurrent
      cases h
      exact ⟨hs, Nat.lt_of_not_le hcurrent⟩
  | hset ledger found =>
    cases h
    exact ⟨hs.hset hclear hp, Nat.lt_add_of_pos_right hw⟩
  | hgetOverride ledger window =>
    cases h
    exact ⟨hs, hp, rfl⟩
  | hgetLimit ledger window overrideActive =>
    obtain ⟨hcurrent, hover⟩ := hp
    rw [next] at h
    split at h
    · rename_i limit hcustom
      cases h
      refine ⟨hs, hcurrent, hover, ?_⟩
      rw [Settings.limit, hcustom, Option.getD_some]
    · rename_i hcustom
      cases h
      exact ⟨hs, hcurrent, hover, hcustom⟩
  | hgetDefaultLimit ledger window overrideActive =>
    obtain ⟨hcurrent, hover, hcustom⟩ := hp
    cases h
    refine ⟨hs, hcurrent, hover, ?_⟩
    rw [Settings.limit, hcustom, Option.getD_none]
  | hgetResetSize ledger window overrideActive limit =>
    obtain ⟨hcurrent, hover, hlimit⟩ := hp
    rw [hov] at hover
    subst hover
    simp only [next, Bool.false_eq_true, if_false] at h
    split at h
    · cases h
      exact ⟨hs, trivial⟩
    · rename_i hroom
      cases h
      refine ⟨hs, hcurrent, ?_⟩
      show window.count + 1 ≤ cfg.limit
      omega
  | hincrby ledger result =>
    cases h
    exact ⟨hs.hincrby hclear hp, trivial⟩
  | done result => cases h

theorem tracked_of_reach (hw : 0 < cfg.getWindowSize .ok) (hov : cfg.overrideActive = false)
    (h : (machine cfg).Reach (LimiterClear) σ) : σ.shared.Tracked cfg := by
  refine (Concurrent.Reach.sharedInvariant (I := Store.Tracked cfg)
    (J := fun _ p => p.Current cfg) ?_ ?_ ?_ ?_ h).1
  · rintro s rfl
    exact ⟨rfl, rfl⟩
  · rintro σ ledger q - hs hq
    cases hq
    exact ⟨hs, trivial, fun _ _ hp => hp⟩
  · rintro σ i reply p ⟨t, q⟩ ⟨hreply, hclear⟩ hcall hs hp hq
    cases hreply
    obtain ⟨ht, hq⟩ := tracked_next hw hov (hclear p hcall) hs hp hq
    exact ⟨ht, hq, fun _ _ hp => hp⟩
  · rintro - e
    cases e

/-- **The rate limit.**  If no other call has written to the counter between what a call reads of it
and what it writes, no window whose anchor was ever stored has more admitted calls than the
limit. -/
theorem admitted_le_limit_of_reach (hov : cfg.overrideActive = false)
    (h : (machine cfg).Reach (LimiterClear) σ) {anchor : Nat}
    (hanchor : anchor ∈ σ.shared.anchors) :
    admittedIn (cfg.getWindowSize .ok) anchor σ.shared.admitted ≤ cfg.limit := by
  rcases Nat.eq_zero_or_pos (cfg.getWindowSize .ok) with hw | hw
  · rw [hw, admittedIn_zero]
    exact Nat.zero_le _
  have htracked := tracked_of_reach hw hov h
  unfold Store.Tracked at htracked
  split at htracked
  · rw [htracked.1] at hanchor
    cases hanchor
  · exact htracked.bounded anchor hanchor

/-- One claim for a window of 100 ledgers. -/
def oneClaim : Settings := ⟨some 1, false, none, some 100⟩

/-- The call `i` sends the next `n` commands. -/
def run (i n : Nat) : List (Concurrent.Label Nat Reply Empty) := List.replicate n (.next i .ok)

theorem init_fresh (cfg : Settings) : (machine cfg).init ⟨.fresh, []⟩ := ⟨rfl, rfl⟩

theorem admitted_le_limit_one_by_one :
    ∃ σ, (machine oneClaim).Reach (LimiterClear) σ ∧ σ.shared.admitted = [10] ∧
      σ.calls[1]? = some (.done ⟨false, 1, 1, 10, 110, false⟩) ∧
      admittedIn 100 10 σ.shared.admitted ≤ 1 := by
  obtain ⟨σ, hreach, hanchor, hadmitted, hdenied⟩ : ∃ σ,
      (machine oneClaim).Reach (LimiterClear) σ ∧ 10 ∈ σ.shared.anchors ∧
        σ.shared.admitted = [10] ∧ σ.calls[1]? = some (.done ⟨false, 1, 1, 10, 110, false⟩) :=
    Machine.exists_reach_of_runAll (.start 10 :: .start 12 :: run 0 6 ++ run 1 5)
      (init_fresh oneClaim) (by decide)
  exact ⟨σ, hreach, hadmitted, hdenied, admitted_le_limit_of_reach rfl hreach hanchor⟩

/-- The second call reads the counter before the first has incremented it, and both are admitted
where the limit is one. -/
theorem admitted_two_of_one :
    ∃ σ, (machine oneClaim).Reach Regular σ ∧ 10 ∈ σ.shared.anchors ∧
      oneClaim.limit < admittedIn (oneClaim.getWindowSize .ok) 10 σ.shared.admitted :=
  Machine.exists_reach_of_runAll
    (.start 10 :: .start 10 :: run 0 5 ++ run 1 5 ++ run 0 1 ++ run 1 1)
    (init_fresh oneClaim) (by decide)

end NiffyInsure.Backend.RateLimiter
