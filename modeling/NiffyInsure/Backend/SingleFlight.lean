import NiffyInsure.Lib.Concurrent

/-!
# The single-flight cache

`CacheService.wrap` and `withSingleFlightLock` call a loader for a key that is not cached, under a
lock `lock:key` in Redis, and store what it returns; a call that does not get the lock waits for
the value.  Reading, locking, storing and unlocking are separate commands.

* `wrapNext`, `withSingleFlightLockNext`: what a call does next, in either implementation.
* `Move`: what a step of either implementation can be.
* `singleFlight_of_reach`: the loader is called once, if a call turns to it only while nothing is
  cached and no value is about to be stored; and no call releases the lock of another one, if it
  releases within the lock's TTL, or while there is no lock.
-/

namespace NiffyInsure.Backend.SingleFlight

open Concurrent

/-! ## The data -/

/-- The `EX 30` of the lock, in milliseconds. -/
def LOCK_TTL_MS : Nat := 30 * 1000

def maxWaitMs : Nat := 5000

def pollIntervalMs : Nat := 50

/-- What a key holds until it expires. -/
def unexpired {α : Type} (now : Nat) (entry : Option (α × Nat)) : Option α :=
  entry.bind fun e => if now < e.2 then some e.1 else none

/-- The time in milliseconds, and what `key` and `lock:key` hold, with their expiry.  The lock holds
`'1'` whoever has set it; who that was is noted, as is how many calls there have been, how often the
loader was called, and what it returned (`none` for `null`). -/
structure Shared (V : Type) where
  now : Nat
  value : Option (Option V × Nat)
  lock : Option (Nat × Nat)
  callers : Nat
  started : Nat
  values : List (Option V)
  deriving DecidableEq

namespace Shared

variable {V : Type} (r : Shared V)

/-- `GET key`, parsed: a `null` that is stored reads like a miss. -/
def cached : Option V := (unexpired r.now r.value).join

/-- Whose lock there is. -/
def holder : Option Nat := unexpired r.now r.lock

/-- `SET lock:key 1 EX 30 NX`, where there is no lock. -/
def setNx (id : Nat) : Shared V := { r with lock := some (id, r.now + LOCK_TTL_MS) }

/-- `DEL lock:key`. -/
def del : Shared V := { r with lock := none }

/-- `SETEX key`. -/
def setex (v : Option V) (ttlSeconds : Nat) : Shared V :=
  { r with value := some (v, r.now + ttlSeconds * 1000) }

/-- The loader is called. -/
def begin : Shared V := { r with started := r.started + 1 }

/-- The loader has returned `v`. -/
def returned (v : Option V) : Shared V := { r with values := r.values ++ [v] }

/-- The time goes on. -/
def pass (n : Nat) : Shared V := { r with now := r.now + n }

end Shared

/-- What a call does with the loader: it holds the lock that it took at `takenAt`; it stores the
value without the lock; it returns the value, and calls the loader again if that fails; or it leaves
a failure to its caller. -/
inductive Mode where
  | holding (takenAt : Nat)
  | storing
  | retrying
  | bare
  deriving DecidableEq

/-- Where a call is. -/
inductive Phase (V : Type) where
  | read
  | lock
  | load (mode : Mode)
  | loading (mode : Mode)
  | store (mode : Mode) (v : Option V)
  /-- With what the loader has returned, if it has not failed. -/
  | release (takenAt : Nat) (result : Option (Option V))
  | wait
  /-- At the head of the loop that waits; the timer fires at `wakeAt`. -/
  | check (startTime wakeAt : Nat)
  | look (startTime seenAt : Nat)
  | ask (startTime seenAt : Nat)
  | reread
  /-- `none`: it has thrown. -/
  | done (result : Option (Option V))
  deriving DecidableEq

/-- What a command does, or the loader. -/
inductive Outcome (V : Type) where
  | ok
  | error
  | returns (v : Option V)
  deriving DecidableEq

structure Call (V : Type) where
  id : Nat
  ttlSeconds : Nat
  phase : Phase V
  deriving DecidableEq

/-! ## The two implementations -/

section Next

variable {V : Type} (r : Shared V) (id ttlSeconds : Nat)

/-- The next step of a call of `wrap`.  (`RedisService` throws nothing: a read that fails is a miss,
and a lock that is not taken because of an error is one that is held.) -/
def wrapNext : Phase V → Outcome V → Option (Shared V × Phase V)
  | .read, .ok =>
    match r.cached with
    | some v => some (r, .done (some (some v)))
    | none => some (r, .lock)
  | .read, .error => some (r, .lock)
  | .lock, .ok =>
    if r.holder = none then some (r.setNx id, .load (.holding r.now)) else some (r, .wait)
  | .lock, .error => some (r, .wait)
  | .load mode, .ok => some (r.begin, .loading mode)
  | .loading (.holding takenAt), .returns v => some (r.returned v, .store (.holding takenAt) v)
  | .loading (.holding takenAt), .error => some (r, .release takenAt none)
  | .loading _, .returns v => some (r.returned v, .done (some v))
  | .loading _, .error => some (r, .done none)
  | .store (.holding takenAt) v, .ok => some (r.setex v ttlSeconds, .release takenAt (some v))
  | .store (.holding takenAt) v, .error => some (r, .release takenAt (some v))
  | .release _ result, .ok => some (r.del, .done result)
  | .release _ result, .error => some (r, .done result)
  | .wait, .ok => some (r, .check r.now r.now)
  | .check startTime wakeAt, .ok =>
    if r.now < wakeAt then none
    else if r.now - startTime < maxWaitMs then some (r, .ask startTime r.now)
    else some (r, .reread)
  | .ask startTime _, .ok =>
    if r.holder = none then some (r, .reread)
    else some (r, .check startTime (r.now + pollIntervalMs))
  | .ask _ _, .error => some (r, .reread)
  | .reread, .ok =>
    match r.cached with
    | some v => some (r, .done (some (some v)))
    | none => some (r, .load .bare)
  | .reread, .error => some (r, .load .bare)
  | _, _ => none

/-- The next step of a call of `withSingleFlightLock`.  Whatever is thrown, the call goes on with
`.load .bare`. -/
def withSingleFlightLockNext : Phase V → Outcome V → Option (Shared V × Phase V)
  | .lock, .ok =>
    if r.holder = none then some (r.setNx id, .load (.holding r.now)) else some (r, .wait)
  | .lock, .error => some (r, .load .bare)
  | .load mode, .ok => some (r.begin, .loading mode)
  | .loading (.holding takenAt), .returns v => some (r.returned v, .store (.holding takenAt) v)
  | .loading (.holding takenAt), .error => some (r, .release takenAt none)
  | .loading .storing, .returns v => some (r.returned v, .store .storing v)
  | .loading .storing, .error => some (r, .load .bare)
  | .loading .retrying, .returns v => some (r.returned v, .done (some v))
  | .loading .retrying, .error => some (r, .load .bare)
  | .loading .bare, .returns v => some (r.returned v, .done (some v))
  | .loading .bare, .error => some (r, .done none)
  | .store (.holding takenAt) v, .ok => some (r.setex v ttlSeconds, .release takenAt (some v))
  | .store (.holding takenAt) v, .error => some (r, .release takenAt (some v))
  | .store .storing v, .ok => some (r.setex v ttlSeconds, .done (some v))
  | .store .storing v, .error => some (r, .done (some v))
  | .release _ (some v), .ok => some (r.del, .done (some v))
  | .release _ (some v), .error => some (r, .done (some v))
  | .release _ none, .ok => some (r.del, .load .bare)
  | .release _ none, .error => some (r, .load .bare)
  | .wait, .ok => some (r, .check r.now r.now)
  | .check startTime wakeAt, .ok =>
    if r.now < wakeAt then none
    else if r.now - startTime < maxWaitMs then some (r, .look startTime r.now)
    else some (r, .reread)
  | .look startTime seenAt, .ok =>
    match r.cached with
    | some v => some (r, .done (some (some v)))
    | none => some (r, .ask startTime seenAt)
  | .look startTime seenAt, .error => some (r, .ask startTime seenAt)
  | .ask startTime _, .ok =>
    if r.holder = none then some (r, .load .storing)
    else some (r, .check startTime (r.now + pollIntervalMs))
  | .ask _ _, .error => some (r, .load .bare)
  | .reread, .ok =>
    match r.cached with
    | some v => some (r, .done (some (some v)))
    | none => some (r, .load .retrying)
  | .reread, .error => some (r, .load .retrying)
  | _, _ => none

end Next

inductive Api where
  | wrap
  | withSingleFlightLock
  deriving DecidableEq

/-- `wrap` reads the cache before it tries the lock. -/
def Api.first (V : Type) : Api → Phase V
  | .wrap => .read
  | .withSingleFlightLock => .lock

def Api.next {V : Type} : Api → Shared V → Nat → Nat → Phase V → Outcome V →
    Option (Shared V × Phase V)
  | .wrap => wrapNext
  | .withSingleFlightLock => withSingleFlightLockNext

/-- Calls for one key, each with its TTL in seconds.  The surroundings let time pass. -/
def Api.program (V : Type) (api : Api) : Program (Shared V) (Call V) Nat (Outcome V) Nat where
  start r ttlSeconds :=
    some ({ r with callers := r.callers + 1 }, ⟨r.callers, ttlSeconds, api.first V⟩)
  next r c outcome := (api.next r c.id c.ttlSeconds c.phase outcome).map fun q =>
    (q.1, { c with phase := q.2 })
  around r n := some (r.pass n)

/-- Nothing is stored, and no call was made. -/
def fresh (V : Type) : Shared V := ⟨0, none, none, 0, 0, []⟩

def Api.machine (V : Type) (api : Api) :
    Machine (State (Shared V) (Call V)) (Label Nat (Outcome V) Nat) :=
  (api.program V).machine fun r => r = fresh V

/-! ## What a step can be -/

section Moves

variable {V : Type}

/-- A step of a call of either implementation, with its outcome: what the store and the phase
become. -/
inductive Move (api : Api) (r : Shared V) (id ttlSeconds : Nat) :
    Phase V → Outcome V → Shared V → Phase V → Prop
  | hit {p : Phase V} {v : V} (hv : r.cached = some v)
      (hp : p = .read ∨ (∃ startTime seenAt, p = .look startTime seenAt) ∨ p = .reread) :
      Move api r id ttlSeconds p .ok r (.done (some (some v)))
  | missed {outcome : Outcome V} : Move api r id ttlSeconds .read outcome r .lock
  | looked {outcome : Outcome V} {startTime seenAt : Nat} :
      Move api r id ttlSeconds (.look startTime seenAt) outcome r (.ask startTime seenAt)
  | rereadMissed {outcome : Outcome V} {mode : Mode} (hmiss : outcome = .error ∨ r.cached = none)
      (hmode : mode = .bare ∨ mode = .retrying) :
      Move api r id ttlSeconds .reread outcome r (.load mode)
  | taken (hfree : r.holder = none) :
      Move api r id ttlSeconds .lock .ok (r.setNx id) (.load (.holding r.now))
  | refused {outcome : Outcome V} (hheld : outcome = .error ∨ r.holder ≠ none) :
      Move api r id ttlSeconds .lock outcome r .wait
  | lockFailed : Move api r id ttlSeconds .lock .error r (.load .bare)
  | begun {mode : Mode} : Move api r id ttlSeconds (.load mode) .ok r.begin (.loading mode)
  | returnedHolding {takenAt : Nat} {v : Option V} :
      Move api r id ttlSeconds (.loading (.holding takenAt)) (.returns v) (r.returned v)
        (.store (.holding takenAt) v)
  | returned {mode : Mode} {v : Option V} {p : Phase V} (hmode : ∀ takenAt, mode ≠ .holding takenAt)
      (hp : (p = .store .storing v ∧ api = .withSingleFlightLock ∧ mode = .storing) ∨
        p = .done (some v)) :
      Move api r id ttlSeconds (.loading mode) (.returns v) (r.returned v) p
  | failedHolding {takenAt : Nat} :
      Move api r id ttlSeconds (.loading (.holding takenAt)) .error r (.release takenAt none)
  | failed {mode : Mode} {p : Phase V} (hmode : ∀ takenAt, mode ≠ .holding takenAt)
      (hp : p = .done none ∨ (p = .load .bare ∧ mode ≠ .bare)) :
      Move api r id ttlSeconds (.loading mode) .error r p
  | storedHolding {outcome : Outcome V} {takenAt : Nat} {v : Option V} {r' : Shared V}
      (hr : (outcome = .ok ∧ r' = r.setex v ttlSeconds) ∨ (outcome = .error ∧ r' = r)) :
      Move api r id ttlSeconds (.store (.holding takenAt) v) outcome r' (.release takenAt (some v))
  | stored {outcome : Outcome V} {v : Option V} {r' : Shared V}
      (hr : r' = r.setex v ttlSeconds ∨ r' = r) :
      Move api r id ttlSeconds (.store .storing v) outcome r' (.done (some v))
  | released {outcome : Outcome V} {takenAt : Nat} {result : Option (Option V)} {r' : Shared V}
      {p : Phase V} (hr : r' = r.del ∨ r' = r)
      (hp : p = .done result ∨ (p = .load .bare ∧ result = none)) :
      Move api r id ttlSeconds (.release takenAt result) outcome r' p
  | waited : Move api r id ttlSeconds .wait .ok r (.check r.now r.now)
  | checked {startTime wakeAt : Nat} {p : Phase V} (hwake : wakeAt ≤ r.now)
      (htime : r.now < startTime + maxWaitMs)
      (hp : (p = .look startTime r.now ∧ api = .withSingleFlightLock) ∨ p = .ask startTime r.now) :
      Move api r id ttlSeconds (.check startTime wakeAt) .ok r p
  | timedOut {startTime wakeAt : Nat} (hwake : wakeAt ≤ r.now)
      (htime : startTime + maxWaitMs ≤ r.now) :
      Move api r id ttlSeconds (.check startTime wakeAt) .ok r .reread
  | stillHeld {startTime seenAt : Nat} (hheld : r.holder ≠ none) :
      Move api r id ttlSeconds (.ask startTime seenAt) .ok r
        (.check startTime (r.now + pollIntervalMs))
  | gone {outcome : Outcome V} {startTime seenAt : Nat}
      (hgone : outcome = .error ∨ r.holder = none) :
      Move api r id ttlSeconds (.ask startTime seenAt) outcome r .reread
  | goneOn {startTime seenAt : Nat} (hgone : r.holder = none) (hapi : api = .withSingleFlightLock) :
      Move api r id ttlSeconds (.ask startTime seenAt) .ok r (.load .storing)
  | askFailed {startTime seenAt : Nat} :
      Move api r id ttlSeconds (.ask startTime seenAt) .error r (.load .bare)

variable {r r' : Shared V} {id ttlSeconds : Nat} {p p' : Phase V} {outcome : Outcome V} {api : Api}

theorem move_of_wrapNext (h : wrapNext r id ttlSeconds p outcome = some (r', p')) :
    Move .wrap r id ttlSeconds p outcome r' p' := by
  cases p with
  | read =>
    cases outcome with
    | ok =>
      simp only [wrapNext] at h
      split at h <;> cases h
      · exact .hit ‹_› (.inl rfl)
      · exact .missed
    | error => cases h; exact .missed
    | returns v => cases h
  | lock =>
    cases outcome with
    | ok =>
      simp only [wrapNext] at h
      split at h <;> cases h
      · exact .taken ‹_›
      · exact .refused (.inr ‹_›)
    | error => cases h; exact .refused (.inl rfl)
    | returns v => cases h
  | load mode => cases outcome <;> cases h; exact .begun
  | loading mode =>
    cases mode <;> cases outcome <;> cases h
    · exact .failedHolding
    · exact .returnedHolding
    all_goals first
      | exact .failed nofun (.inl rfl)
      | exact .returned nofun (.inr rfl)
  | store mode v =>
    cases mode <;> cases outcome <;> cases h
    · exact .storedHolding (.inl ⟨rfl, rfl⟩)
    · exact .storedHolding (.inr ⟨rfl, rfl⟩)
  | release takenAt result =>
    cases outcome <;> cases h
    · exact .released (.inl rfl) (.inl rfl)
    · exact .released (.inr rfl) (.inl rfl)
  | wait => cases outcome <;> cases h; exact .waited
  | check startTime wakeAt =>
    cases outcome with
    | ok =>
      simp only [wrapNext] at h
      split at h
      · cases h
      · split at h <;> cases h
        · exact .checked (by omega) (by omega) (.inr rfl)
        · exact .timedOut (by omega) (by unfold maxWaitMs at *; omega)
    | error | returns => cases h
  | look startTime seenAt => cases outcome <;> cases h
  | ask startTime seenAt =>
    cases outcome with
    | ok =>
      simp only [wrapNext] at h
      split at h <;> cases h
      · exact .gone (.inr ‹_›)
      · exact .stillHeld ‹_›
    | error => cases h; exact .gone (.inl rfl)
    | returns v => cases h
  | reread =>
    cases outcome with
    | ok =>
      simp only [wrapNext] at h
      split at h <;> cases h
      · exact .hit ‹_› (.inr (.inr rfl))
      · exact .rereadMissed (.inr ‹_›) (.inl rfl)
    | error => cases h; exact .rereadMissed (.inl rfl) (.inl rfl)
    | returns v => cases h
  | done result => cases outcome <;> cases h

theorem move_of_withSingleFlightLockNext
    (h : withSingleFlightLockNext r id ttlSeconds p outcome = some (r', p')) :
    Move .withSingleFlightLock r id ttlSeconds p outcome r' p' := by
  cases p with
  | read => cases outcome <;> cases h
  | lock =>
    cases outcome with
    | ok =>
      simp only [withSingleFlightLockNext] at h
      split at h <;> cases h
      · exact .taken ‹_›
      · exact .refused (.inr ‹_›)
    | error => cases h; exact .lockFailed
    | returns v => cases h
  | load mode => cases outcome <;> cases h; exact .begun
  | loading mode =>
    cases mode <;> cases outcome <;> cases h
    · exact .failedHolding
    · exact .returnedHolding
    · exact .failed nofun (.inr ⟨rfl, nofun⟩)
    · exact .returned nofun (.inl ⟨rfl, rfl, rfl⟩)
    · exact .failed nofun (.inr ⟨rfl, nofun⟩)
    · exact .returned nofun (.inr rfl)
    · exact .failed nofun (.inl rfl)
    · exact .returned nofun (.inr rfl)
  | store mode v =>
    cases mode <;> cases outcome <;> cases h
    · exact .storedHolding (.inl ⟨rfl, rfl⟩)
    · exact .storedHolding (.inr ⟨rfl, rfl⟩)
    · exact .stored (.inl rfl)
    · exact .stored (.inr rfl)
  | release takenAt result =>
    cases result <;> cases outcome <;> cases h
    · exact .released (.inl rfl) (.inr ⟨rfl, rfl⟩)
    · exact .released (.inr rfl) (.inr ⟨rfl, rfl⟩)
    · exact .released (.inl rfl) (.inl rfl)
    · exact .released (.inr rfl) (.inl rfl)
  | wait => cases outcome <;> cases h; exact .waited
  | check startTime wakeAt =>
    cases outcome with
    | ok =>
      simp only [withSingleFlightLockNext] at h
      split at h
      · cases h
      · split at h <;> cases h
        · exact .checked (by omega) (by omega) (.inl ⟨rfl, rfl⟩)
        · exact .timedOut (by omega) (by unfold maxWaitMs at *; omega)
    | error | returns => cases h
  | look startTime seenAt =>
    cases outcome with
    | ok =>
      simp only [withSingleFlightLockNext] at h
      split at h <;> cases h
      · exact .hit ‹_› (.inr (.inl ⟨_, _, rfl⟩))
      · exact .looked
    | error => cases h; exact .looked
    | returns v => cases h
  | ask startTime seenAt =>
    cases outcome with
    | ok =>
      simp only [withSingleFlightLockNext] at h
      split at h <;> cases h
      · exact .goneOn ‹_› rfl
      · exact .stillHeld ‹_›
    | error => cases h; exact .askFailed
    | returns v => cases h
  | reread =>
    cases outcome with
    | ok =>
      simp only [withSingleFlightLockNext] at h
      split at h <;> cases h
      · exact .hit ‹_› (.inr (.inr rfl))
      · exact .rereadMissed (.inr ‹_›) (.inr rfl)
    | error => cases h; exact .rereadMissed (.inl rfl) (.inr rfl)
    | returns v => cases h
  | done result => cases outcome <;> cases h

/-- **Every step of either implementation is one of these moves.** -/
theorem move_of_next (h : api.next r id ttlSeconds p outcome = some (r', p')) :
    Move api r id ttlSeconds p outcome r' p' := by
  cases api with
  | wrap => exact move_of_wrapNext h
  | withSingleFlightLock => exact move_of_withSingleFlightLockNext h

end Moves

/-! ## The conditions -/

section Conditions

variable {V : Type}

/-- Neither an error nor `null`. -/
def Outcome.succeeds : Outcome V → Bool
  | .ok | .returns (some _) => true
  | .error | .returns none => false

/-- When the call took the lock under which its loader is called. -/
def Phase.loadsSince : Phase V → Option Nat
  | .load (.holding takenAt) | .loading (.holding takenAt) => some takenAt
  | _ => none

/-- The call has a value to store. -/
def Phase.isStoring : Phase V → Bool
  | .store .. => true
  | _ => false

/-- When the call took the lock that it is about to release. -/
def Phase.releasesSince : Phase V → Option Nat
  | .release takenAt _ => some takenAt
  | _ => none

/-- When the call began to wait. -/
def Phase.waitsSince : Phase V → Option Nat
  | .check startTime _ | .look startTime _ | .ask startTime _ => some startTime
  | _ => none

/-- The next command of the call sends it to the loader. -/
def Phase.turnsToLoader (api : Api) (r : Shared V) : Phase V → Bool
  | .lock => decide (r.holder = none)
  | .ask .. => decide (api = .withSingleFlightLock ∧ r.holder = none)
  | .reread => r.cached.isNone
  | _ => false

/-- Redis makes no error, the loader returns a value before the lock's TTL and while the others
wait, and what is cached does not expire. -/
def Calm (s : State (Shared V) (Call V)) : Label Nat (Outcome V) Nat → Prop
  | .start ttlSeconds => 0 < ttlSeconds
  | .next _ outcome => outcome.succeeds = true
  | .around n =>
    (∀ c ∈ s.calls, ∀ takenAt ∈ c.phase.loadsSince, s.shared.now + n < takenAt + LOCK_TTL_MS ∧
      ∀ d ∈ s.calls, ∀ startTime ∈ d.phase.waitsSince, s.shared.now + n < startTime + maxWaitMs) ∧
    ∀ entry ∈ s.shared.value, s.shared.now < entry.2 → s.shared.now + n < entry.2

/-- A call turns to the loader only while nothing is cached and no value is about to be stored. -/
def LoadsUncached (api : Api) (s : State (Shared V) (Call V)) : Label Nat (Outcome V) Nat → Prop
  | .next i _ => ∀ c ∈ s.calls[i]?, c.phase.turnsToLoader api s.shared = true →
    s.shared.cached.isNone = true ∧ ∀ d ∈ s.calls, d.phase.isStoring = false
  | _ => True

/-- A call releases within the TTL of its lock, or while there is no lock. -/
def ReleasesInTime (s : State (Shared V) (Call V)) : Label Nat (Outcome V) Nat → Prop
  | .next i _ => ∀ c ∈ s.calls[i]?, ∀ takenAt ∈ c.phase.releasesSince,
    s.shared.now < takenAt + LOCK_TTL_MS ∨ s.shared.holder = none
  | _ => True

instance (s : State (Shared V) (Call V)) : ∀ l, Decidable (Calm s l)
  | .start ttlSeconds => inferInstanceAs (Decidable (0 < ttlSeconds))
  | .next _ outcome => inferInstanceAs (Decidable (outcome.succeeds = true))
  | .around _ => inferInstanceAs (Decidable (_ ∧ _))

instance (api : Api) (s : State (Shared V) (Call V)) : ∀ l, Decidable (LoadsUncached api s l)
  | .next i _ => inferInstanceAs (Decidable (∀ c ∈ s.calls[i]?, _))
  | .start _ | .around _ => inferInstanceAs (Decidable True)

instance (s : State (Shared V) (Call V)) : ∀ l, Decidable (ReleasesInTime s l)
  | .next i _ => inferInstanceAs (Decidable (∀ c ∈ s.calls[i]?, _))
  | .start _ | .around _ => inferInstanceAs (Decidable True)

/-- In every run whose steps meet `ok` the loader is called at most once; it was called, and has
returned, when a call ends, and the call ends with what it returned. -/
def Api.LoadsOnce (V : Type) (api : Api)
    (ok : State (Shared V) (Call V) → Label Nat (Outcome V) Nat → Prop) : Prop :=
  ∀ s, (api.machine V).Reach ok s → s.shared.started ≤ 1 ∧
    ∀ c ∈ s.calls, ∀ result, c.phase = .done result →
      ∃ v, result = some (some v) ∧ s.shared.started = 1 ∧ s.shared.values = [some v]

/-- In every run whose steps meet `ok` no step of a call takes the lock of another call away. -/
def Api.KeepsLocks (V : Type) (api : Api)
    (ok : State (Shared V) (Call V) → Label Nat (Outcome V) Nat → Prop) : Prop :=
  ∀ s i outcome t, (api.machine V).Reach ok s → ok s (.next i outcome) →
    (api.machine V).step s (.next i outcome) t →
      ∀ j, j ≠ i → s.shared.holder = some j → t.shared.holder = some j

end Conditions

/-! ## The stages of a flight -/

/-- How far the call has come that took the lock. -/
inductive Progress (V : Type) where
  | toCall
  | calling
  | got (v : V)

def Progress.phase {V : Type} (takenAt : Nat) : Progress V → Phase V
  | .toCall => .load (.holding takenAt)
  | .calling => .loading (.holding takenAt)
  | .got v => .store (.holding takenAt) (some v)

/-- The call is at the loader, or has a value to store. -/
def Phase.atLoader {V : Type} : Phase V → Bool
  | .load _ | .loading _ | .store .. => true
  | _ => false

theorem Progress.atLoader_phase {V : Type} (takenAt : Nat) (progress : Progress V) :
    (progress.phase takenAt).atLoader = true := by
  cases progress <;> rfl

/-- No call has taken the lock; the call `owner` has, at `takenAt`; or the value is cached. -/
inductive Stage (V : Type) where
  | idle
  | flying (owner takenAt : Nat) (progress : Progress V)
  | landed (v : V)

namespace Stage

variable {V : Type}

def started : Stage V → Nat
  | .idle | .flying _ _ .toCall => 0
  | _ => 1

theorem started_le_one (stage : Stage V) : stage.started ≤ 1 := by
  unfold started
  split <;> omega

def values : Stage V → List (Option V)
  | .flying _ _ (.got v) | .landed v => [some v]
  | _ => []

/-- The loader has not returned yet. -/
def loading : Stage V → Bool
  | .flying _ _ .toCall | .flying _ _ .calling => true
  | _ => false

/-- What the store and the calls are like at a stage. -/
def Holds (r : Shared V) (calls : List (Call V)) : Stage V → Prop
  | .idle => r.value = none ∧ r.lock = none
  | .flying owner takenAt progress =>
    r.value = none ∧ r.lock = some (owner, takenAt + LOCK_TTL_MS) ∧
      ((flying owner takenAt progress).loading = true → r.now < takenAt + LOCK_TTL_MS) ∧
      ∃ c, calls[owner]? = some c ∧ c.phase = progress.phase takenAt
  | .landed v => ∃ expiry, r.value = some (some v, expiry) ∧ r.now < expiry

/-- What the call `i` can be at. -/
def FitsPhase (stage : Stage V) (now i : Nat) : Phase V → Prop
  | .read | .lock => True
  | .load mode => ∃ takenAt, mode = .holding takenAt ∧ stage = .flying i takenAt .toCall
  | .loading mode => ∃ takenAt, mode = .holding takenAt ∧ stage = .flying i takenAt .calling
  | .store mode w => ∃ takenAt v, mode = .holding takenAt ∧ w = some v ∧
    stage = .flying i takenAt (.got v)
  | .release _ result | .done result => ∃ v, result = some (some v) ∧ stage = .landed v
  | .wait => stage ≠ .idle
  | .check startTime _ | .look startTime _ | .ask startTime _ =>
    stage ≠ .idle ∧ (stage.loading = true → now < startTime + maxWaitMs)
  | .reread => stage ≠ .idle ∧ stage.loading = false

/-- What the steps of the call `i` do to the stage. -/
inductive Onward (i : Nat) : Stage V → Stage V → Prop
  | stay (stage : Stage V) : Onward i stage stage
  | taken (takenAt : Nat) : Onward i .idle (.flying i takenAt .toCall)
  | called (takenAt : Nat) : Onward i (.flying i takenAt .toCall) (.flying i takenAt .calling)
  | returned (takenAt : Nat) (v : V) :
      Onward i (.flying i takenAt .calling) (.flying i takenAt (.got v))
  | stored (takenAt : Nat) (v : V) : Onward i (.flying i takenAt (.got v)) (.landed v)

section Onward

variable {stage stage' : Stage V} {i j now : Nat}

theorem Onward.eq_of_flying {takenAt : Nat} {progress : Progress V}
    (h : Onward i (.flying j takenAt progress) stage') (hj : j ≠ i) :
    stage' = .flying j takenAt progress := by
  cases h with
  | stay => rfl
  | called | returned | stored => exact absurd rfl hj

theorem Onward.eq_of_landed {v : V} (h : Onward i (.landed v) stage') : stage' = .landed v := by
  cases h
  rfl

theorem Onward.of_ne_idle (h : Onward i stage stage') (hne : stage ≠ .idle) :
    stage' ≠ .idle ∧ (stage'.loading = true → stage.loading = true) := by
  cases h with
  | stay => exact ⟨hne, id⟩
  | taken => exact absurd rfl hne
  | called | returned => exact ⟨nofun, fun _ => rfl⟩
  | stored => exact ⟨nofun, fun hl => by cases hl⟩

theorem FitsPhase.of_onward {p : Phase V} (h : stage.FitsPhase now j p)
    (honward : Onward i stage stage') (hj : j ≠ i) : stage'.FitsPhase now j p := by
  cases p with
  | read | lock => trivial
  | load | loading =>
    obtain ⟨takenAt, hmode, rfl⟩ := h
    exact ⟨takenAt, hmode, honward.eq_of_flying hj⟩
  | store =>
    obtain ⟨takenAt, v, hmode, hw, rfl⟩ := h
    exact ⟨takenAt, v, hmode, hw, honward.eq_of_flying hj⟩
  | release | done =>
    obtain ⟨v, hresult, rfl⟩ := h
    exact ⟨v, hresult, honward.eq_of_landed⟩
  | wait => exact (honward.of_ne_idle h).1
  | check | look | ask =>
    obtain ⟨hne, hwait⟩ := h
    obtain ⟨hne', hback⟩ := honward.of_ne_idle hne
    exact ⟨hne', fun hl => hwait (hback hl)⟩
  | reread =>
    obtain ⟨hne, hloading⟩ := h
    obtain ⟨hne', hback⟩ := honward.of_ne_idle hne
    refine ⟨hne', Bool.eq_false_iff.mpr fun hl => ?_⟩
    rw [hback hl] at hloading
    cases hloading

end Onward

/-! ## What is known at a stage -/

section Holds

variable {r : Shared V} {calls : List (Call V)} {stage : Stage V} {i : Nat} {c : Call V} {v : V}

theorem Holds.eq_landed (h : stage.Holds r calls) (hv : r.cached = some v) : stage = .landed v := by
  cases stage with
  | idle =>
    rw [Shared.cached, h.1] at hv
    cases hv
  | flying =>
    rw [Shared.cached, h.1] at hv
    cases hv
  | landed w =>
    obtain ⟨expiry, hvalue, hlt⟩ := h
    rw [Shared.cached, hvalue, unexpired, Option.bind_some, if_pos hlt] at hv
    cases hv
    rfl

theorem Holds.cached_eq (h : (landed v).Holds r calls) : r.cached = some v := by
  obtain ⟨expiry, hvalue, hlt⟩ := h
  rw [Shared.cached, hvalue, unexpired, Option.bind_some, if_pos hlt]
  rfl

theorem Holds.ne_idle (h : stage.Holds r calls) (hheld : r.holder ≠ none) : stage ≠ .idle := by
  rintro rfl
  rw [Shared.holder, h.2] at hheld
  exact hheld rfl

theorem Holds.loading_eq_false (h : stage.Holds r calls) (hfree : r.holder = none) :
    stage.loading = false := by
  cases stage with
  | idle | landed => rfl
  | flying owner takenAt progress =>
    obtain ⟨-, hlock, htime, -⟩ := h
    refine Bool.eq_false_iff.mpr fun hl => ?_
    rw [Shared.holder, hlock, unexpired, Option.bind_some, if_pos (htime hl)] at hfree
    cases hfree

/-- While nothing is cached or about to be stored, and no loader is at work, no call has taken the
lock. -/
theorem Holds.eq_idle (h : stage.Holds r calls) (hcached : r.cached.isNone = true)
    (hstore : ∀ d ∈ calls, d.phase.isStoring = false) (hloading : stage.loading = false) :
    stage = .idle := by
  cases stage with
  | idle => rfl
  | landed v =>
    rw [h.cached_eq] at hcached
    cases hcached
  | flying owner takenAt progress =>
    obtain ⟨-, -, -, d, hd, hphase⟩ := h
    cases progress with
    | toCall | calling => cases hloading
    | got v =>
      have hnot := hstore d (List.mem_of_getElem? hd)
      rw [hphase] at hnot
      cases hnot

theorem Holds.set {d : Call V} (h : stage.Holds r calls) (hc : calls[i]? = some c)
    (hout : c.phase.atLoader = false) : stage.Holds r (calls.set i d) := by
  cases stage with
  | idle | landed => exact h
  | flying owner takenAt progress =>
    obtain ⟨hvalue, hlock, htime, e, he, hphase⟩ := h
    refine ⟨hvalue, hlock, htime, e, ?_, hphase⟩
    have hne : i ≠ owner := by
      rintro rfl
      cases hc.symm.trans he
      rw [hphase, progress.atLoader_phase] at hout
      cases hout
    rwa [List.getElem?_set_ne hne]

theorem Holds.append {d : Call V} (h : stage.Holds r calls) : stage.Holds r (calls ++ [d]) := by
  cases stage with
  | idle | landed => exact h
  | flying owner takenAt progress =>
    obtain ⟨hvalue, hlock, htime, e, he, hphase⟩ := h
    refine ⟨hvalue, hlock, htime, e, ?_, hphase⟩
    obtain ⟨hlt, -⟩ := List.getElem?_eq_some_iff.mp he
    rwa [List.getElem?_append_left hlt]

end Holds

end Stage

/-! ## One flight -/

section Flight

variable {V : Type} {api : Api} {stage : Stage V} {r r' : Shared V} {calls : List (Call V)}
  {i : Nat} {c : Call V} {p : Phase V} {outcome : Outcome V}

/-- The calls are at the stage, and the loader has been called and has returned as it says. -/
structure Stage.At (stage : Stage V) (r : Shared V) (calls : List (Call V)) : Prop where
  callers : r.callers = calls.length
  started : r.started = stage.started
  values : r.values = stage.values
  holds : stage.Holds r calls

structure Stage.Fits (stage : Stage V) (r : Shared V) (i : Nat) (c : Call V) : Prop where
  id : c.id = i
  ttl : 0 < c.ttlSeconds
  phase : stage.FitsPhase r.now i c.phase

/-- Where the move of the call `i` takes the stage. -/
def Stage.Reaches (stage : Stage V) (i : Nat) (r : Shared V) (calls : List (Call V))
    (p : Phase V) : Prop :=
  ∃ stage', Onward i stage stage' ∧ stage'.At r calls ∧ stage'.FitsPhase r.now i p

theorem Stage.At.stay (h : stage.At r calls) (hc : calls[i]? = some c)
    (hout : c.phase.atLoader = false)
    (hfits : stage.FitsPhase r.now i p) : stage.Reaches i r (calls.set i { c with phase := p }) p :=
  ⟨stage, .stay stage, ⟨h.callers.trans List.length_set.symm, h.started, h.values,
    h.holds.set hc hout⟩, hfits⟩

/-- **A call takes the flight one step onward.** -/
theorem reaches_of_move (h : stage.At r calls) (hc : calls[i]? = some c)
    (hfits : stage.Fits r i c) (hok : outcome.succeeds = true)
    (hloads : c.phase.turnsToLoader api r = true →
      r.cached.isNone = true ∧ ∀ d ∈ calls, d.phase.isStoring = false)
    (hmove : Move api r c.id c.ttlSeconds c.phase outcome r' p) :
    stage.Reaches i r' (calls.set i { c with phase := p }) p := by
  obtain ⟨hi, -⟩ := List.getElem?_eq_some_iff.mp hc
  have hself : ∀ d : Call V, (calls.set i d)[i]? = some d := fun d => List.getElem?_set_self hi
  have hlength : ∀ d : Call V, r.callers = (calls.set i d).length :=
    fun d => h.callers.trans List.length_set.symm
  obtain ⟨hid, httl, hphase⟩ := hfits
  obtain ⟨id, ttlSeconds, phase⟩ := c
  obtain rfl : id = i := hid
  cases hmove with
  | hit hv hp =>
    have hlanded := h.holds.eq_landed hv
    refine h.stay hc ?_ ⟨_, rfl, hlanded⟩
    rcases hp with rfl | ⟨_, _, rfl⟩ | rfl <;> rfl
  | missed => exact h.stay hc rfl trivial
  | looked => exact h.stay hc rfl hphase
  | rereadMissed hmiss hmode =>
    -- nothing is cached, so that the condition applies: no call has taken the lock
    rcases hmiss with rfl | hnone
    · cases hok
    · have hturns : (Phase.reread : Phase V).turnsToLoader api r = true := by
        rw [Phase.turnsToLoader, hnone]
        rfl
      obtain ⟨hcached, hstore⟩ := hloads hturns
      exact absurd (h.holds.eq_idle hcached hstore hphase.2) hphase.1
  | taken hfree =>
    obtain ⟨hcached, hstore⟩ := hloads (decide_eq_true hfree)
    obtain rfl := h.holds.eq_idle hcached hstore (h.holds.loading_eq_false hfree)
    have htime : r.now < r.now + LOCK_TTL_MS := Nat.lt_add_of_pos_right (by decide)
    exact ⟨_, .taken r.now, ⟨hlength _, h.started, h.values, h.holds.1, rfl, fun _ => htime,
      _, hself _, rfl⟩, r.now, rfl, rfl⟩
  | refused hheld =>
    rcases hheld with rfl | hheld
    · cases hok
    · exact h.stay hc rfl (h.holds.ne_idle hheld)
  | begun =>
    obtain ⟨takenAt, rfl, rfl⟩ := hphase
    obtain ⟨hvalue, hlock, htime, -⟩ := h.holds
    refine ⟨_, .called takenAt, ⟨hlength _, ?_, h.values, hvalue, hlock, htime, _, hself _, rfl⟩,
      takenAt, rfl, rfl⟩
    rw [Shared.begin, h.started]
    rfl
  | @returnedHolding takenAt v =>
    obtain ⟨_, hmode, rfl⟩ := hphase
    cases hmode
    obtain ⟨hvalue, hlock, -, -⟩ := h.holds
    cases v with
    | none => cases hok
    | some v =>
      refine ⟨_, .returned takenAt v, ⟨hlength _, h.started, ?_, hvalue, hlock, nofun, _, hself _,
        rfl⟩, takenAt, v, rfl, rfl, rfl⟩
      rw [Shared.returned, h.values]
      rfl
  | returned hmode =>
    obtain ⟨takenAt, hholding, -⟩ := hphase
    exact absurd hholding (hmode takenAt)
  | @storedHolding _ takenAt v _ hr =>
    obtain ⟨_, w, hmode, rfl, rfl⟩ := hphase
    cases hmode
    rcases hr with ⟨-, rfl⟩ | ⟨rfl, -⟩
    · have hlt : r.now < r.now + ttlSeconds * 1000 := by
        have httl' : 0 < ttlSeconds := httl
        omega
      exact ⟨_, .stored takenAt w, ⟨hlength _, h.started, h.values, _, rfl, hlt⟩, w, rfl, rfl⟩
    · cases hok
  | stored =>
    obtain ⟨takenAt, -, hmode, -⟩ := hphase
    cases hmode
  | released hr hp =>
    obtain ⟨v, rfl, rfl⟩ := hphase
    obtain ⟨expiry, hvalue, hlt⟩ := h.holds
    rcases hp with rfl | ⟨-, hnone⟩
    · rcases hr with rfl | rfl <;>
        exact ⟨_, .stay _, ⟨hlength _, h.started, h.values, expiry, hvalue, hlt⟩, v, rfl, rfl⟩
    · cases hnone
  | waited =>
    exact h.stay hc rfl ⟨hphase, fun _ => Nat.lt_add_of_pos_right (by decide)⟩
  | checked hwake htime hp =>
    refine h.stay hc rfl ?_
    rcases hp with ⟨rfl, -⟩ | rfl <;> exact hphase
  | timedOut hwake htime =>
    refine h.stay hc rfl ⟨hphase.1, Bool.eq_false_iff.mpr fun hl => ?_⟩
    have hlt := hphase.2 hl
    omega
  | stillHeld => exact h.stay hc rfl hphase
  | gone hgone =>
    rcases hgone with rfl | hfree
    · cases hok
    · exact h.stay hc rfl ⟨hphase.1, h.holds.loading_eq_false hfree⟩
  | goneOn hgone hapi =>
    obtain ⟨hcached, hstore⟩ := hloads (decide_eq_true ⟨hapi, hgone⟩)
    exact absurd (h.holds.eq_idle hcached hstore (h.holds.loading_eq_false hgone)) hphase.1
  | lockFailed | failedHolding | failed | askFailed => cases hok

theorem now_of_move {id ttlSeconds : Nat} {p p' : Phase V}
    (h : Move api r id ttlSeconds p outcome r' p') : r'.now = r.now := by
  cases h with
  | storedHolding hr => rcases hr with ⟨-, rfl⟩ | ⟨-, rfl⟩ <;> rfl
  | stored hr | released hr => rcases hr with rfl | rfl <;> rfl
  | _ => rfl

theorem callers_of_move {id ttlSeconds : Nat} {p p' : Phase V}
    (h : Move api r id ttlSeconds p outcome r' p') : r'.callers = r.callers := by
  cases h with
  | storedHolding hr => rcases hr with ⟨-, rfl⟩ | ⟨-, rfl⟩ <;> rfl
  | stored hr | released hr => rcases hr with rfl | rfl <;> rfl
  | _ => rfl

theorem at_pass {s : State (Shared V) (Call V)} {n : Nat} (h : stage.At s.shared s.calls)
    (hok : Calm s (.around n)) : stage.At (s.shared.pass n) s.calls := by
  obtain ⟨hcallers, hstarted, hvalues, hholds⟩ := h
  refine ⟨hcallers, hstarted, hvalues, ?_⟩
  cases stage with
  | idle => exact hholds
  | landed v =>
    obtain ⟨expiry, hvalue, hlt⟩ := hholds
    exact ⟨expiry, hvalue, hok.2 _ hvalue hlt⟩
  | flying owner takenAt progress =>
    obtain ⟨hvalue, hlock, -, c, hc, hphase⟩ := hholds
    refine ⟨hvalue, hlock, fun hl => ?_, c, hc, hphase⟩
    have hsince : takenAt ∈ c.phase.loadsSince := by
      rw [hphase]
      cases progress with
      | toCall | calling => rfl
      | got v => cases hl
    exact (hok.1 c (List.mem_of_getElem? hc) takenAt hsince).1

theorem fits_pass {s : State (Shared V) (Call V)} {n : Nat} (h : stage.At s.shared s.calls)
    (hok : Calm s (.around n)) (hc : s.calls[i]? = some c) (hfits : stage.Fits s.shared i c) :
    stage.Fits (s.shared.pass n) i c := by
  obtain ⟨hid, httl, hphase⟩ := hfits
  refine ⟨hid, httl, ?_⟩
  -- a call that waits while the loader is called is in time
  have hwait : ∀ startTime ∈ c.phase.waitsSince, stage.loading = true →
      s.shared.now + n < startTime + maxWaitMs := by
    intro startTime hstart hl
    cases stage with
    | idle | landed => cases hl
    | flying owner takenAt progress =>
      obtain ⟨-, -, -, d, hd, hd'⟩ := h.holds
      have hsince : takenAt ∈ d.phase.loadsSince := by
        rw [hd']
        cases progress with
        | toCall | calling => rfl
        | got v => cases hl
      exact (hok.1 d (List.mem_of_getElem? hd) takenAt hsince).2 c (List.mem_of_getElem? hc)
        startTime hstart
  obtain ⟨id, ttlSeconds, phase⟩ := c
  cases phase with
  | check | look | ask => exact ⟨hphase.1, hwait _ rfl⟩
  | _ => exact hphase

/-- **The loader is called once.** -/
theorem loadsOnce_of_conditions (api : Api) :
    api.LoadsOnce V fun s l => Calm s l ∧ LoadsUncached api s l := by
  intro s h
  obtain ⟨stage, hat, hfits⟩ : ∃ stage : Stage V, stage.At s.shared s.calls ∧
      ∀ (i : Nat) (c : Call V), s.calls[i]? = some c → stage.Fits s.shared i c := by
    refine Reach.stagedInvariant (I := fun (stage : Stage V) r calls => stage.At r calls)
      (J := fun stage r i c => stage.Fits r i c) ?_ ?_ ?_ ?_ h
    · rintro r rfl
      exact ⟨.idle, rfl, rfl, rfl, rfl, rfl⟩
    · intro s ttlSeconds q stage hok hat hq
      cases hq
      refine ⟨stage, ⟨?_, hat.started, hat.values, hat.holds.append⟩, ⟨hat.callers, hok.1, ?_⟩,
        fun _ _ _ hfits => ⟨hfits.id, hfits.ttl, hfits.phase⟩⟩
      · rw [List.length_append, ← hat.callers]
        rfl
      · cases api <;> trivial
    · intro s i outcome c q stage hok hc hat hfits hq
      obtain ⟨⟨r', p⟩, hnext, rfl⟩ := Option.map_eq_some_iff.mp hq
      have hmove := move_of_next hnext
      obtain ⟨stage', honward, hat', hphase⟩ :=
        reaches_of_move hat hc hfits hok.1 (hok.2 c hc) hmove
      refine ⟨stage', hat', ⟨hfits.id, hfits.ttl, hphase⟩, fun j d hj _ hd => ?_⟩
      refine ⟨hd.id, hd.ttl, ?_⟩
      rw [now_of_move hmove]
      exact hd.phase.of_onward honward hj
    · intro s n r stage hok hat hr
      cases hr
      exact ⟨stage, at_pass hat hok.1, fun i c hc hfits => fits_pass hat hok.1 hc hfits⟩
  refine ⟨?_, fun c hc result hresult => ?_⟩
  · rw [hat.started]
    exact stage.started_le_one
  · obtain ⟨i, hi⟩ := List.getElem?_of_mem hc
    have hphase := (hfits i c hi).phase
    rw [hresult] at hphase
    obtain ⟨v, rfl, rfl⟩ := hphase
    exact ⟨v, rfl, hat.started, hat.values⟩

end Flight

/-! ## The lock -/

section Lock

variable {V : Type} {api : Api} {r r' : Shared V} {i j : Nat} {c : Call V} {p p' : Phase V}
  {outcome : Outcome V} {takenAt : Nat}

/-- When a call took the lock that it has not released. -/
def Phase.heldSince : Phase V → Option Nat
  | .load (.holding takenAt) | .loading (.holding takenAt) | .store (.holding takenAt) _
  | .release takenAt _ => some takenAt
  | _ => none

/-- Within the TTL the lock of a call that has not released it is its own. -/
structure Shared.Own (r : Shared V) (i : Nat) (c : Call V) : Prop where
  id : c.id = i
  lock : ∀ takenAt ∈ c.phase.heldSince, r.now < takenAt + LOCK_TTL_MS →
    r.lock = some (i, takenAt + LOCK_TTL_MS)

theorem Shared.Own.holder_eq (h : r.Own i c) (hheld : takenAt ∈ c.phase.heldSince)
    (htime : r.now < takenAt + LOCK_TTL_MS) : r.holder = some i := by
  rw [Shared.holder, h.lock takenAt hheld htime, unexpired, Option.bind_some, if_pos htime]

theorem lock_of_move {id ttlSeconds : Nat} (h : Move api r id ttlSeconds p outcome r' p') :
    (r.holder = none ∧ r'.lock = some (id, r.now + LOCK_TTL_MS) ∧ p'.heldSince = some r.now) ∨
    (∃ takenAt ∈ p.releasesSince, takenAt ∈ p.heldSince ∧ p'.heldSince = none) ∨
    r'.lock = r.lock ∧ ∀ takenAt ∈ p'.heldSince, takenAt ∈ p.heldSince := by
  cases h with
  | taken hfree => exact .inl ⟨hfree, rfl, rfl⟩
  | released hr hp =>
    refine .inr (.inl ⟨_, rfl, rfl, ?_⟩)
    rcases hp with rfl | ⟨rfl, -⟩ <;> rfl
  | @begun mode => exact .inr (.inr ⟨rfl, by cases mode <;> exact fun _ ht => ht⟩)
  | returned hmode hp =>
    refine .inr (.inr ⟨rfl, ?_⟩)
    rcases hp with ⟨rfl, -⟩ | rfl <;> exact nofun
  | failed hmode hp =>
    refine .inr (.inr ⟨rfl, ?_⟩)
    rcases hp with rfl | ⟨rfl, -⟩ <;> exact nofun
  | storedHolding hr =>
    rcases hr with ⟨-, rfl⟩ | ⟨-, rfl⟩ <;> exact .inr (.inr ⟨rfl, fun _ ht => ht⟩)
  | stored hr => rcases hr with rfl | rfl <;> exact .inr (.inr ⟨rfl, nofun⟩)
  | checked hwake htime hp =>
    refine .inr (.inr ⟨rfl, ?_⟩)
    rcases hp with ⟨rfl, -⟩ | rfl <;> exact nofun
  | rereadMissed hmiss hmode =>
    refine .inr (.inr ⟨rfl, ?_⟩)
    rcases hmode with rfl | rfl <;> exact nofun
  | returnedHolding | failedHolding => exact .inr (.inr ⟨rfl, fun _ ht => ht⟩)
  | _ => exact .inr (.inr ⟨rfl, nofun⟩)

/-- A call that releases in time leaves the lock of another call alone: it is there within its TTL
only if it is its own. -/
theorem holder_of_release (hown : r.Own i c) (hrel : takenAt ∈ c.phase.releasesSince)
    (hheld : takenAt ∈ c.phase.heldSince)
    (hok : ∀ takenAt ∈ c.phase.releasesSince,
      r.now < takenAt + LOCK_TTL_MS ∨ r.holder = none) (hj : j ≠ i) : r.holder ≠ some j := by
  intro hholder
  rcases hok takenAt hrel with htime | hnone
  · rw [hown.holder_eq hheld htime] at hholder
    cases hholder
    exact hj rfl
  · rw [hnone] at hholder
    cases hholder

theorem own_of_move (hown : r.Own i c)
    (hmove : Move api r c.id c.ttlSeconds c.phase outcome r' p) :
    r'.Own i { c with phase := p } := by
  refine ⟨hown.id, fun t ht htime => ?_⟩
  rw [now_of_move hmove] at htime
  rcases lock_of_move hmove with ⟨-, hlock, hsince⟩ | ⟨_, -, -, hsince⟩ | ⟨hlock, hback⟩
  · rw [hsince] at ht
    cases ht
    rw [hlock, hown.id]
  · rw [hsince] at ht
    cases ht
  · rw [hlock]
    exact hown.lock t (hback t ht) htime

theorem own_of_other {d : Call V} (hown : r.Own i c)
    (hok : ∀ takenAt ∈ c.phase.releasesSince, r.now < takenAt + LOCK_TTL_MS ∨ r.holder = none)
    (hmove : Move api r c.id c.ttlSeconds c.phase outcome r' p) (hj : j ≠ i) (hd : r.Own j d) :
    r'.Own j d := by
  refine ⟨hd.id, fun t ht htime => ?_⟩
  rw [now_of_move hmove] at htime
  have hholder := hd.holder_eq ht htime
  rcases lock_of_move hmove with ⟨hfree, -, -⟩ | ⟨_, hrel, hheld, -⟩ | ⟨hlock, -⟩
  · rw [hfree] at hholder
    cases hholder
  · exact absurd hholder (holder_of_release hown hrel hheld hok hj)
  · rw [hlock]
    exact hd.lock t ht htime

theorem own_of_reach {s : State (Shared V) (Call V)} (h : (api.machine V).Reach ReleasesInTime s) :
    ∀ (i : Nat) (c : Call V), s.calls[i]? = some c → s.shared.Own i c := by
  obtain ⟨-, -, hown⟩ : ∃ _ : Unit, s.shared.callers = s.calls.length ∧
      ∀ (i : Nat) (c : Call V), s.calls[i]? = some c → s.shared.Own i c := by
    refine Reach.stagedInvariant (I := fun _ r calls => r.callers = calls.length)
      (J := fun _ r i c => r.Own i c) ?_ ?_ ?_ ?_ h
    · rintro r rfl
      exact ⟨(), rfl⟩
    · intro s ttlSeconds q _ _ hcallers hq
      cases hq
      refine ⟨(), ?_, ⟨hcallers, ?_⟩, fun _ _ _ hd => ⟨hd.id, hd.lock⟩⟩
      · rw [List.length_append, ← hcallers]
        rfl
      · cases api <;> exact nofun
    · intro s i outcome c q _ hok hc hcallers hown hq
      obtain ⟨⟨r', p⟩, hnext, rfl⟩ := Option.map_eq_some_iff.mp hq
      have hmove := move_of_next hnext
      refine ⟨(), ?_, own_of_move hown hmove, fun j d hj _ hd =>
        own_of_other hown (hok c hc) hmove hj hd⟩
      rw [callers_of_move hmove, List.length_set]
      exact hcallers
    · intro s n r _ _ hcallers hr
      cases hr
      refine ⟨(), hcallers, fun i c _ hd => ⟨hd.id, fun t ht htime => hd.lock t ht ?_⟩⟩
      exact Nat.lt_of_le_of_lt (Nat.le_add_right _ n) htime
  exact hown

/-- **No call releases the lock of another one**, if every call releases within the TTL of its lock
or while there is no lock. -/
theorem keepsLocks_of_releasesInTime (api : Api) : api.KeepsLocks V ReleasesInTime := by
  intro s i outcome t h hok hstep j hj hholder
  obtain ⟨c, hc, hput⟩ := Option.bind_eq_some_iff.mp hstep
  obtain ⟨q, hq, rfl⟩ := Option.map_eq_some_iff.mp hput
  obtain ⟨⟨r', p⟩, hnext, rfl⟩ := Option.map_eq_some_iff.mp hq
  have hmove := move_of_next hnext
  have hown := own_of_reach h i c hc
  show r'.holder = some j
  rcases lock_of_move hmove with ⟨hfree, -, -⟩ | ⟨_, hrel, hheld, -⟩ | ⟨hlock, -⟩
  · rw [hfree] at hholder
    cases hholder
  · exact absurd hholder (holder_of_release hown hrel hheld (hok c hc) hj)
  · rw [Shared.holder, hlock, now_of_move hmove]
    exact hholder

end Lock

/-! ## The end of a call -/

section Return

variable {V : Type} {api : Api} {r r' : Shared V} {p p' : Phase V} {outcome : Outcome V}

/-- How often a call that waits can still look at the lock. -/
def polls (startTime seenAt : Nat) : Nat :=
  (startTime + maxWaitMs + pollIntervalMs - seenAt) / pollIntervalMs

/-- A bound on the steps that a call still takes. -/
def Phase.left : Phase V → Nat
  | .done _ => 0
  | .loading .bare | .store .storing _ => 1
  | .load .bare => 2
  | .release .. | .loading .storing | .loading .retrying => 3
  | .store .. | .load .storing | .load .retrying => 4
  | .loading (.holding _) => 5
  | .load (.holding _) => 6
  | .reread => 7
  | .ask startTime seenAt => 3 * polls startTime seenAt + 8
  | .look startTime seenAt => 3 * polls startTime seenAt + 9
  | .check startTime wakeAt => 3 * polls startTime wakeAt + 10
  | .wait => 314
  | .lock => 315
  | .read => 316

/-- A call that waits has looked at the clock. -/
def Phase.Timely (now : Nat) : Phase V → Prop
  | .look startTime seenAt | .ask startTime seenAt =>
    seenAt ≤ now ∧ seenAt < startTime + maxWaitMs
  | _ => True

/-- The phases of an implementation. -/
def Phase.within : Api → Phase V → Bool
  | .wrap, .look .. => false
  | .withSingleFlightLock, .read => false
  | .wrap, .store .storing _ => false
  | _, .store .retrying _ | _, .store .bare _ => false
  | _, _ => true

theorem left_lt_of_move {id ttlSeconds : Nat} (h : Move api r id ttlSeconds p outcome r' p')
    (htimely : p.Timely r.now) : p'.left < p.left := by
  cases h with
  | hit hv hp => rcases hp with rfl | ⟨_, _, rfl⟩ | rfl <;> simp only [Phase.left] <;> omega
  | rereadMissed hmiss hmode => rcases hmode with rfl | rfl <;> simp [Phase.left]
  | @begun mode => cases mode <;> simp [Phase.left]
  | @returned mode _ _ hmode hp =>
    rcases hp with ⟨rfl, -, rfl⟩ | rfl
    · simp [Phase.left]
    · cases mode with
      | holding takenAt => exact absurd rfl (hmode takenAt)
      | _ => simp [Phase.left]
  | @failed mode _ hmode hp =>
    cases mode with
    | holding takenAt => exact absurd rfl (hmode takenAt)
    | storing | retrying => rcases hp with rfl | ⟨rfl, -⟩ <;> simp [Phase.left]
    | bare =>
      rcases hp with rfl | ⟨-, hne⟩
      · simp [Phase.left]
      · exact absurd rfl hne
  | released hr hp =>
    rcases hp with rfl | ⟨rfl, -⟩
    · exact Nat.succ_pos 2
    · exact Nat.lt_succ_self 2
  | checked hwake htime hp =>
    rcases hp with ⟨rfl, -⟩ | rfl <;>
      simp only [Phase.left, polls, maxWaitMs, pollIntervalMs] <;> omega
  | stillHeld =>
    obtain ⟨hseen, hstart⟩ := htimely
    simp only [Phase.left, polls, maxWaitMs, pollIntervalMs] at *
    omega
  | waited => simp only [Phase.left, polls, maxWaitMs, pollIntervalMs]; omega
  | _ => simp only [Phase.left]; omega

theorem timely_of_move {id ttlSeconds : Nat} (h : Move api r id ttlSeconds p outcome r' p')
    (htimely : p.Timely r.now) : p'.Timely r.now := by
  cases h with
  | looked => exact htimely
  | checked hwake htime hp => rcases hp with ⟨rfl, -⟩ | rfl <;> exact ⟨Nat.le_refl _, htime⟩
  | returned hmode hp => rcases hp with ⟨rfl, -⟩ | rfl <;> trivial
  | failed hmode hp | released _ hp => rcases hp with rfl | ⟨rfl, -⟩ <;> trivial
  | _ => trivial

theorem within_of_move {id ttlSeconds : Nat} (h : Move api r id ttlSeconds p outcome r' p') :
    p'.within api = true := by
  cases h with
  | checked hwake htime hp =>
    rcases hp with ⟨rfl, rfl⟩ | rfl
    · rfl
    · cases api <;> rfl
  | returned hmode hp =>
    rcases hp with ⟨rfl, rfl, -⟩ | rfl
    · rfl
    · cases api <;> rfl
  | failed hmode hp | released _ hp => rcases hp with rfl | ⟨rfl, -⟩ <;> cases api <;> rfl
  | _ => cases api <;> rfl

theorem exists_next_wrap (hp : p.within .wrap = true) (hd : ∀ result, p ≠ .done result)
    (id ttlSeconds : Nat) (v : V) :
    ∃ n, (wrapNext (r.pass n) id ttlSeconds p .ok).isSome = true ∨
      (wrapNext (r.pass n) id ttlSeconds p (.returns (some v))).isSome = true := by
  cases p with
  | loading mode => exact ⟨0, .inr (by cases mode <;> rfl)⟩
  | store mode w =>
    cases mode with
    | holding takenAt => exact ⟨0, .inl rfl⟩
    | _ => cases hp
  | check startTime wakeAt =>
    refine ⟨wakeAt, .inl ?_⟩
    have hwake : ¬ (r.pass wakeAt).now < wakeAt := Nat.not_lt.mpr (Nat.le_add_left ..)
    rw [wrapNext, if_neg hwake]
    split <;> rfl
  | look => cases hp
  | done result => exact absurd rfl (hd result)
  | read | lock | ask | reread =>
    refine ⟨0, .inl ?_⟩
    simp only [wrapNext]
    split <;> rfl
  | load | release | wait => exact ⟨0, .inl rfl⟩

theorem exists_next_withSingleFlightLock (hp : p.within .withSingleFlightLock = true)
    (hd : ∀ result, p ≠ .done result) (id ttlSeconds : Nat) (v : V) :
    ∃ n, (withSingleFlightLockNext (r.pass n) id ttlSeconds p .ok).isSome = true ∨
      (withSingleFlightLockNext (r.pass n) id ttlSeconds p (.returns (some v))).isSome = true := by
  cases p with
  | loading mode => exact ⟨0, .inr (by cases mode <;> rfl)⟩
  | store mode w =>
    cases mode with
    | holding | storing => exact ⟨0, .inl rfl⟩
    | retrying | bare => cases hp
  | check startTime wakeAt =>
    refine ⟨wakeAt, .inl ?_⟩
    have hwake : ¬ (r.pass wakeAt).now < wakeAt := Nat.not_lt.mpr (Nat.le_add_left ..)
    rw [withSingleFlightLockNext, if_neg hwake]
    split <;> rfl
  | read => cases hp
  | done result => exact absurd rfl (hd result)
  | lock | look | ask | reread =>
    refine ⟨0, .inl ?_⟩
    simp only [withSingleFlightLockNext]
    split <;> rfl
  | release takenAt result => cases result <;> exact ⟨0, .inl rfl⟩
  | load | wait => exact ⟨0, .inl rfl⟩

/-- **A call that is not over goes on**, when the time has come, whatever its loader returns. -/
theorem exists_next (hp : p.within api = true) (hd : ∀ result, p ≠ .done result)
    (id ttlSeconds : Nat) (v : V) :
    ∃ n, (api.next (r.pass n) id ttlSeconds p .ok).isSome = true ∨
      (api.next (r.pass n) id ttlSeconds p (.returns (some v))).isSome = true := by
  cases api with
  | wrap => exact exists_next_wrap hp hd id ttlSeconds v
  | withSingleFlightLock => exact exists_next_withSingleFlightLock hp hd id ttlSeconds v

/-- Every call is over, or goes on after some time, whatever its loader returns; and each of its
steps leaves it fewer. -/
def Api.Returns (V : Type) (api : Api) : Prop :=
  ∀ s, (api.machine V).Reach Machine.always s → ∀ (i : Nat) (c : Call V), s.calls[i]? = some c →
    ((∃ result, c.phase = .done result) ∨
      ∀ v : V, ∃ n t u, (api.machine V).step s (.around n) t ∧
        ((api.machine V).step t (.next i .ok) u ∨
          (api.machine V).step t (.next i (.returns (some v))) u)) ∧
    ∀ outcome t, (api.machine V).step s (.next i outcome) t →
      ∃ d, t.calls[i]? = some d ∧ d.phase.left < c.phase.left

/-- **Every call returns.** -/
theorem returns_of_reach (api : Api) : api.Returns V := by
  intro s h i c hc
  have hphase : c.phase.Timely s.shared.now ∧ c.phase.within api = true := by
    refine (Reach.sharedInvariant (I := fun _ => True)
      (J := fun r c => c.phase.Timely r.now ∧ c.phase.within api = true) ?_ ?_ ?_ ?_ h).2 c
      (List.mem_of_getElem? hc)
    · exact fun _ _ => trivial
    · intro s ttlSeconds q _ _ hq
      cases hq
      refine ⟨trivial, ?_, fun _ _ hd => hd⟩
      cases api <;> exact ⟨trivial, rfl⟩
    · intro s i outcome c q _ _ _ hphase hq
      obtain ⟨⟨r', p⟩, hnext, rfl⟩ := Option.map_eq_some_iff.mp hq
      have hmove := move_of_next hnext
      have hnow := now_of_move hmove
      rw [hnow]
      exact ⟨trivial, ⟨timely_of_move hmove hphase.1, within_of_move hmove⟩, fun _ _ hd => hd⟩
    · intro s n r _ _ hr
      cases hr
      refine ⟨trivial, fun d _ hd => ⟨?_, hd.2⟩⟩
      obtain ⟨id, ttlSeconds, phase⟩ := d
      cases phase with
      | look | ask => exact ⟨Nat.le_trans hd.1.1 (Nat.le_add_right _ n), hd.1.2⟩
      | _ => trivial
  refine ⟨?_, fun outcome t hstep => ?_⟩
  · by_cases hdone : ∃ result, c.phase = .done result
    · exact .inl hdone
    · refine .inr fun v => ?_
      have hgoes : ∀ result, c.phase ≠ .done result := fun result hr => hdone ⟨result, hr⟩
      obtain ⟨n, hn⟩ := exists_next hphase.2 hgoes c.id c.ttlSeconds v
      let t : State (Shared V) (Call V) := { s with shared := s.shared.pass n }
      have hgoesOn : ∀ {outcome : Outcome V},
          (api.next t.shared c.id c.ttlSeconds c.phase outcome).isSome = true →
            ∃ u, (api.machine V).step t (.next i outcome) u := by
        intro outcome hsome
        have hnext : ((api.program V).next t.shared c outcome).isSome = true :=
          Option.isSome_map.trans hsome
        exact exists_step hc hnext
      refine ⟨n, t, ?_⟩
      rcases hn with hn | hn
      · obtain ⟨u, hu⟩ := hgoesOn hn
        exact ⟨u, rfl, .inl hu⟩
      · obtain ⟨u, hu⟩ := hgoesOn hn
        exact ⟨u, rfl, .inr hu⟩
  · obtain ⟨q, hq, -, hd⟩ := next_of_step hc hstep
    obtain ⟨⟨r', p⟩, hnext, rfl⟩ := Option.map_eq_some_iff.mp hq
    exact ⟨_, hd, left_lt_of_move (move_of_next hnext) hphase.1⟩

end Return

/-! ## The cache -/

/-- **One flight for a key.**  In every run of either implementation in which Redis makes no error,
the loader is in time and the entry does not expire, the loader is called once and every call ends
with its value, if a call turns to the loader only while nothing is cached and no value is about to
be stored; every call ends; and no call releases the lock of another one, if every call releases
within the TTL of its lock or while there is no lock. -/
theorem singleFlight_of_reach (V : Type) (api : Api) :
    api.LoadsOnce V (fun s l => Calm s l ∧ LoadsUncached api s l) ∧
      api.KeepsLocks V ReleasesInTime ∧ api.Returns V :=
  ⟨loadsOnce_of_conditions api, keepsLocks_of_releasesInTime api, returns_of_reach api⟩

instance {V : Type} (api : Api) (s : State (Shared V) (Call V)) (l : Label Nat (Outcome V) Nat) :
    Decidable (Calm s l ∧ LoadsUncached api s l) :=
  inferInstanceAs (Decidable (_ ∧ _))

/-- The second call is refused the lock, and waits until the first one has stored its value. -/
def waitedFor : List (Label Nat (Outcome Nat) Nat) :=
  [.next 0 .ok, .next 1 .ok, .next 1 .ok, .next 0 .ok, .next 0 (.returns (some 7)), .next 0 .ok,
    .next 0 .ok, .next 1 .ok, .next 1 .ok]

/-- Two calls with each implementation: the second one ends with the value of the first one, and
leaves the lock to it. -/
theorem singleFlight_two_calls :
    (∃ s, (Api.wrap.machine Nat).Reach (fun s l => Calm s l ∧ LoadsUncached .wrap s l) s ∧
      ⟨1, 60, .done (some (some 7))⟩ ∈ s.calls ∧ s.shared.started = 1 ∧
        s.shared.values = [some 7]) ∧
    (∃ s, (Api.withSingleFlightLock.machine Nat).Reach
        (fun s l => Calm s l ∧ LoadsUncached .withSingleFlightLock s l) s ∧
      ⟨1, 60, .done (some (some 7))⟩ ∈ s.calls ∧ s.shared.started = 1 ∧
        s.shared.values = [some 7]) ∧
    ∃ s t, (Api.withSingleFlightLock.machine Nat).Reach ReleasesInTime s ∧
      s.shared.holder = some 0 ∧ (Api.withSingleFlightLock.machine Nat).step s (.next 1 .ok) t ∧
        t.shared.holder = some 0 := by
  refine ⟨?_, ?_, ?_⟩
  · obtain ⟨s, h, hc⟩ : ∃ s, (Api.wrap.machine Nat).Reach
        (fun s l => Calm s l ∧ LoadsUncached .wrap s l) s ∧
        (⟨1, 60, .done (some (some 7))⟩ : Call Nat) ∈ s.calls :=
      Machine.exists_reach_of_runAll
        ([.start 60, .start 60, .next 0 .ok, .next 1 .ok] ++ waitedFor ++ [.next 1 .ok])
        (s := ⟨fresh Nat, []⟩) ⟨rfl, rfl⟩ (by decide)
    obtain ⟨v, hv, hstarted, hvalues⟩ := ((singleFlight_of_reach Nat .wrap).1 s h).2 _ hc _ rfl
    cases hv
    exact ⟨s, h, hc, hstarted, hvalues⟩
  · obtain ⟨s, h, hc⟩ : ∃ s, (Api.withSingleFlightLock.machine Nat).Reach
        (fun s l => Calm s l ∧ LoadsUncached .withSingleFlightLock s l) s ∧
        (⟨1, 60, .done (some (some 7))⟩ : Call Nat) ∈ s.calls :=
      Machine.exists_reach_of_runAll ([.start 60, .start 60] ++ waitedFor)
        (s := ⟨fresh Nat, []⟩) ⟨rfl, rfl⟩ (by decide)
    obtain ⟨v, hv, hstarted, hvalues⟩ :=
      ((singleFlight_of_reach Nat .withSingleFlightLock).1 s h).2 _ hc _ rfl
    cases hv
    exact ⟨s, h, hc, hstarted, hvalues⟩
  · obtain ⟨s, h, hholder, hok⟩ : ∃ s,
        (Api.withSingleFlightLock.machine Nat).Reach ReleasesInTime s ∧
        s.shared.holder = some 0 ∧ ReleasesInTime s (.next 1 .ok) ∧
          ((Api.withSingleFlightLock.program Nat).act s (.next 1 .ok)).isSome = true :=
      Machine.exists_reach_of_runAll [.start 60, .start 60, .next 0 .ok]
        (s := ⟨fresh Nat, []⟩) ⟨rfl, rfl⟩ (by decide)
    obtain ⟨t, hstep⟩ := Option.isSome_iff_exists.mp hok.2
    have hkeeps := (singleFlight_of_reach Nat .withSingleFlightLock).2.1
    exact ⟨s, t, h, hholder, hstep, hkeeps s 1 .ok t h hok.1 hstep 0 (by decide) hholder⟩

/-- Redis makes no error, and the loader returns a value. -/
def Errorless {V : Type} (_ : State (Shared V) (Call V)) : Label Nat (Outcome V) Nat → Prop
  | .next _ outcome => outcome.succeeds = true
  | _ => True

instance {V : Type} (s : State (Shared V) (Call V)) : ∀ l, Decidable (Errorless s l)
  | .next _ outcome => inferInstanceAs (Decidable (outcome.succeeds = true))
  | .start _ | .around _ => inferInstanceAs (Decidable True)

/-- The call `i` takes the lock, loads 7 and stores it. -/
def flight (i : Nat) : List (Label Nat (Outcome Nat) Nat) :=
  [.next i .ok, .next i .ok, .next i (.returns (some 7)), .next i .ok]

theorem not_loadsOnce {api : Api} (h : ∃ s, (api.machine Nat).Reach Calm s ∧ s.shared.started = 2) :
    ¬ api.LoadsOnce Nat Calm := by
  intro honce
  obtain ⟨s, hs, htwice⟩ := h
  have hle := (honce s hs).1
  omega

theorem not_keepsLocks {api : Api} (h : ∃ s, (api.machine Nat).Reach Errorless s ∧
    s.shared.holder = some 1 ∧ ((api.program Nat).act s (.next 0 .ok)).any
      (fun t => decide (t.shared.holder = none)) = true) : ¬ api.KeepsLocks Nat Errorless := by
  intro hkeeps
  obtain ⟨s, hs, hholder, hrel⟩ := h
  obtain ⟨t, hstep, hnone⟩ := (Option.any_eq_true _ _).mp hrel
  have hholder' := hkeeps s 0 .ok t hs rfl hstep 1 (by decide) hholder
  rw [of_decide_eq_true hnone] at hholder'
  cases hholder'

/-- **With either implementation the loader is called twice, and a lock is released that is
another's.**  A call takes the lock after another one, of which it knows nothing, has stored its
value and released the lock; and a call that has outlived its lock releases that of the next one. -/
theorem not_singleFlight :
    (¬ Api.wrap.LoadsOnce Nat Calm ∧ ¬ Api.wrap.KeepsLocks Nat Errorless) ∧
    ¬ Api.withSingleFlightLock.LoadsOnce Nat Calm ∧
      ¬ Api.withSingleFlightLock.KeepsLocks Nat Errorless := by
  refine ⟨⟨not_loadsOnce ?_, not_keepsLocks ?_⟩, not_loadsOnce ?_, not_keepsLocks ?_⟩
  · exact Machine.exists_reach_of_runAll
      ([.start 60, .start 60, .next 0 .ok, .next 1 .ok] ++ flight 0 ++
        [.next 0 .ok, .next 1 .ok, .next 1 .ok])
      (s := ⟨fresh Nat, []⟩) ⟨rfl, rfl⟩ (by decide)
  · exact Machine.exists_reach_of_runAll
      [.start 60, .start 60, .next 0 .ok, .next 1 .ok, .next 0 .ok, .next 0 .ok, .around 30000,
        .next 1 .ok, .next 0 (.returns (some 7)), .next 0 .ok]
      (s := ⟨fresh Nat, []⟩) ⟨rfl, rfl⟩ (by decide)
  · exact Machine.exists_reach_of_runAll
      ([.start 60] ++ flight 0 ++ [.next 0 .ok, .start 60, .next 1 .ok, .next 1 .ok])
      (s := ⟨fresh Nat, []⟩) ⟨rfl, rfl⟩ (by decide)
  · exact Machine.exists_reach_of_runAll
      [.start 60, .start 60, .next 0 .ok, .next 0 .ok, .around 30000, .next 1 .ok,
        .next 0 (.returns (some 7)), .next 0 .ok]
      (s := ⟨fresh Nat, []⟩) ⟨rfl, rfl⟩ (by decide)

end NiffyInsure.Backend.SingleFlight
