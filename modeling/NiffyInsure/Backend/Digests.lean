import NiffyInsure.Lib.Custody
import NiffyInsure.Lib.JsString

/-!
# Notification digests

`dispatch` (`notification-dispatch.service.ts`) creates a row for a notification and enqueues an
e-mail job for it; claim updates may be buffered per user instead, for `flushDigests` to enqueue
them in one job.  A flush takes the entries that are buffered when it starts, and goes through them
one after the other: it deletes the entry of the user, looks up the preferences, and enqueues the
job.

The entries of the map are objects, which a flush in progress shares with the map and with other
flushes.

* `digested_once_of_reach`: a buffered row is in one job, or a flush is still to come for it, as
  long as no flush fails and every flush finds the entries that it has taken still in the map.
-/

namespace NiffyInsure.Backend.Digests

open Custody

/-! ## Preferences -/

inductive NotificationType where
  | renewal_reminder
  | claim_update
  deriving DecidableEq

inductive NotificationChannel where
  | email
  | inApp
  deriving DecidableEq

structure EventChannelRouting where
  email : Bool
  inApp : Bool
  deriving DecidableEq

/-- The ends of the window are `HH:mm`. -/
structure QuietHoursConfig where
  enabled : Bool
  start : String
  stop : String
  deriving DecidableEq

inductive DigestMode where
  | off
  | daily
  | batch
  deriving DecidableEq

structure EventRouting where
  renewal_reminder : EventChannelRouting
  claim_update : EventChannelRouting
  deriving DecidableEq

structure NotificationRoutingPreferences where
  events : EventRouting
  quietHours : QuietHoursConfig
  digestMode : DigestMode
  deriving DecidableEq

/-- What is stored of the routing: any part may be missing. -/
structure StoredRouting where
  email : NotificationType → Option Bool
  inApp : NotificationType → Option Bool
  enabled : Option Bool
  start : Option String
  stop : Option String
  digestMode : Option DigestMode

structure NotificationPreferenceRecord where
  renewalRemindersEnabled : Option Bool
  claimUpdatesEnabled : Option Bool
  routing : Option StoredRouting
  email : Option String
  emailVerified : Option Bool

def DEFAULT_CHANNEL_ROUTING : EventChannelRouting := ⟨true, true⟩

def DEFAULT_QUIET_HOURS : QuietHoursConfig := ⟨false, "22:00", "07:00"⟩

def EventRouting.of (events : EventRouting) : NotificationType → EventChannelRouting
  | .renewal_reminder => events.renewal_reminder
  | .claim_update => events.claim_update

def defaultRoutingPreferences : NotificationRoutingPreferences :=
  ⟨⟨DEFAULT_CHANNEL_ROUTING, DEFAULT_CHANNEL_ROUTING⟩, DEFAULT_QUIET_HOURS, .off⟩

def resolveRoutingPreferences (stored : Option StoredRouting) : NotificationRoutingPreferences :=
  let defaults := defaultRoutingPreferences
  match stored with
  | none => defaults
  | some stored =>
    let merged (type : NotificationType) : EventChannelRouting :=
      ⟨(stored.email type).getD (defaults.events.of type).email,
        (stored.inApp type).getD (defaults.events.of type).inApp⟩
    { events := ⟨merged .renewal_reminder, merged .claim_update⟩
      quietHours := ⟨stored.enabled.getD defaults.quietHours.enabled,
        stored.start.getD defaults.quietHours.start, stored.stop.getD defaults.quietHours.stop⟩
      digestMode := stored.digestMode.getD defaults.digestMode }

/-- `record[NOTIFICATION_TYPE_TO_PREFERENCE_KEY[type]]`. -/
def NotificationPreferenceRecord.preference (record : NotificationPreferenceRecord) :
    NotificationType → Option Bool
  | .renewal_reminder => record.renewalRemindersEnabled
  | .claim_update => record.claimUpdatesEnabled

/-! ## Quiet hours -/

/-- `HH:mm` in minutes. -/
def parseHhMm (value : String) : Option Nat :=
  let digit (c : Char) : Nat := c.toNat - '0'.toNat
  let minutes (hours : Nat) (m n : Char) : Option Nat :=
    if m.isDigit ∧ m ≤ '5' ∧ n.isDigit then some (hours * 60 + (digit m * 10 + digit n)) else none
  match (Js.trimString value).toList with
  | [h, ':', m, n] => if h.isDigit then minutes (digit h) m n else none
  | [g, h, ':', m, n] =>
    if (g = '0' ∨ g = '1') ∧ h.isDigit ∨ g = '2' ∧ h.isDigit ∧ h ≤ '3' then
      minutes (digit g * 10 + digit h) m n
    else none
  | _ => none

/-- The minute of the day, of an instant in milliseconds (UTC). -/
def minuteOfDay (now : Nat) : Nat := now / 60000 % 1440

/-- The window, in minutes, when it is one and `now` lies in it. -/
def quietWindow (now : Nat) (quietHours : QuietHoursConfig) : Option (Nat × Nat) := do
  let start ← parseHhMm quietHours.start
  let stop ← parseHhMm quietHours.stop
  let current := minuteOfDay now
  if start = stop then none
  else if start < stop then
    if start ≤ current ∧ current < stop then some (start, stop) else none
  else if start ≤ current ∨ current < stop then some (start, stop)
  else none

def isWithinQuietHours (now : Nat) (quietHours : QuietHoursConfig) : Bool :=
  (quietWindow now quietHours).isSome

def nextQuietPeriodEnd (now : Nat) (quietHours : QuietHoursConfig) : Nat :=
  match quietWindow now quietHours with
  | none => now
  | some (_, stop) => now + (stop + 1440 - minuteOfDay now) % 1440 * 60000

/-- The delay, and the instant at which delivery resumes. -/
def resolveQuietDelay (routing : NotificationRoutingPreferences) (now : Nat) : Nat × Option Nat :=
  if ¬ routing.quietHours.enabled then (0, none)
  else if ¬ isWithinQuietHours now routing.quietHours then (0, none)
  else
    let resumeAt := nextQuietPeriodEnd now routing.quietHours
    (resumeAt - now, some resumeAt)

/-! ## The state -/

structure DomainNotificationEvent where
  type : NotificationType
  userId : String
  deriving DecidableEq

inductive DispatchSkipReason where
  | preference_disabled
  | no_enabled_channel
  | email_unverified
  deriving DecidableEq

structure DispatchOutcome where
  userId : String
  type : NotificationType
  notificationId : Option String
  channels : List NotificationChannel
  skipped : List (NotificationChannel × DispatchSkipReason)
  deferredUntil : Option Nat
  digested : Bool
  deriving DecidableEq

/-- With the delay with which it is enqueued. -/
structure NotificationDeliveryJob where
  userId : String
  notificationType : NotificationType
  recordIds : List String
  channels : List NotificationChannel
  delayMs : Nat
  deriving DecidableEq

structure DigestEntry where
  notificationType : NotificationType
  recordIds : List String
  deriving DecidableEq

/-- The ids of the rows in the database; every entry that was ever made, and for each user in the
map, in the order of the map, the number of the user's entry; whether the digest timer is set; the
jobs that were enqueued.  The last two fields note down the rows that were buffered, and those for
which no job was wanted or enqueueing it has failed. -/
structure State where
  rows : List String
  entries : List DigestEntry
  digests : List (String × Nat)
  digestTimer : Bool
  jobs : List NotificationDeliveryJob
  digested : List String
  unsent : List String

def State.entry (s : State) (o : Nat) : DigestEntry := s.entries[o]?.getD ⟨.claim_update, []⟩

/-- How far a call has come.  A flush that has deleted an entry from the map has the entry in its
hand (it does not change any more), and `rest` of what it has taken before it. -/
inductive Call where
  /-- `dispatch`: the lookup of the preferences. -/
  | findByUserId (event : DomainNotificationEvent)
  | create (event : DomainNotificationEvent) (routing : NotificationRoutingPreferences)
      (inAppRouted emailReady : Bool) (outcome : DispatchOutcome)
  | enqueue (job : NotificationDeliveryJob) (outcome : DispatchOutcome)
  | dispatched (outcome : DispatchOutcome)
  /-- `flushDigests`: the lookup of the preferences. -/
  | flushFind (uid : String) (entry : DigestEntry) (rest : List (String × Nat)) (enqueued : Nat)
  | flushEnqueue (job : NotificationDeliveryJob) (rest : List (String × Nat)) (enqueued : Nat)
  | flushed (enqueued : Nat)
  | threw
  deriving DecidableEq

/-- What is awaited comes back, at some instant, or fails. -/
inductive Outcome where
  | record (record : Option NotificationPreferenceRecord) (now : Nat)
  | created (id : String) (now : Nat)
  | added
  | error

inductive Request where
  | dispatch (event : DomainNotificationEvent)
  | flushDigests (userId : Option String)
  /-- The timer fires. -/
  | digestTimer

/-! ## `dispatch` -/

/-- From the lookup to the creation of the row. -/
def route (event : DomainNotificationEvent) (record : Option NotificationPreferenceRecord) : Call :=
  let routing := resolveRoutingPreferences (record.bind (·.routing))
  let outcome : DispatchOutcome := ⟨event.userId, event.type, none, [], [], none, false⟩
  if record.bind (·.preference event.type) = some false then
    .dispatched { outcome with
      skipped := [(.email, .preference_disabled), (.inApp, .preference_disabled)] }
  else
    let emailRouted := (routing.events.of event.type).email
    let inAppRouted := (routing.events.of event.type).inApp
    let emailReady := emailRouted && record.any fun record =>
      (record.email.filter (· ≠ "")).isSome && record.emailVerified = some true
    let skipped := if emailRouted && !emailReady then [(.email, .email_unverified)] else []
    if !emailRouted && !inAppRouted then
      .dispatched { outcome with
        skipped := skipped ++ [(.email, .no_enabled_channel), (.inApp, .no_enabled_channel)] }
    else .create event routing inAppRouted emailReady { outcome with skipped }

def bufferDigest (s : State) (userId : String) (notificationType : NotificationType)
    (recordId : String) : State :=
  let s := { s with digested := s.digested ++ [recordId] }
  match s.digests.lookup userId with
  | some o =>
    { s with
      entries := s.entries.modify o fun entry =>
        { entry with recordIds := entry.recordIds ++ [recordId] }
      digestTimer := true }
  | none =>
    { s with
      entries := s.entries ++ [⟨notificationType, [recordId]⟩]
      digests := s.digests ++ [(userId, s.entries.length)]
      digestTimer := true }

/-- From the creation of the row on. -/
def deliver (s : State) (event : DomainNotificationEvent) (routing : NotificationRoutingPreferences)
    (inAppRouted emailReady : Bool) (outcome : DispatchOutcome) (id : String) (now : Nat) :
    State × Call :=
  let s := { s with rows := s.rows ++ [id] }
  let channels := if inAppRouted then outcome.channels ++ [.inApp] else outcome.channels
  let outcome := { outcome with notificationId := some id, channels }
  if ¬ emailReady then ({ s with unsent := s.unsent ++ [id] }, .dispatched outcome)
  else
    let quiet := resolveQuietDelay routing now
    let emailed := { outcome with channels := channels ++ [.email], deferredUntil := quiet.2 }
    if routing.digestMode ≠ .off ∧ event.type = .claim_update then
      (bufferDigest s event.userId event.type id, .dispatched { emailed with digested := true })
    else (s, .enqueue ⟨event.userId, event.type, [id], [.email], quiet.1⟩ emailed)

/-! ## `flushDigests` -/

/-- What a flush takes when it starts. -/
def State.pending (s : State) (userId : Option String) : List (String × Nat) :=
  match userId.filter (· ≠ "") with
  | some userId => ((s.digests.lookup userId).map (userId, ·)).toList
  | none => s.digests

/-- The loop of a flush up to its next lookup. -/
def flush (s : State) (enqueued : Nat) : List (String × Nat) → State × Call
  | [] => (s, .flushed enqueued)
  | (uid, o) :: rest =>
    let s := { s with digests := s.digests.filter (·.1 ≠ uid) }
    if (s.entry o).recordIds = [] then flush s enqueued rest
    else (s, .flushFind uid (s.entry o) rest enqueued)

/-! ## The calls -/

def start (s : State) : Request → Option (State × Call)
  | .dispatch event => some (s, .findByUserId event)
  | .flushDigests userId => some (flush s 0 (s.pending userId))
  | .digestTimer =>
    if s.digestTimer then some (flush { s with digestTimer := false } 0 (s.pending none)) else none

/-- The next step.  No two rows have one id. -/
def next (s : State) : Call → Outcome → Option (State × Call)
  | .findByUserId event, .record record _ => some (s, route event record)
  | .create event routing inAppRouted emailReady outcome, .created id now =>
    if id ∈ s.rows then none
    else some (deliver s event routing inAppRouted emailReady outcome id now)
  | .enqueue job outcome, .added => some ({ s with jobs := s.jobs ++ [job] }, .dispatched outcome)
  | .enqueue job _, .error => some ({ s with unsent := s.unsent ++ job.recordIds }, .threw)
  | .flushFind uid entry rest enqueued, .record record now =>
    let routing := resolveRoutingPreferences (record.bind (·.routing))
    some (s, .flushEnqueue ⟨uid, entry.notificationType, entry.recordIds, [.email],
      (resolveQuietDelay routing now).1⟩ rest enqueued)
  | .flushEnqueue job rest enqueued, .added =>
    some (flush { s with jobs := s.jobs ++ [job] } (enqueued + 1) rest)
  | .findByUserId _, .error | .create _ _ _ _ _, .error | .flushFind _ _ _ _, .error
  | .flushEnqueue _ _ _, .error => some (s, .threw)
  | _, _ => none

def program : Concurrent.Program State Call Request Outcome Empty where
  start := start
  next := next
  around _ e := e.elim

/-- Nothing was dispatched yet. -/
def State.fresh : State := ⟨[], [], [], false, [], [], []⟩

def machine : Machine (Concurrent.State State Call) (Concurrent.Label Request Outcome Empty) :=
  program.machine (· = .fresh)

/-! ## What is claimed of them -/

/-- The rows that wait in an entry of the map. -/
def State.buffered (s : State) : List String :=
  s.digests.flatMap fun m => (s.entry m.2).recordIds

/-- The rows in jobs, once for each job. -/
def State.sent (s : State) : List String := s.jobs.flatMap (·.recordIds)

/-- The rows that a flush has in its hand. -/
def Call.flushing : Call → List String
  | .flushFind _ entry _ _ => entry.recordIds
  | .flushEnqueue job _ _ => job.recordIds
  | _ => []

/-- What a flush has taken and not come to yet. -/
def Call.rest : Call → List (String × Nat)
  | .flushFind _ _ rest _ => rest
  | .flushEnqueue _ rest _ => rest
  | _ => []

/-- The row waits in the map or in the hand of a flush. -/
def waiting (s : Concurrent.State State Call) : List String :=
  s.shared.buffered ++ s.calls.flatMap Call.flushing

/-- A flush will come for an entry of the map: the timer is set, or a flush has taken it. -/
def Expected (s : Concurrent.State State Call) (m : String × Nat) : Prop :=
  s.shared.digestTimer = true ∨ ∃ p ∈ s.calls, m ∈ p.rest

instance (s : Concurrent.State State Call) (m : String × Nat) : Decidable (Expected s m) :=
  inferInstanceAs (Decidable (_ ∨ _))

/-- A flush has the row in its hand, or will come for it. -/
def FlushPending (s : Concurrent.State State Call) (id : String) : Prop :=
  (∃ p ∈ s.calls, id ∈ p.flushing) ∨
    ∃ m ∈ s.shared.digests, id ∈ (s.shared.entry m.2).recordIds ∧ Expected s m

instance (s : Concurrent.State State Call) (id : String) : Decidable (FlushPending s id) :=
  inferInstanceAs (Decidable (_ ∨ _))

/-- A row moves from a dispatch to the map, from there to the hand of a flush, and into a job. -/
def view : View State Call String where
  issued := State.rows
  kept s := s.buffered ++ s.sent ++ s.unsent
  held
    | .enqueue job _ => job.recordIds
    | p => p.flushing

/-- The lookups and the enqueueing of a flush do not fail, and when it comes to the next entry that
it has taken, this is still in the map. -/
def Undisturbed (s : Concurrent.State State Call) : Call → Outcome → Prop
  | .flushFind _ _ _ _, .error | .flushEnqueue _ _ _, .error => False
  | .flushEnqueue _ rest _, .added => ∀ m ∈ rest.head?, m ∈ s.shared.digests
  | _, _ => True

instance (s : Concurrent.State State Call) (p : Call) (outcome : Outcome) :
    Decidable (Undisturbed s p outcome) :=
  match p, outcome with
  | .flushFind _ _ _ _, .error | .flushEnqueue _ _ _, .error => inferInstanceAs (Decidable False)
  | .flushEnqueue _ rest _, .added =>
    inferInstanceAs (Decidable (∀ m ∈ rest.head?, m ∈ s.shared.digests))
  | .findByUserId _, _ | .create _ _ _ _ _, _ | .enqueue _ _, _ | .dispatched _, _ | .flushed _, _
  | .threw, _ | .flushFind _ _ _ _, .record _ _ | .flushFind _ _ _ _, .created _ _
  | .flushFind _ _ _ _, .added | .flushEnqueue _ _ _, .record _ _
  | .flushEnqueue _ _ _, .created _ _ => inferInstanceAs (Decidable True)

/-- The call that takes the step is undisturbed. -/
def DigestClear (s : Concurrent.State State Call) :
    Concurrent.Label Request Outcome Empty → Prop
  | .next i outcome => ∀ p ∈ s.calls[i]?, Undisturbed s p outcome
  | _ => True

instance (s : Concurrent.State State Call) (l : Concurrent.Label Request Outcome Empty) :
    Decidable (DigestClear s l) :=
  match l with
  | .next i outcome => inferInstanceAs (Decidable (∀ p ∈ s.calls[i]?, Undisturbed s p outcome))
  | .start _ | .around _ => inferInstanceAs (Decidable True)

variable {s : Concurrent.State State Call} {shared : State} {p : Call} {q : State × Call}
  {outcome : Outcome} {m : String × Nat} {rest : List (String × Nat)} {id : String}

/-! ## The map -/

/-- The ids of the rows are different, the map has one entry for a user, no entry twice, and none
that is empty; rows that were buffered are not among those without a job. -/
structure State.Sound (s : State) : Prop where
  rows : s.rows.Nodup
  users : (s.digests.map Prod.fst).Nodup
  objects : (s.digests.map Prod.snd).Nodup
  made : ∀ m ∈ s.digests, m.2 < s.entries.length
  filled : ∀ entry ∈ s.entries, entry.recordIds ≠ []
  digested : ∀ id ∈ s.digested, id ∈ s.rows
  unsent : ∀ id ∈ s.unsent, id ∈ s.rows ∧ id ∉ s.digested

theorem mem_of_lookup {l : List (String × Nat)} {userId : String} {o : Nat}
    (h : l.lookup userId = some o) : (userId, o) ∈ l := by
  obtain ⟨l₁, l₂, rfl, -⟩ := List.lookup_eq_some_iff.mp h
  exact List.mem_append_right _ (List.mem_cons_self ..)

theorem perm_of_mem {l : List (String × Nat)} (h : (l.map Prod.fst).Nodup) (hm : m ∈ l) :
    l.Perm (m :: l.filter (·.1 ≠ m.1)) := by
  induction l with
  | nil => cases hm
  | cons a l ih =>
    rw [List.map_cons, List.nodup_cons] at h
    have hne : ∀ b ∈ l, b.1 ≠ a.1 := by
      intro b hb heq
      exact h.1 (heq ▸ List.mem_map_of_mem hb)
    rcases List.mem_cons.mp hm with rfl | hm
    · have hrest : l.filter (·.1 ≠ m.1) = l :=
        List.filter_eq_self.mpr fun b hb => decide_eq_true (hne b hb)
      rw [List.filter_cons_of_neg (by simp), hrest]
    · have ha : (a :: l).filter (·.1 ≠ m.1) = a :: l.filter (·.1 ≠ m.1) :=
        List.filter_cons_of_pos (decide_eq_true (hne m hm).symm)
      rw [ha]
      exact ((ih h.2 hm).cons a).trans (List.Perm.swap m a _)

theorem State.Sound.perm (h : shared.Sound) (hm : m ∈ shared.digests) :
    shared.digests.Perm (m :: shared.digests.filter (·.1 ≠ m.1)) :=
  perm_of_mem h.users hm

theorem State.Sound.count_buffered (h : shared.Sound) (hm : m ∈ shared.digests) (id : String) :
    shared.buffered.count id = (shared.entry m.2).recordIds.count id +
      ((shared.digests.filter (·.1 ≠ m.1)).flatMap fun m => (shared.entry m.2).recordIds).count
      id := by
  rw [State.buffered, ((h.perm hm).flatMap_right _).count_eq, List.flatMap_cons, List.count_append]

theorem State.Sound.entry_filled (h : shared.Sound) (hm : m ∈ shared.digests) :
    (shared.entry m.2).recordIds ≠ [] := by
  have hlt := h.made m hm
  rw [State.entry, List.getElem?_eq_getElem hlt]
  exact h.filled _ (List.getElem_mem hlt)

theorem flush_cons (h : shared.Sound) (hm : m ∈ shared.digests) (enqueued : Nat)
    (rest : List (String × Nat)) :
    flush shared enqueued (m :: rest) =
      ({ shared with digests := shared.digests.filter (·.1 ≠ m.1) },
        .flushFind m.1 (shared.entry m.2) rest enqueued) :=
  if_neg (h.entry_filled hm)

theorem State.Sound.delete (h : shared.Sound) (uid : String) :
    State.Sound { shared with digests := shared.digests.filter (·.1 ≠ uid) } where
  rows := h.rows
  users := h.users.sublist (List.filter_sublist.map _)
  objects := h.objects.sublist (List.filter_sublist.map _)
  made m hm := h.made m (List.mem_of_mem_filter hm)
  filled := h.filled
  digested := h.digested
  unsent := h.unsent

theorem pending_subset (s : State) (userId : Option String) : s.pending userId ⊆ s.digests := by
  rw [State.pending]
  split
  · rename_i userId _
    cases hlookup : s.digests.lookup userId with
    | none => exact List.nil_subset _
    | some o => exact List.cons_subset.mpr ⟨mem_of_lookup hlookup, List.nil_subset _⟩
  · exact List.Subset.refl _

theorem State.Sound.create (h : shared.Sound) (hid : id ∉ shared.rows) :
    State.Sound { shared with rows := shared.rows ++ [id] } where
  rows := List.nodup_append.mpr ⟨h.rows, List.nodup_singleton id, fun _ ha _ hb heq =>
    hid (List.mem_singleton.mp hb ▸ heq ▸ ha)⟩
  users := h.users
  objects := h.objects
  made := h.made
  filled := h.filled
  digested k hk := List.mem_append_left _ (h.digested k hk)
  unsent k hk := ⟨List.mem_append_left _ (h.unsent k hk).1, (h.unsent k hk).2⟩

theorem State.Sound.count_push (h : shared.Sound) (hm : m ∈ shared.digests) (k : String) :
    (State.buffered { shared with entries := shared.entries.modify m.2 fun entry =>
      { entry with recordIds := entry.recordIds ++ [id] } }).count k =
      shared.buffered.count k + [id].count k := by
  have hperm := h.perm hm
  have hothers : ∀ n ∈ shared.digests.filter (·.1 ≠ m.1), m.2 ≠ n.2 := by
    intro n hn heq
    have hnodup := (hperm.map Prod.snd).nodup_iff.mp h.objects
    rw [List.map_cons, List.nodup_cons] at hnodup
    exact hnodup.1 (heq ▸ List.mem_map_of_mem hn)
  have hsame : (shared.digests.filter (·.1 ≠ m.1)).flatMap (fun n => (State.entry { shared with
        entries := shared.entries.modify m.2 fun entry =>
          { entry with recordIds := entry.recordIds ++ [id] } } n.2).recordIds) =
      (shared.digests.filter (·.1 ≠ m.1)).flatMap fun n => (shared.entry n.2).recordIds := by
    refine List.flatMap_congr fun n hn => ?_
    rw [State.entry, List.getElem?_modify_ne _ _ (hothers n hn)]
    rfl
  have hown : (State.entry { shared with entries := shared.entries.modify m.2 fun entry =>
      { entry with recordIds := entry.recordIds ++ [id] } } m.2).recordIds =
      (shared.entry m.2).recordIds ++ [id] := by
    rw [State.entry, State.entry, List.getElem?_modify_eq, List.getElem?_eq_getElem (h.made m hm)]
    rfl
  rw [h.count_buffered hm, State.buffered, (hperm.flatMap_right _).count_eq, List.flatMap_cons,
    List.count_append, hown, hsame, List.count_append]
  omega

theorem State.Sound.count_new (h : shared.Sound) (userId : String)
    (notificationType : NotificationType) (k : String) :
    (State.buffered { shared with
      entries := shared.entries ++ [⟨notificationType, [id]⟩]
      digests := shared.digests ++ [(userId, shared.entries.length)] }).count k =
      shared.buffered.count k + [id].count k := by
  have hold : ∀ m ∈ shared.digests, (State.entry { shared with
      entries := shared.entries ++ [⟨notificationType, [id]⟩] } m.2).recordIds =
        (shared.entry m.2).recordIds := by
    intro m hm
    rw [State.entry, List.getElem?_append_left (h.made m hm)]
    rfl
  have hnew : (State.entry { shared with
      entries := shared.entries ++ [⟨notificationType, [id]⟩] } shared.entries.length).recordIds =
        [id] := by
    rw [State.entry, List.getElem?_concat_length]
    rfl
  rw [State.buffered, List.flatMap_append, List.count_append, List.flatMap_singleton]
  exact congrArg₂ (· + ·) (congrArg _ (List.flatMap_congr hold)) (congrArg _ hnew)

theorem State.Sound.digest (h : shared.Sound) (hid : id ∉ shared.rows) :
    State.Sound { shared with
      rows := shared.rows ++ [id], digested := shared.digested ++ [id] } where
  rows := (h.create hid).rows
  users := h.users
  objects := h.objects
  made := h.made
  filled := h.filled
  digested := by
    intro k hk
    rcases List.mem_append.mp hk with hk | hk
    · exact List.mem_append_left _ (h.digested k hk)
    · exact List.mem_append_right _ hk
  unsent := by
    intro k hk
    obtain ⟨hrow, hnot⟩ := h.unsent k hk
    refine ⟨List.mem_append_left _ hrow, fun hmem => ?_⟩
    rcases List.mem_append.mp hmem with hmem | hmem
    · exact hnot hmem
    · exact hid (List.mem_singleton.mp hmem ▸ hrow)

theorem State.Sound.push (h : shared.Sound) (o : Nat) :
    State.Sound { shared with
      entries := shared.entries.modify o fun entry =>
        { entry with recordIds := entry.recordIds ++ [id] }
      digestTimer := true } where
  rows := h.rows
  users := h.users
  objects := h.objects
  digested := h.digested
  unsent := h.unsent
  made := by
    intro m hm
    show m.2 < (shared.entries.modify o _).length
    rw [List.length_modify]
    exact h.made m hm
  filled := by
    intro entry hentry
    obtain ⟨j, hj, hget⟩ := List.mem_iff_getElem.mp hentry
    change (shared.entries.modify o _)[j] = entry at hget
    rw [List.getElem_modify] at hget
    split at hget
    · rw [← hget]
      exact List.append_ne_nil_of_right_ne_nil _ (List.cons_ne_nil _ _)
    · rw [← hget]
      exact h.filled _ (List.getElem_mem _)

theorem State.Sound.new (h : shared.Sound) {userId : String}
    (hlookup : shared.digests.lookup userId = none) (notificationType : NotificationType) :
    State.Sound { shared with
      entries := shared.entries ++ [⟨notificationType, [id]⟩]
      digests := shared.digests ++ [(userId, shared.entries.length)]
      digestTimer := true } where
  rows := h.rows
  digested := h.digested
  unsent := h.unsent
  users := by
    have hnew : userId ∉ shared.digests.map Prod.fst := by
      intro hmem
      obtain ⟨m, hm, rfl⟩ := List.mem_map.mp hmem
      have hne := List.lookup_eq_none_iff.mp hlookup m hm
      simp at hne
    show ((shared.digests ++ [(userId, shared.entries.length)]).map Prod.fst).Nodup
    rw [List.map_append, List.map_singleton, ← List.concat_eq_append]
    exact List.Nodup.concat hnew h.users
  objects := by
    have hnew : shared.entries.length ∉ shared.digests.map Prod.snd := by
      intro hmem
      obtain ⟨m, hm, hlast⟩ := List.mem_map.mp hmem
      exact absurd hlast (Nat.ne_of_lt (h.made m hm))
    show ((shared.digests ++ [(userId, shared.entries.length)]).map Prod.snd).Nodup
    rw [List.map_append, List.map_singleton, ← List.concat_eq_append]
    exact List.Nodup.concat hnew h.objects
  made := by
    intro m hm
    show m.2 < (shared.entries ++ [DigestEntry.mk notificationType [id]]).length
    rw [List.length_append]
    rcases List.mem_append.mp hm with hm | hm
    · exact Nat.lt_add_right _ (h.made m hm)
    · rw [List.mem_singleton.mp hm]
      exact Nat.lt_succ_self _
  filled := by
    intro entry hentry
    rcases List.mem_append.mp hentry with hentry | hentry
    · exact h.filled entry hentry
    · rw [List.mem_singleton.mp hentry]
      exact List.cons_ne_nil _ _

theorem State.Sound.buffer (h : shared.Sound) (hid : id ∉ shared.rows) (userId : String)
    (notificationType : NotificationType) :
    (bufferDigest { shared with rows := shared.rows ++ [id] } userId notificationType id).Sound ∧
    ∀ k, (bufferDigest { shared with rows := shared.rows ++ [id] } userId notificationType
      id).buffered.count k = shared.buffered.count k + [id].count k := by
  rw [bufferDigest]
  dsimp only
  split
  · -- the user has an entry
    rename_i o hlookup
    exact ⟨(h.digest hid).push o, h.count_push (mem_of_lookup hlookup)⟩
  · -- the user has none
    rename_i hlookup
    exact ⟨(h.digest hid).new hlookup notificationType, h.count_new userId notificationType⟩

theorem bufferDigest_reads (s : State) (userId : String) (notificationType : NotificationType)
    (id : String) :
    (bufferDigest s userId notificationType id).rows = s.rows ∧
      (bufferDigest s userId notificationType id).digested = s.digested ++ [id] ∧
      (bufferDigest s userId notificationType id).sent = s.sent ∧
      (bufferDigest s userId notificationType id).unsent = s.unsent := by
  rw [bufferDigest]
  dsimp only
  split <;> exact ⟨rfl, rfl, rfl, rfl⟩

/-! ## One step -/

/-- What holds of a call: a row that it enqueues by itself is not buffered, and a row that it
reports as digested is. -/
def CallSound (s : State) : Call → Prop
  | .create _ _ _ _ outcome => outcome.digested = false
  | .enqueue job outcome => outcome.digested = false ∧
    ∀ id ∈ job.recordIds, id ∈ s.rows ∧ id ∉ s.digested
  | .dispatched outcome => outcome.digested = true →
      ∃ id ∈ s.digested, outcome.notificationId = some id
  | _ => True

/-- Rows are added, and only new ones are buffered. -/
structure State.Later (s t : State) : Prop where
  rows : ∀ id ∈ s.rows, id ∈ t.rows
  digested : ∀ id ∈ s.digested, id ∈ t.digested
  fresh : ∀ id ∈ t.digested, id ∈ s.digested ∨ id ∉ s.rows

theorem State.Later.of_same {s t : State} (hrows : t.rows = s.rows)
    (hdigested : t.digested = s.digested) : s.Later t where
  rows _ hid := hrows ▸ hid
  digested _ hid := hdigested ▸ hid
  fresh _ hid := .inl (hdigested ▸ hid)

theorem CallSound.mono {s t : State} (h : CallSound s p) (hlater : s.Later t) : CallSound t p := by
  cases p with
  | enqueue job outcome =>
    refine ⟨h.1, fun id hid => ?_⟩
    obtain ⟨hrow, hnot⟩ := h.2 id hid
    refine ⟨hlater.rows id hrow, fun hmem => ?_⟩
    rcases hlater.fresh id hmem with hmem | hmem
    · exact hnot hmem
    · exact hmem hrow
  | dispatched outcome =>
    intro hdigested
    obtain ⟨id, hid, hreported⟩ := h hdigested
    exact ⟨id, hlater.digested id hid, hreported⟩
  | create => exact h
  | findByUserId | flushFind | flushEnqueue | flushed | threw => trivial

theorem route_cases (event : DomainNotificationEvent)
    (record : Option NotificationPreferenceRecord) :
    ∃ outcome : DispatchOutcome, outcome.digested = false ∧
      (route event record = .dispatched outcome ∨ ∃ routing inAppRouted emailReady,
        route event record = .create event routing inAppRouted emailReady outcome) := by
  rw [route]
  dsimp only
  split
  · exact ⟨_, rfl, .inl rfl⟩
  split
  · exact ⟨_, rfl, .inl rfl⟩
  · exact ⟨_, rfl, .inr ⟨_, _, _, rfl⟩⟩

/-- **What `dispatch` does with a new row.**  It wants no job for it, buffers it, or goes on to
enqueue a job. -/
theorem deliver_cases (shared : State) (event : DomainNotificationEvent)
    (routing : NotificationRoutingPreferences) (inAppRouted emailReady : Bool)
    (outcome : DispatchOutcome) (id : String) (now : Nat) :
    (∃ outcome', outcome'.digested = outcome.digested ∧
      deliver shared event routing inAppRouted emailReady outcome id now =
        ({ shared with rows := shared.rows ++ [id], unsent := shared.unsent ++ [id] },
          .dispatched outcome')) ∨
    (∃ outcome', outcome'.notificationId = some id ∧
      deliver shared event routing inAppRouted emailReady outcome id now =
        (bufferDigest { shared with rows := shared.rows ++ [id] } event.userId event.type id,
          .dispatched outcome')) ∨
    ∃ job outcome', job.recordIds = [id] ∧ outcome'.digested = outcome.digested ∧
      deliver shared event routing inAppRouted emailReady outcome id now =
        ({ shared with rows := shared.rows ++ [id] }, .enqueue job outcome') := by
  rw [deliver]
  dsimp only
  split
  · refine .inl ⟨_, ?_, rfl⟩
    rfl
  split
  · refine .inr (.inl ⟨_, ?_, rfl⟩)
    rfl
  · refine .inr (.inr ⟨_, _, ?_, ?_, rfl⟩)
    · rfl
    · rfl

theorem flush_cases (h : shared.Sound) (hmapped : ∀ m ∈ rest.head?, m ∈ shared.digests)
    (enqueued : Nat) :
    (rest = [] ∧ flush shared enqueued rest = (shared, .flushed enqueued)) ∨
    ∃ m rest', rest = m :: rest' ∧ m ∈ shared.digests ∧ flush shared enqueued rest =
      ({ shared with digests := shared.digests.filter (·.1 ≠ m.1) },
        .flushFind m.1 (shared.entry m.2) rest' enqueued) := by
  cases rest with
  | nil => exact .inl ⟨rfl, rfl⟩
  | cons m rest =>
    have hm := hmapped m rfl
    exact .inr ⟨m, rest, rfl, hm, flush_cons h hm enqueued rest⟩

/-- **What one step does.** -/
theorem next_cases (h : next shared p outcome = some q) :
    (∃ event record, p = .findByUserId event ∧ q = (shared, route event record)) ∨
    (∃ event routing inAppRouted emailReady outcome' id now,
      p = .create event routing inAppRouted emailReady outcome' ∧ id ∉ shared.rows ∧
        q = deliver shared event routing inAppRouted emailReady outcome' id now) ∨
    (∃ job outcome', p = .enqueue job outcome' ∧
      (q = ({ shared with jobs := shared.jobs ++ [job] }, .dispatched outcome') ∨
        q = ({ shared with unsent := shared.unsent ++ job.recordIds }, .threw))) ∨
    (∃ uid entry rest enqueued job, p = .flushFind uid entry rest enqueued ∧
      job.recordIds = entry.recordIds ∧ q = (shared, .flushEnqueue job rest enqueued)) ∨
    (∃ job rest enqueued, p = .flushEnqueue job rest enqueued ∧ outcome = .added ∧
      q = flush { shared with jobs := shared.jobs ++ [job] } (enqueued + 1) rest) ∨
    (outcome = .error ∧ q = (shared, .threw) ∧ ∀ job outcome', p ≠ .enqueue job outcome') := by
  rw [next.eq_def] at h
  split at h
  · cases h
    exact .inl ⟨_, _, rfl, rfl⟩
  · split at h
    · cases h
    · rename_i hid
      cases h
      exact .inr (.inl ⟨_, _, _, _, _, _, _, rfl, hid, rfl⟩)
  · cases h
    exact .inr (.inr (.inl ⟨_, _, rfl, .inl rfl⟩))
  · cases h
    exact .inr (.inr (.inl ⟨_, _, rfl, .inr rfl⟩))
  · cases h
    exact .inr (.inr (.inr (.inl ⟨_, _, _, _, _, rfl, rfl, rfl⟩)))
  · cases h
    exact .inr (.inr (.inr (.inr (.inl ⟨_, _, _, rfl, rfl, rfl⟩))))
  · cases h
    exact .inr (.inr (.inr (.inr (.inr ⟨rfl, rfl, nofun⟩))))
  · cases h
    exact .inr (.inr (.inr (.inr (.inr ⟨rfl, rfl, nofun⟩))))
  · cases h
    exact .inr (.inr (.inr (.inr (.inr ⟨rfl, rfl, nofun⟩))))
  · cases h
    exact .inr (.inr (.inr (.inr (.inr ⟨rfl, rfl, nofun⟩))))
  · cases h

/-- What a step keeps, of a call that has the rows `held` in its hand before. -/
structure Stepped (s : State) (held : List String) (q : State × Call) : Prop where
  sound : q.1.Sound
  call : CallSound q.1 q.2
  later : s.Later q.1
  balanced : view.Balanced s q.1 held (view.held q.2)

theorem stepped_flush (h : shared.Sound) (hmapped : ∀ m ∈ rest.head?, m ∈ shared.digests)
    (enqueued : Nat) : Stepped shared [] (flush shared enqueued rest) := by
  rcases flush_cases h hmapped enqueued with ⟨-, hq⟩ | ⟨m, rest', -, hm, hq⟩
  · rw [hq]
    exact ⟨h, trivial, .of_same rfl rfl, .refl _ _⟩
  · rw [hq]
    refine ⟨h.delete m.1, trivial, .of_same rfl rfl, fun k => ?_⟩
    have hcount := h.count_buffered hm k
    show shared.rows.count k + (shared.buffered ++ shared.sent ++ shared.unsent).count k +
        ([] : List String).count k =
      shared.rows.count k + (((shared.digests.filter (·.1 ≠ m.1)).flatMap fun m =>
        (shared.entry m.2).recordIds) ++ shared.sent ++ shared.unsent).count k +
          (shared.entry m.2).recordIds.count k
    simp only [List.count_append, List.count_nil]
    omega

theorem sent_append (shared : State) (job : NotificationDeliveryJob) :
    State.sent { shared with jobs := shared.jobs ++ [job] } = shared.sent ++ job.recordIds := by
  rw [State.sent, List.flatMap_append, List.flatMap_singleton]
  rfl

theorem balanced_add (shared : State) (job : NotificationDeliveryJob) :
    view.Balanced shared { shared with jobs := shared.jobs ++ [job] } job.recordIds [] := by
  intro k
  show shared.rows.count k + (shared.buffered ++ shared.sent ++ shared.unsent).count k +
      job.recordIds.count k =
    shared.rows.count k + (shared.buffered ++ State.sent { shared with jobs :=
      shared.jobs ++ [job] } ++ shared.unsent).count k + ([] : List String).count k
  rw [sent_append]
  simp only [List.count_append, List.count_nil]
  omega

theorem State.Sound.add (h : shared.Sound) (job : NotificationDeliveryJob) :
    State.Sound { shared with jobs := shared.jobs ++ [job] } :=
  ⟨h.rows, h.users, h.objects, h.made, h.filled, h.digested, h.unsent⟩

/-- Rows for which there is no job any more, and that were not buffered. -/
theorem State.Sound.give (h : shared.Sound) {ids : List String}
    (hids : ∀ id ∈ ids, id ∈ shared.rows ∧ id ∉ shared.digested) :
    State.Sound { shared with unsent := shared.unsent ++ ids } := by
  refine ⟨h.rows, h.users, h.objects, h.made, h.filled, h.digested, fun k hk => ?_⟩
  rcases List.mem_append.mp hk with hk | hk
  · exact h.unsent k hk
  · exact hids k hk

/-- **What becomes of a new row.** -/
theorem stepped_deliver (h : shared.Sound) (event : DomainNotificationEvent)
    (routing : NotificationRoutingPreferences) (inAppRouted emailReady : Bool)
    {outcome : DispatchOutcome} (houtcome : outcome.digested = false) (hid : id ∉ shared.rows)
    (now : Nat) :
    Stepped shared [] (deliver shared event routing inAppRouted emailReady outcome id now) := by
  have hnot : id ∉ shared.digested := fun hmem => hid (h.digested id hmem)
  have hcreated : shared.Later { shared with rows := shared.rows ++ [id] } :=
    ⟨fun _ hk => List.mem_append_left _ hk, fun _ hk => hk, fun _ hk => .inl hk⟩
  rcases deliver_cases shared event routing inAppRouted emailReady outcome id now with
    ⟨outcome', hsame, hq⟩ | ⟨outcome', hreported, hq⟩ | ⟨job, outcome', hjob, hsame, hq⟩
  · -- no job is wanted
    rw [hq]
    refine ⟨(h.create hid).give ?_, ?_, ⟨hcreated.rows, hcreated.digested, hcreated.fresh⟩, ?_⟩
    · intro k hk
      rw [List.mem_singleton.mp hk]
      exact ⟨List.mem_append_right _ (List.mem_singleton_self _), hnot⟩
    · intro hdigested
      rw [hsame, houtcome] at hdigested
      cases hdigested
    · intro k
      show (shared.rows ++ [id]).count k + (shared.buffered ++ shared.sent ++
        shared.unsent).count k +
          ([] : List String).count k =
        shared.rows.count k + (shared.buffered ++ shared.sent ++ (shared.unsent ++ [id])).count k +
          ([] : List String).count k
      simp only [List.count_append, List.count_nil]
      omega
  · -- the row is buffered
    obtain ⟨hsound, hcount⟩ := h.buffer hid event.userId event.type
    obtain ⟨hrows, hdigested, hsent, hunsent⟩ :=
      bufferDigest_reads { shared with rows := shared.rows ++ [id] } event.userId event.type id
    change _ = shared.sent at hsent
    change _ = shared.unsent at hunsent
    rw [hq]
    refine ⟨hsound, ?_, ⟨?_, ?_, ?_⟩, ?_⟩
    · intro _
      refine ⟨id, ?_, hreported⟩
      rw [hdigested]
      exact List.mem_append_right _ (List.mem_singleton_self _)
    · intro k hk
      rw [hrows]
      exact List.mem_append_left _ hk
    · intro k hk
      rw [hdigested]
      exact List.mem_append_left _ hk
    · intro k hk
      rw [hdigested] at hk
      rcases List.mem_append.mp hk with hk | hk
      · exact .inl hk
      · exact .inr (List.mem_singleton.mp hk ▸ hid)
    · intro k
      have hcount := hcount k
      show (State.rows _).count k + (shared.buffered ++ shared.sent ++ shared.unsent).count k +
          ([] : List String).count k =
        shared.rows.count k + (State.buffered _ ++ State.sent _ ++ State.unsent _).count k +
          ([] : List String).count k
      rw [hrows, hsent, hunsent]
      simp only [List.count_append, List.count_nil]
      omega
  · -- a job is enqueued
    rw [hq]
    refine ⟨h.create hid, ⟨hsame.trans houtcome, ?_⟩, hcreated, ?_⟩
    · intro k hk
      rw [hjob, List.mem_singleton] at hk
      rw [hk]
      exact ⟨List.mem_append_right _ (List.mem_singleton_self _), hnot⟩
    · intro k
      show (shared.rows ++ [id]).count k + (view.kept shared).count k + ([] : List String).count k =
        shared.rows.count k + (view.kept shared).count k + job.recordIds.count k
      rw [hjob]
      simp only [List.count_append, List.count_nil]
      omega

/-- **What one step keeps**, and where it takes the rows. -/
theorem stepped_next (hclear : Undisturbed s p outcome) (h : s.shared.Sound)
    (hp : CallSound s.shared p) (hq : next s.shared p outcome = some q) :
    Stepped s.shared (view.held p) q := by
  rcases next_cases hq with ⟨event, record, rfl, rfl⟩ |
    ⟨event, routing, inAppRouted, emailReady, outcome', id, now, rfl, hid, rfl⟩ |
    ⟨job, outcome', rfl, rfl | rfl⟩ | ⟨uid, entry, rest, enqueued, job, rfl, hjob, rfl⟩ |
    ⟨job, rest, enqueued, rfl, rfl, rfl⟩ | ⟨rfl, rfl, hne⟩
  · -- the event is routed
    obtain ⟨outcome', hdigested, hroute | ⟨routing, inAppRouted, emailReady, hroute⟩⟩ :=
      route_cases event record
    · rw [hroute]
      exact ⟨h, fun htrue => absurd (hdigested.symm.trans htrue) Bool.false_ne_true,
        .of_same rfl rfl, .refl _ _⟩
    · rw [hroute]
      exact ⟨h, hdigested, .of_same rfl rfl, .refl _ _⟩
  · exact stepped_deliver h event routing inAppRouted emailReady hp hid now
  · -- the job of a dispatch is enqueued
    exact ⟨h.add job, fun htrue => absurd (hp.1.symm.trans htrue) Bool.false_ne_true,
      .of_same rfl rfl, balanced_add s.shared job⟩
  · -- enqueueing the job of a dispatch fails
    refine ⟨h.give hp.2, trivial, .of_same rfl rfl, fun k => ?_⟩
    show s.shared.rows.count k + (s.shared.buffered ++ s.shared.sent ++ s.shared.unsent).count k +
        job.recordIds.count k =
      s.shared.rows.count k + (s.shared.buffered ++ s.shared.sent ++ (s.shared.unsent ++
        job.recordIds)).count k + ([] : List String).count k
    simp only [List.count_append, List.count_nil]
    omega
  · exact ⟨h, trivial, .of_same rfl rfl, .of_eq rfl rfl hjob⟩
  · -- the job of a flush is enqueued, and it comes to its next entry
    obtain ⟨hsound, hcall, hlater, hbalanced⟩ := stepped_flush (h.add job) hclear (enqueued + 1)
    exact ⟨hsound, hcall, ⟨hlater.rows, hlater.digested, hlater.fresh⟩,
      (balanced_add s.shared job).trans hbalanced⟩
  · -- the call fails
    refine ⟨h, trivial, .of_same rfl rfl, .of_eq rfl rfl ?_⟩
    cases p with
    | enqueue job outcome' => exact absurd rfl (hne job outcome')
    | flushFind | flushEnqueue => exact absurd hclear id
    | findByUserId | create | dispatched | flushed | threw => rfl

theorem head_pending (s : State) (userId : Option String) :
    ∀ m ∈ (s.pending userId).head?, m ∈ s.digests := by
  intro m hm
  exact pending_subset s userId (List.mem_of_mem_head? hm)

theorem stepped_start {request : Request} (h : shared.Sound) (hq : start shared request = some q) :
    Stepped shared [] q := by
  cases request with
  | dispatch event =>
    cases hq
    exact ⟨h, trivial, .of_same rfl rfl, .refl _ _⟩
  | flushDigests userId =>
    cases hq
    exact stepped_flush h (head_pending shared userId) 0
  | digestTimer =>
    rw [start] at hq
    split at hq
    · cases hq
      have hfired : State.Sound { shared with digestTimer := false } :=
        ⟨h.rows, h.users, h.objects, h.made, h.filled, h.digested, h.unsent⟩
      obtain ⟨hsound, hcall, hlater, hbalanced⟩ :=
        stepped_flush hfired (head_pending shared none) 0
      exact ⟨hsound, hcall, ⟨hlater.rows, hlater.digested, hlater.fresh⟩, hbalanced⟩
    · cases hq

/-! ## The timer -/

/-- A flush will come for every entry of the map. -/
def Awaited (s : Concurrent.State State Call) : Prop := ∀ m ∈ s.shared.digests, Expected s m

theorem exists_rest_put {i : Nat} (hp : s.calls[i]? = some p) (h : ∃ p ∈ s.calls, m ∈ p.rest)
    (hkeep : m ∈ p.rest → m ∈ q.2.rest) : ∃ p ∈ (s.put i q).calls, m ∈ p.rest := by
  obtain ⟨hlt, hget⟩ := List.getElem?_eq_some_iff.mp hp
  obtain ⟨r, hr, hm⟩ := h
  obtain ⟨j, hj, rfl⟩ := List.mem_iff_getElem.mp hr
  by_cases hij : i = j
  · subst hij
    rw [hget] at hm
    exact ⟨q.2, List.mem_set hlt _, hkeep hm⟩
  · refine ⟨s.calls[j], List.mem_iff_getElem.mpr ⟨j, ?_, ?_⟩, hm⟩
    · show j < (s.calls.set i q.2).length
      rw [List.length_set]
      exact hj
    · exact List.getElem_set_ne hij _

/-- What is left in the map after a flush has come to its next entry was there before, and if the
flush had taken it, it still has. -/
theorem rest_flush (h : shared.Sound) (hmapped : ∀ m ∈ rest.head?, m ∈ shared.digests)
    (enqueued : Nat) (hm : m ∈ (flush shared enqueued rest).1.digests) :
    m ∈ shared.digests ∧ (m ∈ rest → m ∈ (flush shared enqueued rest).2.rest) := by
  rcases flush_cases h hmapped enqueued with ⟨rfl, hq⟩ | ⟨n, rest', rfl, hn, hq⟩
  · rw [hq] at hm ⊢
    exact ⟨hm, fun hrest => hrest⟩
  · rw [hq] at hm ⊢
    obtain ⟨hold, hne⟩ := List.mem_filter.mp hm
    refine ⟨hold, fun hrest => ?_⟩
    rcases List.mem_cons.mp hrest with rfl | hrest
    · exact absurd rfl (of_decide_eq_true hne)
    · exact hrest

theorem timer_flush (shared : State) (enqueued : Nat) (rest : List (String × Nat)) :
    (flush shared enqueued rest).1.digestTimer = shared.digestTimer := by
  induction rest generalizing shared with
  | nil => rfl
  | cons m rest ih =>
    rw [flush]
    split
    · exact ih _
    · rfl

/-- **A flush stays expected for what is in the map** when a call goes on. -/
theorem awaited_next {i : Nat} (hs : s.shared.Sound) (hclear : Undisturbed s p outcome)
    (hcall : s.calls[i]? = some p) (hq : next s.shared p outcome = some q) (h : Awaited s) :
    Awaited (s.put i q) := by
  intro m hm
  -- a step that does not touch the map or the timer, of a call whose rest stays
  have hkept : q.1.digests = s.shared.digests → q.1.digestTimer = s.shared.digestTimer →
      (m ∈ p.rest → m ∈ q.2.rest) → Expected (s.put i q) m := by
    intro hdigests htimer hkeep
    rcases h m (hdigests ▸ hm) with hset | htaken
    · exact .inl (htimer.trans hset)
    · exact .inr (exists_rest_put hcall htaken hkeep)
  rcases next_cases hq with ⟨event, record, rfl, rfl⟩ |
    ⟨event, routing, inAppRouted, emailReady, outcome', id, now, rfl, hid, rfl⟩ |
    ⟨job, outcome', rfl, rfl | rfl⟩ | ⟨uid, entry, rest, enqueued, job, rfl, hjob, rfl⟩ |
    ⟨job, rest, enqueued, rfl, rfl, rfl⟩ | ⟨rfl, rfl, -⟩
  · exact hkept rfl rfl nofun
  · rcases deliver_cases s.shared event routing inAppRouted emailReady outcome' id now with
      ⟨_, -, hq⟩ | ⟨_, -, hq⟩ | ⟨_, _, -, -, hq⟩
    · rw [hq] at hkept ⊢
      exact hkept rfl rfl nofun
    · -- the row is buffered, so the timer is set
      refine .inl ?_
      rw [hq]
      show (bufferDigest _ _ _ _).digestTimer = true
      rw [bufferDigest]
      split <;> rfl
    · rw [hq] at hkept ⊢
      exact hkept rfl rfl nofun
  · exact hkept rfl rfl nofun
  · exact hkept rfl rfl nofun
  · exact hkept rfl rfl fun hrest => hrest
  · -- the flush comes to its next entry
    obtain ⟨hold, hkeep⟩ := rest_flush (hs.add job) hclear (enqueued + 1) hm
    rcases h m hold with hset | htaken
    · exact .inl ((timer_flush ..).trans hset)
    · exact .inr (exists_rest_put hcall htaken hkeep)
  · refine hkept rfl rfl fun hrest => ?_
    cases p with
    | flushFind | flushEnqueue => exact absurd hclear id
    | findByUserId | create | enqueue | dispatched | flushed | threw => cases hrest

theorem awaited_start {request : Request} (hs : s.shared.Sound)
    (hq : start s.shared request = some q) (h : Awaited s) : Awaited (s.add q) := by
  intro m hm
  have hearlier : (∃ p ∈ s.calls, m ∈ p.rest) → ∃ p ∈ (s.add q).calls, m ∈ p.rest := by
    rintro ⟨p, hp, hrest⟩
    exact ⟨p, List.mem_append_left _ hp, hrest⟩
  cases request with
  | dispatch event =>
    cases hq
    exact (h m hm).imp_right hearlier
  | flushDigests userId =>
    cases hq
    obtain ⟨hold, -⟩ := rest_flush hs (head_pending s.shared userId) 0 hm
    exact (h m hold).imp (timer_flush ..).trans hearlier
  | digestTimer =>
    rw [start] at hq
    split at hq
    · cases hq
      have hfired : State.Sound { s.shared with digestTimer := false } :=
        ⟨hs.rows, hs.users, hs.objects, hs.made, hs.filled, hs.digested, hs.unsent⟩
      obtain ⟨hold, hkeep⟩ := rest_flush hfired (head_pending s.shared none) 0 hm
      exact .inr ⟨_, List.mem_append_right _ (List.mem_singleton_self _), hkeep hold⟩
    · cases hq

/-! ## The run -/

theorem sound_of_reach (h : machine.Reach DigestClear s) :
    s.shared.Sound ∧ ∀ p ∈ s.calls, CallSound s.shared p := by
  refine Concurrent.Reach.sharedInvariant (J := CallSound) ?_ ?_ ?_ ?_ h
  · rintro s rfl
    exact ⟨List.nodup_nil, List.nodup_nil, List.nodup_nil, nofun, nofun, nofun, nofun⟩
  · intro s request q _ hs hq
    obtain ⟨hsound, hcall, hlater, -⟩ := stepped_start hs hq
    exact ⟨hsound, hcall, fun _ _ hp => hp.mono hlater⟩
  · intro s i outcome p q hl hcall hs hp hq
    obtain ⟨hsound, hcall, hlater, -⟩ := stepped_next (hl p hcall) hs hp hq
    exact ⟨hsound, hcall, fun _ _ hp => hp.mono hlater⟩
  · rintro - e
    cases e

theorem conserved_of_reach (h : machine.Reach DigestClear s) : view.Conserved s := by
  refine Reach.conserved ?_ ?_ ?_ ?_ h
  · rintro s rfl
    exact ⟨rfl, rfl⟩
  · intro s request q hreach _ _ hq
    exact (stepped_start (sound_of_reach hreach).1 hq).balanced
  · intro s i outcome p q hreach _ hl hcall hq
    obtain ⟨hs, hp⟩ := sound_of_reach hreach
    exact (stepped_next (hl p hcall) hs (hp p (List.mem_of_getElem? hcall)) hq).balanced
  · rintro - e
    cases e

theorem awaited_of_reach (h : machine.Reach DigestClear s) : Awaited s := by
  refine h.invariant_with (J := fun s => s.shared.Sound) (I := Awaited)
    (fun _ hs => (sound_of_reach hs).1) ?_ ?_
  · rintro s ⟨hs, -⟩ m hm
    rw [hs] at hm
    cases hm
  · intro s l t hs hl hstep hawaited
    rcases Concurrent.step_cases hstep with ⟨request, q, rfl, hq, rfl⟩ |
      ⟨i, outcome, p, q, rfl, hcall, hq, rfl⟩ | ⟨e, -⟩
    · exact awaited_start hs hq hawaited
    · exact awaited_next hs (hl p hcall) hcall hq hawaited
    · cases e

/-- Of the rows that are buffered, calls hold those that a flush has in its hand. -/
theorem count_inHands (hcalls : ∀ p ∈ s.calls, CallSound s.shared p)
    (hid : id ∈ s.shared.digested) :
    (view.inHands s).count id = (s.calls.flatMap Call.flushing).count id := by
  rw [View.inHands, List.count_flatMap, List.count_flatMap]
  refine congrArg List.sum (List.map_congr_left fun p hp => ?_)
  cases p with
  | enqueue job outcome =>
    have hnot : id ∉ job.recordIds := fun hmem => ((hcalls _ hp).2 id hmem).2 hid
    exact List.count_eq_zero.mpr hnot
  | findByUserId | create | dispatched | flushFind | flushEnqueue | flushed | threw => rfl

/-- **Digests lose and double nothing.**  If the flushes do not fail, and none comes to an entry
that is not in the map any more, then a row that `dispatch` reports as digested is in exactly one
job or waits in exactly one place, and if it waits, a flush will enqueue it. -/
theorem digested_once_of_reach (h : machine.Reach DigestClear s) {outcome : DispatchOutcome}
    (hmem : .dispatched outcome ∈ s.calls) (hdigested : outcome.digested = true) :
    ∃ id, outcome.notificationId = some id ∧
      s.shared.sent.count id + (waiting s).count id = 1 ∧
        (id ∈ waiting s → FlushPending s id) := by
  obtain ⟨hs, hcalls⟩ := sound_of_reach h
  obtain ⟨id, hid, hreported⟩ := hcalls _ hmem hdigested
  refine ⟨id, hreported, ?_, ?_⟩
  · have hone := (conserved_of_reach h).eq_one hs.rows (hs.digested id hid)
    have hunsent : s.shared.unsent.count id = 0 :=
      List.count_eq_zero.mpr fun hmem => (hs.unsent id hmem).2 hid
    rw [count_inHands hcalls hid] at hone
    change (s.shared.buffered ++ s.shared.sent ++ s.shared.unsent).count id + _ = 1 at hone
    rw [List.count_append, List.count_append] at hone
    rw [waiting, List.count_append]
    omega
  · intro hwaits
    rcases List.mem_append.mp hwaits with hwaits | hwaits
    · obtain ⟨m, hm, hrow⟩ := List.mem_flatMap.mp hwaits
      exact .inr ⟨m, hm, hrow, awaited_of_reach h m hm⟩
    · exact .inl (List.mem_flatMap.mp hwaits)

/-- Batches claim updates. -/
def batching : NotificationPreferenceRecord where
  renewalRemindersEnabled := none
  claimUpdatesEnabled := none
  routing := some ⟨fun _ => none, fun _ => none, none, none, none, some .batch⟩
  email := some "a@b.c"
  emailVerified := some true

def found : Outcome := .record (some batching) 0

/-- A claim update of the user is dispatched by the call `i`, and its row has the id. -/
def dispatchUpdate (i : Nat) (userId id : String) : List (Concurrent.Label Request Outcome Empty) :=
  [.start (.dispatch ⟨.claim_update, userId⟩), .next i found, .next i (.created id 0)]

/-- The outcome of a dispatch that has buffered the row. -/
def digestedAs (userId id : String) : DispatchOutcome :=
  ⟨userId, .claim_update, some id, [.inApp, .email], [], none, true⟩

/-- Two rows of a user, which a flush enqueues in one job. -/
theorem digested_once_batched :
    ∃ s, machine.Reach DigestClear s ∧ .dispatched (digestedAs "Alice" "1") ∈ s.calls ∧
      s.shared.jobs = [⟨"Alice", .claim_update, ["1", "2"], [.email], 0⟩] ∧
        s.shared.sent.count "1" + (waiting s).count "1" = 1 := by
  obtain ⟨s, h, hcall, hjobs⟩ : ∃ s, machine.Reach DigestClear s ∧
      .dispatched (digestedAs "Alice" "1") ∈ s.calls ∧
        s.shared.jobs = [⟨"Alice", .claim_update, ["1", "2"], [.email], 0⟩] :=
    Machine.exists_reach_of_runAll
      (dispatchUpdate 0 "Alice" "1" ++ dispatchUpdate 1 "Alice" "2" ++
        [.start .digestTimer, .next 2 found, .next 2 .added])
      (s := ⟨.fresh, []⟩) ⟨rfl, rfl⟩ (by decide)
  obtain ⟨id, hid, hone, -⟩ := digested_once_of_reach h hcall rfl
  cases hid
  exact ⟨s, h, hcall, hjobs, hone⟩

/-- Enqueueing the job of a flush fails; the timer's flush comes to an entry that a flush of the
user has taken meanwhile; and a flush that fails leaves the entry of another user without a
flush. -/
theorem digested_lost_or_doubled :
    (∃ s, machine.Reach Machine.always s ∧ .dispatched (digestedAs "Alice" "1") ∈ s.calls ∧
      s.shared.sent.count "1" + (waiting s).count "1" = 0) ∧
    (∃ s, machine.Reach Machine.always s ∧ .dispatched (digestedAs "Bob" "2") ∈ s.calls ∧
      s.shared.sent.count "2" = 2) ∧
    ∃ s, machine.Reach Machine.always s ∧ .dispatched (digestedAs "Bob" "2") ∈ s.calls ∧
      s.shared.sent.count "2" = 0 ∧ ¬ FlushPending s "2" := by
  refine ⟨?_, ?_, ?_⟩
  · exact Machine.exists_reach_of_runAll
      (dispatchUpdate 0 "Alice" "1" ++ [.start .digestTimer, .next 1 found, .next 1 .error])
      (s := ⟨.fresh, []⟩) ⟨rfl, rfl⟩ (by decide)
  · exact Machine.exists_reach_of_runAll
      (dispatchUpdate 0 "Alice" "1" ++ dispatchUpdate 1 "Bob" "2" ++
        [.start .digestTimer, .start (.flushDigests (some "Bob")), .next 3 found, .next 3 .added,
          .next 2 found, .next 2 .added, .next 2 found, .next 2 .added])
      (s := ⟨.fresh, []⟩) ⟨rfl, rfl⟩ (by decide)
  · exact Machine.exists_reach_of_runAll
      (dispatchUpdate 0 "Alice" "1" ++ dispatchUpdate 1 "Bob" "2" ++
        [.start .digestTimer, .next 2 .error])
      (s := ⟨.fresh, []⟩) ⟨rfl, rfl⟩ (by decide)

end NiffyInsure.Backend.Digests
