import NiffyInsure.Backend.Appeals

/-!
# Notifications

`sendClaimNotifications` (`notification.service.ts`) goes through the channels of a claimant.  It
skips a channel that is switched off and a message whose key is in `sentSet`; otherwise it sends the
message, with up to three attempts, and adds the key afterwards.  Each attempt is awaited, so other
calls come in between.

* `sendClaimNotifications_once`: no message is sent twice, as long as no key is looked for while
  another call is about to send the message or to add the key.
* `at_most_once_of_reach`: the same for appeals, reminders and messages.
-/

namespace NiffyInsure.Backend.Notifications

open CheckThenAct

inductive Channel where
  | email
  | discord
  | telegram
  deriving DecidableEq

def Channel.text : Channel → String
  | .email => "email"
  | .discord => "discord"
  | .telegram => "telegram"

/-- What `sendClaimNotifications` uses of a `ClaimFinalizedEvent`; the templates use the rest. -/
structure ClaimFinalizedEvent where
  claimId : String
  claimantPublicKey : String
  deriving DecidableEq

structure UserPreferences where
  claimantPublicKey : String
  emailEnabled : Bool
  email : Option String
  discordEnabled : Bool
  telegramEnabled : Bool
  telegramChatId : Option String
  deriving DecidableEq

inductive Status where
  | sent
  | failed
  | skipped
  deriving DecidableEq

structure NotificationRecord where
  idempotencyKey : String
  channel : Channel
  status : Status
  sentAt : Option Int
  error : Option String
  deriving DecidableEq

structure NotificationResult where
  claimId : String
  records : List NotificationRecord
  deriving DecidableEq

/-- A message, as the claim is about it. -/
structure Message where
  claimantPublicKey : String
  claimId : String
  channel : Channel
  deriving DecidableEq

/-- `idempotencyKey`. -/
def Message.key (m : Message) : String :=
  m.claimantPublicKey ++ ":" ++ m.claimId ++ ":" ++ m.channel.text

/-- `preferencesStore` and `sentSet`, and the messages that were sent successfully. -/
structure State where
  preferences : String → Option UserPreferences
  sentSet : List String
  messages : List Message

/-- `getPreferences`. -/
def State.getPreferences (s : State) (claimantPublicKey : String) : UserPreferences :=
  (s.preferences claimantPublicKey).getD ⟨claimantPublicKey, true, none, false, false, none⟩

/-- A string that counts as true. -/
def truthy (text : Option String) : Bool := text.any (· ≠ "")

/-- The channel is switched on and has somewhere to send to. -/
def UserPreferences.wants (prefs : UserPreferences) (discordWebhook : Option String) :
    Channel → Bool
  | .email => prefs.emailEnabled && truthy prefs.email
  | .discord => prefs.discordEnabled && truthy discordWebhook
  | .telegram => prefs.telegramEnabled && truthy prefs.telegramChatId

/-- What a call knows, and the records it has made so far. -/
structure Job where
  event : ClaimFinalizedEvent
  prefs : UserPreferences
  records : List NotificationRecord
  deriving DecidableEq

def Job.message (job : Job) (channel : Channel) : Message :=
  ⟨job.event.claimantPublicKey, job.event.claimId, channel⟩

def Job.record (job : Job) (channel : Channel) (status : Status) (sentAt : Option Int)
    (error : Option String) : Job :=
  { job with
    records := job.records ++ [⟨(job.message channel).key, channel, status, sentAt, error⟩] }

/-- How far a call has come: it looks whether the message was sent, makes an attempt at sending it,
or adds the key of the message that was sent. -/
inductive Call where
  | check (job : Job) (channel : Channel)
  | send (job : Job) (channel : Channel) (attempt : Nat)
  | add (job : Job) (channel : Channel)
  | returned (result : NotificationResult)
  deriving DecidableEq

/-- What an attempt comes to (for a step without an attempt: that it is taken), and the time. -/
inductive Outcome where
  | done (now : Int)
  | rejected (error : String)
  deriving DecidableEq

/-- The channels come one after the other. -/
def Job.after (job : Job) : Channel → Call
  | .email => .check job .discord
  | .discord => .check job .telegram
  | .telegram => .returned ⟨job.event.claimId, job.records⟩

/-- `withRetry` makes so many attempts. -/
def maxAttempts : Nat := 3

/-- The next step of `sendClaimNotifications`. -/
def next (discordWebhook : Option String) (s : State) : Call → Outcome → Option (State × Call)
  | .check job channel, .done _ =>
    if !job.prefs.wants discordWebhook channel then
      some (s, (job.record channel .skipped none none).after channel)
    else if (job.message channel).key ∈ s.sentSet then
      some (s, (job.record channel .skipped none none).after channel)
    else some (s, .send job channel 0)
  | .send job channel _, .done _ =>
    some ({ s with messages := s.messages ++ [job.message channel] }, .add job channel)
  | .send job channel attempt, .rejected error =>
    if attempt + 1 < maxAttempts then some (s, .send job channel (attempt + 1))
    else some (s, (job.record channel .failed none (some error)).after channel)
  | .add job channel, .done now =>
    some ({ s with sentSet := (job.message channel).key :: s.sentSet },
      (job.record channel .sent (some now) none).after channel)
  | _, _ => none

/-- The calls of `sendClaimNotifications`; the surroundings call `updatePreferences`. -/
def program (discordWebhook : Option String) :
    Concurrent.Program State Call ClaimFinalizedEvent Outcome UserPreferences where
  start s event := some (s, .check ⟨event, s.getPreferences event.claimantPublicKey, []⟩ .email)
  next := next discordWebhook
  around s prefs := some
    { s with preferences := Function.update s.preferences prefs.claimantPublicKey (some prefs) }

/-- The calls of `sendClaimNotifications`, from any preferences and keys on. -/
def machine (discordWebhook : Option String) :=
  (program discordWebhook).machine fun s => s.messages = []

/-- A message is closed when its key is in `sentSet`; a call has it in hand from when it has not
found the key until it has given up or added it. -/
def view : View State Call Message where
  closed s m := m.key ∈ s.sentSet
  log s := s.messages
  inHand
    | .send job channel _ => some (job.message channel, false)
    | .add job channel => some (job.message channel, true)
    | _ => none

/-- A call that looks for a key finds it, or no other call is about to send the message or to add
the key. -/
def Undisturbed (discordWebhook : Option String) (s : Concurrent.State State Call) : Call → Prop
  | .check job channel => job.prefs.wants discordWebhook channel = true →
    (job.message channel).key ∈ s.shared.sentSet ∨ view.Free s (job.message channel)
  | _ => True

instance (discordWebhook : Option String) (s : Concurrent.State State Call) (p : Call) :
    Decidable (Undisturbed discordWebhook s p) :=
  match p with
  | .check job channel => inferInstanceAs
      (Decidable (job.prefs.wants discordWebhook channel = true →
        (job.message channel).key ∈ s.shared.sentSet ∨ view.Free s (job.message channel)))
  | .send _ _ _ | .add _ _ | .returned _ => inferInstanceAs (Decidable True)

/-- The call that takes the step is undisturbed. -/
def NotifyClear (discordWebhook : Option String) (s : Concurrent.State State Call) :
    Concurrent.Label ClaimFinalizedEvent Outcome UserPreferences → Prop
  | .next i _ => ∀ p ∈ s.calls[i]?, Undisturbed discordWebhook s p
  | _ => True

instance (discordWebhook : Option String) (s : Concurrent.State State Call)
    (l : Concurrent.Label ClaimFinalizedEvent Outcome UserPreferences) :
    Decidable (NotifyClear discordWebhook s l) :=
  match l with
  | .next i _ => inferInstanceAs (Decidable (∀ p ∈ s.calls[i]?, Undisturbed discordWebhook s p))
  | .start _ | .around _ => inferInstanceAs (Decidable True)

variable {discordWebhook : Option String} {s : Concurrent.State State Call}

theorem inHand_after (job : Job) (channel : Channel) : view.inHand (job.after channel) = none := by
  cases channel <;> rfl

/-- **What a step of `sendClaimNotifications` does** with a message in hand. -/
theorem move_next {p : Call} {outcome : Outcome} {q : State × Call}
    (hclear : Undisturbed discordWebhook s p)
    (h : next discordWebhook s.shared p outcome = some q) :
    view.Move s p q ∧ ∀ m, view.closed s.shared m → view.closed q.1 m := by
  unfold next at h
  split at h
  · -- the key is looked for
    rename_i job channel now
    split at h
    · cases h
      exact ⟨.stay rfl (inHand_after ..), fun _ hm => hm⟩
    rename_i hwants
    split at h
    · cases h
      exact ⟨.stay rfl (inHand_after ..), fun _ hm => hm⟩
    · rename_i hnew
      cases h
      rw [Bool.not_eq_true', Bool.not_eq_false] at hwants
      rcases hclear hwants with hfound | hfree
      · exact absurd hfound hnew
      · exact ⟨.take (job.message channel) rfl rfl rfl hnew hfree, fun _ hm => hm⟩
  · -- an attempt succeeds
    rename_i job channel attempt now
    cases h
    exact ⟨.act (job.message channel) rfl rfl rfl, fun _ hm => hm⟩
  · -- an attempt fails
    rename_i job channel attempt error
    split at h
    · cases h
      exact ⟨.stay rfl rfl, fun _ hm => hm⟩
    · cases h
      exact ⟨.release (job.message channel) false rfl rfl (inHand_after ..) nofun, fun _ hm => hm⟩
  · -- the key is added
    rename_i job channel now
    cases h
    exact ⟨.release (job.message channel) true rfl rfl (inHand_after ..)
      fun _ => List.mem_cons_self .., fun _ hm => List.mem_cons_of_mem _ hm⟩
  · cases h

/-- **One message per claimant, claim and channel.** -/
theorem sendClaimNotifications_once
    (h : (machine discordWebhook).Reach (NotifyClear discordWebhook) s) :
    s.shared.messages.Nodup := by
  refine (Reach.once (v := view) ?_ ?_ ?_ ?_ h).once
  · intro s hs
    exact hs
  · intro s event q _ hq
    cases hq
    exact ⟨rfl, rfl, fun _ hm => hm⟩
  · intro s i outcome p q _ hl hp hq
    exact move_next (hl p hp) hq
  · intro s prefs shared _ he
    cases he
    exact ⟨rfl, fun _ hm => hm⟩

/-! ## Appeals, reminders and messages -/

/-- **One appeal per claim, one reminder per claim and kind, one message per claimant, claim and
channel**, in every run in which no call looks whether something was done while another call is
about to do it or to note it down. -/
theorem at_most_once_of_reach {σ : Type} (service : Appeals.Service σ)
    (hstore : service.store.Lawful) (discordWebhook : Option String) :
    (∀ s, service.openMachine.Reach service.OpenClear s → ∀ claimId,
        (s.shared.saved.map (·.claimId)).count claimId ≤ 1) ∧
    (∀ s, service.remindMachine.Reach service.RemindClear s → ∀ claimId kind,
        (s.shared.sent.map fun reminder => (reminder.claimId, reminder.kind)).count
          (claimId, kind) ≤ 1) ∧
    ∀ s, (machine discordWebhook).Reach (NotifyClear discordWebhook) s → ∀ m,
      s.shared.messages.count m ≤ 1 := by
  refine ⟨?_, ?_, ?_⟩
  · intro s h claimId
    exact List.nodup_iff_count_le_one.mp (Appeals.buildOpenAppeal_once hstore h) claimId
  · intro s h claimId kind
    exact List.nodup_iff_count_le_one.mp (Appeals.sendWindowReminders_once hstore h) (claimId, kind)
  · intro s h m
    exact List.nodup_iff_count_le_one.mp (sendClaimNotifications_once h) m

/-- The call `i` takes steps with these outcomes. -/
def steps {A O E : Type} (i : Nat) (outcomes : List O) : List (Concurrent.Label A O E) :=
  outcomes.map (.next i)

/-- A rejected claim of Alice, whose appeal window opens at the start of the epoch. -/
def rejectedClaim : Appeals.ClaimRecord := ⟨"7", "Alice", .Rejected, some "0", none⟩

/-- A claimant who has switched on e-mail. -/
def withEmail : UserPreferences := ⟨"Alice", true, some "alice@example", false, false, none⟩

theorem at_most_once_one_by_one :
    (∃ s, Appeals.listService.openMachine.Reach Appeals.listService.OpenClear s ∧
      s.calls[1]? = some (.threw "appeal_already_exists") ∧
        (s.shared.saved.map (·.claimId)).count "7" ≤ 1) ∧
    (∃ s, Appeals.listService.remindMachine.Reach Appeals.listService.RemindClear s ∧
      s.calls[1]? = some (.returned []) ∧
        (s.shared.sent.map fun reminder => (reminder.claimId, reminder.kind)).count
          ("7", .window_open) ≤ 1) ∧
    ∃ s, (machine none).Reach (NotifyClear none) s ∧ s.shared.messages = [⟨"Alice", "7", .email⟩] ∧
      s.shared.messages.count ⟨"Alice", "7", .email⟩ ≤ 1 := by
  obtain ⟨hopen, hremind, hnotify⟩ :=
    at_most_once_of_reach Appeals.listService Appeals.listStore_lawful none
  refine ⟨?_, ?_, ?_⟩
  · obtain ⟨s, h, hthrew⟩ : ∃ s, Appeals.listService.openMachine.Reach
        Appeals.listService.OpenClear s ∧ s.calls[1]? = some (.threw "appeal_already_exists") :=
      Machine.exists_reach_of_runAll
        (.start ("7", "Alice") :: .start ("7", "Alice") ::
          steps 0 [.claim (some rejectedClaim) 5, .done, .built "xdr" "a" 6, .done] ++
          steps 1 [.claim (some rejectedClaim) 7, .done])
        (s := ⟨⟨([], []), []⟩, []⟩) ⟨rfl, rfl⟩ (by decide)
    exact ⟨s, h, hthrew, hopen s h "7"⟩
  · obtain ⟨s, h, hreturned⟩ : ∃ s, Appeals.listService.remindMachine.Reach
        Appeals.listService.RemindClear s ∧ s.calls[1]? = some (.returned []) :=
      Machine.exists_reach_of_runAll
        (.start (rejectedClaim, 5) :: .start (rejectedClaim, 5) ::
          steps 0 [.done 5, .done 6, .done 7] ++ steps 1 [.done 8])
        (s := ⟨⟨([], []), []⟩, []⟩) ⟨rfl, rfl⟩ (by decide)
    exact ⟨s, h, hreturned, hremind s h "7" .window_open⟩
  · obtain ⟨s, h, hmessages⟩ : ∃ s, (machine none).Reach (NotifyClear none) s ∧
        s.shared.messages = [⟨"Alice", "7", .email⟩] :=
      Machine.exists_reach_of_runAll
        (.around withEmail :: .start ⟨"7", "Alice"⟩ :: .start ⟨"7", "Alice"⟩ ::
          steps 0 [.done 1, .rejected "timeout", .done 2, .done 3] ++ steps 1 [.done 4, .done 5])
        (s := ⟨⟨fun _ => none, [], []⟩, []⟩) ⟨rfl, rfl⟩ (by decide)
    exact ⟨s, h, hmessages, hnotify s h _⟩

/-- Two calls of each kind look before either of them has done what it is about. -/
theorem done_twice :
    (∃ s, Appeals.listService.openMachine.Reach Machine.always s ∧
      (s.shared.saved.map (·.claimId)).count "7" = 2) ∧
    (∃ s, Appeals.listService.remindMachine.Reach Machine.always s ∧
      (s.shared.sent.map fun reminder => (reminder.claimId, reminder.kind)).count
        ("7", .window_open) = 2) ∧
    ∃ s, (machine none).Reach Machine.always s ∧
      s.shared.messages.count ⟨"Alice", "7", .email⟩ = 2 := by
  refine ⟨?_, ?_, ?_⟩
  · exact Machine.exists_reach_of_runAll
      [.start ("7", "Alice"), .start ("7", "Alice"), .next 0 (.claim (some rejectedClaim) 5),
        .next 0 .done, .next 1 (.claim (some rejectedClaim) 5), .next 1 .done,
        .next 0 (.built "xdr" "a" 6), .next 0 .done, .next 1 (.built "xdr" "b" 6), .next 1 .done]
      (s := ⟨⟨([], []), []⟩, []⟩) ⟨rfl, rfl⟩ (by decide)
  · exact Machine.exists_reach_of_runAll
      (.start (rejectedClaim, 5) :: .start (rejectedClaim, 5) ::
        steps 0 [.done 5] ++ steps 1 [.done 5] ++ steps 0 [.done 6] ++ steps 1 [.done 6])
      (s := ⟨⟨([], []), []⟩, []⟩) ⟨rfl, rfl⟩ (by decide)
  · exact Machine.exists_reach_of_runAll
      (.around withEmail :: .start ⟨"7", "Alice"⟩ :: .start ⟨"7", "Alice"⟩ ::
        steps 0 [.done 1] ++ steps 1 [.done 1] ++ steps 0 [.done 2] ++ steps 1 [.done 2])
      (s := ⟨⟨fun _ => none, [], []⟩, []⟩) ⟨rfl, rfl⟩ (by decide)

end NiffyInsure.Backend.Notifications
