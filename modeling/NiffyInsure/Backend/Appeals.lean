import NiffyInsure.Lib.CheckThenAct

/-!
# Appeals and their reminders

`buildOpenAppeal` (`appealService.ts`) looks for an appeal of the claim, builds the transaction, and
saves an appeal if it has found none.  `sendWindowReminders` looks for a reminder in the log, sends
it, and then notes it down.  Between the look and the write there are awaits, so other calls come in
between.

The store is an interface (`AppealStore`); `Lawful` is what the service relies on.  What a claim
looks like when it is read, and the time, are up to the surroundings.

* `buildOpenAppeal_once`: no claim gets two appeals, as long as no appeal is looked for while
  another call is about to save one.
* `sendWindowReminders_once`: no reminder is sent twice, as long as none is looked for while another
  call is about to send it or to note it down, and the note does not fail.
-/

namespace NiffyInsure.Backend.Appeals

open CheckThenAct

inductive ClaimStatus where
  | Pending
  | Approved
  | Rejected
  | Paid
  deriving DecidableEq

structure ClaimRecord where
  id : String
  claimant : String
  status : ClaimStatus
  appealWindowOpensAt : Option String
  appealWindowClosesAt : Option String
  deriving DecidableEq

inductive AppealStatus where
  | Open
  | Resolved
  | Expired
  deriving DecidableEq

/-- An appeal.  Times are in milliseconds. -/
structure AppealRecord where
  id : String
  claimId : String
  openedBy : String
  openedAt : Int
  deadline : Int
  resolvedAt : Option Int
  status : AppealStatus
  deriving DecidableEq

inductive ReminderKind where
  | window_open
  | window_closing_24h
  deriving DecidableEq

structure ReminderRecord where
  claimId : String
  kind : ReminderKind
  sentAt : Int
  deriving DecidableEq

/-- What the service uses of `AppealStore` and can change. -/
structure AppealStore (σ : Type) where
  getAppealByClaim : σ → String → Option AppealRecord
  saveAppeal : σ → AppealRecord → σ
  hasReminder : σ → String → ReminderKind → Bool
  saveReminder : σ → ReminderRecord → σ

/-- What was saved is found, and goes on to be found. -/
structure AppealStore.Lawful {σ : Type} (store : AppealStore σ) : Prop where
  getAppealByClaim_saveAppeal : ∀ s appeal,
    (store.getAppealByClaim (store.saveAppeal s appeal) appeal.claimId).isSome
  getAppealByClaim_keeps : ∀ s appeal claimId, (store.getAppealByClaim s claimId).isSome →
    (store.getAppealByClaim (store.saveAppeal s appeal) claimId).isSome
  hasReminder_saveReminder : ∀ s reminder,
    store.hasReminder (store.saveReminder s reminder) reminder.claimId reminder.kind = true
  hasReminder_keeps : ∀ s reminder claimId kind, store.hasReminder s claimId kind = true →
    store.hasReminder (store.saveReminder s reminder) claimId kind = true

/-- The service: its store, `Date.parse` (`none` for `NaN`) and the SLA of an appeal. -/
structure Service (σ : Type) where
  store : AppealStore σ
  parse : String → Option Int
  appealSlaMs : Int

variable {σ : Type} (service : Service σ)

/-! ## Opening an appeal -/

/-- The checks of `checkEligibility` before it looks for an appeal; `some` is the reason why the
caller may not open one.  A comparison with `NaN` is false. -/
def Service.checkClaim (claim : Option ClaimRecord) (caller : String) (now : Int) :
    Option String :=
  match claim with
  | none => some "claim_not_found"
  | some claim =>
    if claim.claimant ≠ caller then some "caller_not_claimant"
    else if claim.status ≠ .Rejected then some "claim_not_rejected"
    else if ∃ opensAt ∈ claim.appealWindowOpensAt.bind service.parse, now < opensAt then
      some "appeal_window_not_open"
    else if ∃ closesAt ∈ claim.appealWindowClosesAt.bind service.parse, closesAt < now then
      some "appeal_window_closed"
    else none

/-- How far a call of `buildOpenAppeal` has come: what it awaits next. -/
inductive OpenCall where
  | getClaim (claimId caller : String)
  | getAppealByClaim (claimId caller : String)
  | buildXdr (claimId caller : String)
  | saveAppeal (appeal : AppealRecord) (xdr : String)
  | returned (xdr appealId : String)
  | threw (reason : String)
  deriving DecidableEq

/-- What the awaited promise comes to. -/
inductive OpenOutcome where
  | claim (claim : Option ClaimRecord) (now : Int)
  | done
  | built (xdr appealId : String) (now : Int)
  | rejected (reason : String)
  deriving DecidableEq

/-- The store, and the appeals that were saved. -/
structure OpenState (σ : Type) where
  store : σ
  saved : List AppealRecord

/-- The next step of `buildOpenAppeal`. -/
def Service.nextOpen (s : OpenState σ) : OpenCall → OpenOutcome → Option (OpenState σ × OpenCall)
  | .getClaim claimId caller, .claim claim now =>
    match service.checkClaim claim caller now with
    | some reason => some (s, .threw reason)
    | none => some (s, .getAppealByClaim claimId caller)
  | .getAppealByClaim claimId caller, .done =>
    match service.store.getAppealByClaim s.store claimId with
    | some _ => some (s, .threw "appeal_already_exists")
    | none => some (s, .buildXdr claimId caller)
  | .buildXdr claimId caller, .built xdr appealId now =>
    some (s, .saveAppeal ⟨appealId, claimId, caller, now, now + service.appealSlaMs,
      none, .Open⟩ xdr)
  | .saveAppeal appeal xdr, .done =>
    some (⟨service.store.saveAppeal s.store appeal, s.saved ++ [appeal]⟩, .returned xdr appeal.id)
  | .getClaim _ _, .rejected reason | .getAppealByClaim _ _, .rejected reason
  | .buildXdr _ _, .rejected reason | .saveAppeal _ _, .rejected reason => some (s, .threw reason)
  | _, _ => none

/-- The calls of `buildOpenAppeal`. -/
def Service.openProgram :
    Concurrent.Program (OpenState σ) OpenCall (String × String) OpenOutcome Empty where
  start s args := some (s, .getClaim args.1 args.2)
  next := service.nextOpen
  around _ e := e.elim

/-- The calls of `buildOpenAppeal`, from any store on. -/
def Service.openMachine := service.openProgram.machine fun s => s.saved = []

/-- A claim is closed when an appeal is found for it; a call has it in hand from when it has found
none until it saves one. -/
def Service.openView : View (OpenState σ) OpenCall String where
  closed s claimId := (service.store.getAppealByClaim s.store claimId).isSome
  log s := s.saved.map (·.claimId)
  inHand
    | .buildXdr claimId _ => some (claimId, false)
    | .saveAppeal appeal _ => some (appeal.claimId, false)
    | _ => none

/-- A call that looks for an appeal finds one, or no other call is about to save one. -/
def Service.OpenUndisturbed (s : Concurrent.State (OpenState σ) OpenCall) : OpenCall → Prop
  | .getAppealByClaim claimId _ =>
    (service.store.getAppealByClaim s.shared.store claimId).isSome ∨ service.openView.Free s claimId
  | _ => True

instance (s : Concurrent.State (OpenState σ) OpenCall) (p : OpenCall) :
    Decidable (service.OpenUndisturbed s p) :=
  match p with
  | .getAppealByClaim claimId _ => inferInstanceAs (Decidable
      ((service.store.getAppealByClaim s.shared.store claimId).isSome = true ∨
        service.openView.Free s claimId))
  | .getClaim _ _ | .buildXdr _ _ | .saveAppeal _ _ | .returned _ _ | .threw _ =>
    inferInstanceAs (Decidable True)

/-- The call that takes the step is undisturbed. -/
def Service.OpenClear (s : Concurrent.State (OpenState σ) OpenCall) :
    Concurrent.Label (String × String) OpenOutcome Empty → Prop
  | .next i _ => ∀ p ∈ s.calls[i]?, service.OpenUndisturbed s p
  | _ => True

instance (s : Concurrent.State (OpenState σ) OpenCall)
    (l : Concurrent.Label (String × String) OpenOutcome Empty) :
    Decidable (service.OpenClear s l) :=
  match l with
  | .next i _ => inferInstanceAs (Decidable (∀ p ∈ s.calls[i]?, service.OpenUndisturbed s p))
  | .start _ | .around _ => inferInstanceAs (Decidable True)

variable {service}

/-- **What a step of `buildOpenAppeal` does** with a claim in hand. -/
theorem move_nextOpen (hstore : service.store.Lawful) {s : Concurrent.State (OpenState σ) OpenCall}
    {p : OpenCall} {outcome : OpenOutcome} {q : OpenState σ × OpenCall}
    (hclear : service.OpenUndisturbed s p) (h : service.nextOpen s.shared p outcome = some q) :
    service.openView.Move s p q ∧ ∀ claimId, service.openView.closed s.shared claimId →
      service.openView.closed q.1 claimId := by
  unfold Service.nextOpen at h
  split at h
  · -- the claim is read
    split at h <;> cases h <;> exact ⟨.stay rfl rfl, fun _ hk => hk⟩
  · -- an appeal is looked for
    rename_i claimId caller
    split at h
    · cases h
      exact ⟨.stay rfl rfl, fun _ hk => hk⟩
    · rename_i hnone
      cases h
      have hopen : ¬ service.openView.closed s.shared claimId := by
        intro hk
        change (service.store.getAppealByClaim s.shared.store claimId).isSome = true at hk
        rw [hnone] at hk
        cases hk
      rcases hclear with hfound | hfree
      · exact absurd hfound hopen
      · exact ⟨.take claimId rfl rfl rfl hopen hfree, fun _ hk => hk⟩
  · cases h
    exact ⟨.stay rfl rfl, fun _ hk => hk⟩
  · -- the appeal is saved
    rename_i appeal xdr
    cases h
    refine ⟨.actAndClose appeal.claimId ?_ rfl rfl (hstore.getAppealByClaim_saveAppeal ..),
      fun claimId hk => hstore.getAppealByClaim_keeps _ _ claimId hk⟩
    show (s.shared.saved ++ [appeal]).map (·.claimId) = _
    rw [List.map_append]
    rfl
  · cases h
    exact ⟨.stay rfl rfl, fun _ hk => hk⟩
  · cases h
    exact ⟨.stay rfl rfl, fun _ hk => hk⟩
  · rename_i claimId caller reason
    cases h
    exact ⟨.release claimId false rfl rfl rfl nofun, fun _ hk => hk⟩
  · rename_i appeal xdr reason
    cases h
    exact ⟨.release appeal.claimId false rfl rfl rfl nofun, fun _ hk => hk⟩
  · cases h

/-- **One appeal per claim.** -/
theorem buildOpenAppeal_once (hstore : service.store.Lawful)
    {s : Concurrent.State (OpenState σ) OpenCall}
    (h : service.openMachine.Reach service.OpenClear s) :
    (s.shared.saved.map (·.claimId)).Nodup := by
  refine (Reach.once (v := service.openView) ?_ ?_ ?_ ?_ h).once
  · intro s hs
    show s.saved.map (·.claimId) = []
    rw [hs]
    rfl
  · intro s args q _ hq
    cases hq
    exact ⟨rfl, rfl, fun _ hk => hk⟩
  · intro s i outcome p q _ hl hp hq
    exact move_nextOpen hstore (hl p hp) hq
  · intro s e
    cases e

/-! ## The reminders -/

def CLOSING_REMINDER_LEAD_MS : Int := 24 * 60 * 60 * 1000

/-- How far a call of `sendWindowReminders` has come, with its claim, its `now`, the reminder that
it is about, and the reminders that it has sent. -/
inductive RemindCall where
  | hasReminder (claim : ClaimRecord) (kind : ReminderKind) (now : Int) (sent : List ReminderRecord)
  | sendReminder (claim : ClaimRecord) (reminder : ReminderRecord) (now : Int)
      (sent : List ReminderRecord)
  | saveReminder (claim : ClaimRecord) (reminder : ReminderRecord) (now : Int)
      (sent : List ReminderRecord)
  | returned (sent : List ReminderRecord)
  | threw (reason : String)
  deriving DecidableEq

/-- What the awaited promise comes to, and the time then. -/
inductive RemindOutcome where
  | done (now : Int)
  | rejected (reason : String)
  deriving DecidableEq

/-- The store, and the reminders that were sent. -/
structure RemindState (σ : Type) where
  store : σ
  sent : List ReminderRecord

variable (service)

/-- The second half of `sendWindowReminders`. -/
def Service.remindClosing (claim : ClaimRecord) (now : Int) (sent : List ReminderRecord) :
    RemindCall :=
  if ∃ closesAt ∈ claim.appealWindowClosesAt.bind service.parse,
      closesAt - CLOSING_REMINDER_LEAD_MS ≤ now ∧ now ≤ closesAt then
    .hasReminder claim .window_closing_24h now sent
  else .returned sent

/-- `sendWindowReminders` up to its first await. -/
def Service.remindOpen (claim : ClaimRecord) (now : Int) : RemindCall :=
  if ∃ opensAt ∈ claim.appealWindowOpensAt.bind service.parse, opensAt ≤ now then
    .hasReminder claim .window_open now []
  else service.remindClosing claim now []

/-- What follows when a kind of reminder is dealt with. -/
def Service.remindAfter (claim : ClaimRecord) (kind : ReminderKind) (now : Int)
    (sent : List ReminderRecord) : RemindCall :=
  match kind with
  | .window_open => service.remindClosing claim now sent
  | .window_closing_24h => .returned sent

/-- The next step of `sendWindowReminders`. -/
def Service.nextRemind (s : RemindState σ) :
    RemindCall → RemindOutcome → Option (RemindState σ × RemindCall)
  | .hasReminder claim kind now sent, .done time =>
    if service.store.hasReminder s.store claim.id kind then
      some (s, service.remindAfter claim kind now sent)
    else some (s, .sendReminder claim ⟨claim.id, kind, time⟩ now sent)
  | .sendReminder claim reminder now sent, .done _ =>
    some ({ s with sent := s.sent ++ [reminder] }, .saveReminder claim reminder now sent)
  | .saveReminder claim reminder now sent, .done _ =>
    some ({ s with store := service.store.saveReminder s.store reminder },
      service.remindAfter claim reminder.kind now (sent ++ [reminder]))
  | .hasReminder _ _ _ _, .rejected reason | .sendReminder _ _ _ _, .rejected reason
  | .saveReminder _ _ _ _, .rejected reason => some (s, .threw reason)
  | _, _ => none

/-- The calls of `sendWindowReminders`, each with a claim and its time. -/
def Service.remindProgram :
    Concurrent.Program (RemindState σ) RemindCall (ClaimRecord × Int) RemindOutcome Empty where
  start s args := some (s, service.remindOpen args.1 args.2)
  next := service.nextRemind
  around _ e := e.elim

/-- The calls of `sendWindowReminders`, from any store on. -/
def Service.remindMachine := service.remindProgram.machine fun s => s.sent = []

/-- A reminder is closed when it is in the log of the store; a call has it in hand from when it has
not found it there until it has noted it down. -/
def Service.remindView : View (RemindState σ) RemindCall (String × ReminderKind) where
  closed s key := service.store.hasReminder s.store key.1 key.2 = true
  log s := s.sent.map fun reminder => (reminder.claimId, reminder.kind)
  inHand
    | .sendReminder _ reminder _ _ => some ((reminder.claimId, reminder.kind), false)
    | .saveReminder _ reminder _ _ => some ((reminder.claimId, reminder.kind), true)
    | _ => none

/-- A call that looks for a reminder finds it in the log, or no other call is about to send it or to
note it down; and the note of a reminder that was sent does not fail. -/
def Service.RemindUndisturbed (s : Concurrent.State (RemindState σ) RemindCall) :
    RemindCall → RemindOutcome → Prop
  | .hasReminder claim kind _ _, _ =>
    service.store.hasReminder s.shared.store claim.id kind = true ∨
      service.remindView.Free s (claim.id, kind)
  | .saveReminder _ _ _ _, .rejected _ => False
  | _, _ => True

instance (s : Concurrent.State (RemindState σ) RemindCall) (p : RemindCall)
    (outcome : RemindOutcome) : Decidable (service.RemindUndisturbed s p outcome) :=
  match p, outcome with
  | .hasReminder claim kind _ _, _ => inferInstanceAs (Decidable
      (service.store.hasReminder s.shared.store claim.id kind = true ∨
        service.remindView.Free s (claim.id, kind)))
  | .saveReminder _ _ _ _, .rejected _ => inferInstanceAs (Decidable False)
  | .saveReminder _ _ _ _, .done _ | .sendReminder _ _ _ _, _ | .returned _, _ | .threw _, _ =>
    inferInstanceAs (Decidable True)

/-- The call that takes the step is undisturbed. -/
def Service.RemindClear (s : Concurrent.State (RemindState σ) RemindCall) :
    Concurrent.Label (ClaimRecord × Int) RemindOutcome Empty → Prop
  | .next i outcome => ∀ p ∈ s.calls[i]?, service.RemindUndisturbed s p outcome
  | _ => True

instance (s : Concurrent.State (RemindState σ) RemindCall)
    (l : Concurrent.Label (ClaimRecord × Int) RemindOutcome Empty) :
    Decidable (service.RemindClear s l) :=
  match l with
  | .next i outcome =>
    inferInstanceAs (Decidable (∀ p ∈ s.calls[i]?, service.RemindUndisturbed s p outcome))
  | .start _ | .around _ => inferInstanceAs (Decidable True)

variable {service}

theorem inHand_remindClosing (claim : ClaimRecord) (now : Int) (sent : List ReminderRecord) :
    service.remindView.inHand (service.remindClosing claim now sent) = none := by
  unfold Service.remindClosing
  split <;> rfl

theorem inHand_remindOpen (claim : ClaimRecord) (now : Int) :
    service.remindView.inHand (service.remindOpen claim now) = none := by
  unfold Service.remindOpen
  split
  · rfl
  · exact inHand_remindClosing ..

theorem inHand_remindAfter (claim : ClaimRecord) (kind : ReminderKind) (now : Int)
    (sent : List ReminderRecord) :
    service.remindView.inHand (service.remindAfter claim kind now sent) = none := by
  cases kind with
  | window_open => exact inHand_remindClosing ..
  | window_closing_24h => rfl

/-- **What a step of `sendWindowReminders` does** with a reminder in hand. -/
theorem move_nextRemind (hstore : service.store.Lawful)
    {s : Concurrent.State (RemindState σ) RemindCall} {p : RemindCall} {outcome : RemindOutcome}
    {q : RemindState σ × RemindCall}
    (hclear : service.RemindUndisturbed s p outcome)
    (h : service.nextRemind s.shared p outcome = some q) :
    service.remindView.Move s p q ∧ ∀ key, service.remindView.closed s.shared key →
      service.remindView.closed q.1 key := by
  unfold Service.nextRemind at h
  split at h
  · -- the reminder is looked for
    rename_i claim kind now sent time
    split at h
    · cases h
      exact ⟨.stay rfl (inHand_remindAfter ..), fun _ hk => hk⟩
    · rename_i hnone
      cases h
      rcases hclear with hfound | hfree
      · exact absurd hfound hnone
      · exact ⟨.take (claim.id, kind) rfl rfl rfl hnone hfree, fun _ hk => hk⟩
  · -- it is sent
    rename_i claim reminder now sent time
    cases h
    refine ⟨.act (reminder.claimId, reminder.kind) ?_ rfl rfl, fun _ hk => hk⟩
    show (s.shared.sent ++ [reminder]).map _ = _
    rw [List.map_append]
    rfl
  · -- it is noted down
    rename_i claim reminder now sent time
    cases h
    exact ⟨.release (reminder.claimId, reminder.kind) true rfl rfl (inHand_remindAfter ..)
      fun _ => hstore.hasReminder_saveReminder .., fun key hk =>
      hstore.hasReminder_keeps _ _ _ _ hk⟩
  · cases h
    exact ⟨.stay rfl rfl, fun _ hk => hk⟩
  · rename_i claim reminder now sent reason
    cases h
    exact ⟨.release (reminder.claimId, reminder.kind) false rfl rfl rfl nofun, fun _ hk => hk⟩
  · exact hclear.elim
  · cases h

/-- **One reminder per claim and kind.** -/
theorem sendWindowReminders_once (hstore : service.store.Lawful)
    {s : Concurrent.State (RemindState σ) RemindCall}
    (h : service.remindMachine.Reach service.RemindClear s) :
    (s.shared.sent.map fun reminder => (reminder.claimId, reminder.kind)).Nodup := by
  refine (Reach.once (v := service.remindView) ?_ ?_ ?_ ?_ h).once
  · intro s hs
    show s.sent.map _ = []
    rw [hs]
    rfl
  · intro s args q _ hq
    cases hq
    exact ⟨inHand_remindOpen .., rfl, fun _ hk => hk⟩
  · intro s i outcome p q _ hl hp hq
    exact move_nextRemind hstore (hl p hp) hq
  · intro s e
    cases e

/-! ## A store -/

/-- A store that keeps the appeals and the reminders in two lists. -/
def listStore : AppealStore (List AppealRecord × List ReminderRecord) where
  getAppealByClaim s claimId := s.1.find? fun appeal => appeal.claimId = claimId
  saveAppeal s appeal := (s.1 ++ [appeal], s.2)
  hasReminder s claimId kind := s.2.any fun reminder =>
    reminder.claimId = claimId ∧ reminder.kind = kind
  saveReminder s reminder := (s.1, s.2 ++ [reminder])

theorem listStore_lawful : listStore.Lawful where
  getAppealByClaim_saveAppeal s appeal := by
    apply List.find?_isSome.mpr
    exact ⟨appeal, List.mem_append_right _ (List.mem_singleton_self _), decide_eq_true rfl⟩
  getAppealByClaim_keeps s appeal claimId h := by
    obtain ⟨found, hmem, hfound⟩ := List.find?_isSome.mp h
    exact List.find?_isSome.mpr ⟨found, List.mem_append_left _ hmem, hfound⟩
  hasReminder_saveReminder s reminder := by
    apply List.any_eq_true.mpr
    exact ⟨reminder, List.mem_append_right _ (List.mem_singleton_self _), decide_eq_true ⟨rfl, rfl⟩⟩
  hasReminder_keeps s reminder claimId kind h := by
    obtain ⟨found, hmem, hfound⟩ := List.any_eq_true.mp h
    exact List.any_eq_true.mpr ⟨found, List.mem_append_left _ hmem, hfound⟩

/-- The service on that store.  The date `"0"` is the start of the epoch, and an appeal has three
days. -/
def listService : Service (List AppealRecord × List ReminderRecord) where
  store := listStore
  parse text := if text = "0" then some 0 else none
  appealSlaMs := 72 * 60 * 60 * 1000

end NiffyInsure.Backend.Appeals
