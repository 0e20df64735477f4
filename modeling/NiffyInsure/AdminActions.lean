import NiffyInsure.Frame.Calls
import NiffyInsure.Trace

/-!
# Proposed admin actions

A treasury rotation or a sweep may be proposed by the admin and executed by the confirmation of
another address.  `ActionLog` notes down the proposals and the executions of a run; the machine
`audited` is the contract with this log.

* `pendingAction_of_step`: what a step can do to the pending action.
* `two_person_rule_of_reach`: when the confirming address is the admin, every execution is by
  the admin, not by its proposer and not after the expiry, and no proposal is executed twice.
* `sweep_noticed_of_reach`: while a notice period is set, a sweep that names what the pending
  proposal names was proposed that long before.
-/

namespace NiffyInsure

open Machine

/-! ## The log -/

/-- A proposal: its number in the run, its ledger and what it proposes. -/
structure Proposed where
  serial : Nat
  ledger : Nat
  action : AdminAction
  deriving DecidableEq

/-- An execution of a proposal, with the admin and the ledger of that moment. -/
structure Execution where
  serial : Nat
  proposer : Address
  confirmer : Address
  admin : Option Address
  ledger : Nat
  expiry : Nat
  deriving DecidableEq

/-- The proposals of a run so far: their number, the last one, and the executions. -/
structure ActionLog where
  issued : Nat
  last : Option Proposed
  executed : List Execution
  deriving DecidableEq

/-- Nothing was proposed. -/
def ActionLog.empty : ActionLog := ⟨0, none, []⟩

/-- Note down a step from `s`. -/
def ActionLog.note (s : State) : Label → ActionLog → ActionLog
  | .call _ (.treasury (.proposeAdminAction action)), log =>
    { log with issued := log.issued + 1, last := some ⟨log.issued, s.sequence, action⟩ }
  | .call _ (.treasury (.confirmAdminAction confirmer)), log =>
    match s.get .pendingAdminAction, log.last with
    | some pending, some last => { log with executed := log.executed ++ [⟨last.serial,
        pending.proposer, confirmer, s.get .admin, s.sequence, pending.expiryLedger⟩] }
    | _, _ => log
  | _, log => log

/-- The contract with its log of admin actions. -/
def audited (host : Host) : Machine (State × ActionLog) Label :=
  (contract host).withHistory .empty ActionLog.note

/-! ## The pending action -/

section Pending

variable {env : Env} {s s' : State}

theorem pending_checkAndClear (s : State) :
    s.checkAndClearExpiredAdminAction.get .pendingAdminAction = s.get .pendingAdminAction ∨
      s.checkAndClearExpiredAdminAction.get .pendingAdminAction = none := by
  unfold State.checkAndClearExpiredAdminAction
  split
  · exact Or.inl rfl
  · split
    · right
      rw [State.get_emit, State.get_remove_self]
    · exact Or.inl rfl

theorem window_checkAndClear (s : State) :
    s.checkAndClearExpiredAdminAction.getAdminActionWindowLedgers =
      s.getAdminActionWindowLedgers := by
  simp only [State.getAdminActionWindowLedgers]
  rw [(frame_checkAndClearExpiredAdminAction s).get .adminActionWindowLedgers rfl]

theorem proposeAdminAction_eq_ok {action : AdminAction}
    (h : proposeAdminAction env s action = .ok s') :
    ∃ proposer, s.get .admin = some proposer ∧ s'.get .pendingAdminAction = some ⟨proposer, action,
      saturatingAdd32 s.sequence s.getAdminActionWindowLedgers⟩ := by
  simp only [proposeAdminAction, requireAdmin, bind_eq_ok, okOr_eq_ok, pure_eq_ok] at h
  obtain ⟨proposer, ⟨admin, hadmin, -, -, rfl⟩, -, -, rfl⟩ := h
  refine ⟨admin, hadmin, ?_⟩
  rw [State.get_emit, State.get_set_self, window_checkAndClear]

theorem confirmAdminAction_eq_ok {confirmer : Address}
    (h : confirmAdminAction env s confirmer = .ok s') :
    ∃ pending s₁, s.get .pendingAdminAction = some pending ∧ s.sequence ≤ pending.expiryLedger ∧
      confirmer ≠ pending.proposer ∧ s.executeAdminAction env pending.action = .ok s₁ ∧
      s'.get .pendingAdminAction = none := by
  simp only [confirmAdminAction, bind_eq_ok, okOr_eq_ok, ensure_eq_ok, pure_eq_ok] at h
  obtain ⟨-, -, pending, hpending, -, hexpiry, -, hother, s₁, h₁, rfl⟩ := h
  refine ⟨pending, s₁, hpending, hexpiry, hother, h₁, ?_⟩
  rw [State.get_emit, State.get_remove_self]

/-- **A step keeps or drops the pending action**, unless it is a proposal. -/
theorem pendingAction_of_step {host : Host} {l : Label} (hstep : (contract host).step s l s')
    (hl : ∀ env action, l ≠ .call env (.treasury (.proposeAdminAction action))) :
    s'.get .pendingAdminAction = s.get .pendingAdminAction ∨ s'.get .pendingAdminAction = none := by
  cases l with
  | closeLedger n =>
    obtain ⟨-, -, rfl⟩ := hstep
    exact Or.inl rfl
  | tokens b a =>
    obtain ⟨-, rfl⟩ := hstep
    exact Or.inl rfl
  | call env c =>
    obtain ⟨-, h⟩ := hstep
    have hf := frame_exec h
    cases c with
    | claim c => exact Or.inl (hf.get .pendingAdminAction (c.untouched rfl))
    | policy c => exact Or.inl (hf.get .pendingAdminAction (c.untouched rfl))
    | governance c => exact Or.inl (hf.get .pendingAdminAction (c.untouched rfl))
    | treasury c =>
      cases c with
      | proposeAdminAction action => exact absurd rfl (hl env action)
      | confirmAdminAction confirmer =>
        obtain ⟨-, -, -, -, -, -, hnone⟩ := confirmAdminAction_eq_ok h
        exact Or.inr hnone
      | cancelAdminAction =>
        simp only [Call.exec, TreasuryCall.exec, cancelAdminAction, bind_eq_ok, pure_eq_ok] at h
        obtain ⟨-, -, -, -, -, -, rfl⟩ := h
        exact Or.inr (State.get_remove_self _)
      | _ => exact Or.inl (hf.get .pendingAdminAction rfl)
    | setting c =>
      have hset := frame_settingOf (c := c) h
      cases c with
      | proposeAdmin newAdmin =>
        simp only [Call.exec, Setting.exec, proposeAdmin, bind_eq_ok, pure_eq_ok] at h
        obtain ⟨-, -, -, -, rfl⟩ := h
        rw [State.get_set_of_ne _ _ (by simp), State.get_set_of_ne _ _ (by simp)]
        exact pending_checkAndClear s
      | _ => exact Or.inl (hset.get .pendingAdminAction rfl)

end Pending

/-! ## The two-person rule -/

/-- `confirm_admin_action` is called by the current admin. -/
def ConfirmedByAdmin (s : State) : Label → Prop
  | .call _ (.treasury (.confirmAdminAction confirmer)) => s.get .admin = some confirmer
  | _ => True

/-- The execution is by the admin of that moment, not by its proposer and not after the expiry. -/
def Execution.ByTwo (e : Execution) : Prop :=
  e.admin = some e.confirmer ∧ e.confirmer ≠ e.proposer ∧ e.ledger ≤ e.expiry

/-- The log tells the pending action from the executed ones. -/
structure ActionLog.Tracks (s : State) (log : ActionLog) : Prop where
  pending : ∀ a, s.get .pendingAdminAction = some a → ∃ last, log.last = some last ∧
    last.action = a.action ∧ last.serial < log.issued ∧ ∀ e ∈ log.executed, e.serial ≠ last.serial
  issued : ∀ e ∈ log.executed, e.serial < log.issued
  nodup : (log.executed.map Execution.serial).Nodup

section Rule

variable {host : Host} {s s' : State} {log : ActionLog}

theorem note_of_other {l : Label}
    (hp : ∀ env action, l ≠ .call env (.treasury (.proposeAdminAction action)))
    (hc : ∀ env confirmer, l ≠ .call env (.treasury (.confirmAdminAction confirmer))) :
    ActionLog.note s l log = log := by
  unfold ActionLog.note
  split
  · exact absurd rfl (hp _ _)
  · exact absurd rfl (hc _ _)
  · rfl

theorem tracks_of_kept {log : ActionLog}
    (hpending : s'.get .pendingAdminAction = s.get .pendingAdminAction ∨
      s'.get .pendingAdminAction = none) (hs : log.Tracks s) : log.Tracks s' := by
  refine ⟨fun a ha => ?_, hs.issued, hs.nodup⟩
  rcases hpending with hsame | hnone
  · exact hs.pending a (hsame ▸ ha)
  · rw [hnone] at ha
    cases ha

theorem note_confirm {env : Env} {confirmer : Address} {pending : PendingAdminAction}
    {last : Proposed} (hpending : s.get .pendingAdminAction = some pending)
    (hlast : log.last = some last) :
    ActionLog.note s (.call env (.treasury (.confirmAdminAction confirmer))) log =
      { log with executed := log.executed ++ [⟨last.serial, pending.proposer, confirmer,
        s.get .admin, s.sequence, pending.expiryLedger⟩] } := by
  simp only [ActionLog.note, hpending, hlast]

theorem tracks_of_propose {env : Env} {action : AdminAction}
    (h : proposeAdminAction env s action = .ok s') (hs : log.Tracks s) :
    (ActionLog.note s (.call env (.treasury (.proposeAdminAction action))) log).Tracks s' := by
  obtain ⟨proposer, -, hpending⟩ := proposeAdminAction_eq_ok h
  refine ⟨fun a ha => ?_, fun e he => ?_, hs.nodup⟩
  · rw [hpending, Option.some.injEq] at ha
    refine ⟨⟨log.issued, s.sequence, action⟩, rfl, by rw [← ha], Nat.lt_succ_self _, fun e he => ?_⟩
    exact (hs.issued e he).ne
  · exact Nat.lt_succ_of_lt (hs.issued e he)

theorem tracks_of_confirm {env : Env} {confirmer : Address}
    (h : confirmAdminAction env s confirmer = .ok s') (hs : log.Tracks s) :
    (ActionLog.note s (.call env (.treasury (.confirmAdminAction confirmer))) log).Tracks s' := by
  obtain ⟨pending, -, hpending, -, -, -, hnone⟩ := confirmAdminAction_eq_ok h
  obtain ⟨last, hlast, -, hlt, hfresh⟩ := hs.pending pending hpending
  rw [note_confirm hpending hlast]
  refine ⟨fun a ha => ?_, fun e he => ?_, ?_⟩
  · rw [hnone] at ha
    cases ha
  · rcases List.mem_append.mp he with he | he
    · exact hs.issued e he
    · rw [List.mem_singleton.mp he]
      exact hlt
  · rw [List.map_append, List.map_singleton, ← List.concat_eq_append]
    refine List.Nodup.concat ?_ hs.nodup
    intro hmem
    obtain ⟨e, he, heq⟩ := List.mem_map.mp hmem
    exact hfresh e he heq

theorem tracks_of_step {l : Label} (hstep : (contract host).step s l s') (hs : log.Tracks s) :
    (ActionLog.note s l log).Tracks s' := by
  by_cases hp : ∃ env action, l = .call env (.treasury (.proposeAdminAction action))
  · obtain ⟨env, action, rfl⟩ := hp
    exact tracks_of_propose hstep.2 hs
  · by_cases hc : ∃ env confirmer, l = .call env (.treasury (.confirmAdminAction confirmer))
    · obtain ⟨env, confirmer, rfl⟩ := hc
      exact tracks_of_confirm hstep.2 hs
    · have hp' := fun env action heq => hp ⟨env, action, heq⟩
      rw [note_of_other hp' fun env confirmer heq => hc ⟨env, confirmer, heq⟩]
      exact tracks_of_kept (pendingAction_of_step hstep hp') hs

theorem tracks_of_reach {ok : State × ActionLog → Label → Prop} {p : State × ActionLog}
    (h : (audited host).Reach ok p) : p.2.Tracks p.1 := by
  refine h.invariant (I := fun p => p.2.Tracks p.1) ?_ ?_
  · rintro ⟨s, log⟩ ⟨hs, rfl⟩
    refine ⟨fun a ha => ?_, by simp [ActionLog.empty], by simp [ActionLog.empty]⟩
    rw [State.Fresh.get host hs] at ha
    cases ha
  · rintro ⟨s, log⟩ l ⟨s', log'⟩ - ⟨hstep, rfl⟩ hs
    exact tracks_of_step hstep hs

theorem byTwo_of_step {l : Label} (hok : ConfirmedByAdmin s l)
    (hstep : (contract host).step s l s') (htracks : log.Tracks s)
    (hs : ∀ e ∈ log.executed, e.ByTwo) : ∀ e ∈ (ActionLog.note s l log).executed, e.ByTwo := by
  by_cases hc : ∃ env confirmer, l = .call env (.treasury (.confirmAdminAction confirmer))
  · obtain ⟨env, confirmer, rfl⟩ := hc
    obtain ⟨pending, -, hpending, hexpiry, hother, -, -⟩ := confirmAdminAction_eq_ok hstep.2
    obtain ⟨last, hlast, -⟩ := htracks.pending pending hpending
    rw [note_confirm hpending hlast]
    intro e he
    rcases List.mem_append.mp he with he | he
    · exact hs e he
    · rw [List.mem_singleton.mp he]
      exact ⟨hok, hother, hexpiry⟩
  · have hsame : (ActionLog.note s l log).executed = log.executed := by
      unfold ActionLog.note
      split
      · rfl
      · exact absurd ⟨_, _, rfl⟩ hc
      · rfl
    rw [hsame]
    exact hs

/-- **The two-person rule.**  In every run in which the confirming address is the current admin,
every proposal that was executed was confirmed by the admin of that moment, who had not proposed
it, by its expiry ledger; no proposal is executed twice, and every confirmation is in the log. -/
theorem two_person_rule_of_reach {p : State × ActionLog}
    (h : (audited host).Reach (fun p l => ConfirmedByAdmin p.1 l) p) :
    (∀ e ∈ p.2.executed, e.ByTwo) ∧ (p.2.executed.map Execution.serial).Nodup ∧
      ∀ env confirmer s', (contract host).step p.1
        (.call env (.treasury (.confirmAdminAction confirmer))) s' →
        (ActionLog.note p.1 (.call env (.treasury (.confirmAdminAction confirmer)))
          p.2).executed.length = p.2.executed.length + 1 := by
  have htracks := tracks_of_reach h
  refine ⟨?_, htracks.nodup, fun env confirmer s' hstep => ?_⟩
  · refine h.invariant_with (I := fun p => ∀ e ∈ p.2.executed, e.ByTwo)
      (J := fun p => p.2.Tracks p.1) (fun _ => tracks_of_reach) ?_ ?_
    · rintro ⟨s, log⟩ ⟨-, rfl⟩
      simp [ActionLog.empty]
    · rintro ⟨s, log⟩ l ⟨s', log'⟩ htracks hok ⟨hstep, rfl⟩ hs
      exact byTwo_of_step hok hstep htracks hs
  · obtain ⟨pending, -, hpending, -⟩ := confirmAdminAction_eq_ok hstep.2
    obtain ⟨last, hlast, -⟩ := htracks.pending pending hpending
    rw [note_confirm hpending hlast, List.length_append, List.length_singleton]

end Rule

/-- A call on the treasury in the deployment. -/
def demoTreasury (c : TreasuryCall) : Label := demoCall (.treasury c)

/-- The admin proposes a treasury, and hands its role over to account 8. -/
def demoHandOver : List Label :=
  [demoInit, demoTreasury (.proposeAdminAction (.treasuryRotation 7)),
    demoCall (.setting (.proposeAdmin 8)), demoCall (.setting .acceptAdmin)]

/-- The check of a run in which the admin confirms. -/
def checkConfirmedByAdmin (s : State) : Label → Bool
  | .call _ (.treasury (.confirmAdminAction confirmer)) => decide (s.get .admin = some confirmer)
  | _ => true

theorem confirmedByAdmin_of_check (s : State) (l : Label)
    (h : checkConfirmedByAdmin s l = true) : ConfirmedByAdmin s l := by
  unfold checkConfirmedByAdmin at h
  unfold ConfirmedByAdmin
  split at h
  · simpa using h
  · trivial

/-- The next admin confirms what the last one proposed. -/
theorem two_person_rule_handed_over :
    ∃ p, (audited demoHost).Reach (fun p l => ConfirmedByAdmin p.1 l) p ∧
      p.2.executed = [⟨0, 9, 8, some 8, 1000, 1100⟩] ∧ ∀ e ∈ p.2.executed, e.ByTwo := by
  obtain ⟨p, hreach, hval⟩ := exists_of_followWith ActionLog.note .empty
    confirmedByAdmin_of_check (deployed 0)
    (demoHandOver ++ [demoTreasury (.confirmAdminAction 8)])
    (f := fun p => p.2.executed) (a := [⟨0, 9, 8, some 8, 1000, 1100⟩])
    (fresh_deployed (by decide)) (by simp [demoHandOver, demoInit, demoTreasury])
    (by decide +kernel)
  exact ⟨p, hreach, hval, (two_person_rule_of_reach hreach).1⟩

/-- **Anyone may confirm.**  Account 1, which holds no role, confirms the admin's proposal, and it
is executed. -/
theorem executed_without_admin :
    ∃ p, (audited demoHost).Reach (fun p l => always p.1 l) p ∧
      p.2.executed = [⟨0, 9, 1, some 9, 1000, 1100⟩] ∧ ∃ e ∈ p.2.executed, ¬ e.ByTwo := by
  obtain ⟨p, hreach, hval⟩ := exists_of_followWith ActionLog.note .empty
    always_of_noCheck (deployed 0)
    [demoInit, demoTreasury (.proposeAdminAction (.treasuryRotation 7)),
      demoTreasury (.confirmAdminAction 1)]
    (f := fun p => p.2.executed) (a := [⟨0, 9, 1, some 9, 1000, 1100⟩])
    (fresh_deployed (by decide)) (by simp [demoInit, demoTreasury]) (by decide +kernel)
  refine ⟨p, hreach, hval, ⟨0, 9, 1, some 9, 1000, 1100⟩, by rw [hval]; simp, ?_⟩
  rintro ⟨hadmin, -⟩
  cases hadmin

/-! ## The notice period of sweeps -/

/-- What a sweep takes; `admin_sweep` gives no reason. -/
structure Sweep where
  asset : Address
  recipient : Address
  amount : Int
  reasonCode : Option Nat
  deriving DecidableEq

/-- The proposal of the sweep. -/
def Sweep.action (w : Sweep) : Option AdminAction :=
  w.reasonCode.map (.tokenSweep w.asset w.recipient w.amount)

/-- The sweep that the step from `s` is. -/
def State.sweepBy (s : State) : Label → Option Sweep
  | .call _ (.treasury (.sweepToken asset recipient amount reasonCode)) =>
    some ⟨asset, recipient, amount, some reasonCode⟩
  | .call _ (.treasury (.adminSweep asset recipient amount)) =>
    some ⟨asset, recipient, amount, none⟩
  | .call _ (.treasury (.confirmAdminAction _)) =>
    match s.get .pendingAdminAction with
    | some ⟨_, .tokenSweep asset recipient amount reasonCode, _⟩ =>
      some ⟨asset, recipient, amount, some reasonCode⟩
    | _ => none
  | _ => none

/-- While a notice period is set, `sweep_token` names what the pending action names, there is no
`admin_sweep`, and the ledger number stays below its end. -/
def SweepsAsProposed (s : State) : Label → Prop
  | .call _ (.treasury (.proposeAdminAction _)) =>
    s.sequence + s.getAdminActionWindowLedgers ≤ U32_MAX
  | .call _ (.treasury (.sweepToken asset recipient amount reasonCode)) =>
    0 < s.getSweepNoticePeriodLedgers → s.sequence < U32_MAX ∧
      ∃ a, s.get .pendingAdminAction = some a ∧
        a.action = .tokenSweep asset recipient amount reasonCode
  | .call _ (.treasury (.adminSweep ..)) => s.getSweepNoticePeriodLedgers = 0
  | .call _ (.treasury (.confirmAdminAction _)) =>
    0 < s.getSweepNoticePeriodLedgers → s.sequence < U32_MAX
  | _ => True

/-- The expiry of the pending action tells when it was proposed. -/
def ActionLog.Dated (s : State) (log : ActionLog) : Prop :=
  ∀ a, s.get .pendingAdminAction = some a → ∃ last, log.last = some last ∧
    last.action = a.action ∧ a.expiryLedger = last.ledger + s.getAdminActionWindowLedgers

section Notice

variable {host : Host} {env : Env} {s s' : State} {log : ActionLog}

theorem window_of_step {l : Label} (hstep : (contract host).step s l s') :
    s'.getAdminActionWindowLedgers = s.getAdminActionWindowLedgers := by
  simp only [State.getAdminActionWindowLedgers]
  cases l with
  | closeLedger n =>
    obtain ⟨-, -, rfl⟩ := hstep
    rfl
  | tokens b a =>
    obtain ⟨-, rfl⟩ := hstep
    rfl
  | call env c =>
    rw [(frame_exec hstep.2).get .adminActionWindowLedgers]
    cases c with
    | claim c => cases c <;> rfl
    | policy c => cases c <;> rfl
    | treasury c => cases c <;> rfl
    | setting c => rfl
    | governance c => cases c <;> rfl

theorem dated_of_step {l : Label} (hok : SweepsAsProposed s l)
    (hstep : (contract host).step s l s') (hs : log.Dated s) :
    (ActionLog.note s l log).Dated s' := by
  intro a ha
  rw [window_of_step hstep]
  by_cases hp : ∃ env action, l = .call env (.treasury (.proposeAdminAction action))
  · obtain ⟨env, action, rfl⟩ := hp
    obtain ⟨proposer, -, hpending⟩ := proposeAdminAction_eq_ok hstep.2
    rw [hpending, Option.some.injEq] at ha
    refine ⟨⟨log.issued, s.sequence, action⟩, rfl, by rw [← ha], ?_⟩
    rw [← ha]
    exact Nat.min_eq_left hok
  · have hkept := pendingAction_of_step hstep fun env action heq => hp ⟨env, action, heq⟩
    have hlast : (ActionLog.note s l log).last = log.last := by
      unfold ActionLog.note
      split
      · exact absurd ⟨_, _, rfl⟩ hp
      · split <;> rfl
      · rfl
    rw [hlast]
    rcases hkept with hsame | hnone
    · exact hs a (hsame ▸ ha)
    · rw [hnone] at ha
      cases ha

theorem dated_of_reach {p : State × ActionLog}
    (h : (audited host).Reach (fun p l => SweepsAsProposed p.1 l) p) : p.2.Dated p.1 := by
  refine h.invariant (I := fun p => p.2.Dated p.1) ?_ ?_
  · rintro ⟨s, log⟩ ⟨hs, rfl⟩ a ha
    rw [State.Fresh.get host hs] at ha
    cases ha
  · rintro ⟨s, log⟩ l ⟨s', log'⟩ hok ⟨hstep, rfl⟩ hs
    exact dated_of_step hok hstep hs

theorem notice_of_sweepTokenInner {asset recipient : Address} {amount : Int} {reasonCode : Nat}
    (h : sweepTokenInner env s asset recipient amount reasonCode = .ok s')
    (hpos : 0 < s.getSweepNoticePeriodLedgers) :
    ∃ a, s.get .pendingAdminAction = some a ∧ saturatingAdd32
      (a.expiryLedger - s.getAdminActionWindowLedgers) s.getSweepNoticePeriodLedgers ≤
        s.sequence := by
  simp only [sweepTokenInner, bind_eq_ok] at h
  obtain ⟨-, -, -, -, s₁, h₁, -, -, u, hnotice, -⟩ := h
  have hf := frame_checkSweepLimit h₁
  have hsame : s₁.getSweepNoticePeriodLedgers = s.getSweepNoticePeriodLedgers := by
    simp only [State.getSweepNoticePeriodLedgers, hf.get .sweepNoticePeriodLedgers rfl]
  have hwindow : s₁.getAdminActionWindowLedgers = s.getAdminActionWindowLedgers := by
    simp only [State.getAdminActionWindowLedgers, hf.get .adminActionWindowLedgers rfl]
  unfold State.checkSweepNotice at hnotice
  dsimp only at hnotice
  rw [if_neg (by omega)] at hnotice
  simp only [bind_eq_ok, okOr_eq_ok, ensure_eq_ok] at hnotice
  obtain ⟨a, ha, hage⟩ := hnotice
  rw [hf.get .pendingAdminAction rfl] at ha
  rw [hsame, hwindow, hf.sequence] at hage
  exact ⟨a, ha, hage⟩

theorem age_of_notice {a : PendingAdminAction} {n : Nat} (hdated : log.Dated s)
    (ha : s.get .pendingAdminAction = some a) (hend : s.sequence < U32_MAX)
    (hage : saturatingAdd32 (a.expiryLedger - s.getAdminActionWindowLedgers) n ≤ s.sequence) :
    ∃ last, log.last = some last ∧ last.action = a.action ∧ last.ledger + n ≤ s.sequence := by
  obtain ⟨last, hlast, haction, hexpiry⟩ := hdated a ha
  refine ⟨last, hlast, haction, ?_⟩
  rw [hexpiry, Nat.add_sub_cancel, saturatingAdd32] at hage
  omega

end Notice

/-- **A sweep is announced.**  In every run in which, while a notice period of `n` is set,
`sweep_token` names what the pending action names and `admin_sweep` is not used, a sweep was
proposed at least `n` ledgers before, with the same asset, recipient, amount and reason, and the
proposal is still pending. -/
theorem sweep_noticed_of_reach {host : Host} {p : State × ActionLog} {l : Label} {s' : State}
    {n : Nat} {w : Sweep} (h : (audited host).Reach (fun p l => SweepsAsProposed p.1 l) p)
    (hn : p.1.getSweepNoticePeriodLedgers = n) (hpos : 0 < n) (hok : SweepsAsProposed p.1 l)
    (hstep : (contract host).step p.1 l s') (hsweep : p.1.sweepBy l = some w) :
    ∃ a last, p.1.get .pendingAdminAction = some a ∧ p.2.last = some last ∧
      w.action = some a.action ∧ w.action = some last.action ∧
      last.ledger + n ≤ p.1.sequence := by
  have hdated := dated_of_reach h
  subst hn
  unfold State.sweepBy at hsweep
  split at hsweep
  · cases hsweep
    obtain ⟨hend, a, ha, haction⟩ := hok hpos
    obtain ⟨admin, -, hinner⟩ := bind_eq_ok.mp hstep.2
    obtain ⟨a', ha', hage⟩ := notice_of_sweepTokenInner hinner hpos
    rw [ha, Option.some.injEq] at ha'
    subst ha'
    obtain ⟨last, hlast, hsame, hle⟩ := age_of_notice hdated ha hend hage
    refine ⟨a, last, ha, hlast, ?_, ?_, hle⟩
    · rw [haction]
      rfl
    · rw [hsame, haction]
      rfl
  · have hzero : p.1.getSweepNoticePeriodLedgers = 0 := hok
    omega
  · split at hsweep
    · rename_i proposer asset recipient amount reasonCode expiry ha
      cases hsweep
      obtain ⟨pending, s₁, hpending, -, -, hexec, -⟩ := confirmAdminAction_eq_ok hstep.2
      rw [ha, Option.some.injEq] at hpending
      subst hpending
      obtain ⟨a', ha', hage⟩ := notice_of_sweepTokenInner hexec hpos
      rw [ha, Option.some.injEq] at ha'
      subst ha'
      obtain ⟨last, hlast, hsame, hle⟩ := age_of_notice hdated ha (hok hpos) hage
      refine ⟨_, last, ha, hlast, rfl, ?_, hle⟩
      rw [hsame]
      rfl
    · cases hsweep
  · cases hsweep

/-- The check of a run in which sweeps are as proposed. -/
def checkSweepsAsProposed (s : State) : Label → Bool
  | .call _ (.treasury (.proposeAdminAction _)) =>
    decide (s.sequence + s.getAdminActionWindowLedgers ≤ U32_MAX)
  | .call _ (.treasury (.sweepToken asset recipient amount reasonCode)) =>
    decide (s.sequence < U32_MAX) && (s.get .pendingAdminAction).any fun a =>
      decide (a.action = .tokenSweep asset recipient amount reasonCode)
  | .call _ (.treasury (.adminSweep ..)) => false
  | .call _ (.treasury (.confirmAdminAction _)) => decide (s.sequence < U32_MAX)
  | _ => true

theorem sweepsAsProposed_of_check (s : State) (l : Label)
    (h : checkSweepsAsProposed s l = true) : SweepsAsProposed s l := by
  unfold checkSweepsAsProposed at h
  unfold SweepsAsProposed
  split at h
  · simpa using h
  · intro _
    rw [Bool.and_eq_true, decide_eq_true_eq, Option.any_eq_true] at h
    obtain ⟨hend, a, ha, haction⟩ := h
    exact ⟨hend, a, ha, by simpa using haction⟩
  · cases h
  · intro _
    simpa using h
  · trivial

/-- The admin sets a notice period of ten ledgers, proposes an action and waits for it. -/
def demoNotice (action : AdminAction) : List Label :=
  [demoInit, demoCall (.setting (.setSweepNoticePeriod 10)),
    demoTreasury (.proposeAdminAction action), .closeLedger 1010]

/-- A sweep of 100 that was proposed ten ledgers before. -/
theorem sweep_noticed_demo :
    ∃ p s', (audited demoHost).Reach (fun p l => SweepsAsProposed p.1 l) p ∧
      p.1.getSweepNoticePeriodLedgers = 10 ∧
      (contract demoHost).step p.1 (demoTreasury (.sweepToken assetAddress 7 100 1)) s' ∧
      ∃ last, p.2.last = some last ∧ last.action = .tokenSweep assetAddress 7 100 1 ∧
        last.ledger + 10 ≤ p.1.sequence := by
  obtain ⟨p, hreach, hval⟩ := exists_of_followWith ActionLog.note .empty
    sweepsAsProposed_of_check (deployed 1000)
    (demoNotice (.tokenSweep assetAddress 7 100 1))
    (f := fun p => (p.1.getSweepNoticePeriodLedgers,
      checkSweepsAsProposed p.1 (demoTreasury (.sweepToken assetAddress 7 100 1)),
      ((Call.treasury (.sweepToken assetAddress 7 100 1)).exec demoEnv p.1).isOk))
    (a := (10, true, true)) (fresh_deployed (by decide))
    (by simp [demoNotice, demoInit, demoTreasury]) (by decide +kernel)
  simp only [Prod.mk.injEq] at hval
  obtain ⟨hn, hcheck, hok⟩ := hval
  obtain ⟨s', hstep⟩ := exists_step_of_isOk hok
  obtain ⟨a, last, -, hlast, -, haction, hle⟩ := sweep_noticed_of_reach hreach hn (by decide)
    (sweepsAsProposed_of_check p.1 _ hcheck) hstep (w := ⟨assetAddress, 7, 100, some 1⟩) rfl
  refine ⟨p, s', hreach, hn, hstep, last, hlast, ?_, hle⟩
  exact (Option.some.inj haction).symm

/-- **Any pending action counts as the notice.**  With a notice period of ten ledgers the admin
proposes a treasury; ten ledgers later `sweep_token` goes through, and no sweep was proposed. -/
theorem sweep_without_notice :
    ∃ p s', (audited demoHost).Reach (fun p l => always p.1 l) p ∧
      p.1.getSweepNoticePeriodLedgers = 10 ∧
      (contract demoHost).step p.1 (demoTreasury (.sweepToken assetAddress 7 100 1)) s' ∧
      p.2.issued = 1 ∧ p.2.last = some ⟨0, 1000, .treasuryRotation 7⟩ := by
  obtain ⟨p, hreach, hval⟩ := exists_of_followWith ActionLog.note .empty
    always_of_noCheck (deployed 1000) (demoNotice (.treasuryRotation 7))
    (f := fun p => (p.1.getSweepNoticePeriodLedgers, p.2.issued, p.2.last,
      ((Call.treasury (.sweepToken assetAddress 7 100 1)).exec demoEnv p.1).isOk))
    (a := (10, 1, some ⟨0, 1000, .treasuryRotation 7⟩, true)) (fresh_deployed (by decide))
    (by simp [demoNotice, demoInit, demoTreasury]) (by decide +kernel)
  simp only [Prod.mk.injEq] at hval
  obtain ⟨hn, hissued, hlast, hok⟩ := hval
  obtain ⟨s', hstep⟩ := exists_step_of_isOk hok
  exact ⟨p, s', hreach, hn, hstep, hissued, hlast⟩

end NiffyInsure
