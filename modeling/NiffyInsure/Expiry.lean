import NiffyInsure.PolicyStep
import NiffyInsure.Trace

/-!
# The expiry of policies

The end of a policy's term is observed on three paths: the keeper call `process_expired`, once
for the event and once for the lapse, and a renewal that comes too late.  All three publish
`PolicyExpired` through one marker for each policy, which holds the end of the term that was
published.

* `KeeperRound`: what one round of `process_expired` does to its policy.
* `settled_of_loop`: after a batch every policy of it is settled, and a batch of settled policies
  changes nothing.
* `ExpiryOnce`: a term that was published lies in the past of its policy or is the marked one.
* `expiry_of_reach`: the four facts together, in every run without transfers.
-/

namespace NiffyInsure

open Machine

/-! ## One round of the keeper -/

namespace State

variable (s : State)

/-- The end of the policy's grace period is a ledger number. -/
def GraceFits (policy : Policy) : Prop := policy.endLedger + s.getGracePeriodLedgers ≤ U32_MAX

/-- A round on an expired policy leaves the record as it is, and counts it if `counted`: the policy
is inactive already, its grace period has no end, or it is not over. -/
def Waits (policy : Policy) (counted : Bool) : Prop :=
  (policy.isActive = false ∧ counted = true) ∨
    policy.isActive = true ∧ ((¬ s.GraceFits policy ∧ counted = false) ∨
      s.GraceFits policy ∧ ¬ s.Lapsed policy ∧ counted = true)

/-- The expiry of the policy's present term was published. -/
def Noted (policy : Policy) : Prop :=
  s.get (.policyExpiredEventEndLedger policy.holder policy.policyId) = some policy.endLedger

/-- What one round of `process_expired` does. -/
inductive KeeperRound (holder : Address) (policyId : Nat) : Bool → State → Prop
  | missing : s.getPolicy holder policyId = none → KeeperRound holder policyId false s
  | early {policy} : s.getPolicy holder policyId = some policy → s.sequence < policy.endLedger →
      KeeperRound holder policyId false s
  | waiting {policy counted} : s.getPolicy holder policyId = some policy →
      policy.endLedger ≤ s.sequence → s.Waits policy counted →
      KeeperRound holder policyId counted (s.publishPolicyExpiredIfDue policy s.sequence)
  | lapsed {policy s'} : s.getPolicy holder policyId = some policy → policy.isActive = true →
      s.Lapsed policy →
      SameKind .policy (s.setPolicy holder policyId
        (policy.ended s.sequence .lapsedNonPayment false)) s' →
      Frame [.policy, .statusIndex, .registry, .activeCount]
        (s.publishPolicyExpiredIfDue policy s.sequence) s' →
      KeeperRound holder policyId true s'

end State

section Rounds

variable {s s' : State} {holder : Address} {policyId : Nat} {policy : Policy}

theorem removeVoter_eq_error {e : Fault} (h : s.removeVoter holder = .error e) : e = .trap := by
  unfold State.removeVoter at h
  split at h
  · cases h
  · split at h
    · cases h
    · rcases bind_eq_error.mp h with h | ⟨tail, -, h⟩
      · exact (okOr_eq_error.mp h).2.symm
      · exact absurd h pure_ne_error

theorem dropActivePolicy_eq_error {e : Fault} (h : s.dropActivePolicy holder = .error e) :
    e = .trap := by
  dsimp only [State.dropActivePolicy] at h
  split at h
  · exact removeVoter_eq_error h
  · cases h

theorem onReject_eq_error {claim : Claim} {e : Fault} (h : onReject s claim = .error e) :
    e = .trap := by
  dsimp only [onReject] at h
  split at h
  · cases h
  · split at h
    · rcases bind_eq_error.mp h with h | ⟨s₃, -, h⟩
      · exact dropActivePolicy_eq_error h
      · exact absurd h pure_ne_error
    · cases h

theorem closeRound_eq_error {claim : Claim} {claimId : Nat} {before : ClaimStatus} {e : Fault}
    (h : closeRound s claimId before claim = .error e) : e = .trap := by
  dsimp only [closeRound] at h
  split at h
  · exact onReject_eq_error h
  · cases h

theorem noted_publish (hdue : policy.endLedger ≤ s.sequence) :
    (s.publishPolicyExpiredIfDue policy s.sequence).Noted policy := by
  unfold State.publishPolicyExpiredIfDue
  rw [if_neg (by simp [isExpired, hdue])]
  split
  · assumption
  · exact State.get_set_self ..

theorem publish_of_noted (h : s.Noted policy) (now : Nat) :
    s.publishPolicyExpiredIfDue policy now = s := by
  unfold State.publishPolicyExpiredIfDue
  split
  · rfl
  · exact if_pos h

theorem get_publish_of_ne {k : DataKey} (now : Nat)
    (hk : k ≠ .policyExpiredEventEndLedger policy.holder policy.policyId) :
    (s.publishPolicyExpiredIfDue policy now).get k = s.get k := by
  unfold State.publishPolicyExpiredIfDue
  split
  · rfl
  · split
    · rfl
    · exact State.get_set_of_ne _ _ hk

theorem getGracePeriod_publish (policy : Policy) (now : Nat) :
    (s.publishPolicyExpiredIfDue policy now).getGracePeriodLedgers = s.getGracePeriodLedgers := by
  simp only [State.getGracePeriodLedgers,
    (frame_publishPolicyExpiredIfDue s policy now).get .gracePeriodLedgers rfl]

theorem lapsePolicy_of_inactive (hget : s.getPolicy holder policyId = some policy)
    (hactive : policy.isActive = false) : lapsePolicy s holder policyId = .ok s := by
  simp only [lapsePolicy, hget, okOr, ok_bind]
  exact if_pos hactive

theorem lapsePolicy_of_not_fits (hget : s.getPolicy holder policyId = some policy)
    (hactive : policy.isActive = true) (hfits : ¬ s.GraceFits policy) :
    lapsePolicy s holder policyId = .error (.lifecycle .ledgerOverflow) := by
  have hadd : checkedAdd32 policy.endLedger s.getGracePeriodLedgers = none := if_neg hfits
  simp only [lapsePolicy, hget, okOr, ok_bind, hactive, hadd]
  rfl

theorem lapsePolicy_of_not_lapsed (hget : s.getPolicy holder policyId = some policy)
    (hactive : policy.isActive = true) (hfits : s.GraceFits policy) (hlapsed : ¬ s.Lapsed policy) :
    lapsePolicy s holder policyId = .error (.lifecycle .policyLapseNotReached) := by
  have hadd : checkedAdd32 policy.endLedger s.getGracePeriodLedgers =
      some (policy.endLedger + s.getGracePeriodLedgers) := if_pos hfits
  have hearly : ensure (policy.endLedger + s.getGracePeriodLedgers ≤ s.sequence)
      (.lifecycle .policyLapseNotReached) = .error (.lifecycle .policyLapseNotReached) :=
    if_neg hlapsed
  simp only [lapsePolicy, hget, okOr, ok_bind, hactive, hadd, hearly]
  rfl

theorem lapsePolicy_of_lapsed (hget : s.getPolicy holder policyId = some policy)
    (hactive : policy.isActive = true) (hfits : s.GraceFits policy) (hlapsed : s.Lapsed policy) :
    lapsePolicy s holder policyId =
      (((s.publishPolicyExpiredIfDue policy s.sequence).setPolicy holder policyId
        (policy.ended s.sequence .lapsedNonPayment false)).reindexPolicy holder policyId policy
        (policy.ended s.sequence .lapsedNonPayment false)).dropActivePolicy holder := by
  have hadd : checkedAdd32 policy.endLedger s.getGracePeriodLedgers =
      some (policy.endLedger + s.getGracePeriodLedgers) := if_pos hfits
  have hdue : ensure (policy.endLedger + s.getGracePeriodLedgers ≤ s.sequence)
      (.lifecycle .policyLapseNotReached) = .ok () := if_pos hlapsed
  simp only [lapsePolicy, hget, okOr, ok_bind, hactive, hadd, hdue]
  rfl

/-- The state after the event of an expired policy reads as before, and the event is noted. -/
theorem publish_reads (hget : s.getPolicy holder policyId = some policy)
    (hdue : policy.endLedger ≤ s.sequence) :
    (s.publishPolicyExpiredIfDue policy s.sequence).getPolicy holder policyId = some policy ∧
      (s.publishPolicyExpiredIfDue policy s.sequence).Noted policy ∧
      (s.publishPolicyExpiredIfDue policy s.sequence).sequence = s.sequence := by
  have hf := frame_publishPolicyExpiredIfDue s policy s.sequence
  exact ⟨(hf.get (.policy holder policyId) rfl).trans hget, noted_publish hdue, hf.sequence⟩

theorem keeperRound_of_eq_ok {counted : Bool}
    (h : processExpiredOne s holder policyId = .ok (counted, s')) :
    s.KeeperRound holder policyId counted s' := by
  unfold processExpiredOne at h
  split at h
  · rename_i hget
    cases h
    exact .missing hget
  rename_i policy hget
  split at h
  · rename_i hnot
    cases h
    exact .early hget (by simpa [isExpired] using hnot)
  rename_i hexpired
  have hdue : policy.endLedger ≤ s.sequence := by simpa [isExpired] using hexpired
  obtain ⟨hget₁, hnoted, hseq⟩ := publish_reads hget hdue
  have hgrace := getGracePeriod_publish (s := s) policy s.sequence
  -- the state between the event and the lapse
  generalize hs₁ : s.publishPolicyExpiredIfDue policy s.sequence = s₁ at *
  dsimp only at h
  have hwait : ∀ b, s.Waits policy b → s' = s₁ → s.KeeperRound holder policyId b s' := by
    rintro b hb rfl
    rw [← hs₁]
    exact .waiting hget hdue hb
  cases hactive : policy.isActive with
  | false =>
    rw [lapsePolicy_of_inactive hget₁ hactive] at h
    cases h
    exact hwait true (.inl ⟨hactive, rfl⟩) rfl
  | true =>
    by_cases hfits : s.GraceFits policy
    · have hfits₁ : s₁.GraceFits policy := by rwa [State.GraceFits, hgrace]
      by_cases hlapsed : s.Lapsed policy
      · have hlapsed₁ : s₁.Lapsed policy := by rwa [State.Lapsed, hgrace, hseq]
        rw [lapsePolicy_of_lapsed hget₁ hactive hfits₁ hlapsed₁, publish_of_noted hnoted, hseq] at h
        split at h
        · rename_i s₂ hdrop
          cases h
          have hdropf := frame_dropActivePolicy hdrop
          have hset : Frame [.policy, .statusIndex, .registry, .activeCount] s₁
              ((s₁.setPolicy holder policyId (policy.ended s.sequence .lapsedNonPayment
                false)).reindexPolicy holder policyId policy
                (policy.ended s.sequence .lapsedNonPayment false)) := by
            refine Frame.trans ?_ ((frame_reindexPolicy _ _ _ _ _).mono (by simp))
            simp
          refine .lapsed hget hactive hlapsed ?_ (hs₁ ▸ hset.trans (hdropf.mono (by simp)))
          refine SameKind.trans ?_ (hdropf.sameKind rfl)
          refine SameKind.trans (SameKind.set ?_ _ _) ((frame_reindexPolicy _ _ _ _ _).sameKind rfl)
          exact hs₁ ▸ (frame_publishPolicyExpiredIfDue s policy s.sequence).sameKind rfl
        · rename_i herr
          exact absurd (dropActivePolicy_eq_error herr) (by simp)
        · cases h
        · rename_i e _ htrap herr
          exact (htrap (dropActivePolicy_eq_error herr)).elim
      · have hlapsed₁ : ¬ s₁.Lapsed policy := by rwa [State.Lapsed, hgrace, hseq]
        rw [lapsePolicy_of_not_lapsed hget₁ hactive hfits₁ hlapsed₁] at h
        cases h
        exact hwait true (.inr ⟨hactive, .inr ⟨hfits, hlapsed, rfl⟩⟩) rfl
    · have hfits₁ : ¬ s₁.GraceFits policy := by rwa [State.GraceFits, hgrace]
      rw [lapsePolicy_of_not_fits hget₁ hactive hfits₁] at h
      cases h
      exact hwait false (.inr ⟨hactive, .inl ⟨hfits, rfl⟩⟩) rfl

end Rounds

/-! ## A batch and the same batch again -/

/-- A round on the policy changes nothing. -/
def State.Settled (s : State) (holder : Address) (policyId : Nat) (counted : Bool) : Prop :=
  (s.getPolicy holder policyId = none ∧ counted = false) ∨
    ∃ policy, s.getPolicy holder policyId = some policy ∧
      ((s.sequence < policy.endLedger ∧ counted = false) ∨
        policy.endLedger ≤ s.sequence ∧ s.Noted policy ∧ s.Waits policy counted)

section Batches

variable {s s' : State} {holder : Address} {policyId : Nat} {counted : Bool}

theorem processExpiredOne_of_settled (h : s.Settled holder policyId counted) :
    processExpiredOne s holder policyId = .ok (counted, s) := by
  rcases h with ⟨hnone, rfl⟩ | ⟨policy, hget, ⟨hearly, rfl⟩ | ⟨hdue, hnoted, hwaits⟩⟩
  · simp only [processExpiredOne, hnone]
  · simp only [processExpiredOne, hget]
    exact if_pos (by simpa [isExpired] using hearly)
  · have hexpired : isExpired s.sequence policy.endLedger = true := by simpa [isExpired] using hdue
    simp only [processExpiredOne, hget, hexpired, publish_of_noted hnoted]
    rcases hwaits with ⟨hactive, rfl⟩ | ⟨hactive, ⟨hfits, rfl⟩ | ⟨hfits, hlapsed, rfl⟩⟩
    · rw [lapsePolicy_of_inactive hget hactive]
      rfl
    · rw [lapsePolicy_of_not_fits hget hactive hfits]
      rfl
    · rw [lapsePolicy_of_not_lapsed hget hactive hfits hlapsed]
      rfl

/-- **After its round a policy is settled.** -/
theorem settled_of_round (h : s.KeeperRound holder policyId counted s') :
    s'.Settled holder policyId counted := by
  cases h with
  | missing hnone => exact .inl ⟨hnone, rfl⟩
  | early hget hearly => exact .inr ⟨_, hget, .inl ⟨hearly, rfl⟩⟩
  | @waiting policy _ hget hdue hwaits =>
    obtain ⟨hget₁, hnoted, hseq⟩ := publish_reads hget hdue
    refine .inr ⟨policy, hget₁, .inr ⟨by rwa [hseq], hnoted, ?_⟩⟩
    rwa [State.Waits, State.GraceFits, State.Lapsed, getGracePeriod_publish, hseq]
  | @lapsed policy _ hget hactive hlapsed hrec hf =>
    have hdue : policy.endLedger ≤ s.sequence := le_trans (Nat.le_add_right _ _) hlapsed
    obtain ⟨-, hnoted, hseq⟩ := publish_reads hget hdue
    refine .inr ⟨policy.ended s.sequence .lapsedNonPayment false, ?_,
      .inr ⟨?_, ?_, .inl ⟨rfl, rfl⟩⟩⟩
    · rw [getPolicy_of_write hrec, if_pos ⟨rfl, rfl⟩]
    · rw [hf.sequence, hseq]
      exact hdue
    · exact (hf.get (.policyExpiredEventEndLedger policy.holder policy.policyId) rfl).trans hnoted

theorem eq_of_round_of_settled {other : Bool} (hs : s.Settled holder policyId counted)
    (h : processExpiredOne s holder policyId = .ok (other, s')) : other = counted ∧ s' = s := by
  rw [processExpiredOne_of_settled hs] at h
  cases h
  exact ⟨rfl, rfl⟩

theorem reads_of_round {id : Nat} (hsound : s.PoliciesSound)
    (h : s.KeeperRound holder policyId counted s') (hne : id ≠ policyId) :
    s'.getPolicy holder id = s.getPolicy holder id ∧
      s'.get (.policyExpiredEventEndLedger holder id) =
      s.get (.policyExpiredEventEndLedger holder id) ∧
      s'.getGracePeriodLedgers = s.getGracePeriodLedgers ∧ s'.sequence = s.sequence := by
  cases h with
  | missing => exact ⟨rfl, rfl, rfl, rfl⟩
  | early => exact ⟨rfl, rfl, rfl, rfl⟩
  | @waiting policy _ hget hdue =>
    have hf := frame_publishPolicyExpiredIfDue s policy s.sequence
    refine ⟨hf.get (.policy holder id) rfl, get_publish_of_ne _ ?_, getGracePeriod_publish _ _,
      hf.sequence⟩
    rw [(hsound _ _ _ hget).policyId]
    simp [hne]
  | @lapsed policy _ hget hactive hlapsed hrec hf =>
    have hpub := frame_publishPolicyExpiredIfDue s policy s.sequence
    refine ⟨?_, ?_, ?_, hf.sequence.trans hpub.sequence⟩
    · rw [getPolicy_of_write hrec, if_neg fun heq => hne heq.2]
    · rw [hf.get (.policyExpiredEventEndLedger holder id) rfl]
      refine get_publish_of_ne _ ?_
      rw [(hsound _ _ _ hget).policyId]
      simp [hne]
    · simp only [State.getGracePeriodLedgers, hf.get .gracePeriodLedgers rfl,
        hpub.get .gracePeriodLedgers rfl]

/-- **A settled policy stays settled** through the rounds of the other policies. -/
theorem settled_of_processExpiredOne {id : Nat} {other : Bool} (hsound : s.PoliciesSound)
    (hs : s.Settled holder id other)
    (h : processExpiredOne s holder policyId = .ok (counted, s')) : s'.Settled holder id other := by
  by_cases hid : id = policyId
  · subst hid
    rw [(eq_of_round_of_settled hs h).2]
    exact hs
  obtain ⟨hpolicy, hmark, hgrace, hseq⟩ := reads_of_round hsound (keeperRound_of_eq_ok h) hid
  rcases hs with ⟨hnone, rfl⟩ | ⟨policy, hget, hs⟩
  · exact .inl ⟨hpolicy.trans hnone, rfl⟩
  refine .inr ⟨policy, hpolicy.trans hget, ?_⟩
  have hp := hsound _ _ _ hget
  rw [State.Waits, State.GraceFits, State.Lapsed, State.Noted, hp.holder, hp.policyId,
    hmark, hgrace, hseq]
  rwa [State.Waits, State.GraceFits, State.Lapsed, State.Noted, hp.holder, hp.policyId] at hs

theorem policiesSound_of_round (hsound : s.PoliciesSound)
    (h : processExpiredOne s holder policyId = .ok (counted, s')) : s'.PoliciesSound := by
  refine policiesSound_of_edits ?_ hsound
  obtain hf | ⟨policy, hpolicy, -, -, hrec, -⟩ := processExpiredOne_eq_ok h
  · exact .of_same (hf.sameKind rfl)
  · exact .of_edit hpolicy (policy.edits_ended _ _ _) hrec

/-- **After a batch every policy of it is settled**, with the outcome that was counted. -/
theorem settled_of_loop : ∀ (ids : List Nat) (s : State) (m n : Nat), s.PoliciesSound →
    processExpiredLoop holder ids s m = .ok (n, s') →
      ∃ outcomes, List.Forall₂ (s'.Settled holder) ids outcomes ∧
        (∀ id counted, s.Settled holder id counted → s'.Settled holder id counted) ∧
        n = m + outcomes.count true := by
  intro ids
  induction ids with
  | nil =>
    intro s m n _ h
    cases h
    exact ⟨[], .nil, fun _ _ hs => hs, rfl⟩
  | cons id rest ih =>
    intro s m n hsound h
    obtain ⟨⟨counted, s₁⟩, h₁, h₂⟩ := bind_eq_ok.mp h
    obtain ⟨outcomes, hall, hkeep, rfl⟩ := ih s₁ _ n (policiesSound_of_round hsound h₁) h₂
    refine ⟨counted :: outcomes, .cons ?_ hall, fun id' other hs => ?_, ?_⟩
    · exact hkeep _ _ (settled_of_round (keeperRound_of_eq_ok h₁))
    · exact hkeep _ _ (settled_of_processExpiredOne hsound hs h₁)
    · cases counted
      · simp
      · simp
        omega

theorem loop_of_settled {ids : List Nat} {outcomes : List Bool}
    (h : List.Forall₂ (s.Settled holder) ids outcomes) (m : Nat) :
    processExpiredLoop holder ids s m = .ok (m + outcomes.count true, s) := by
  induction h generalizing m with
  | nil => rfl
  | @cons id counted _ _ hid _ ih =>
    rw [processExpiredLoop, processExpiredOne_of_settled hid, ok_bind]
    refine (ih _).trans ?_
    cases counted
    · simp
    · simp
      omega

/-- **The same batch again** at the same ledger changes nothing and returns the same count. -/
theorem processExpired_again (hsound : s.PoliciesSound) {ids : List Nat} {n : Nat}
    (h : processExpired s holder ids = .ok (n, s')) :
    processExpired s' holder ids = .ok (n, s') := by
  obtain ⟨outcomes, hall, -, rfl⟩ := settled_of_loop _ s 0 n hsound h
  exact loop_of_settled hall 0

/-- **A batch deactivates only what has lapsed.** -/
theorem lapsed_of_processExpired {ids : List Nat} {n : Nat}
    (h : processExpired s holder ids = .ok (n, s')) {a : Address} {id : Nat} {p p' : Policy}
    (hp : s.getPolicy a id = some p) (hactive : p.isActive = true)
    (hp' : s'.getPolicy a id = some p') (hinactive : p'.isActive = false) : s.Lapsed p := by
  have hkeep : (s'.getPolicy a id = some p ∨ s.Lapsed p) ∧ s'.sequence = s.sequence ∧
      s'.getGracePeriodLedgers = s.getGracePeriodLedgers := by
    refine processExpiredLoop_keeps (I := fun t => (t.getPolicy a id = some p ∨ s.Lapsed p) ∧
      t.sequence = s.sequence ∧ t.getGracePeriodLedgers = s.getGracePeriodLedgers) ?_ _ s 0 h
      ⟨.inl hp, rfl, rfl⟩
    rintro t t' id' b h₁ ⟨hread, hseq, hgrace⟩
    have hf := frame_processExpiredOne h₁
    refine ⟨?_, hf.sequence.trans hseq, ?_⟩
    · rcases hread with hread | hlapsed
      · obtain hframe | ⟨q, hq, -, hlapsed, hrec, -⟩ := processExpiredOne_eq_ok h₁
        · exact .inl ((getPolicy_of_same (hframe.sameKind rfl) a id).trans hread)
        · rw [getPolicy_of_write hrec]
          split
          · rename_i heq
            obtain ⟨rfl, rfl⟩ := heq
            rw [hread] at hq
            cases hq
            rw [State.Lapsed, hseq, hgrace] at hlapsed
            exact .inr hlapsed
          · exact .inl hread
      · exact .inr hlapsed
    · rw [← hgrace]
      simp only [State.getGracePeriodLedgers, hf.get .gracePeriodLedgers rfl]
  rcases hkeep.1 with hread | hlapsed
  · rw [hread] at hp'
    cases hp'
    rw [hactive] at hinactive
    cases hinactive
  · exact hlapsed

end Batches

/-! ## Each term is published once -/

/-- The holder, the policy and the end of the term whose expiry an event reports. -/
def Event.expiry : Event → Option (Address × Nat × Nat)
  | .policyExpired holder policyId endLedger _ => some (holder, policyId, endLedger)
  | _ => none

/-- The terms whose expiry was published, in order. -/
def State.expiries (s : State) : List (Address × Nat × Nat) := s.events.filterMap Event.expiry

/-- A published term belongs to a stored policy, and is over for it or the one that is marked; no
term is published twice. -/
structure State.ExpiryOnce (s : State) : Prop where
  marked : ∀ holder policyId finish, (holder, policyId, finish) ∈ s.expiries →
    ∃ p, s.getPolicy holder policyId = some p ∧ finish ≤ p.endLedger ∧
      (finish = p.endLedger → s.get (.policyExpiredEventEndLedger holder policyId) = some finish)
  once : s.expiries.Nodup

/-- No policy is dropped, and none ends earlier than before. -/
def KeepsEnds (s s' : State) : Prop :=
  ∀ holder policyId p, s.getPolicy holder policyId = some p →
    ∃ p', s'.getPolicy holder policyId = some p' ∧ p.endLedger ≤ p'.endLedger

section Once

variable {env : Env} {s s' : State} {holder : Address} {policyId : Nat} {policy : Policy}

theorem expiries_of_frame {ks : List Kind} (h : Frame ks s s')
    (hk : ks.contains .expiryMark = false) : s'.expiries = s.expiries := by
  refine Frame.filterMap_events ?_ h hk
  intro e he
  cases e <;> first | rfl | exact absurd rfl he

theorem KeepsEnds.of_same (h : SameKind .policy s s') : KeepsEnds s s' :=
  fun a id p hp => ⟨p, (getPolicy_of_same h a id).trans hp, le_rfl⟩

theorem KeepsEnds.trans {s'' : State} (h : KeepsEnds s s') (h' : KeepsEnds s' s'') :
    KeepsEnds s s'' := by
  intro a id p hp
  obtain ⟨p', hp', hle⟩ := h a id p hp
  obtain ⟨p'', hp'', hle'⟩ := h' a id p' hp'
  exact ⟨p'', hp'', hle.trans hle'⟩

theorem KeepsEnds.of_write
    (hle : ∀ p, s.getPolicy holder policyId = some p → p.endLedger ≤ policy.endLedger)
    (h : SameKind .policy (s.setPolicy holder policyId policy) s') : KeepsEnds s s' := by
  intro a id p hp
  rw [getPolicy_of_write h]
  split
  · rename_i heq
    obtain ⟨rfl, rfl⟩ := heq
    exact ⟨policy, rfl, hle p hp⟩
  · exact ⟨p, hp, le_rfl⟩

theorem keepsEnds_of_edits (h : EditsPolicies s s') : KeepsEnds s s' := by
  refine h.keeps (I := KeepsEnds s) ?_ (.of_same (.refl _ s))
  rintro t t' (hsame | ⟨a, id, p, q, hget, hedit, hrec⟩) ht
  · exact ht.trans (.of_same hsame)
  · refine ht.trans (.of_write (fun p' hp' => ?_) hrec)
    rw [hget] at hp'
    cases hp'
    exact hedit.endLedger.ge

theorem State.ExpiryOnce.of_keepsEnds (h : s.ExpiryOnce) (hends : KeepsEnds s s')
    (hmark : SameKind .expiryMark s s') (hevents : s'.expiries = s.expiries) : s'.ExpiryOnce := by
  refine ⟨fun a id finish hmem => ?_, by rw [hevents]; exact h.once⟩
  rw [hevents] at hmem
  obtain ⟨p, hp, hle, hmarked⟩ := h.marked a id finish hmem
  obtain ⟨p', hp', hle'⟩ := hends a id p hp
  refine ⟨p', hp', hle.trans hle', fun heq => ?_⟩
  rw [hmark (.policyExpiredEventEndLedger a id) rfl]
  exact hmarked (by omega)

/-- **Publishing through the mark keeps the terms apart.** -/
theorem State.ExpiryOnce.publish (h : s.ExpiryOnce) (hsound : s.PoliciesSound)
    (hget : s.getPolicy holder policyId = some policy) (now : Nat) :
    (s.publishPolicyExpiredIfDue policy now).ExpiryOnce := by
  have hp := hsound _ _ _ hget
  unfold State.publishPolicyExpiredIfDue
  split
  · exact h
  split
  · exact h
  rename_i hunmarked
  rw [hp.holder, hp.policyId] at hunmarked ⊢
  have hnew : (holder, policyId, policy.endLedger) ∉ s.expiries := by
    intro hmem
    obtain ⟨p, hp', -, hmarked⟩ := h.marked _ _ _ hmem
    rw [hget] at hp'
    cases hp'
    exact hunmarked (hmarked rfl)
  have hevents : (((s.emit (.policyExpired holder policyId policy.endLedger now)).set
      (.policyExpiredEventEndLedger holder policyId) policy.endLedger).expiries) =
      s.expiries ++ [(holder, policyId, policy.endLedger)] :=
    State.filterMap_emit Event.expiry s _
  refine ⟨fun a id finish hmem => ?_, ?_⟩
  · rw [hevents, List.mem_append, List.mem_singleton] at hmem
    rcases hmem with hmem | heq
    · obtain ⟨p, hp', hle, hmarked⟩ := h.marked a id finish hmem
      refine ⟨p, (State.get_set_of_ne _ _ (by simp)).trans hp', hle, fun hfinish => ?_⟩
      by_cases hkey : a = holder ∧ id = policyId
      · obtain ⟨rfl, rfl⟩ := hkey
        rw [hget] at hp'
        cases hp'
        rw [State.get_set_self, hfinish]
      · rw [State.get_set_of_ne _ _ (by simpa using hkey)]
        exact hmarked hfinish
    · cases heq
      exact ⟨policy, (State.get_set_of_ne _ _ (by simp)).trans hget, le_rfl,
        fun _ => State.get_set_self ..⟩
  · rw [hevents, List.nodup_append]
    refine ⟨h.once, List.nodup_singleton _, fun x hx y hy hxy => ?_⟩
    rw [List.mem_singleton.mp hy] at hxy
    exact hnew (hxy ▸ hx)

theorem State.ExpiryOnce.round {counted : Bool} (h : s.ExpiryOnce) (hsound : s.PoliciesSound)
    (hround : s.KeeperRound holder policyId counted s') : s'.ExpiryOnce := by
  cases hround with
  | missing => exact h
  | early => exact h
  | waiting hget => exact h.publish hsound hget s.sequence
  | @lapsed policy _ hget hactive hlapsed hrec hf =>
    refine (h.publish hsound hget s.sequence).of_keepsEnds ?_ (hf.sameKind rfl)
      (expiries_of_frame hf rfl)
    have hsame : SameKind .policy s (s.publishPolicyExpiredIfDue policy s.sequence) :=
      (frame_publishPolicyExpiredIfDue s policy s.sequence).sameKind rfl
    refine (KeepsEnds.of_same hsame.symm).trans (.of_write (fun p hp => ?_) hrec)
    rw [hget] at hp
    cases hp
    exact le_rfl

theorem State.ExpiryOnce.renewal {a : RenewPolicyArgs} {o : RenewPolicyOutcome} (h : s.ExpiryOnce)
    (hsound : s.PoliciesSound) (hran : renewPolicy env s a = .ok (o, s')) : s'.ExpiryOnce := by
  obtain ⟨policy, -, hget, ⟨-, -, rfl⟩ | ⟨premium, s₁, s₂, -, -, -, -, -, hf₁, h₂, rfl⟩⟩ :=
    renewPolicy_cases hran
  · exact h.publish hsound hget s.sequence
  have hf : Frame [.calcVersion, .assetLedger, .cash] s s₂ :=
    (hf₁.mono (by simp)).trans ((frame_collectPremium h₂).mono (by simp))
  have hrenewed := frame_renewed s₂ a policy premium
  refine h.of_keepsEnds (.of_write (fun p hp => ?_) (sameKind_renewed (hf.sameKind rfl) a policy
    premium)) ((hf.sameKind rfl).trans (hrenewed.sameKind rfl)) ?_
  · rw [hget] at hp
    cases hp
    exact Nat.le_add_right _ _
  · rw [expiries_of_frame hrenewed rfl, expiries_of_frame hf rfl]

end Once

/-! ## Along a run -/

/-- The label is no transfer of a policy. -/
def NoTransfers (_ : State) : Label → Prop
  | .call _ (.policy (.transferPolicy ..)) => False
  | _ => True

theorem expiryOnce_of_step {host : Host} {s s' : State} {l : Label} (hl : NoTransfers s l)
    (hstep : (contract host).step s l s') (hsound : s.PoliciesSound) (h : s.ExpiryOnce) :
    s'.ExpiryOnce := by
  have hkeep : ∀ ks, Frame ks s s' → ks.contains .expiryMark = false → KeepsEnds s s' →
      s'.ExpiryOnce := fun ks hf hks hends =>
    h.of_keepsEnds hends (hf.sameKind hks) (expiries_of_frame hf hks)
  cases l with
  | closeLedger n =>
    obtain ⟨-, -, rfl⟩ := hstep
    exact ⟨h.marked, h.once⟩
  | tokens b a =>
    obtain ⟨-, rfl⟩ := hstep
    exact ⟨h.marked, h.once⟩
  | call env c =>
    obtain ⟨-, hexec⟩ := hstep
    have hf := frame_exec hexec
    cases c with
    | claim c =>
      exact hkeep _ hf (c.untouched rfl) (keepsEnds_of_edits (editsPolicies_of_claimCall hexec))
    | treasury c => exact hkeep _ hf (c.untouched rfl) (.of_same (hf.sameKind (c.untouched rfl)))
    | setting c => exact hkeep _ hf rfl (.of_same (hf.sameKind rfl))
    | governance c => exact hkeep _ hf (c.untouched rfl) (.of_same (hf.sameKind (c.untouched rfl)))
    | policy c =>
      have hpolicy : c.exec env s = .ok s' := hexec
      have hran := policyRan_of_exec hpolicy
      cases c with
      | transferPolicy => exact hl.elim
      | initiatePolicy a =>
        obtain ⟨policy, hran⟩ := hran
        obtain ⟨hrec, hholder, -⟩ := initiatePolicy_records hran
        obtain ⟨-, -, -, -, -, -, -, -, -, -, -, -, -, hfree, -⟩ := initiatePolicy_eq_ok hran
        refine hkeep _ hf rfl (.of_write (fun p hp => ?_) hrec)
        rw [hholder, hfree] at hp
        cases hp
      | renewPolicy a =>
        obtain ⟨o, hran⟩ := hran
        exact h.renewal hsound hran
      | processExpired holder ids =>
        obtain ⟨n, hran⟩ := hran
        refine (processExpiredLoop_keeps (I := fun t => t.PoliciesSound ∧ t.ExpiryOnce) ?_ _ s 0
          hran ⟨hsound, h⟩).2
        rintro t t' id b h₁ ⟨ht, ht'⟩
        exact ⟨policiesSound_of_round ht h₁, ht'.round ht (keeperRound_of_eq_ok h₁)⟩
      | _ => exact hkeep _ hf rfl (keepsEnds_of_edits (editsPolicies_of_policyCall hpolicy rfl))

theorem expiryOnce_of_reach {host : Host} {s : State}
    (h : (loggedContract host).Reach NoTransfers s) : s.ExpiryOnce := by
  refine h.invariant_with (J := State.PoliciesSound)
    (fun s hs => policiesSound_of_reach (reach_of_logged hs).to_always) ?_
    fun s l s' hsound hl hstep hs => expiryOnce_of_step hl hstep hsound hs
  rintro s ⟨-, hlog⟩
  have hexpiries : s.expiries = [] := by
    rw [State.expiries, hlog]
    rfl
  refine ⟨fun holder policyId finish hmem => ?_, ?_⟩
  · rw [hexpiries] at hmem
    cases hmem
  · rw [hexpiries]
    exact .nil

/-- A renewal of an active policy answers that it has lapsed when the keeper may lapse it. -/
theorem lapsed_iff_due {env : Env} {s : State} {a : RenewPolicyArgs} {policy : Policy}
    (hbind : s.assertBindNotPaused = .ok ()) (hauth : env.auths a.holder = true)
    (hget : s.getPolicy a.holder a.policyId = some policy) (hactive : policy.isActive = true)
    (hfits : s.GraceFits policy) :
    ((∃ s', renewPolicy env s a = .ok (.lapsed, s')) ↔ s.Lapsed policy) ∧
      (lapsePolicy s a.holder a.policyId = .error (.lifecycle .policyLapseNotReached) ↔
        ¬ s.Lapsed policy) := by
  have hadd : checkedAdd32 policy.endLedger s.getGracePeriodLedgers =
      some (policy.endLedger + s.getGracePeriodLedgers) := if_pos hfits
  have hsigned : requireAuth env a.holder = .ok () := requireAuth_eq_ok.mpr hauth
  constructor
  · constructor
    · rintro ⟨s', hrun⟩
      obtain ⟨p, -, hp, ⟨-, hlapsed, -⟩ | ⟨premium, s₁, s₂, ho, -⟩⟩ := renewPolicy_cases hrun
      · rw [hget] at hp
        cases hp
        exact hlapsed
      · cases ho
    · intro hlapsed
      refine ⟨s.publishPolicyExpiredIfDue policy s.sequence, ?_⟩
      have hexpired : isExpired s.sequence (policy.endLedger + s.getGracePeriodLedgers) = true :=
        decide_eq_true hlapsed
      refine bind_eq_ok.mpr ⟨(), hbind, bind_eq_ok.mpr ⟨(), hsigned, ?_⟩⟩
      refine bind_eq_ok.mpr ⟨policy, okOr_eq_ok.mpr hget, ?_⟩
      refine bind_eq_ok.mpr ⟨_, okOr_eq_ok.mpr hadd, ?_⟩
      exact if_pos hexpired
  · constructor
    · intro herr hlapsed
      rw [lapsePolicy_of_lapsed hget hactive hfits hlapsed] at herr
      exact absurd (dropActivePolicy_eq_error herr) (by simp)
    · exact fun hlapsed => lapsePolicy_of_not_lapsed hget hactive hfits hlapsed

/-- **Expiry is published once, settled once, and lapses what is overdue.**  In every run without
transfers no term of a policy is published twice.  From the state reached, a batch of
`process_expired` that is run again changes nothing and returns the same count, and it deactivates
a policy only at the end of its grace period or after; and for an active policy whose grace period
ends within the ledger numbers either a signed renewal answers `Lapsed` or the lapse answers
`PolicyLapseNotReached`, and not both. -/
theorem expiry_of_reach {host : Host} {s : State}
    (h : (loggedContract host).Reach NoTransfers s) :
    s.expiries.Nodup ∧
      (∀ holder ids n s', processExpired s holder ids = .ok (n, s') →
        processExpired s' holder ids = .ok (n, s')) ∧
      (∀ holder ids n s', processExpired s holder ids = .ok (n, s') →
        ∀ a id p p', s.getPolicy a id = some p → p.isActive = true →
          s'.getPolicy a id = some p' → p'.isActive = false →
            p.endLedger + s.getGracePeriodLedgers ≤ s.sequence) ∧
      ∀ (env : Env) (a : RenewPolicyArgs) policy,
        s.getPolicy a.holder a.policyId = some policy → policy.isActive = true →
        policy.endLedger + s.getGracePeriodLedgers ≤ U32_MAX → s.assertBindNotPaused = .ok () →
        env.auths a.holder = true →
          Xor (∃ s', renewPolicy env s a = .ok (.lapsed, s'))
            (lapsePolicy s a.holder a.policyId = .error (.lifecycle .policyLapseNotReached)) := by
  have hsound := policiesSound_of_reach (reach_of_logged h).to_always
  refine ⟨(expiryOnce_of_reach h).once, fun _ _ _ _ hrun => processExpired_again hsound hrun,
    fun _ _ _ _ hrun _ _ _ _ hp hactive hp' hinactive =>
      lapsed_of_processExpired hrun hp hactive hp' hinactive, ?_⟩
  intro env a policy hget hactive hfits hbind hauth
  obtain ⟨hlate, hearly⟩ := lapsed_iff_due hbind hauth hget hactive hfits
  rw [hlate, hearly]
  by_cases hlapsed : s.Lapsed policy
  · exact .inl ⟨hlapsed, not_not_intro hlapsed⟩
  · exact .inr ⟨hlapsed, hlapsed⟩

/-- `NoTransfers`, computed. -/
def noTransfersCheck (_ : State) : Label → Bool
  | .call _ (.policy (.transferPolicy ..)) => false
  | _ => true

theorem noTransfers_of_check (s : State) (l : Label) (h : noTransfersCheck s l = true) :
    NoTransfers s l := by
  unfold NoTransfers
  split
  · cases h
  · trivial

/-- The keeper's batch on the policy of account 1, the id given twice. -/
def demoKeeper : Label := demoCall (.policy (.processExpired 1 [1, 1, 2]))

/-- Account 1 renews its policy. -/
def demoRenew : Label :=
  demoCall (.policy (.renewPolicy {
    holder := 1
    policyId := 1
    ageBand := .adult
    coverageType := .basic
    safetyScore := 50
    newCoverageTier := none
    newCoverageAmount := none }))

/-- The keeper reports the end of the first term, account 1 renews within the grace period, and
the keeper reports the end of the second term and lapses the policy.  The batch run again changes
nothing, and the policy of account 2 is still active. -/
theorem expiry_of_reach_demo : ∃ s : State,
    s.expiries = [(1, 1, 519400), (1, 1, 1037800)] ∧ s.expiries.Nodup ∧
      (s.getPolicy 1 1).map (·.isActive) = some false ∧
      (s.getPolicy 2 1).map (·.isActive) = some true ∧
      (∀ holder ids n s', processExpired s holder ids = .ok (n, s') →
        processExpired s' holder ids = .ok (n, s')) := by
  obtain ⟨s, hreach, hval⟩ := exists_logged_of_follow noTransfers_of_check (deployed 50000000)
    (demoSetup ++ [.closeLedger 519400, demoKeeper, demoRenew, demoKeeper, .closeLedger 1556200,
      demoKeeper])
    (f := fun s => (s.expiries, (s.getPolicy 1 1).map (·.isActive),
      (s.getPolicy 2 1).map (·.isActive)))
    (a := ([(1, 1, 519400), (1, 1, 1037800)], some false, some true))
    (fresh_deployed (by decide)) rfl
    (by simp [demoSetup, demoInit, demoBind, demoKeeper, demoRenew]) (by decide +kernel)
  simp only [Prod.mk.injEq] at hval
  obtain ⟨hval₁, hval₂, hval₃⟩ := hval
  obtain ⟨honce, hagain, -, -⟩ := expiry_of_reach hreach
  exact ⟨s, hval₁, honce, hval₂, hval₃, hagain⟩

end NiffyInsure
