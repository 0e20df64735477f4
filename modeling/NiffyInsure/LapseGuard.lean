import NiffyInsure.Expiry
import NiffyInsure.OpenSlot

/-!
# Policies end without open claims

A policy that ends should have no claim in flight.  `terminate_inner` looks at the open-claim bit
and at the claims in `Processing`.  `process_expired` documents the same guard and looks at
neither.

* `unclaimed_of_terminateInner`: without the bypass, the policy that is ended has no open claim.
* `ended_iff_of_processExpired`: a batch ends exactly the policies in it that are past their grace
  period.
* `ends_unclaimed_of_reach`: in every run that meets `LapseClear`, a call that ends policies ends
  only policies without a claim in flight if and only if it meets the condition too.
-/

namespace NiffyInsure

open Machine

/-- A claim on the policy is in flight. -/
def State.Claimed (s : State) (holder : Address) (policyId : Nat) : Prop :=
  ∃ id claim, s.getClaim id = some claim ∧ claim.claimant = holder ∧ claim.policyId = policyId ∧
    claim.InFlight

/-- The policy is active in `s`, and stored and inactive in `s'`. -/
structure PolicyEnded (s s' : State) (holder : Address) (policyId : Nat) : Prop where
  active : (s.getPolicy holder policyId).any (·.isActive) = true
  inactive : (s'.getPolicy holder policyId).any (fun p => !p.isActive) = true

/-- No policy ends under a claim in flight. -/
def EndsUnclaimed (s s' : State) : Prop :=
  ∀ holder policyId, PolicyEnded s s' holder policyId → ¬ s'.Claimed holder policyId

/-- The keeper may lapse the policy. -/
def State.Overdue (s : State) (holder : Address) (policyId : Nat) : Prop :=
  ∃ p, s.getPolicy holder policyId = some p ∧ p.isActive = true ∧ s.Lapsed p

/-- The label ends policies, and is no admin's that passes over open claims. -/
def Label.Ends : Label → Prop
  | .call _ (.policy (.processExpired ..)) | .call _ (.policy (.terminatePolicy ..)) => True
  | .call _ (.policy (.adminTerminatePolicy _ _ _ _ allowOpenClaims)) => allowOpenClaims = false
  | _ => False

/-- The condition on a step: the policies that a batch of `process_expired` may lapse have their
open-claim bit clear, and so have those of the claims that write it without being in flight. -/
def LapseClear (s : State) : Label → Prop
  | .call _ (.policy (.processExpired holder ids)) =>
    ∀ id ∈ ids.take PROCESS_EXPIRED_MAX, s.Overdue holder id → s.hasOpenClaim holder id = false
  | l => SlotClear s l

theorem slotClear_of_lapseClear {s : State} {l : Label} (h : LapseClear s l) : SlotClear s l := by
  unfold LapseClear at h
  split at h
  · trivial
  · exact h

/-! ## What ends -/

section Ending

variable {env : Env} {s s' : State} {holder : Address} {policyId : Nat}

theorem policyEnded_iff : PolicyEnded s s' holder policyId ↔
    (∃ p, s.getPolicy holder policyId = some p ∧ p.isActive = true) ∧
      ∃ p', s'.getPolicy holder policyId = some p' ∧ p'.isActive = false := by
  have hand : PolicyEnded s s' holder policyId ↔
      (s.getPolicy holder policyId).any (·.isActive) = true ∧
        (s'.getPolicy holder policyId).any (fun p => !p.isActive) = true :=
    ⟨fun h => ⟨h.active, h.inactive⟩, fun ⟨hactive, hinactive⟩ => ⟨hactive, hinactive⟩⟩
  simp [hand, Option.any_eq_true]

theorem not_ended_of_eq (h : s'.getPolicy holder policyId = s.getPolicy holder policyId) :
    ¬ PolicyEnded s s' holder policyId := by
  rw [policyEnded_iff, h]
  rintro ⟨⟨p, hp, hactive⟩, p', hp', hinactive⟩
  rw [hp] at hp'
  cases hp'
  rw [hactive] at hinactive
  cases hinactive

/-- **A termination ends its policy only, and without the bypass finds no open claim on it.** -/
theorem unclaimed_of_terminateInner {reason : TerminationReason} {byAdmin bypass : Bool}
    (h : terminateInner env s holder policyId reason byAdmin bypass = .ok s')
    (hno : byAdmin = false ∨ bypass = false) {a : Address} {id : Nat}
    (hended : PolicyEnded s s' a id) :
    s.hasOpenClaim a id = false := by
  have hguard : s.hasOpenClaim holder policyId = false := by
    simp only [terminateInner, bind_eq_ok, okOr_eq_ok, ensure_eq_ok] at h
    obtain ⟨-, -, policy, -, -, -, -, -, -, hcount, -⟩ := h
    rcases hcount with hzero | hbypass
    · cases hbit : s.hasOpenClaim holder policyId with
      | false => rfl
      | true => simp [State.getOpenClaimCount, hbit] at hzero
    · rcases hno with rfl | rfl <;> simp at hbypass
  obtain ⟨p, -, hrec⟩ := terminateInner_records h
  by_cases heq : a = holder ∧ id = policyId
  · rw [heq.1, heq.2]
    exact hguard
  · exact absurd hended (not_ended_of_eq (by rw [getPolicy_of_write hrec, if_neg heq]))

theorem getPolicy_of_processExpired {ids : List Nat} {n : Nat}
    (h : processExpired s holder ids = .ok (n, s')) {a : Address} {id : Nat}
    (hout : ¬ (a = holder ∧ id ∈ ids.take PROCESS_EXPIRED_MAX)) :
    s'.getPolicy a id = s.getPolicy a id := by
  have hloop : ∀ (ids : List Nat) (t : State) (m : Nat),
      processExpiredLoop holder ids t m = .ok (n, s') → ¬ (a = holder ∧ id ∈ ids) →
        s'.getPolicy a id = t.getPolicy a id := by
    intro ids
    induction ids with
    | nil =>
      intro t m h _
      cases h
      rfl
    | cons policyId rest ih =>
      intro t m h hout
      obtain ⟨⟨counted, t₁⟩, h₁, h₂⟩ := bind_eq_ok.mp h
      have hrest := ih t₁ _ h₂ fun hin => hout ⟨hin.1, by simp [hin.2]⟩
      rw [hrest]
      obtain hf | ⟨p, -, -, -, hrec, -⟩ := processExpiredOne_eq_ok h₁
      · exact getPolicy_of_same (hf.sameKind rfl) a id
      · rw [getPolicy_of_write hrec, if_neg fun heq => hout ⟨heq.1, by simp [heq.2]⟩]
  exact hloop _ s 0 h hout

theorem getPolicy_of_edits (h : EditsPolicies s s') {p : Policy}
    (hp : s.getPolicy holder policyId = some p) :
    ∃ p', s'.getPolicy holder policyId = some p' ∧ p'.endLedger = p.endLedger := by
  refine h.keeps (I := fun t => ∃ p', t.getPolicy holder policyId = some p' ∧
    p'.endLedger = p.endLedger) ?_ ⟨p, hp, rfl⟩
  rintro t t' (hsame | ⟨a, id, q, q', hq, hedit, hrec⟩) ⟨p', hp', hend⟩
  · exact ⟨p', (getPolicy_of_same hsame _ _).trans hp', hend⟩
  · rw [getPolicy_of_write hrec]
    split
    · rename_i heq
      obtain ⟨rfl, rfl⟩ := heq
      rw [hp'] at hq
      cases hq
      exact ⟨q', rfl, hedit.endLedger.trans hend⟩
    · exact ⟨p', hp', hend⟩

/-- **A batch ends exactly the overdue policies in it.** -/
theorem ended_iff_of_processExpired (hsound : s.PoliciesSound) (hseq : s.sequence ≤ U32_MAX)
    {ids : List Nat} {n : Nat} (h : processExpired s holder ids = .ok (n, s')) {a : Address}
    {id : Nat} : PolicyEnded s s' a id ↔
      a = holder ∧ id ∈ ids.take PROCESS_EXPIRED_MAX ∧ s.Overdue a id := by
  constructor
  · intro hended
    by_cases hin : a = holder ∧ id ∈ ids.take PROCESS_EXPIRED_MAX
    · obtain ⟨⟨p, hp, hactive⟩, p', hp', hinactive⟩ := policyEnded_iff.mp hended
      exact ⟨hin.1, hin.2, p, hp, hactive, lapsed_of_processExpired h hp hactive hp' hinactive⟩
    · exact absurd hended (not_ended_of_eq (getPolicy_of_processExpired h hin))
  · rintro ⟨rfl, hid, p, hp, hactive, hlapsed⟩
    have hf := frame_processExpiredLoop _ s 0 h
    obtain ⟨p', hp', hend⟩ := getPolicy_of_edits (editsPolicies_of_processExpired h) hp
    have hlapsed' : s'.Lapsed p' := by
      unfold State.Lapsed
      rw [hend, hf.sequence, State.getGracePeriodLedgers, hf.get .gracePeriodLedgers rfl]
      exact hlapsed
    have hfits : s'.GraceFits p' := hlapsed'.trans (hf.sequence.le.trans hseq)
    refine policyEnded_iff.mpr ⟨⟨p, hp, hactive⟩, p', hp', ?_⟩
    -- the round of the policy has settled it, and an overdue policy is settled only when it ended
    obtain ⟨outcomes, hall, -, -⟩ := settled_of_loop _ s 0 n hsound h
    obtain ⟨hlen, hround⟩ := List.forall₂_iff_get.mp hall
    obtain ⟨i, rfl⟩ := List.mem_iff_get.mp hid
    rcases hround i i.isLt (hlen ▸ i.isLt) with ⟨hnone, -⟩ | ⟨q, hq, hsettled⟩
    · rw [hp'] at hnone
      cases hnone
    rw [hp'] at hq
    cases hq
    rcases hsettled with ⟨hearly, -⟩ | ⟨-, -, ⟨hinactive, -⟩ | ⟨-, ⟨hnot, -⟩ | ⟨-, hnot, -⟩⟩⟩
    · exact absurd (le_trans (Nat.le_add_right _ _) hlapsed') (by omega)
    · exact hinactive
    · exact absurd hfits hnot
    · exact absurd hlapsed' hnot

end Ending

/-! ## Runs -/

theorem sequence_le_of_reach {host : Host} {ok : State → Label → Prop} {s : State}
    (h : (contract host).Reach ok s) : s.sequence ≤ U32_MAX := by
  refine h.invariant (I := fun s => s.sequence ≤ U32_MAX) (fun s hs => State.Fresh.sequence hs) ?_
  intro s l s' _ hstep hs
  cases l with
  | call env c => exact (frame_exec hstep.2).sequence.trans_le hs
  | closeLedger n =>
    obtain ⟨-, hn, rfl⟩ := hstep
    exact hn
  | tokens b a =>
    obtain ⟨-, rfl⟩ := hstep
    exact hs

theorem claimed_iff_of_reach {host : Host} {s : State} (h : (contract host).Reach SlotClear s)
    (holder : Address) (policyId : Nat) :
    s.Claimed holder policyId ↔ s.hasOpenClaim holder policyId = true :=
  (open_slot_exact_of_reach h holder policyId).1.symm

theorem claimed_of_policyCall {env : Env} {s s' : State} {c : PolicyCall}
    (h : (Call.policy c).exec env s = .ok s') (holder : Address) (policyId : Nat) :
    s'.Claimed holder policyId ↔ s.Claimed holder policyId := by
  have hsame : SameKind .claim s s' := (frame_exec h).sameKind (c.untouched rfl)
  simp only [State.Claimed, getClaim_of_same hsame]

/-- **Policies end without open claims exactly when the keeper's batch has none.**  In every run
that meets `LapseClear`, a call that ends policies ends no policy with a claim in `Processing` or
`UnderAppeal` if and only if it meets the condition too. -/
theorem ends_unclaimed_of_reach {host : Host} {s s' : State} {l : Label}
    (h : (contract host).Reach LapseClear s) (hstep : (contract host).step s l s')
    (hends : l.Ends) : EndsUnclaimed s s' ↔ LapseClear s l := by
  have hbits := claimed_iff_of_reach (h.mono fun _ _ => slotClear_of_lapseClear)
  have hsound := policiesSound_of_reach h.to_always
  -- only three of the calls end policies
  unfold Label.Ends at hends
  split at hends
  · rename_i env holder ids
    obtain ⟨-, hexec⟩ := hstep
    have hpolicy : (PolicyCall.processExpired holder ids).exec env s = .ok s' := hexec
    obtain ⟨n, hrun⟩ := policyRan_of_exec hpolicy
    have hended := @ended_iff_of_processExpired s s' holder hsound
      (sequence_le_of_reach h) ids n hrun
    constructor
    · intro hunclaimed id hid hdue
      have hnot := hunclaimed holder id (hended.mpr ⟨rfl, hid, hdue⟩)
      rw [claimed_of_policyCall hexec, hbits] at hnot
      exact Bool.eq_false_of_not_eq_true hnot
    · rintro hclear a id hend
      obtain ⟨rfl, hid, hdue⟩ := hended.mp hend
      rw [claimed_of_policyCall hexec, hbits, hclear id hid hdue]
      exact Bool.false_ne_true
  · rename_i env holder policyId reason
    obtain ⟨-, hexec⟩ := hstep
    have hpolicy : (PolicyCall.terminatePolicy holder policyId reason).exec env s = .ok s' := hexec
    obtain ⟨-, hrun⟩ := policyRan_of_exec hpolicy
    refine iff_of_true (fun a id hend => ?_) trivial
    rw [claimed_of_policyCall hexec, hbits, unclaimed_of_terminateInner hrun (.inl rfl) hend]
    exact Bool.false_ne_true
  · rename_i env admin holder policyId reason allow
    obtain ⟨-, hexec⟩ := hstep
    have hpolicy : (PolicyCall.adminTerminatePolicy admin holder policyId reason allow).exec env s =
      .ok s' := hexec
    have hrun := policyRan_of_exec hpolicy
    refine iff_of_true (fun a id hend => ?_) trivial
    rw [claimed_of_policyCall hexec, hbits, unclaimed_of_terminateInner hrun (.inr hends) hend]
    exact Bool.false_ne_true
  · exact hends.elim

/-- A check for `LapseClear`: the bits of the whole batch are clear, and no call writes the bit for
a claim that is not in flight. -/
def lapseCheck (s : State) : Label → Bool
  | .call _ (.policy (.processExpired holder ids)) =>
    (ids.take PROCESS_EXPIRED_MAX).all fun id => !s.hasOpenClaim holder id
  | l => keepsSlots s l

theorem lapseClear_of_check (s : State) (l : Label) (h : lapseCheck s l = true) :
    LapseClear s l := by
  unfold lapseCheck at h
  unfold LapseClear
  split at h
  · intro id hid _
    simpa using List.all_eq_true.mp h id hid
  · exact slotClear_of_keepsSlots s l h

/-- Account 1 files a claim near the end of its policy, account 2 rejects it, and the keeper
lapses the policy at the end of its grace period. -/
theorem ends_unclaimed_lapsed : ∃ s s', (contract demoHost).Reach LapseClear s ∧
    (contract demoHost).step s demoKeeper s' ∧ PolicyEnded s s' 1 1 ∧ ¬ s'.Claimed 1 1 ∧
      EndsUnclaimed s s' := by
  obtain ⟨s, s', hreach, hstep, hval⟩ := exists_of_followCall lapseClear_of_check (deployed 0)
    (demoSetup ++ [.closeLedger 519000, demoFile 1 1 1000,
      demoCall (.claim (.voteOnClaim 2 1 .reject)), .closeLedger 536680])
    (c := .policy (.processExpired 1 [1, 1, 2]))
    (f := fun s s' => ((s.getPolicy 1 1).any (·.isActive),
      (s'.getPolicy 1 1).any (fun p => !p.isActive),
      lapseCheck s demoKeeper))
    (a := (true, true, true)) (fresh_deployed (by decide))
    (by simp [demoSetup, demoInit, demoBind, demoFile]) (by decide +kernel)
  simp only [Prod.mk.injEq] at hval
  obtain ⟨hactive, hinactive, hcheck⟩ := hval
  have hunclaimed : EndsUnclaimed s s' :=
    (ends_unclaimed_of_reach hreach hstep trivial).mpr (lapseClear_of_check s demoKeeper hcheck)
  exact ⟨s, s', hreach, hstep, ⟨hactive, hinactive⟩, hunclaimed 1 1 ⟨hactive, hinactive⟩,
    hunclaimed⟩

/-- **The keeper lapses a policy under a claim.**  Account 1 files a claim near the end of its
policy, nobody votes, and at the end of the grace period the keeper lapses the policy while the
claim is in `Processing`. -/
theorem lapsed_under_claim : ∃ s s', (contract demoHost).Reach always s ∧
    (contract demoHost).step s demoKeeper s' ∧ PolicyEnded s s' 1 1 ∧ s'.Claimed 1 1 ∧
      ¬ EndsUnclaimed s s' := by
  obtain ⟨s, s', hreach, hstep, hval⟩ := exists_of_followCall always_of_noCheck (deployed 0)
    (demoSetup ++ [.closeLedger 519000, demoFile 1 1 1000, .closeLedger 536680])
    (c := .policy (.processExpired 1 [1, 1, 2]))
    (f := fun s s' => ((s.getPolicy 1 1).any (·.isActive),
      (s'.getPolicy 1 1).any (fun p => !p.isActive),
      (s'.getClaim 1).map fun c => (c.claimant, c.policyId, c.status)))
    (a := (true, true, some (1, 1, .processing))) (fresh_deployed (by decide))
    (by simp [demoSetup, demoInit, demoBind, demoFile]) (by decide +kernel)
  simp only [Prod.mk.injEq, Option.map_eq_some_iff] at hval
  obtain ⟨hactive, hinactive, claim, hclaim, hholder, hpolicy, hst⟩ := hval
  have hclaimed : s'.Claimed 1 1 := ⟨1, claim, hclaim, hholder, hpolicy, .inl hst⟩
  exact ⟨s, s', hreach, hstep, ⟨hactive, hinactive⟩, hclaimed,
    fun h => h 1 1 ⟨hactive, hinactive⟩ hclaimed⟩

end NiffyInsure
