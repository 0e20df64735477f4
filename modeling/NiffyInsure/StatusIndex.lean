import NiffyInsure.Lib.ClassIndex
import NiffyInsure.Book
import NiffyInsure.Trace

/-!
# The policies by status

`storage.rs` keeps a list of policy keys for each status.  It is kept by difference: where a
policy is rewritten, `reindex_policy` computes the status of the old and of the new record at the
present ledger and moves the key if they differ.  The computed status looks at the window of a
policy before its flag, so that a policy which is ended within its window does not move; the
status of the old record may be another one than when the key was entered, so that the key is
taken from a list that it is not in; and the third rejected claim ends a policy without a word to
the index.

* `Policy.documentedStatus`: the status as the comment at `compute_policy_status` gives it.
* `KeepsIndex`: the condition on a step: no policy is ended, and a policy is transferred within its
  window to the recipient's next id.
* `index_agrees_of_reach`: in every run whose steps meet it, a policy that a step writes is listed
  once, under its documented status, and nothing is listed that is not stored.
-/

namespace NiffyInsure

open Machine ClassIndex

/-- Active if the flag is set and the window has not expired; terminated if the flag is not set
and an explicit reason is given; expired otherwise. -/
def Policy.documentedStatus (p : Policy) (now : Nat) : PolicyStatus :=
  if p.isActive = true ∧ now < p.endLedger then .active
  else if p.isActive = false ∧ p.terminationReason ≠ .none ∧
      p.terminationReason ≠ .lapsedNonPayment then .terminated
  else .expired

/-- The lists of the index. -/
def State.statusIndex (s : State) : PolicyStatus → List PolicyLookupKey :=
  fun status => s.getPolicyStatusIndexRaw status

/-! ## The index and its operations -/

section Index

variable {s s' : State}

theorem statusIndex_of_same (h : SameKind .statusIndex s s') : s'.statusIndex = s.statusIndex := by
  funext status
  simp only [State.statusIndex, State.getPolicyStatusIndexRaw, h (.policyByStatusIndex status) rfl]

theorem statusIndex_set_other {k : DataKey} (hk : k.kind ≠ .statusIndex) (v : k.Val) :
    (s.set k v).statusIndex = s.statusIndex :=
  statusIndex_of_same (.of_set_ne hk v)

theorem statusIndex_set (s : State) (status : PolicyStatus) (keys : List PolicyLookupKey) :
    (s.set (.policyByStatusIndex status) keys).statusIndex =
      Function.update s.statusIndex status keys := by
  funext st
  by_cases hst : st = status
  · subst hst
    simp [State.statusIndex, State.getPolicyStatusIndexRaw]
  · have hkey : DataKey.policyByStatusIndex st ≠ .policyByStatusIndex status := by simpa using hst
    simp [State.statusIndex, State.getPolicyStatusIndexRaw, hkey, hst]

theorem statusIndex_indexPolicyByStatus (s : State) (status : PolicyStatus)
    (key : PolicyLookupKey) :
    (s.indexPolicyByStatus status key).statusIndex = add s.statusIndex status key := by
  unfold State.indexPolicyByStatus add
  dsimp only
  split
  · rename_i hmem
    exact (if_pos hmem).symm
  · rename_i hmem
    rw [statusIndex_set]
    exact (if_neg hmem).symm

theorem statusIndex_unindexPolicyByStatus (s : State) (status : PolicyStatus)
    (key : PolicyLookupKey) :
    (s.unindexPolicyByStatus status key).statusIndex = drop s.statusIndex status key := by
  unfold State.unindexPolicyByStatus drop
  dsimp only
  split
  · exact statusIndex_set s status _
  · rename_i hlen
    have hall : (s.statusIndex status).filter (· ≠ key) = s.statusIndex status :=
      List.filter_sublist.eq_of_length_le (Nat.le_of_not_lt hlen)
    rw [hall, Function.update_eq_self]

theorem statusIndex_reindexPolicy (s : State) (holder : Address) (policyId : Nat) (p q : Policy) :
    (s.reindexPolicy holder policyId p q).statusIndex =
      move s.statusIndex (computePolicyStatus p s.sequence) (computePolicyStatus q s.sequence)
        ⟨holder, policyId⟩ := by
  unfold State.reindexPolicy move
  dsimp only
  split
  · rfl
  · rw [statusIndex_indexPolicyByStatus, statusIndex_unindexPolicyByStatus]

theorem computePolicyStatus_active {p : Policy} {now : Nat} (hstart : p.startLedger ≤ now)
    (hend : now < p.endLedger) : computePolicyStatus p now = .active :=
  if_pos (isPolicyActiveByLedger_iff.mpr ⟨hstart, hend⟩)

end Index

/-! ## What the policy calls do to the index -/

section Calls

variable {env : Env} {s s' : State}

theorem initiatePolicy_index {a : InitiatePolicyArgs} {policy : Policy}
    (h : initiatePolicy env s a = .ok (policy, s')) :
    policy.startLedger = s.sequence ∧ s.sequence < policy.endLedger ∧ s'.sequence = s.sequence ∧
      s'.statusIndex = add s.statusIndex .active ⟨policy.holder, policy.policyId⟩ := by
  have hseq : s'.sequence = s.sequence := (frame_initiatePolicy h).sequence
  obtain ⟨premium, deductible, decimals, treasuryAmount, feeAmount, feeRecipient, s₃,
    s₄, s₅, -, rfl, hf₃, -, -, -, h₄, h₅, hf, -⟩ := initiatePolicy_eq_ok h
  obtain ⟨s₆, s₇, h₆, hwindow, h₇, rfl⟩ := bindPolicy_eq_ok h₅
  have hf₇ := frame_addVoter h₇
  have hkind : SameKind .statusIndex s s₇ := by
    refine SameKind.trans ?_ (hf₇.sameKind rfl)
    rw [State.setPolicy, SameKind.set_iff rfl, SameKind.set_iff rfl]
    exact ((hf₃.sameKind rfl).trans ((frame_collectPremiumWithFee h₄).sameKind rfl)).trans
      ((frame_reserveCoverage h₆).sameKind rfl)
  have hnow : s₇.sequence = s.sequence := by
    rw [← hseq, hf.sequence]
    exact (frame_indexPolicyByStatus _ _ _).sequence.symm
  have hend : s.sequence < s.sequence + POLICY_DURATION_LEDGERS :=
    Nat.lt_add_of_pos_right (by decide)
  refine ⟨rfl, hend, hseq, ?_⟩
  rw [statusIndex_of_same (hf.sameKind rfl), State.indexNewPolicy, statusIndex_indexPolicyByStatus,
    statusIndex_of_same hkind, hnow]
  exact congrArg (add s.statusIndex · _) (computePolicyStatus_active (Nat.le_refl _) hend)

theorem renewPolicy_index {a : RenewPolicyArgs} {o : RenewPolicyOutcome}
    (h : renewPolicy env s a = .ok (o, s')) :
    Frame [.expiryMark] s s' ∨ ∃ policy policy₁, s.getPolicy a.holder a.policyId = some policy ∧
      policy.isActive = true ∧ ¬ s.Lapsed policy ∧
      policy₁.isActive = true ∧ policy₁.startLedger = policy.startLedger ∧
      policy₁.endLedger = policy.endLedger + POLICY_DURATION_LEDGERS ∧ s'.sequence = s.sequence ∧
      SameKind .policy (s.setPolicy a.holder a.policyId policy₁) s' ∧
      s'.statusIndex = move s.statusIndex (computePolicyStatus policy s.sequence)
        (computePolicyStatus policy₁ s.sequence) ⟨a.holder, a.policyId⟩ := by
  obtain hf | ⟨policy, premium, s₁, s₂, -, hget, hactive, hnot, -, hf₁, h₂, hf₂, hrec, hlast⟩ :=
    renewPolicy_eq_ok h
  · exact .inl hf
  · have hf₃ := frame_collectPremium h₂
    have hnow : s₂.sequence = s.sequence := hf₃.sequence.trans hf₁.sequence
    have hkind : SameKind .statusIndex s s₂ := (hf₁.sameKind rfl).trans (hf₃.sameKind rfl)
    refine .inr ⟨policy, policy.renewed premium (a.newCoverageAmount.getD policy.coverage)
      (policy.endLedger + POLICY_DURATION_LEDGERS), hget, hactive, hnot, hactive, rfl, rfl,
      hf₂.sequence.trans hnow, hrec, ?_⟩
    rw [statusIndex_of_same (hlast.sameKind rfl), State.renewRecord, State.resetOnRenewal,
      statusIndex_set_other (by simp), statusIndex_reindexPolicy, State.setPolicy,
      State.sequence_set,
      statusIndex_set_other (by simp), statusIndex_of_same hkind, hnow]

/-- A transfer within the window takes the key of the holder off the active ones, and enters the
key of the recipient under its fresh id. -/
theorem transferPolicy_index {holder newHolder : Address} {policyId : Nat} {policy : Policy}
    (h : transferPolicy env s holder policyId newHolder = .ok s')
    (hget : s.getPolicy holder policyId = some policy) (hstart : policy.startLedger ≤ s.sequence)
    (hend : s.sequence < policy.endLedger) :
    s'.statusIndex = add (drop s.statusIndex .active ⟨holder, policyId⟩) .active
      ⟨newHolder, s.getPolicyCounter newHolder + 1⟩ := by
  obtain ⟨p, s₁, s₂, hp, -, -, h₁, h₂, rfl⟩ := transferPolicy_eq_ok h
  rw [hget] at hp
  cases hp
  have hkind : SameKind .statusIndex (s.moveRecord holder policyId newHolder policy) s₂ :=
    ((frame_dropActivePolicy h₁).sameKind rfl).trans ((frame_addVoter h₂).sameKind rfl)
  have hemit : (s₂.emit (.policyTransferred (s.getPolicyCounter newHolder + 1) holder newHolder
      s.sequence)).statusIndex = s₂.statusIndex := rfl
  rw [hemit, statusIndex_of_same hkind]
  unfold State.moveRecord State.indexNewPolicy
  rw [statusIndex_indexPolicyByStatus, statusIndex_unindexPolicyByStatus,
    (frame_unindexPolicyByStatus _ _ _).sequence]
  have hold : computePolicyStatus policy s.sequence = .active :=
    computePolicyStatus_active hstart hend
  have hnew : computePolicyStatus (policy.movedTo newHolder) s.sequence = .active := hold
  have hpre : SameKind .statusIndex s (((s.set (.policyCounter newHolder)
      (s.getPolicyCounter newHolder + 1)).setPolicy newHolder policyId
        (policy.movedTo newHolder)).removePolicy holder policyId) := by
    rw [State.removePolicy, SameKind.remove_iff rfl, SameKind.set_iff rfl, SameKind.set_iff rfl]
    exact .refl _ s
  rw [statusIndex_of_same hpre, hold]
  exact congrArg (add _ · _) hnew

end Calls

/-! ## Steps -/

/-- The condition on a step.  No policy is terminated, none is past its grace period when
`process_expired` comes to it, no rejected claim strikes a policy out, and a transfer comes before
the end of the window and has for its id the recipient's next one. -/
def KeepsIndex (s : State) : Label → Prop
  | .call _ (.claim c) => c.Spares s
  | .call _ (.policy (.terminatePolicy ..)) => False
  | .call _ (.policy (.adminTerminatePolicy ..)) => False
  | .call _ (.policy (.processExpired holder policyIds)) =>
    s.NoneLapsed holder (policyIds.take PROCESS_EXPIRED_MAX)
  | .call _ (.policy (.transferPolicy holder policyId newHolder)) =>
    policyId = s.getPolicyCounter newHolder + 1 ∧
      ∀ p, s.getPolicy holder policyId = some p → s.sequence < p.endLedger
  | _ => True

/-- Every stored policy is active, has started at `now`, and is listed as active; no other key is
listed. -/
structure State.IndexedBy (s : State) (index : PolicyStatus → List PolicyLookupKey)
    (now : Nat) : Prop where
  active : ∀ a id p, s.getPolicy a id = some p → p.isActive = true ∧ p.startLedger ≤ now
  listed : ∀ a id, Listed index ⟨a, id⟩ ((s.getPolicy a id).map fun _ => .active)

/-- The index of the state is right. -/
def State.IndexSound (s : State) : Prop := s.IndexedBy s.statusIndex s.sequence

section Steps

variable {env : Env} {s s' : State}

theorem State.IndexSound.listed_active (hs : s.IndexSound) {a : Address} {id : Nat} {p : Policy}
    (hget : s.getPolicy a id = some p) : Listed s.statusIndex ⟨a, id⟩ (some .active) := by
  have hlisted := hs.listed a id
  rw [hget] at hlisted
  exact hlisted

theorem State.IndexSound.listed_none (hs : s.IndexSound) {a : Address} {id : Nat}
    (hget : s.getPolicy a id = none) : Listed s.statusIndex ⟨a, id⟩ none := by
  have hlisted := hs.listed a id
  rw [hget] at hlisted
  exact hlisted

theorem key_ne {a holder : Address} {id policyId : Nat} (h : ¬ (a = holder ∧ id = policyId)) :
    PolicyLookupKey.mk a id ≠ ⟨holder, policyId⟩ := by
  intro heq
  cases heq
  exact h ⟨rfl, rfl⟩

theorem State.IndexedBy.write {index index' : PolicyStatus → List PolicyLookupKey} {now : Nat}
    {holder : Address} {policyId : Nat} {p : Policy} (hs : s.IndexedBy index now)
    (hrec : SameKind .policy (s.setPolicy holder policyId p) s') (hactive : p.isActive = true)
    (hstart : p.startLedger ≤ now) (hself : Listed index' ⟨holder, policyId⟩ (some .active))
    (hother : ∀ key o, key ≠ ⟨holder, policyId⟩ → Listed index key o → Listed index' key o) :
    s'.IndexedBy index' now := by
  have hread := getPolicy_of_write hrec
  constructor
  · intro a id q hq
    rw [hread] at hq
    split at hq
    · cases hq
      exact ⟨hactive, hstart⟩
    · exact hs.active a id q hq
  · intro a id
    rw [hread]
    split
    · rename_i heq
      obtain ⟨rfl, rfl⟩ := heq
      exact hself
    · rename_i hne
      exact hother _ _ (key_ne hne) (hs.listed a id)

theorem indexSound_of_spares (h : SparesPolicies s s') (hindex : SameKind .statusIndex s s')
    (hseq : s'.sequence = s.sequence) (hs : s.IndexSound) : s'.IndexSound := by
  unfold State.IndexSound
  rw [statusIndex_of_same hindex, hseq]
  refine h.keeps (I := fun t => t.IndexedBy s.statusIndex s.sequence) ?_ hs
  rintro s₁ s₂ (hsame | ⟨holder, policyId, p, p', hget, hedit, hactive, hwrite⟩) hs₁
  · constructor
    · intro a id q hq
      rw [getPolicy_of_same hsame] at hq
      exact hs₁.active a id q hq
    · intro a id
      rw [getPolicy_of_same hsame]
      exact hs₁.listed a id
  · obtain ⟨hp, hstart⟩ := hs₁.active holder policyId p hget
    have hlisted := hs₁.listed holder policyId
    rw [hget] at hlisted
    refine hs₁.write hwrite ?_ ?_ hlisted fun _ _ _ h => h
    · rw [hactive, hp]
    · rw [hedit.startLedger]
      exact hstart

theorem indexSound_of_frame {ks : List Kind} (h : Frame ks s s')
    (hpolicy : ks.contains .policy = false) (hindex : ks.contains .statusIndex = false)
    (hs : s.IndexSound) : s'.IndexSound :=
  indexSound_of_spares (.of_same (h.sameKind hpolicy)) (h.sameKind hindex) h.sequence hs

theorem indexSound_of_initiatePolicy {a : InitiatePolicyArgs} {policy : Policy}
    (h : initiatePolicy env s a = .ok (policy, s')) (hs : s.IndexSound) : s'.IndexSound := by
  obtain ⟨hrec, hholder, -, hactive, -, -⟩ := initiatePolicy_records h
  obtain ⟨hstart, -, hseq, hindex⟩ := initiatePolicy_index h
  have hnone : s.getPolicy policy.holder policy.policyId = none := by
    rw [hholder]
    exact initiatePolicy_fresh h
  unfold State.IndexSound
  rw [hindex, hseq]
  refine hs.write hrec hactive hstart.le ((hs.listed_none hnone).add .active) ?_
  intro key o hne hlisted
  exact hlisted.add_other hne .active

/-- The window of a renewed policy is open, as the grace period is shorter than a term. -/
theorem lt_renewed_end {policy : Policy}
    (hgrace : s.getGracePeriodLedgers ≤ MAX_GRACE_PERIOD_LEDGERS)
    (hnot : ¬ s.Lapsed policy) : s.sequence < policy.endLedger + POLICY_DURATION_LEDGERS := by
  have hshort : MAX_GRACE_PERIOD_LEDGERS ≤ POLICY_DURATION_LEDGERS := by decide
  unfold State.Lapsed at hnot
  omega

/-- A renewed policy is where it belongs, whatever its status was before. -/
theorem indexSound_of_renewPolicy {a : RenewPolicyArgs} {o : RenewPolicyOutcome}
    (h : renewPolicy env s a = .ok (o, s'))
    (hgrace : s.getGracePeriodLedgers ≤ MAX_GRACE_PERIOD_LEDGERS) (hs : s.IndexSound) :
    s'.IndexSound := by
  obtain hf | ⟨policy, policy₁, hget, -, hnot, hactive, hstart, hend, hseq, hrec, hindex⟩ :=
    renewPolicy_index h
  · exact indexSound_of_frame hf rfl rfl hs
  · have hopen := lt_renewed_end hgrace hnot
    have hbegun : policy₁.startLedger ≤ s.sequence := by
      rw [hstart]
      exact (hs.active _ _ _ hget).2
    have hnew : computePolicyStatus policy₁ s.sequence = .active :=
      computePolicyStatus_active hbegun (by omega)
    unfold State.IndexSound
    rw [hindex, hnew, (hs.listed_active hget).move_self, hseq]
    exact hs.write hrec hactive hbegun (hs.listed_active hget) fun _ _ _ h => h

theorem indexSound_of_transferPolicy {holder newHolder : Address} {policyId : Nat}
    (h : transferPolicy env s holder policyId newHolder = .ok s')
    (hok : KeepsIndex s (.call env (.policy (.transferPolicy holder policyId newHolder))))
    (hs : s.IndexSound) : s'.IndexSound := by
  obtain ⟨hid, hwindow⟩ := hok
  obtain ⟨policy, hget, hactive, hne, hrec, -⟩ := transferPolicy_records h
  have hstart := (hs.active _ _ _ hget).2
  have hread := getPolicy_of_move hne hrec
  have hkeys : PolicyLookupKey.mk holder policyId ≠ ⟨newHolder, policyId⟩ := key_ne fun h => hne h.1
  have hdropped := (hs.listed_active hget).drop
  unfold State.IndexSound
  rw [transferPolicy_index h hget hstart (hwindow policy hget), ← hid,
    (frame_transferPolicy h).sequence]
  constructor
  · intro a id q hq
    rw [hread] at hq
    split at hq
    · cases hq
    · split at hq
      · cases hq
        exact ⟨hactive, hstart⟩
      · exact hs.active a id q hq
  · intro a id
    rw [hread]
    split
    · rename_i heq
      obtain ⟨rfl, rfl⟩ := heq
      exact hdropped.add_other hkeys .active
    · rename_i hold
      have hkept := (hs.listed a id).drop_other (key_ne hold) .active
      split
      · rename_i heq
        obtain ⟨rfl, rfl⟩ := heq
        -- a record of the recipient that is replaced was listed as active before
        cases hprev : s.getPolicy a id with
        | none =>
          rw [hprev] at hkept
          exact hkept.add .active
        | some q =>
          rw [hprev] at hkept
          have hsame : add (drop s.statusIndex .active ⟨holder, id⟩) .active ⟨a, id⟩ =
            drop s.statusIndex .active ⟨holder, id⟩ := hkept.add_self
          rw [hsame]
          exact hkept
      · rename_i hnew
        exact hkept.add_other (key_ne hnew) .active

theorem indexSound_of_policyCall {c : PolicyCall} (h : c.exec env s = .ok s')
    (hok : KeepsIndex s (.call env (.policy c)))
    (hgrace : s.getGracePeriodLedgers ≤ MAX_GRACE_PERIOD_LEDGERS) (hs : s.IndexSound) :
    s'.IndexSound := by
  have hf := frame_policyCall h
  have hran := policyRan_of_exec h
  cases c with
  | initiatePolicy =>
    obtain ⟨policy, hran⟩ := hran
    exact indexSound_of_initiatePolicy hran hs
  | setBeneficiary holder policyId b =>
    obtain ⟨policy, hpolicy, rfl | hrec⟩ := setBeneficiary_eq_ok hran
    · exact hs
    · refine indexSound_of_spares ?_ (hf.sameKind rfl) hf.sequence hs
      exact Relation.ReflTransGen.single (.inr ⟨holder, policyId, policy,
        { policy with beneficiary := b }, hpolicy,
        ⟨rfl, rfl, rfl, rfl, rfl, rfl, rfl, rfl, rfl, fun h => h⟩, rfl, hrec⟩)
  | adminUpdatePolicyMetadataUri holder policyId uri =>
    obtain ⟨policy, hpolicy, rfl | hrec⟩ := updatePolicyMetadataUri_eq_ok hran
    · exact hs
    · refine indexSound_of_spares ?_ (hf.sameKind rfl) hf.sequence hs
      exact Relation.ReflTransGen.single (.inr ⟨holder, policyId, policy,
        { policy with metadataUri := uri }, hpolicy,
        ⟨rfl, rfl, rfl, rfl, rfl, rfl, rfl, rfl, rfl, fun h => h⟩, rfl, hrec⟩)
  | renewPolicy =>
    obtain ⟨o, hran⟩ := hran
    exact indexSound_of_renewPolicy hran hgrace hs
  | transferPolicy => exact indexSound_of_transferPolicy hran hok hs
  | terminatePolicy => exact hok.elim
  | adminTerminatePolicy => exact hok.elim
  | processExpired =>
    obtain ⟨n, hran⟩ := hran
    exact indexSound_of_frame (frame_processExpiredLoop_of_noneLapsed _ s 0 hran hok) rfl rfl hs

theorem indexSound_of_step {host : Host} {l : Label} (hstep : (contract host).step s l s')
    (hok : KeepsIndex s l) (hgrace : s.getGracePeriodLedgers ≤ MAX_GRACE_PERIOD_LEDGERS)
    (hs : s.IndexSound) : s'.IndexSound := by
  cases l with
  | closeLedger n =>
    obtain ⟨hle, -, rfl⟩ := hstep
    refine ⟨fun a id p hp => ?_, hs.listed⟩
    obtain ⟨hactive, hstart⟩ := hs.active a id p hp
    exact ⟨hactive, Nat.le_trans hstart hle⟩
  | tokens b a =>
    obtain ⟨-, rfl⟩ := hstep
    exact ⟨hs.active, hs.listed⟩
  | call env c =>
    obtain ⟨-, h⟩ := hstep
    cases c with
    | claim c =>
      have hf := frame_claimCall h
      refine indexSound_of_spares (sparesPolicies_of_claimCall h hok) ?_ hf.sequence hs
      exact hf.sameKind (c.untouched rfl)
    | policy c => exact indexSound_of_policyCall h hok hgrace hs
    | treasury c =>
      exact indexSound_of_frame (frame_treasuryCall h) (c.untouched rfl) (c.untouched rfl) hs
    | setting c => exact indexSound_of_frame (frame_setting h) rfl rfl hs
    | governance c =>
      exact indexSound_of_frame (frame_governanceCall h) (c.untouched rfl) (c.untouched rfl) hs

end Steps

/-! ## Runs -/

theorem gracePeriod_le_of_reach {host : Host} {s : State} (h : (contract host).Reach always s) :
    s.getGracePeriodLedgers ≤ MAX_GRACE_PERIOD_LEDGERS := by
  refine h.invariant (I := fun s => s.getGracePeriodLedgers ≤ MAX_GRACE_PERIOD_LEDGERS) ?_ ?_
  · intro s hs
    rw [State.getGracePeriodLedgers, State.Fresh.get host hs]
    decide
  · intro s l s' _ hstep hs
    have hsame : ∀ {t : State}, SameKind .gracePeriod s t →
        t.getGracePeriodLedgers ≤ MAX_GRACE_PERIOD_LEDGERS := by
      intro t ht
      rw [State.getGracePeriodLedgers, ht .gracePeriodLedgers rfl]
      exact hs
    cases l with
    | closeLedger n =>
      obtain ⟨-, -, rfl⟩ := hstep
      exact hs
    | tokens b a =>
      obtain ⟨-, rfl⟩ := hstep
      exact hs
    | call env c =>
      obtain ⟨-, h⟩ := hstep
      cases c with
      | claim c => exact hsame ((frame_claimCall h).sameKind (c.untouched rfl))
      | policy c => exact hsame ((frame_policyCall h).sameKind (c.untouched rfl))
      | treasury c => exact hsame ((frame_treasuryCall h).sameKind (c.untouched rfl))
      | governance c => exact hsame ((frame_governanceCall h).sameKind (c.untouched rfl))
      | setting c =>
        have hf := frame_settingOf h
        cases c with
        | setGracePeriodLedgers ledgers =>
          obtain ⟨s₁, -, hcheck, rfl⟩ := configure_eq_ok h
          have hget : (s₁.writeAll [⟨.gracePeriodLedgers, some ledgers⟩]).getGracePeriodLedgers =
              ledgers := by
            simp [State.writeAll, State.setOrRemove, State.getGracePeriodLedgers]
          have hvalid := ensure_eq_ok.mp hcheck
          simp only [isValidGracePeriodLedgers, Bool.and_eq_true, decide_eq_true_eq] at hvalid
          rw [hget]
          exact hvalid.2
        | _ => exact hsame (hf.sameKind rfl)

theorem indexSound_of_reach {host : Host} {s : State} (h : (contract host).Reach KeepsIndex s) :
    s.IndexSound := by
  refine h.invariant_with (J := fun s => s.getGracePeriodLedgers ≤ MAX_GRACE_PERIOD_LEDGERS)
    (I := State.IndexSound) (fun s hs => gracePeriod_le_of_reach hs.to_always) ?_ ?_
  · intro s hs
    constructor
    · intro a id p hp
      simp [State.getPolicy, State.Fresh.get host hs] at hp
    · intro a id status
      simp [State.getPolicy, State.statusIndex, State.getPolicyStatusIndexRaw,
        State.Fresh.get host hs]
  · intro s l s' hgrace hok hstep hs
    exact indexSound_of_step hstep hok hgrace hs

/-! ## Agreement after a step -/

/-- The calls that begin, change or end a policy. -/
def PolicyCall.isLifecycle : PolicyCall → Bool
  | .setBeneficiary .. | .adminUpdatePolicyMetadataUri .. => false
  | _ => true

/-- The operation of the step has written the record `p` at the key: a lifecycle call has, or a
rejected claim that strikes the policy out. -/
structure Touched (l : Label) (s s' : State) (a : Address) (id : Nat) (p : Policy) : Prop where
  stored : s'.getPolicy a id = some p
  written : s.getPolicy a id ≠ some p
  operation : match l with
    | .call _ (.policy c) => c.isLifecycle = true
    | .call _ (.claim _) =>
      p.isActive = false ∧ ∃ q, s.getPolicy a id = some q ∧ q.isActive = true
    | _ => False

/-- **The index agrees with the policies after the step**: the key of a policy that the step has
touched stands once in the list of its documented status and in no other list, and no list has a
key without a stored policy. -/
structure IndexAgrees (l : Label) (s s' : State) : Prop where
  touched : ∀ a id p, Touched l s s' a id p →
    Listed s'.statusIndex ⟨a, id⟩ (some (p.documentedStatus s'.sequence))
  stored : ∀ status key, key ∈ s'.statusIndex status →
    (s'.getPolicy key.holder key.policyId).isSome = true

section Agreement

variable {env : Env} {s s' : State} {a : Address} {id : Nat} {p : Policy}

/-- While every policy is active, the index agrees with those whose window is open. -/
theorem State.IndexSound.listed_documented_iff (hs : s.IndexSound)
    (hget : s.getPolicy a id = some p) :
    Listed s.statusIndex ⟨a, id⟩ (some (p.documentedStatus s.sequence)) ↔
      s.sequence < p.endLedger := by
  have hlisted := hs.listed_active hget
  have hactive := (hs.active a id p hget).1
  constructor
  · intro h
    by_contra hended
    have heq := hlisted.unique h
    simp [Policy.documentedStatus, hactive, hended] at heq
  · intro hopen
    have hdoc : p.documentedStatus s.sequence = .active := if_pos ⟨hactive, hopen⟩
    rw [hdoc]
    exact hlisted

/-- The record at a key that one write has changed is the written one. -/
theorem eq_of_changed {holder : Address} {policyId : Nat} {q : Policy}
    (hrec : SameKind .policy (s.setPolicy holder policyId q) s')
    (hnew : s'.getPolicy a id = some p) (hold : s.getPolicy a id ≠ some p) : p = q := by
  rw [getPolicy_of_write hrec] at hnew
  split at hnew
  · exact (Option.some.inj hnew).symm
  · exact absurd hnew hold

theorem open_of_policyCall {c : PolicyCall} (h : c.exec env s = .ok s')
    (hok : KeepsIndex s (.call env (.policy c))) (hc : c.isLifecycle = true)
    (hgrace : s.getGracePeriodLedgers ≤ MAX_GRACE_PERIOD_LEDGERS)
    (hnew : s'.getPolicy a id = some p) (hold : s.getPolicy a id ≠ some p) :
    s'.sequence < p.endLedger := by
  have hran := policyRan_of_exec h
  cases c with
  | setBeneficiary => cases hc
  | adminUpdatePolicyMetadataUri => cases hc
  | initiatePolicy =>
    obtain ⟨policy, hran⟩ := hran
    obtain ⟨-, hopen, hseq, -⟩ := initiatePolicy_index hran
    rw [eq_of_changed (initiatePolicy_records hran).1 hnew hold, hseq]
    exact hopen
  | renewPolicy =>
    obtain ⟨o, hran⟩ := hran
    obtain hf | ⟨policy, policy₁, -, -, hnot, -, -, hend, hseq, hrec, -⟩ := renewPolicy_index hran
    · rw [getPolicy_of_same (hf.sameKind rfl)] at hnew
      exact absurd hnew hold
    · rw [eq_of_changed hrec hnew hold, hseq, hend]
      exact lt_renewed_end hgrace hnot
  | transferPolicy holder policyId newHolder =>
    obtain ⟨policy, hget, -, hne, hrec, -⟩ := transferPolicy_records hran
    rw [(frame_transferPolicy hran).sequence]
    rw [getPolicy_of_move hne hrec] at hnew
    split at hnew
    · cases hnew
    · split at hnew
      · cases hnew
        exact hok.2 policy hget
      · exact absurd hnew hold
  | terminatePolicy => exact hok.elim
  | adminTerminatePolicy => exact hok.elim
  | processExpired =>
    obtain ⟨n, hran⟩ := hran
    have hf := frame_processExpiredLoop_of_noneLapsed _ s 0 hran hok
    rw [getPolicy_of_same (hf.sameKind rfl)] at hnew
    exact absurd hnew hold

end Agreement

/-- **The status index agrees with the policies after every step**, in every run in which no policy
is terminated, lapses or is struck out, and a policy is transferred within its window to the
recipient's next id.  A policy that was written by an earlier step is listed under its documented
status as long as its window is open. -/
theorem index_agrees_of_reach {host : Host} {s s' : State} {l : Label}
    (h : (contract host).Reach KeepsIndex s) (hok : KeepsIndex s l)
    (hstep : (contract host).step s l s') :
    IndexAgrees l s s' ∧ ∀ a id p, s'.getPolicy a id = some p →
      (Listed s'.statusIndex ⟨a, id⟩ (some (p.documentedStatus s'.sequence)) ↔
        s'.sequence < p.endLedger) := by
  have hgrace := gracePeriod_le_of_reach h.to_always
  have hsound := indexSound_of_step hstep hok hgrace (indexSound_of_reach h)
  refine ⟨⟨?_, ?_⟩, fun a id p hget => hsound.listed_documented_iff hget⟩
  · intro a id p htouched
    rw [hsound.listed_documented_iff htouched.stored]
    have hop := htouched.operation
    cases l with
    | closeLedger n => exact hop.elim
    | tokens b al => exact hop.elim
    | call env c =>
      cases c with
      | claim c =>
        have hactive := (hsound.active a id p htouched.stored).1
        rw [hop.1] at hactive
        cases hactive
      | policy c =>
        exact open_of_policyCall hstep.2 hok hop hgrace htouched.stored htouched.written
      | treasury c => exact hop.elim
      | setting c => exact hop.elim
      | governance c => exact hop.elim
  · rintro status ⟨a, id⟩ hmem
    have hlisted := (hsound.listed a id).mem_iff.mp hmem
    obtain ⟨p, hp, -⟩ := Option.map_eq_some_iff.mp hlisted
    exact Option.isSome_of_eq_some hp

/-! ## Two runs -/

/-- The check of a run that only binds policies. -/
def onlyBinds (_ : State) : Label → Bool
  | .call _ (.policy (.initiatePolicy _)) | .call _ (.setting _) => true
  | _ => false

theorem keepsIndex_of_check (s : State) (l : Label) (h : onlyBinds s l = true) :
    KeepsIndex s l := by
  unfold onlyBinds at h
  split at h
  · trivial
  · trivial
  · cases h

/-- Account 1 transfers its policy to account 7, which has none: the index follows. -/
theorem index_agrees_transferred : ∃ s s' p,
    (contract demoHost).Reach KeepsIndex s ∧
    (contract demoHost).step s (demoCall (.policy (.transferPolicy 1 1 7))) s' ∧
    s'.getPolicy 7 1 = some p ∧ p.documentedStatus s'.sequence = .active ∧
    Listed s'.statusIndex ⟨7, 1⟩ (some .active) ∧ ¬ ⟨1, 1⟩ ∈ s'.statusIndex .active := by
  obtain ⟨s, s', hreach, hstep, hval⟩ := exists_of_followCall keepsIndex_of_check
    (deployed 0) [demoInit, demoBind 1 .auto 10000000]
    (c := .policy (.transferPolicy 1 1 7))
    (f := fun s s' => (s.getPolicyCounter 7,
      (s.getPolicy 1 1).map fun p : Policy => decide (s.sequence < p.endLedger),
      (s'.getPolicy 7 1).map fun p : Policy =>
        (p.documentedStatus s'.sequence, decide (s'.sequence < p.endLedger)),
      s'.getPolicy 1 1))
    (a := (0, some true, some (.active, true), none))
    (fresh_deployed (by decide)) (by simp [demoInit, demoBind]) (by decide +kernel)
  simp only [Prod.mk.injEq, Option.map_eq_some_iff, decide_eq_true_eq] at hval
  obtain ⟨hcounter, ⟨q, hq, hopen⟩, ⟨p, hp, hdoc, hwindow⟩, hgone⟩ := hval
  have hok : KeepsIndex s (demoCall (.policy (.transferPolicy 1 1 7))) := by
    refine ⟨?_, ?_⟩
    · rw [hcounter]
    · intro r hr
      rw [hq] at hr
      cases hr
      exact hopen
  obtain ⟨hagrees, hlisted⟩ := index_agrees_of_reach hreach hok hstep
  refine ⟨s, s', p, hreach, hstep, hp, hdoc, ?_, ?_⟩
  · rw [← hdoc]
    exact (hlisted 7 1 p hp).mpr hwindow
  · intro hmem
    have hsome := hagrees.stored .active ⟨1, 1⟩ hmem
    rw [hgone] at hsome
    cases hsome

/-- **A terminated policy stays listed as active.**  Account 1 terminates its policy on the day that
it was bound; the computed status looks at the window alone, and the key does not move. -/
theorem terminated_listed_active : ∃ s s' p, (contract demoHost).Reach always s ∧
    (contract demoHost).step s
      (demoCall (.policy (.terminatePolicy 1 1 .voluntaryCancellation))) s' ∧
    s'.getPolicy 1 1 = some p ∧ p.documentedStatus s'.sequence = .terminated ∧
    s'.statusIndex .active = [⟨1, 1⟩] ∧ s'.statusIndex .terminated = [] ∧
    ¬ IndexAgrees (demoCall (.policy (.terminatePolicy 1 1 .voluntaryCancellation))) s s' := by
  obtain ⟨s, s', hreach, hstep, hval⟩ := exists_of_followCall always_of_noCheck
    (deployed 0) [demoInit, demoBind 1 .auto 10000000]
    (c := .policy (.terminatePolicy 1 1 .voluntaryCancellation))
    (f := fun s s' => ((s.getPolicy 1 1).map fun p : Policy => p.isActive,
      (s'.getPolicy 1 1).map fun p : Policy => (p.isActive, p.documentedStatus s'.sequence),
      s'.statusIndex .active, s'.statusIndex .terminated))
    (a := (some true, some (false, .terminated), [⟨1, 1⟩], []))
    (fresh_deployed (by decide)) (by simp [demoInit, demoBind]) (by decide +kernel)
  simp only [Prod.mk.injEq, Option.map_eq_some_iff] at hval
  obtain ⟨⟨q, hq, hactive⟩, ⟨p, hp, hended, hdoc⟩, hlist, hnone⟩ := hval
  refine ⟨s, s', p, hreach, hstep, hp, hdoc, hlist, hnone, ?_⟩
  intro hagrees
  have hwritten : s.getPolicy 1 1 ≠ some p := by
    intro hsame
    rw [hq] at hsame
    cases hsame
    rw [hended] at hactive
    cases hactive
  have hlisted := hagrees.touched 1 1 p ⟨hp, hwritten, rfl⟩ .terminated
  rw [hnone, hdoc] at hlisted
  cases hlisted

end NiffyInsure
