import NiffyInsure.PolicyStep
import NiffyInsure.Trace

/-!
# Transferring a policy

`transfer_policy` allocates a fresh id under the recipient "to avoid colliding with an existing
`(new_holder, policy_id)` key", and then writes the record under the old id.  The counter, the
status index and the event name the fresh id, so that the record is found there only when the two
ids happen to be the same; otherwise it may replace a policy of the recipient.

* `MovesExactly`: one policy moves, to the id that the index and the event name, and no policy is
  lost.
* `transfer_movesExactly_iff`: a successful transfer does this exactly when the old id is the
  recipient's next one, and free.
-/

namespace NiffyInsure

open Machine

/-- **The transfer moves one policy and loses none**: the record of `policy` leaves its place and
is stored under the new holder at the fresh id that the index and the event name; the policies
that the new holder had are other ones and stay as they were, and so do all others. -/
structure MovesExactly (s s' : State) (holder : Address) (policyId : Nat) (newHolder : Address)
    (policy : Policy) (newId : Nat) : Prop where
  allocated : s'.getPolicyCounter newHolder = newId ∧ newId = s.getPolicyCounter newHolder + 1
  event : s'.events.getLast? = some (.policyTransferred newId holder newHolder s.sequence)
  indexed : ⟨newHolder, newId⟩ ∈ s'.getPolicyStatusIndexRaw (computePolicyStatus policy s.sequence)
  removed : s'.getPolicy holder policyId = none
  stored : s'.getPolicy newHolder newId = some { policy with holder := newHolder, policyId :=
    newId }
  kept : ∀ id q, s.getPolicy newHolder id = some q →
    id ≠ newId ∧ s'.getPolicy newHolder id = some q
  others : ∀ a id, a ≠ newHolder → ¬ (a = holder ∧ id = policyId) →
    s'.getPolicy a id = s.getPolicy a id

section Transfer

variable {env : Env} {s s' : State} {holder newHolder : Address} {policyId : Nat} {policy : Policy}

theorem mem_indexPolicyByStatus (s : State) (status : PolicyStatus) (key : PolicyLookupKey) :
    key ∈ (s.indexPolicyByStatus status key).getPolicyStatusIndexRaw status := by
  unfold State.indexPolicyByStatus
  dsimp only
  split
  · assumption
  · simp [State.getPolicyStatusIndexRaw]

theorem transferPolicy_names (h : transferPolicy env s holder policyId newHolder = .ok s')
    (hget : s.getPolicy holder policyId = some policy) :
    s'.getPolicyCounter newHolder = s.getPolicyCounter newHolder + 1 ∧
      s'.events.getLast? = some (.policyTransferred (s.getPolicyCounter newHolder + 1) holder
        newHolder s.sequence) ∧
      ⟨newHolder, s.getPolicyCounter newHolder + 1⟩ ∈
        s'.getPolicyStatusIndexRaw (computePolicyStatus policy s.sequence) := by
  obtain ⟨-, -, -, -, -, hcounter⟩ := transferPolicy_records h
  obtain ⟨p, s₁, s₂, hp, -, -, h₁, h₂, rfl⟩ := transferPolicy_eq_ok h
  rw [hget] at hp
  cases hp
  refine ⟨?_, ?_, ?_⟩
  · rw [State.getPolicyCounter, hcounter (.policyCounter newHolder) rfl, State.get_set_self]
    rfl
  · simp [State.emit]
  · have hindex : SameKind .statusIndex (s.moveRecord holder policyId newHolder policy) s₂ :=
      ((frame_dropActivePolicy h₁).sameKind rfl).trans ((frame_addVoter h₂).sameKind rfl)
    rw [State.getPolicyStatusIndexRaw, State.get_emit, hindex _ rfl]
    have hseq : (((((s.set (.policyCounter newHolder) (s.getPolicyCounter newHolder + 1)).setPolicy
        newHolder policyId (policy.movedTo newHolder)).removePolicy holder
        policyId).unindexPolicyByStatus (computePolicyStatus policy s.sequence)
          ⟨holder, policyId⟩)).sequence = s.sequence :=
      (frame_unindexPolicyByStatus _ _ _).sequence
    unfold State.moveRecord State.indexNewPolicy
    rw [hseq]
    exact mem_indexPolicyByStatus _ _ _

/-- **A transfer moves exactly one policy if and only if the old id is the recipient's next one
and no policy of the recipient is stored there.** -/
theorem transfer_movesExactly_iff {host : Host} (hreach : (contract host).Reach always s)
    (h : (PolicyCall.transferPolicy holder policyId newHolder).exec env s = .ok s') :
    (∃ policy newId, s.getPolicy holder policyId = some policy ∧
      MovesExactly s s' holder policyId newHolder policy newId) ↔
      policyId = s.getPolicyCounter newHolder + 1 ∧ s.getPolicy newHolder policyId = none := by
  have hran : transferPolicy env s holder policyId newHolder = .ok s' := h
  obtain ⟨policy, hget, -, hne, hrec, -⟩ := transferPolicy_records hran
  obtain ⟨hcounter, hevent, hindex⟩ := transferPolicy_names hran hget
  have hread := getPolicy_of_move hne hrec
  constructor
  · rintro ⟨p, newId, hp, hmoves⟩
    have hid := hmoves.allocated.2
    -- a record at the fresh id that was there before is not the moved one
    have hfresh : newId = policyId := by
      by_contra hother
      have hstored := hmoves.stored
      rw [hread, if_neg (fun heq => hother heq.2), if_neg (fun heq => hother heq.2)] at hstored
      exact (hmoves.kept newId _ hstored).1 rfl
    refine ⟨by omega, ?_⟩
    cases hold : s.getPolicy newHolder policyId with
    | none => rfl
    | some q => exact absurd hfresh.symm (hmoves.kept policyId q hold).1
  · rintro ⟨hid, hnone⟩
    have hsound := policiesSound_of_reach hreach holder policyId policy hget
    refine ⟨policy, policyId, hget, ⟨by omega, hid⟩, ?_, ?_, ?_, ?_, ?_, ?_⟩
    · rw [hid]
      exact hevent
    · rw [hid]
      exact hindex
    · rw [hread, if_pos ⟨rfl, rfl⟩]
    · rw [hread, if_neg (fun heq => hne heq.1.symm), if_pos ⟨rfl, rfl⟩, Policy.movedTo]
      simp [← hsound.policyId]
    · intro id q hq
      have hother : id ≠ policyId := by
        rintro rfl
        rw [hnone] at hq
        cases hq
      refine ⟨hother, ?_⟩
      rw [hread, if_neg (fun heq => hother heq.2), if_neg (fun heq => hother heq.2)]
      exact hq
    · intro a id ha hold
      rw [hread, if_neg hold, if_neg (fun heq => ha heq.1)]

end Transfer

/-- Account 7 has no policy and receives the first policy of account 1. -/
theorem transfer_movesExactly_first :
    ∃ s s', (contract demoHost).Reach always s ∧
      (contract demoHost).step s (demoCall (.policy (.transferPolicy 1 1 7))) s' ∧
      ∃ policy newId, s.getPolicy 1 1 = some policy ∧ MovesExactly s s' 1 1 7 policy newId := by
  obtain ⟨s, s', hreach, hstep, hval⟩ := exists_of_followCall always_of_noCheck
    (deployed 0) [demoInit, demoBind 1 .auto 10000000]
    (c := .policy (.transferPolicy 1 1 7))
    (f := fun s _ => (s.getPolicyCounter 7, s.getPolicy 7 1)) (a := (0, none))
    (fresh_deployed (by decide)) (by simp [demoInit, demoBind]) (by decide +kernel)
  obtain ⟨hcounter, hnone⟩ := Prod.mk.inj hval
  refine ⟨s, s', hreach, hstep, (transfer_movesExactly_iff hreach hstep.2).mpr ⟨?_, hnone⟩⟩
  rw [hcounter]

/-- **A transferred policy replaces one of the recipient.**  Accounts 1 and 2 have a policy each,
both with the id 1.  After the transfer from 1 to 2 the policy of account 2 is gone, and nothing
is stored at the id 2 that the index and the event name. -/
theorem transfer_loses_policy :
    ∃ s s' q, (contract demoHost).Reach always s ∧
      (contract demoHost).step s (demoCall (.policy (.transferPolicy 1 1 2))) s' ∧
      s.getPolicy 2 1 = some q ∧ q.coverage = 20000000 ∧
      (s'.getPolicy 2 1).map (·.coverage) = some 10000000 ∧ s'.getPolicy 2 2 = none ∧
      ¬ ∃ policy newId, s.getPolicy 1 1 = some policy ∧ MovesExactly s s' 1 1 2 policy newId := by
  obtain ⟨s, s', hreach, hstep, hval⟩ := exists_of_followCall always_of_noCheck
    (deployed 0)
    [demoInit, demoBind 1 .auto 10000000, demoBind 2 .auto 20000000]
    (c := .policy (.transferPolicy 1 1 2))
    (f := fun s s' => ((s.getPolicy 2 1).map fun q : Policy => q.coverage,
      (s'.getPolicy 2 1).map fun q : Policy => q.coverage, s.getPolicyCounter 2, s'.getPolicy 2 2))
    (a := (some 20000000, some 10000000, 1, none))
    (fresh_deployed (by decide)) (by simp [demoInit, demoBind]) (by decide +kernel)
  simp only [Prod.mk.injEq, Option.map_eq_some_iff] at hval
  obtain ⟨⟨q, hq, hcov⟩, hafter, hcounter, hnone⟩ := hval
  refine ⟨s, s', q, hreach, hstep, hq, hcov, by simpa using hafter, hnone, ?_⟩
  rintro ⟨policy, newId, -, hmoves⟩
  have hid := hmoves.allocated.2
  rw [hcounter] at hid
  have hstored := hmoves.stored
  rw [hid, hnone] at hstored
  cases hstored

end NiffyInsure
