import NiffyInsure.PolicyStep
import NiffyInsure.Trace

/-!
# Overlapping coverage

A holder is not to have two active policies of one type and region whose windows meet.  Only
`initiate_policy` looks for such a conflict, among the ids up to the holder's counter.  A renewal
moves the end of a window, a transfer brings a policy in, and a policy that came in may lie
beyond the counter.

* `Policy.Clashes`: two active policies of one type and region with a ledger in both windows.
* `KeepsApart`: the condition on a step: the three entrypoints that write a window meet no
  clashing policy.
* `no_overlap_of_reach`: in every run whose steps meet it no two policies of a holder clash.
-/

namespace NiffyInsure

open Machine

/-- The policies are active, of one type and region, and some ledger lies in both windows. -/
def Policy.Clashes (p q : Policy) : Prop :=
  p.isActive = true ∧ q.isActive = true ∧ p.policyType = q.policyType ∧ p.region = q.region ∧
    ∃ n, isPolicyActiveByLedger p n = true ∧ isPolicyActiveByLedger q n = true

/-- No holder has two distinct policies that clash. -/
def State.NoOverlap (s : State) : Prop :=
  ∀ holder i j p q, i ≠ j → s.getPolicy holder i = some p → s.getPolicy holder j = some q →
    ¬ p.Clashes q

/-- The policy `p` of `holder`, stored at `policyId`, would clash with none of the holder's
others. -/
def State.Apart (s : State) (holder : Address) (policyId : Nat) (p : Policy) : Prop :=
  ∀ id q, id ≠ policyId → s.getPolicy holder id = some q → ¬ p.Clashes q

section Clashes

variable {s s' : State} {p p' q : Policy}

theorem Policy.Clashes.symm (h : p.Clashes q) : q.Clashes p := by
  obtain ⟨hp, hq, htype, hregion, n, hpn, hqn⟩ := h
  exact ⟨hq, hp, htype.symm, hregion.symm, n, hqn, hpn⟩

theorem Policy.Edits.clashes (h : p.Edits p') (hc : p'.Clashes q) : p.Clashes q := by
  obtain ⟨hp, hq, htype, hregion, n, hpn, hqn⟩ := hc
  refine ⟨h.isActive hp, hq, h.policyType ▸ htype, h.region ▸ hregion, n, ?_, hqn⟩
  rw [isPolicyActiveByLedger_iff, h.startLedger, h.endLedger] at hpn
  exact isPolicyActiveByLedger_iff.mpr hpn

theorem conflictsWith_of_clashes (h : p.Clashes q) :
    q.conflictsWith p.policyType p.region p.startLedger p.endLedger = true := by
  obtain ⟨-, hq, htype, hregion, n, hpn, hqn⟩ := h
  rw [isPolicyActiveByLedger_iff] at hpn hqn
  have hstart : q.startLedger < p.endLedger := by omega
  have hend : p.startLedger < q.endLedger := by omega
  simp [Policy.conflictsWith, hq, htype, hregion, hstart, hend]

theorem noOverlap_of_write {holder : Address} {policyId : Nat}
    (hread : ∀ a i q, s'.getPolicy a i = some q →
      s.getPolicy a i = some q ∨ (a = holder ∧ i = policyId ∧ q = p))
    (hapart : s.Apart holder policyId p) (hs : s.NoOverlap) : s'.NoOverlap := by
  intro a i j p₁ p₂ hij h₁ h₂
  rcases hread a i p₁ h₁ with h₁ | ⟨rfl, rfl, rfl⟩
  · rcases hread a j p₂ h₂ with h₂ | ⟨rfl, rfl, rfl⟩
    · exact hs a i j p₁ p₂ hij h₁ h₂
    · exact fun hc => hapart i p₁ hij h₁ hc.symm
  · rcases hread a j p₂ h₂ with h₂ | ⟨-, rfl, -⟩
    · exact hapart j p₂ hij.symm h₂
    · exact absurd rfl hij

theorem reads_of_write {holder : Address} {policyId : Nat}
    (h : SameKind .policy (s.setPolicy holder policyId p) s') (a : Address) (i : Nat) (q : Policy)
    (hq : s'.getPolicy a i = some q) :
    s.getPolicy a i = some q ∨ (a = holder ∧ i = policyId ∧ q = p) := by
  rw [getPolicy_of_write h] at hq
  split at hq
  · rename_i heq
    cases hq
    exact .inr ⟨heq.1, heq.2, rfl⟩
  · exact .inl hq

theorem noOverlap_of_edits (h : EditsPolicies s s') (hs : s.NoOverlap) : s'.NoOverlap := by
  refine h.keeps ?_ hs
  rintro s₁ s₂ (hsame | ⟨holder, policyId, p, p', hget, hedit, hwrite⟩) hs₁
  · intro a i j p₁ p₂ hij h₁ h₂
    rw [getPolicy_of_same hsame] at h₁ h₂
    exact hs₁ a i j p₁ p₂ hij h₁ h₂
  · refine noOverlap_of_write (reads_of_write hwrite) ?_ hs₁
    intro id q hne hq hc
    exact hs₁ holder policyId id p q hne.symm hget hq (hedit.clashes hc)

end Clashes

/-! ## Steps -/

/-- The condition on a step.  A new policy clashes with none of the holder's policies that its
scan leaves out, a renewed one with none of the holder's others, and a transferred one with none
of the recipient's others. -/
def KeepsApart (s : State) : Label → Prop
  | .call _ (.policy (.initiatePolicy a)) =>
    ∀ id q, s.getPolicyCounter a.holder + 1 < id → s.getPolicy a.holder id = some q →
      q.conflictsWith a.policyType a.region s.sequence
        (s.sequence + POLICY_DURATION_LEDGERS) = false
  | .call _ (.policy (.renewPolicy a)) =>
    ∀ p, s.getPolicy a.holder a.policyId = some p → ¬ s.Lapsed p →
      s.Apart a.holder a.policyId { p with endLedger := p.endLedger + POLICY_DURATION_LEDGERS }
  | .call _ (.policy (.transferPolicy holder policyId newHolder)) =>
    ∀ p, s.getPolicy holder policyId = some p → s.Apart newHolder policyId p
  | _ => True

section Calls

variable {env : Env} {s s' : State}

theorem conflictsWith_of_hasConflict {holder : Address} {policyType : PolicyType}
    {region : RegionTier} {start finish : Nat}
    (h : s.hasConflict holder policyType region start finish = false) {id : Nat} {q : Policy}
    (hpos : 0 < id) (hle : id ≤ s.getPolicyCounter holder) (hq : s.getPolicy holder id = some q) :
    q.conflictsWith policyType region start finish = false := by
  rw [State.hasConflict, List.any_eq_false] at h
  have hscan := h (id - 1) (List.mem_range.mpr (by omega))
  rw [Nat.sub_add_cancel hpos, hq] at hscan
  simpa using hscan

theorem noOverlap_of_initiatePolicy {a : InitiatePolicyArgs} {policy : Policy}
    (h : initiatePolicy env s a = .ok (policy, s')) (hsound : s.PoliciesSound)
    (hok : ∀ id q, s.getPolicyCounter a.holder + 1 < id → s.getPolicy a.holder id = some q →
      q.conflictsWith a.policyType a.region s.sequence
        (s.sequence + POLICY_DURATION_LEDGERS) = false) (hs : s.NoOverlap) : s'.NoOverlap := by
  obtain ⟨hrec, hholder, hid, -, -, -⟩ := initiatePolicy_records h
  obtain ⟨premium, deductible, decimals, treasuryAmount, feeAmount, feeRecipient, s₃,
    s₄, s₅, -, rfl, hf₃, hcount, -, hscan, -⟩ := initiatePolicy_eq_ok h
  refine noOverlap_of_write (reads_of_write hrec) ?_ hs
  intro id q hne hq hc
  have hconflict : q.conflictsWith a.policyType a.region s.sequence
      (s.sequence + POLICY_DURATION_LEDGERS) = true := conflictsWith_of_clashes hc
  have hcounter : s₃.getPolicyCounter a.holder = s.getPolicyCounter a.holder + 1 := by
    rw [State.getPolicyCounter, hcount (.policyCounter a.holder) rfl, State.get_set_self]
    rfl
  have hpos : 0 < id := by
    have hq' := hsound a.holder id q hq
    rw [← hq'.policyId]
    exact hq'.positive
  by_cases hle : id ≤ s.getPolicyCounter a.holder + 1
  · have hq₃ : s₃.getPolicy a.holder id = some q := by
      rw [getPolicy_of_same (hf₃.sameKind rfl)]
      exact hq
    have hclear : q.conflictsWith a.policyType a.region s.sequence
        (s.sequence + POLICY_DURATION_LEDGERS) = false :=
      conflictsWith_of_hasConflict hscan hpos (by omega) hq₃
    rw [hconflict] at hclear
    cases hclear
  · have hclear := hok id q (by omega) hq
    rw [hconflict] at hclear
    cases hclear

theorem noOverlap_of_policyCall {c : PolicyCall} (h : c.exec env s = .ok s')
    (hok : KeepsApart s (.call env (.policy c))) (hsound : s.PoliciesSound) (hs : s.NoOverlap) :
    s'.NoOverlap := by
  have hran := policyRan_of_exec h
  cases c with
  | initiatePolicy a =>
    obtain ⟨policy, hran⟩ := hran
    exact noOverlap_of_initiatePolicy hran hsound hok hs
  | renewPolicy a =>
    obtain ⟨o, hran⟩ := hran
    obtain hf | ⟨policy, premium, s₁, s₂, -, hget, -, hnot, -, -, -, -, hrec, -⟩ :=
      renewPolicy_eq_ok hran
    · exact noOverlap_of_edits (.of_same (hf.sameKind rfl)) hs
    · refine noOverlap_of_write (reads_of_write hrec) ?_ hs
      intro id q hid hq hc
      exact hok policy hget hnot id q hid hq hc
  | transferPolicy holder policyId newHolder =>
    obtain ⟨policy, hget, -, hne, hrec, -⟩ := transferPolicy_records hran
    have hread : ∀ a i q, s'.getPolicy a i = some q → s.getPolicy a i = some q ∨
        (a = newHolder ∧ i = policyId ∧ q = policy.movedTo newHolder) := by
      intro a i q hq
      rw [getPolicy_of_move hne hrec] at hq
      split at hq
      · cases hq
      · split at hq
        · rename_i heq
          cases hq
          exact .inr ⟨heq.1, heq.2, rfl⟩
        · exact .inl hq
    refine noOverlap_of_write hread ?_ hs
    intro id q hid hq hc
    exact hok policy hget id q hid hq hc
  | _ => exact noOverlap_of_edits (editsPolicies_of_policyCall h rfl) hs

end Calls

/-- **No holder has two clashing policies**, in every run whose new, renewed and transferred
policies meet no clashing one. -/
theorem no_overlap_of_reach {host : Host} {s : State} (h : (contract host).Reach KeepsApart s) :
    s.NoOverlap := by
  refine h.invariant_with (J := State.PoliciesSound) (I := State.NoOverlap)
    (fun s hs => policiesSound_of_reach hs.to_always) ?_ ?_
  · intro s hs holder i j p q _ hp
    simp [State.getPolicy, State.Fresh.get host hs] at hp
  · intro s l s' hsound hok hstep hs
    cases l with
    | closeLedger n =>
      obtain ⟨-, -, rfl⟩ := hstep
      exact hs
    | tokens b a =>
      obtain ⟨-, rfl⟩ := hstep
      exact hs
    | call env c =>
      obtain ⟨-, h⟩ := hstep
      cases c with
      | claim c => exact noOverlap_of_edits (editsPolicies_of_claimCall h) hs
      | policy c => exact noOverlap_of_policyCall h hok hsound hs
      | treasury c =>
        refine noOverlap_of_edits (.of_same ?_) hs
        exact (frame_treasuryCall h).sameKind (c.untouched rfl)
      | setting c => exact noOverlap_of_edits (.of_same ((frame_setting h).sameKind rfl)) hs
      | governance c =>
        refine noOverlap_of_edits (.of_same ?_) hs
        exact (frame_governanceCall h).sameKind (c.untouched rfl)

/-! ## Two runs -/

/-- The check of a run without renewals and transfers: no policy of the holder lies beyond the
ids that the scan of `initiate_policy` sees. -/
def bindsScanned (s : State) : Label → Bool
  | .call _ (.policy (.initiatePolicy a)) =>
    s.storage.entries.all fun e => match e.1 with
      | .policy holder id => decide (holder = a.holder → id ≤ s.getPolicyCounter a.holder + 1)
      | _ => true
  | .call _ (.policy (.renewPolicy _)) | .call _ (.policy (.transferPolicy ..)) => false
  | _ => true

theorem keepsApart_of_check (s : State) (l : Label) (h : bindsScanned s l = true) :
    KeepsApart s l := by
  unfold KeepsApart
  split
  · rename_i a
    intro id q hlt hq
    have hmem : (⟨.policy a.holder id, q⟩ : Sigma DataKey.Val) ∈ s.storage.entries :=
      AList.mem_lookup_iff.mp hq
    have hle : a.holder = a.holder → id ≤ s.getPolicyCounter a.holder + 1 :=
      of_decide_eq_true (List.all_eq_true.mp h _ hmem)
    have := hle rfl
    omega
  · cases h
  · cases h
  · trivial

/-- Account 1 binds two policies of different types. -/
theorem no_overlap_two_types : ∃ s p q, (contract demoHost).Reach KeepsApart s ∧
    s.getPolicy 1 1 = some p ∧ s.getPolicy 1 2 = some q ∧ ¬ p.Clashes q := by
  obtain ⟨s, hreach, hval⟩ := exists_of_follow keepsApart_of_check (deployed 0)
    [demoInit, demoBind 1 .auto 10000000, demoBind 1 .health 10000000]
    (f := fun s => ((s.getPolicy 1 1).isSome, (s.getPolicy 1 2).isSome)) (a := (true, true))
    (fresh_deployed (by decide)) (by simp [demoInit, demoBind]) (by decide +kernel)
  simp only [Prod.mk.injEq, Option.isSome_iff_exists] at hval
  obtain ⟨⟨p, hp⟩, q, hq⟩ := hval
  exact ⟨s, p, q, hreach, hp, hq, no_overlap_of_reach hreach 1 1 2 p q (by decide) hp hq⟩

/-- An active auto policy in the low-risk region, with ledger 1000 in its window. -/
def Policy.isAuto (p : Policy) : Bool :=
  decide (p.isActive = true ∧ p.policyType = .auto ∧ p.region = .low ∧
    isPolicyActiveByLedger p 1000 = true)

/-- **A transfer brings in a clashing policy.**  Account 2 has a health and an auto policy, and
receives the auto policy of account 1. -/
theorem overlap_by_transfer : ∃ s p q, (contract demoHost).Reach always s ∧
    s.getPolicy 2 1 = some p ∧ s.getPolicy 2 2 = some q ∧ p.Clashes q ∧ ¬ s.NoOverlap := by
  obtain ⟨s, hreach, hval⟩ := exists_of_follow always_of_noCheck (deployed 0)
    [demoInit, demoBind 1 .auto 10000000, demoBind 2 .health 10000000,
      demoBind 2 .auto 10000000, demoCall (.policy (.transferPolicy 1 1 2))]
    (f := fun s => ((s.getPolicy 2 1).map Policy.isAuto, (s.getPolicy 2 2).map Policy.isAuto))
    (a := (some true, some true))
    (fresh_deployed (by decide)) (by simp [demoInit, demoBind]) (by decide +kernel)
  simp only [Prod.mk.injEq, Option.map_eq_some_iff] at hval
  obtain ⟨⟨p, hp, hpauto⟩, q, hq, hqauto⟩ := hval
  obtain ⟨hpa, hpt, hpr, hpn⟩ := of_decide_eq_true hpauto
  obtain ⟨hqa, hqt, hqr, hqn⟩ := of_decide_eq_true hqauto
  have hclash : p.Clashes q := ⟨hpa, hqa, hpt.trans hqt.symm, hpr.trans hqr.symm, 1000, hpn, hqn⟩
  exact ⟨s, p, q, hreach, hp, hq, hclash, fun h => h 2 1 2 p q (by decide) hp hq hclash⟩

end NiffyInsure
