import NiffyInsure.Lib.ProRata
import NiffyInsure.Expiry

/-!
# Refunds and premiums

The premiums paid for a policy are read off the log.  A renewal adds a term to the window and
rewrites the price, and leaves the start of the window where the policy was first bound; so the
refund of a termination shares the last premium over all the terms.

* `State.TermsPaid`: the record of a policy and the premiums paid for it.
* `refunded_of_terminateInner`: what a holder's termination pays and reports.
* `refund_of_reach`: the refund in every run, its upper bound, and when it reaches the unused part
  of the last term.
-/

namespace NiffyInsure

open Machine ProRata

/-- The premium that an event reports for the policy. -/
def Event.premiumFor (holder : Address) (policyId : Nat) : Event → Option Int
  | .policyInitiated id a premium .. | .policyRenewed a id premium .. =>
    if a = holder ∧ id = policyId then some premium else none
  | _ => none

/-- The premiums paid for the policy, in order. -/
def State.premiumsOf (s : State) (holder : Address) (policyId : Nat) : List Int :=
  s.events.filterMap (Event.premiumFor holder policyId)

/-- A policy and the premiums paid for it: the last of them is its price, each has bought one term,
and the last term ends at most one term and one renewal window from now. -/
structure State.TermsPaid (s : State) (premiums : List Int) (p : Policy) : Prop where
  last : premiums.getLast? = some p.premium
  positive : ∀ premium ∈ premiums, 0 < premium
  finish : p.endLedger = p.startLedger + premiums.length * POLICY_DURATION_LEDGERS
  started : p.startLedger ≤ s.sequence
  ahead : p.endLedger ≤ s.sequence + POLICY_DURATION_LEDGERS + RENEWAL_WINDOW_LEDGERS

/-- No premium was paid for a policy that is not stored, and those of a stored one fit its
record. -/
def State.Paid (s : State) (holder : Address) (policyId : Nat) : Prop :=
  (s.getPolicy holder policyId = none ∧ s.premiumsOf holder policyId = []) ∨
    ∃ p, s.getPolicy holder policyId = some p ∧ s.TermsPaid (s.premiumsOf holder policyId) p

/-- The label moves the policy neither out of the holder's hands nor into them. -/
def StaysWith (holder : Address) (policyId : Nat) (_ : State) : Label → Prop
  | .call _ (.policy (.transferPolicy src id dst)) => id = policyId → src ≠ holder ∧ dst ≠ holder
  | _ => True

/-- The treasury has paid the refund, and the termination reports it. -/
structure Refunded (env : Env) (s s' : State) (policy : Policy) (reason : TerminationReason)
    (refund : Int) : Prop where
  paid : s'.balance =
    (s.moveTokens policy.asset (s.getTreasury env) policy.holder refund).balance
  reported : s'.events.getLast? = some (.policyTerminated policy.holder policy.policyId
    (terminationReasonTag reason) 0 0 (s.getOpenClaimCount policy.holder policy.policyId) s.sequence
    refund)

/-! ## The refund of one termination -/

section Refund

variable {env : Env} {s s' : State} {holder : Address} {policyId : Nat} {policy : Policy}

theorem computeProrataRefund_eq (hpremium : 0 < policy.premium)
    (hwindow : policy.startLedger < policy.endLedger) (now : Nat) :
    computeProrataRefund policy now =
      if policy.premium * (policy.endLedger - now : Nat) ≤ I128_MAX then
        share policy.premium (policy.endLedger - now) (policy.endLedger - policy.startLedger)
      else 0 := by
  have htotal : policy.endLedger - policy.startLedger ≠ 0 := by omega
  have hmin : I128_MIN ≤ policy.premium * (policy.endLedger - now : Nat) :=
    le_trans (by decide) (Int.mul_nonneg hpremium.le (Int.natCast_nonneg _))
  dsimp only [computeProrataRefund]
  rw [if_neg htotal]
  by_cases hleft : policy.endLedger - now = 0
  · simp [hleft, share]
  rw [if_neg hleft]
  have hpos : 0 < policy.premium * (policy.endLedger - now : Nat) :=
    Int.mul_pos hpremium (by omega)
  by_cases hfits : policy.premium * (policy.endLedger - now : Nat) ≤ I128_MAX
  · have hmul : checkedMul128 policy.premium (policy.endLedger - now : Nat) =
        some (policy.premium * (policy.endLedger - now : Nat)) := if_pos ⟨hmin, hfits⟩
    rw [hmul, Option.getD_some, if_neg (by omega), if_pos hfits, share]
  · have hmul : checkedMul128 policy.premium (policy.endLedger - now : Nat) = none :=
      if_neg fun h => hfits h.2
    rw [hmul, Option.getD_none, if_pos le_rfl, if_neg hfits]

theorem computeProrataRefund_nonneg (policy : Policy) (now : Nat) :
    0 ≤ computeProrataRefund policy now := by
  dsimp only [computeProrataRefund]
  split
  · exact le_rfl
  split
  · exact le_rfl
  split
  · exact le_rfl
  · rename_i hnum
    exact Int.ediv_nonneg (by omega) (by omega)

/-- **A holder's termination pays the computed refund**, and reports it. -/
theorem refunded_of_terminateInner {reason : TerminationReason} (hsound : s.PoliciesSound)
    (h : terminateInner env s holder policyId reason false false = .ok s') :
    ∃ policy, s.getPolicy holder policyId = some policy ∧
      Refunded env s s' policy reason (computeProrataRefund policy s.sequence) := by
  obtain ⟨policy, s₁, s₂, s₄, hget, -, -, -, hf₁, h₂, hpay, hf, hs'⟩ := terminateInner_eq_ok h
  refine ⟨policy, hget, ?_, ?_⟩
  · have hdrop := frame_dropActivePolicy h₂
    have hrelease : Frame [.assetLedger] s₂
        (s₂.ignoreErr (s₂.releaseCoverage policy.asset policy.coverage)) :=
      (Frame.refl _ s₂).ignoreErr fun t ht => frame_releaseCoverage ht
    -- nothing before the payment moves tokens or the treasury
    generalize s₂.ignoreErr (s₂.releaseCoverage policy.asset policy.coverage) = s₃ at *
    have hbalance : s₃.balance = s.balance :=
      (hrelease.balance rfl).trans ((hdrop.balance rfl).trans (hf₁.balance rfl))
    have htreasury : s₃.getTreasury env = s.getTreasury env := by
      simp only [State.getTreasury, hrelease.get .treasury rfl, hdrop.get .treasury rfl,
        hf₁.get .treasury rfl]
    rw [hf.balance rfl, (hsound _ _ _ hget).holder]
    rcases hpay with ⟨-, hpos, hpay⟩ | ⟨hnone, rfl⟩
    · dsimp only [State.payRefund] at hpay
      have hbook : Frame [.assetLedger] s₃ (s₃.ignoreErr
          (s₃.recordPayoutOut policy.asset (computeProrataRefund policy s.sequence) 0)) :=
        (Frame.refl _ s₃).ignoreErr fun t ht => frame_recordPayoutOut ht
      obtain ⟨-, -, -, rfl⟩ := tokenTransfer_eq_ok.mp hpay
      rw [htreasury]
      funext a x
      simp only [State.moveTokens, hbook.balance rfl, hbalance]
    · have hzero : computeProrataRefund policy s.sequence = 0 := by
        have hnonneg := computeProrataRefund_nonneg policy s.sequence
        have hnot : ¬ 0 < computeProrataRefund policy s.sequence := fun hpos => hnone ⟨rfl, hpos⟩
        omega
      rw [hzero, hbalance]
      funext a x
      simp [State.moveTokens]
  · rw [hs', (hsound _ _ _ hget).holder, (hsound _ _ _ hget).policyId]
    exact List.getLast?_append_of_ne_nil _ (List.cons_ne_nil _ _)

end Refund

/-! ## The premiums along a run -/

section Steps

variable {env : Env} {s s' : State} {holder : Address} {policyId : Nat} {premiums : List Int}
  {p p' : Policy}

theorem premiumsOf_of_frame {ks : List Kind} (h : Frame ks s s')
    (hk : ks.contains .premiumEvent = false) :
    s'.premiumsOf holder policyId = s.premiumsOf holder policyId := by
  refine Frame.filterMap_events ?_ h hk
  intro e he
  cases e <;> first | rfl | exact absurd rfl he

theorem premiumsOf_emit (s : State) (e : Event) : (s.emit e).premiumsOf holder policyId =
    s.premiumsOf holder policyId ++ (e.premiumFor holder policyId).toList :=
  State.filterMap_emit _ s e

theorem premiumsOf_emitPolicyInitiated (s : State) (policy : Policy) (feeAmount : Int)
    (feeRecipient : Address) :
    (s.emitPolicyInitiated policy feeAmount feeRecipient).premiumsOf holder policyId =
      s.premiumsOf holder policyId ++
        if policy.holder = holder ∧ policy.policyId = policyId then [policy.premium] else [] := by
  have hfee : (if 0 < feeAmount then
      s.emit (.protocolFeeCollected policy.policyId feeAmount feeRecipient)
      else s).premiumsOf holder
        policyId = s.premiumsOf holder policyId := by
    split
    · rw [premiumsOf_emit]
      exact List.append_nil _
    · rfl
  dsimp only [State.emitPolicyInitiated]
  generalize (if 0 < feeAmount then
    s.emit (.protocolFeeCollected policy.policyId feeAmount feeRecipient) else s) = s₁ at *
  split
  · rw [premiumsOf_emit, premiumsOf_emit, hfee]
    show s.premiumsOf holder policyId ++ Option.toList
      (if policy.holder = holder ∧ policy.policyId = policyId then some policy.premium else none) ++
        [] = _
    rw [List.append_nil]
    split <;> rfl
  · rw [premiumsOf_emit, hfee]
    show s.premiumsOf holder policyId ++ Option.toList
      (if policy.holder = holder ∧ policy.policyId = policyId then some policy.premium else none) =
        _
    split <;> rfl

theorem State.TermsPaid.first {premium : Int} (hpos : 0 < premium) (hprice : p.premium = premium)
    (hstart : p.startLedger = s.sequence)
    (hend : p.endLedger = s.sequence + POLICY_DURATION_LEDGERS) : s.TermsPaid [premium] p where
  last := by rw [hprice]; rfl
  positive := by simpa using hpos
  finish := by rw [hend, hstart, List.length_singleton, Nat.one_mul]
  started := hstart.le
  ahead := by omega

theorem State.TermsPaid.renew {premium : Int} (h : s.TermsPaid premiums p) (hpos : 0 < premium)
    (hprice : p'.premium = premium) (hstart : p'.startLedger = p.startLedger)
    (hend : p'.endLedger = p.endLedger + POLICY_DURATION_LEDGERS)
    (hwindow : p.endLedger ≤ s.sequence + RENEWAL_WINDOW_LEDGERS) :
    s.TermsPaid (premiums ++ [premium]) p' where
  last := by rw [hprice, List.getLast?_concat]
  positive := by
    intro x hx
    rcases List.mem_append.mp hx with hx | hx
    · exact h.positive x hx
    · rwa [List.mem_singleton.mp hx]
  finish := by
    have hfinish := h.finish
    rw [hend, hstart, List.length_append, List.length_singleton, Nat.add_mul]
    omega
  started := hstart.le.trans h.started
  ahead := by omega

theorem State.TermsPaid.keep (h : s.TermsPaid premiums p) (hprice : p'.premium = p.premium)
    (hstart : p'.startLedger = p.startLedger) (hend : p'.endLedger = p.endLedger)
    (hseq : s.sequence ≤ s'.sequence) : s'.TermsPaid premiums p' where
  last := by rw [hprice, h.last]
  positive := h.positive
  finish := by rw [hend, hstart, h.finish]
  started := (hstart.le.trans h.started).trans hseq
  ahead := by
    have hahead := h.ahead
    omega

theorem State.Paid.of_edits (h : s.Paid holder policyId) (hedits : EditsPolicies s s')
    (hlog : s'.premiumsOf holder policyId = s.premiumsOf holder policyId)
    (hseq : s'.sequence = s.sequence) : s'.Paid holder policyId := by
  have hsame : ∀ t, EditsPolicies s t →
      (t.getPolicy holder policyId = none ∧ s.getPolicy holder policyId = none) ∨
        ∃ p p', s.getPolicy holder policyId = some p ∧ t.getPolicy holder policyId = some p' ∧
          p'.premium = p.premium ∧ p'.startLedger = p.startLedger ∧ p'.endLedger = p.endLedger := by
    intro t ht
    induction ht with
    | refl =>
      cases hget : s.getPolicy holder policyId with
      | none => exact .inl ⟨rfl, rfl⟩
      | some p => exact .inr ⟨p, p, rfl, rfl, rfl, rfl, rfl⟩
    | tail _ hlast ih =>
      rcases hlast with hsame | ⟨a, id, q, q', hq, hedit, hrec⟩
      · rw [getPolicy_of_same hsame]
        exact ih
      · rw [getPolicy_of_write hrec]
        split
        · rename_i heq
          obtain ⟨rfl, rfl⟩ := heq
          rcases ih with ⟨hnone, -⟩ | ⟨p, p', hp, hp', hprice, hstart, hend⟩
          · rw [hnone] at hq
            cases hq
          · rw [hp'] at hq
            cases hq
            exact .inr ⟨p, q', hp, rfl, hedit.premium.trans hprice, hedit.startLedger.trans hstart,
              hedit.endLedger.trans hend⟩
        · exact ih
  rcases hsame s' hedits with ⟨hnone', hnone⟩ | ⟨p, p', hp, hp', hprice, hstart, hend⟩
  · rcases h with ⟨-, hempty⟩ | ⟨p, hp, -⟩
    · exact .inl ⟨hnone', hlog.trans hempty⟩
    · rw [hnone] at hp
      cases hp
  · rcases h with ⟨hnone, -⟩ | ⟨q, hq, hpaid⟩
    · rw [hnone] at hp
      cases hp
    · rw [hp] at hq
      cases hq
      exact .inr ⟨p', hp', hlog ▸ hpaid.keep hprice hstart hend hseq.ge⟩

theorem State.Paid.of_other (h : s.Paid holder policyId)
    (hget : s'.getPolicy holder policyId = s.getPolicy holder policyId)
    (hlog : s'.premiumsOf holder policyId = s.premiumsOf holder policyId)
    (hseq : s.sequence ≤ s'.sequence) : s'.Paid holder policyId := by
  rcases h with ⟨hnone, hempty⟩ | ⟨p, hp, hpaid⟩
  · exact .inl ⟨hget.trans hnone, hlog.trans hempty⟩
  · exact .inr ⟨p, hget.trans hp, hlog ▸ hpaid.keep rfl rfl rfl hseq⟩

theorem State.Paid.initiate {a : InitiatePolicyArgs} {policy : Policy} (h : s.Paid holder policyId)
    (hran : initiatePolicy env s a = .ok (policy, s')) : s'.Paid holder policyId := by
  obtain ⟨hrec, hholder, -⟩ := initiatePolicy_records hran
  have hseq := (frame_initiatePolicy hran).sequence
  obtain ⟨premium, deductible, decimals, treasuryAmount, feeAmount, feeRecipient, s₃,
    s₄, s₅, -, hnew, hf₃, -, habsent, -, h₄, h₅, -, hpos, hs'⟩ := initiatePolicy_eq_ok hran
  have hprice : policy.premium = premium := by rw [hnew]; rfl
  have hstart : policy.startLedger = s.sequence := by rw [hnew]; rfl
  have hend : policy.endLedger = s.sequence + POLICY_DURATION_LEDGERS := by rw [hnew]; rfl
  have hlog₅ : s₅.premiumsOf holder policyId = s.premiumsOf holder policyId :=
    (premiumsOf_of_frame (frame_bindPolicy h₅) rfl).trans
      ((premiumsOf_of_frame (frame_collectPremiumWithFee h₄) rfl).trans
        (premiumsOf_of_frame hf₃ rfl))
  have hlog : s'.premiumsOf holder policyId = s.premiumsOf holder policyId ++
      if policy.holder = holder ∧ policy.policyId = policyId then [policy.premium] else [] := by
    rw [hs', premiumsOf_emitPolicyInitiated, hlog₅]
  rw [← hholder] at habsent
  by_cases hkey : policy.holder = holder ∧ policy.policyId = policyId
  · rw [if_pos hkey] at hlog
    obtain ⟨rfl, rfl⟩ := hkey
    rcases h with ⟨-, hempty⟩ | ⟨p, hp, -⟩
    · refine .inr ⟨policy, ?_, ?_⟩
      · rw [getPolicy_of_write hrec]
        exact if_pos ⟨rfl, rfl⟩
      · rw [hlog, hempty, hprice]
        exact .first hpos hprice (hstart.trans hseq.symm) (by rw [hend, hseq])
    · rw [habsent] at hp
      cases hp
  · rw [if_neg hkey, List.append_nil] at hlog
    refine h.of_other ?_ hlog hseq.ge
    rw [getPolicy_of_write hrec]
    exact if_neg fun heq => hkey ⟨heq.1.symm, heq.2.symm⟩

theorem endLedger_le_of_renewal {a : RenewPolicyArgs} {p' : Policy}
    (hran : renewPolicy env s a = .ok (.renewed p', s')) {p : Policy}
    (hget : s.getPolicy a.holder a.policyId = some p) :
    p.endLedger ≤ s.sequence + RENEWAL_WINDOW_LEDGERS := by
  cases renewRun_of_ok hran with
  | renewed _ hpolicy _ _ hcheck _ _ _ _ =>
    rw [hget] at hpolicy
    cases hpolicy
    simp only [State.checkRenewal, bind_eq_ok, ensure_eq_ok] at hcheck
    obtain ⟨-, -, -, -, -, -, -, hwindow, -⟩ := hcheck
    simp only [isInRenewalWindowWithGrace, Bool.and_eq_true, decide_eq_true_eq] at hwindow
    omega

theorem State.Paid.renewal {a : RenewPolicyArgs} {o : RenewPolicyOutcome}
    (h : s.Paid holder policyId) (hran : renewPolicy env s a = .ok (o, s')) :
    s'.Paid holder policyId := by
  have hseq := (frame_renewPolicy hran).sequence
  obtain ⟨policy, -, hget, ⟨-, -, rfl⟩ | ⟨premium, s₁, s₂, rfl, -, -, hpos, -, hf₁, h₂, hs'⟩⟩ :=
    renewPolicy_cases hran
  · have hf := frame_publishPolicyExpiredIfDue s policy s.sequence
    exact h.of_other (getPolicy_of_same (hf.sameKind rfl) _ _) (premiumsOf_of_frame hf rfl) hseq.ge
  have hwindow := endLedger_le_of_renewal hran hget
  have hf : Frame [.calcVersion, .assetLedger, .cash] s s₂ :=
    (hf₁.mono (by simp)).trans ((frame_collectPremium h₂).mono (by simp))
  have hrec := sameKind_renewed (hf.sameKind rfl) a policy premium
  have hlog : s'.premiumsOf holder policyId = s.premiumsOf holder policyId ++
      if a.holder = holder ∧ a.policyId = policyId then [premium] else [] := by
    have hquiet : Frame [.policy, .statusIndex, .rolling] s₂
        (s₂.renewRecord a.holder a.policyId policy (a.renew policy premium)) := by
      rw [State.renewRecord, State.resetOnRenewal, Frame.set_iff (by simp)]
      exact Frame.trans (by simp) ((frame_reindexPolicy _ _ _ _ _).mono (by simp))
    rw [hs', premiumsOf_emit, premiumsOf_of_frame hquiet rfl, premiumsOf_of_frame hf rfl]
    show s.premiumsOf holder policyId ++ Option.toList
      (if a.holder = holder ∧ a.policyId = policyId then some premium else none) = _
    split <;> rfl
  rw [← hs'] at hrec
  by_cases hkey : a.holder = holder ∧ a.policyId = policyId
  · obtain ⟨rfl, rfl⟩ := hkey
    rw [if_pos ⟨rfl, rfl⟩] at hlog
    rcases h with ⟨hnone, -⟩ | ⟨p, hp, hpaid⟩
    · rw [hnone] at hget
      cases hget
    · rw [hget] at hp
      cases hp
      refine .inr ⟨a.renew policy premium, ?_, ?_⟩
      · rw [getPolicy_of_write hrec]
        exact if_pos ⟨rfl, rfl⟩
      · rw [hlog]
        have hpaid' : s.TermsPaid (s.premiumsOf a.holder a.policyId ++ [premium])
            (a.renew policy premium) := hpaid.renew hpos rfl rfl rfl hwindow
        exact hpaid'.keep rfl rfl rfl hseq.ge
  · rw [if_neg hkey, List.append_nil] at hlog
    refine h.of_other ?_ hlog hseq.ge
    rw [getPolicy_of_write hrec]
    exact if_neg fun heq => hkey ⟨heq.1.symm, heq.2.symm⟩

/-- **Every step keeps the record of what was paid.** -/
theorem paid_of_step {host : Host} {l : Label} (hl : StaysWith holder policyId s l)
    (hstep : (contract host).step s l s') (h : s.Paid holder policyId) :
    s'.Paid holder policyId := by
  cases l with
  | closeLedger n =>
    obtain ⟨hn, -, rfl⟩ := hstep
    exact h.of_other rfl rfl hn
  | tokens b a =>
    obtain ⟨-, rfl⟩ := hstep
    exact h.of_other rfl rfl le_rfl
  | call env c =>
    obtain ⟨-, hexec⟩ := hstep
    have hf := frame_exec hexec
    have hkeep : ∀ ks, Frame ks s s' → ks.contains .premiumEvent = false → EditsPolicies s s' →
        s'.Paid holder policyId := fun ks hf hk hedits =>
      h.of_edits hedits (premiumsOf_of_frame hf hk) hf.sequence
    cases c with
    | claim c => exact hkeep _ hf (c.untouched rfl) (editsPolicies_of_claimCall hexec)
    | treasury c => exact hkeep _ hf (c.untouched rfl) (.of_same (hf.sameKind (c.untouched rfl)))
    | setting c => exact hkeep _ hf rfl (.of_same (hf.sameKind rfl))
    | governance c => exact hkeep _ hf (c.untouched rfl) (.of_same (hf.sameKind (c.untouched rfl)))
    | policy c =>
      have hpolicy : c.exec env s = .ok s' := hexec
      have hran := policyRan_of_exec hpolicy
      cases c with
      | initiatePolicy a =>
        obtain ⟨policy, hran⟩ := hran
        exact h.initiate hran
      | renewPolicy a =>
        obtain ⟨o, hran⟩ := hran
        exact h.renewal hran
      | transferPolicy src id dst =>
        obtain ⟨policy, -, -, hne, hrec, -⟩ := transferPolicy_records hran
        refine h.of_other ?_ (premiumsOf_of_frame hf rfl) hf.sequence.ge
        have hother : id = policyId → src ≠ holder ∧ dst ≠ holder := hl
        rw [getPolicy_of_move hne hrec, if_neg fun heq => (hother heq.2.symm).1 heq.1.symm,
          if_neg fun heq => (hother heq.2.symm).2 heq.1.symm]
      | _ => exact hkeep _ hf rfl (editsPolicies_of_policyCall hpolicy rfl)

end Steps

/-! ## Runs -/

theorem paid_of_reach {host : Host} {s : State} {holder : Address} {policyId : Nat}
    (h : (loggedContract host).Reach (StaysWith holder policyId) s) : s.Paid holder policyId := by
  refine h.invariant (I := fun s => s.Paid holder policyId) ?_ ?_
  · rintro s ⟨hfresh, hlog⟩
    refine .inl ⟨State.Fresh.get host hfresh _, ?_⟩
    rw [State.premiumsOf, hlog]
    rfl
  · intro s l s' hl hstep hs
    exact paid_of_step hl hstep hs

/-- The part of the last term of the policy that is not over. -/
def State.unusedTerm (s : State) (policy : Policy) : Nat :=
  min (policy.endLedger - s.sequence) POLICY_DURATION_LEDGERS

section Paid

variable {s : State} {premiums : List Int} {p : Policy}

theorem State.TermsPaid.premium_mem (h : s.TermsPaid premiums p) : p.premium ∈ premiums :=
  List.mem_of_getLast? h.last

theorem State.TermsPaid.premium_le_sum (h : s.TermsPaid premiums p) : p.premium ≤ premiums.sum :=
  List.single_le_sum (fun x hx => (h.positive x hx).le) _ h.premium_mem

/-- **The refund of a policy with these premiums**: the share of its price over all its terms. -/
theorem State.TermsPaid.refund_eq (h : s.TermsPaid premiums p) :
    computeProrataRefund p s.sequence =
      if p.premium * (p.endLedger - s.sequence : Nat) ≤ I128_MAX then
        share p.premium (p.endLedger - s.sequence) (premiums.length * POLICY_DURATION_LEDGERS)
      else 0 := by
  have hcount : 0 < premiums.length := List.length_pos_of_mem h.premium_mem
  have hfinish := h.finish
  have hterm : 0 < POLICY_DURATION_LEDGERS := by decide
  have hlong : 0 < premiums.length * POLICY_DURATION_LEDGERS := Nat.mul_pos hcount hterm
  rw [computeProrataRefund_eq (h.positive _ h.premium_mem) (by omega)]
  have hwindow : p.endLedger - p.startLedger = premiums.length * POLICY_DURATION_LEDGERS := by omega
  rw [hwindow]

theorem State.TermsPaid.refund_le (h : s.TermsPaid premiums p) :
    computeProrataRefund p s.sequence ≤ p.premium := by
  have hpos := h.positive _ h.premium_mem
  have hfinish := h.finish
  have hstarted := h.started
  rw [h.refund_eq]
  split
  · exact share_le hpos.le (by omega)
  · exact hpos.le

/-- **When the refund reaches the unused part of the last term.** -/
theorem State.TermsPaid.share_le_refund_iff (h : s.TermsPaid premiums p) :
    share p.premium (s.unusedTerm p) POLICY_DURATION_LEDGERS ≤ computeProrataRefund p s.sequence ↔
      p.premium * (s.unusedTerm p : Nat) < POLICY_DURATION_LEDGERS ∨ (premiums.length = 1 ∧
        p.premium * (p.endLedger - s.sequence : Nat) ≤ I128_MAX) := by
  have hpos := h.positive _ h.premium_mem
  have hcount : 1 ≤ premiums.length := List.length_pos_of_mem h.premium_mem
  have hfinish := h.finish
  have hstarted := h.started
  have hahead := h.ahead
  have hterm : 0 < POLICY_DURATION_LEDGERS := by decide
  have hwindow : RENEWAL_WINDOW_LEDGERS < POLICY_DURATION_LEDGERS := by decide
  rw [h.refund_eq]
  by_cases hfits : p.premium * (p.endLedger - s.sequence : Nat) ≤ I128_MAX
  · rw [if_pos hfits, and_iff_left hfits]
    exact share_le_share_iff hpos hterm hcount (by omega) (by omega)
  · rw [if_neg hfits, share_le_zero_iff hterm]
    exact (or_iff_left fun hone => hfits hone.2).symm

end Paid

/-- **What a holder's termination refunds.**  In every run in which the policy stays with its
holder, the refund is paid and reported, is at most the premiums paid, and is the share of the last
premium for what is left of the whole window, or nothing if the product does not fit.  It reaches
the unused part of the last term if and only if this is nothing, or the policy was never renewed and
the product fits. -/
theorem refund_of_reach {host : Host} {env : Env} {s s' : State} {holder : Address} {policyId : Nat}
    {reason : TerminationReason}
    (h : (loggedContract host).Reach (StaysWith holder policyId) s)
    (hstep : (loggedContract host).step s
      (.call env (.policy (.terminatePolicy holder policyId reason))) s') :
    ∃ policy refund, s.getPolicy holder policyId = some policy ∧
      (s.premiumsOf holder policyId).getLast? = some policy.premium ∧
      Refunded env s s' policy reason refund ∧
      refund ≤ (s.premiumsOf holder policyId).sum ∧
      refund = (if policy.premium * (policy.endLedger - s.sequence : Nat) ≤ I128_MAX then
        share policy.premium (policy.endLedger - s.sequence)
          ((s.premiumsOf holder policyId).length * POLICY_DURATION_LEDGERS) else 0) ∧
      (share policy.premium (s.unusedTerm policy) POLICY_DURATION_LEDGERS ≤ refund ↔
        policy.premium * (s.unusedTerm policy : Nat) < POLICY_DURATION_LEDGERS ∨
          ((s.premiumsOf holder policyId).length = 1 ∧
            policy.premium * (policy.endLedger - s.sequence : Nat) ≤ I128_MAX)) := by
  obtain ⟨-, hexec⟩ := hstep
  have hpolicy : (PolicyCall.terminatePolicy holder policyId reason).exec env s = .ok s' := hexec
  obtain ⟨-, hran⟩ := policyRan_of_exec hpolicy
  have hsound := policiesSound_of_reach (reach_of_logged h).to_always
  obtain ⟨policy, hget, hrefunded⟩ := refunded_of_terminateInner hsound hran
  rcases paid_of_reach h with ⟨hnone, -⟩ | ⟨p, hp, hpaid⟩
  · rw [hnone] at hget
    cases hget
  rw [hget] at hp
  cases hp
  exact ⟨policy, _, hget, hpaid.last, hrefunded, hpaid.refund_le.trans hpaid.premium_le_sum,
    hpaid.refund_eq, hpaid.share_le_refund_iff⟩

/-- Account 1 terminates its policy. -/
def demoTerminate : Call := .policy (.terminatePolicy 1 1 .voluntaryCancellation)

theorem staysWith_of_check (s : State) (l : Label) (h : noTransfersCheck s l = true) :
    StaysWith 1 1 s l := by
  unfold StaysWith
  split
  · cases h
  · trivial

/-- What is read off a state before the termination of the policy of account 1. -/
def State.terms (s : State) : List Int × Option (Int × Nat × Int) × Nat × Bool :=
  (s.premiumsOf 1 1, (s.getPolicy 1 1).map fun p =>
    (p.premium, p.endLedger, computeProrataRefund p s.sequence), s.sequence,
    (demoTerminate.exec demoEnv s).isOk)

/-- Account 1 terminates a policy that was never renewed, and is refunded the unused part of its
only term. -/
theorem refund_of_reach_demo : ∃ s s' policy,
    (loggedContract demoHost).Reach (StaysWith 1 1) s ∧
      (loggedContract demoHost).step s (demoCall demoTerminate) s' ∧
      s.getPolicy 1 1 = some policy ∧ s.premiumsOf 1 1 = [6885000] ∧
      Refunded demoEnv s s' policy .voluntaryCancellation 4242031 := by
  obtain ⟨s, hreach, hval⟩ := exists_logged_of_follow staysWith_of_check (deployed 50000000)
    (demoSetup ++ [.closeLedger 200000]) (f := State.terms)
    (a := ([6885000], some (6885000, 519400, 4242031), 200000, true))
      (fresh_deployed (by decide)) rfl
    (by simp [demoSetup, demoInit, demoBind]) (by decide +kernel)
  simp only [State.terms, Prod.mk.injEq, Option.map_eq_some_iff] at hval
  obtain ⟨hpremiums, ⟨p, hp, hprice, hend, -⟩, hseq, hok⟩ := hval
  obtain ⟨s', hstep⟩ := exists_step_of_isOk hok
  obtain ⟨policy, refund, hget, -, hrefunded, -, hrefund, -⟩ := refund_of_reach hreach hstep
  rw [hp] at hget
  cases hget
  rw [hpremiums, hprice, hend, hseq] at hrefund
  have hvalue : refund = 4242031 := hrefund.trans (by decide)
  exact ⟨s, s', p, hreach, hstep, hp, hpremiums, hvalue ▸ hrefunded⟩

/-- **A renewed policy is refunded half of its unused term.**  Account 1 renews its policy at the
end of its first term and terminates it in the same ledger: the whole second term is unused, and
half of its premium is refunded. -/
theorem refund_below_unused_term : ∃ s s' policy refund,
    (loggedContract demoHost).Reach (StaysWith 1 1) s ∧
      (loggedContract demoHost).step s (demoCall demoTerminate) s' ∧
      s.getPolicy 1 1 = some policy ∧
      (s.premiumsOf 1 1).getLast? = some policy.premium ∧
      Refunded demoEnv s s' policy .voluntaryCancellation refund ∧
      refund < share policy.premium (s.unusedTerm policy) POLICY_DURATION_LEDGERS := by
  obtain ⟨s, hreach, hval⟩ := exists_logged_of_follow staysWith_of_check (deployed 50000000)
    (demoSetup ++ [.closeLedger 519400, demoRenew])
    (f := State.terms) (a := ([6885000, 6885000], some (6885000, 1037800, 3442500), 519400, true))
    (fresh_deployed (by decide)) rfl
    (by simp [demoSetup, demoInit, demoBind, demoRenew]) (by decide +kernel)
  simp only [State.terms, Prod.mk.injEq, Option.map_eq_some_iff] at hval
  obtain ⟨hpremiums, ⟨p, hp, hprice, hend, hrefund⟩, hseq, hok⟩ := hval
  obtain ⟨s', hstep⟩ := exists_step_of_isOk hok
  have hpolicy : (PolicyCall.terminatePolicy 1 1 .voluntaryCancellation).exec demoEnv s = .ok s' :=
    hstep.2
  obtain ⟨-, hran⟩ := policyRan_of_exec hpolicy
  have hsound := policiesSound_of_reach (reach_of_logged hreach).to_always
  obtain ⟨policy, hget, hrefunded⟩ := refunded_of_terminateInner hsound hran
  rw [hp] at hget
  cases hget
  refine ⟨s, s', p, _, hreach, hstep, hp, ?_, hrefunded, ?_⟩
  · rw [hpremiums, hprice]
    rfl
  · rw [hrefund, State.unusedTerm, hprice, hend, hseq]
    decide

end NiffyInsure
