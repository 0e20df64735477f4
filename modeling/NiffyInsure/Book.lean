import NiffyInsure.PolicyStep

/-!
# Where the book and the cash move

Twelve entrypoints move tokens of the contract or write the book of an asset.  Each lemma here
cuts one of them at the helpers that do so; between the helpers the book, the treasury address
and the balances stay as they are (`Quiet`).  What an entrypoint does to the book and the cash is
then read off its helpers.
-/

namespace NiffyInsure

/-- The book, the treasury address and the balances are untouched. -/
structure Quiet (s s' : State) : Prop where
  ledger : SameKind .assetLedger s s'
  treasury : SameKind .treasury s s'
  balance : s'.balance = s.balance

section Quiet

variable {ks : List Kind} {s s' s'' : State}

theorem Quiet.refl (s : State) : Quiet s s := ⟨.refl _ s, .refl _ s, rfl⟩

theorem Quiet.trans (h : Quiet s s') (h' : Quiet s' s'') : Quiet s s'' :=
  ⟨h.ledger.trans h'.ledger, h.treasury.trans h'.treasury, h'.balance.trans h.balance⟩

theorem Frame.quiet (h : Frame ks s s') (hledger : ks.contains .assetLedger = false)
    (htreasury : ks.contains .treasury = false) (hcash : ks.contains .cash = false) : Quiet s s' :=
  ⟨h.sameKind hledger, h.sameKind htreasury, h.balance hcash⟩

theorem Quiet.emit (h : Quiet s s') (e : Event) : Quiet s (s'.emit e) :=
  ⟨h.ledger, h.treasury, h.balance⟩

end Quiet

/-! ## Reading the book -/

/-- Reading the book after the book of one asset was written. -/
theorem getAssetLedger_setAssetLedger (s : State) (a b : Address) (l : AssetLedger) :
    (s.setAssetLedger a l).getAssetLedger b = if b = a then l else s.getAssetLedger b := by
  split
  · rename_i heq
    subst heq
    simp [State.getAssetLedger, State.setAssetLedger]
  · rename_i hne
    have hkey : DataKey.assetLedger b ≠ .assetLedger a := by simpa using hne
    simp [State.getAssetLedger, State.setAssetLedger, hkey]

theorem getAssetLedger_of_same {s s' : State} (h : SameKind .assetLedger s s') (asset : Address) :
    s'.getAssetLedger asset = s.getAssetLedger asset := by
  rw [State.getAssetLedger, h (.assetLedger asset) rfl]

/-! ## Claims -/

section Claims

variable {env : Env} {s s' : State} {claimId : Nat}

theorem fileClaim_book {holder : Address} {policyId : Nat} {amount : Int} {details : Str}
    {evidence : List ClaimEvidenceEntry} {expectedNonce : Option Nat}
    (h : fileClaim env s holder policyId amount details evidence expectedNonce =
      .ok (claimId, s')) :
    ∃ asset s₁ s₂, Quiet s s₁ ∧ s₁.collectFilingFee env holder asset claimId = .ok s₂ ∧
      Quiet s₂ s' := by
  simp only [fileClaim, bind_eq_ok, pure_eq_ok, Prod.exists, Prod.mk.injEq] at h
  obtain ⟨-, -, s₁, h₁, policy, -, -, -, s₂, h₂, -, -, deadline, -, id, s₃, h₃, s₄, h₄, rfl, rfl⟩ :=
    h
  obtain ⟨-, rfl⟩ := nextClaimId_eq_ok h₃
  refine ⟨policy.asset, s₂.set .claimCounter id, s₄, ?_, h₄, ?_⟩
  · have hf : Frame [.nonce, .rolling, .claimCounter] s (s₂.set .claimCounter id) := by
      rw [Frame.set_iff (by simp)]
      exact ((frame_checkAndBumpNonce h₁).mono (by simp)).trans
        ((frame_checkFileClaim h₂).mono (by simp))
    exact hf.quiet rfl rfl rfl
  · have hsnap : Frame [.claimVoters] s₄ (s₄.snapshotClaimVoters id holder) := by
      rw [State.snapshotClaimVoters, Frame.set_iff (by simp)]
      exact .refl _ s₄
    exact (hsnap.quiet rfl rfl rfl).trans ((frame_recordNewClaim _ _ _).quiet rfl rfl rfl)

/-- A withdrawn claim moves the filing fee that was paid for it, out of the contract and past the
book. -/
theorem withdrawClaim_book {claimant : Address}
    (h : withdrawClaim env s claimant claimId = .ok s') :
    Quiet s s' ∨ ∃ claim fee s₁ s₂, s.getClaim claimId = some claim ∧
      s.get (.claimFilingFeePaid claimId) = some fee ∧ 0 < fee ∧ Quiet s s₁ ∧
      s₁.tokenTransfer env claim.asset env.contract claimant fee = .ok s₂ ∧ Quiet s₂ s' := by
  simp only [withdrawClaim, bind_eq_ok, okOr_eq_ok, ensure_eq_ok, pure_eq_ok] at h
  obtain ⟨claim, hclaim, -, rfl, -, -, -, -, s₄, h₄, rfl⟩ := h
  generalize ht : (((s.setOpenClaim claim.claimant claim.policyId false).remove
    (.claimRateLimitPrev claimId)).setOrRemove (.lastClaimLedger claim.claimant)
      ((s.setOpenClaim claim.claimant claim.policyId false).get
        (.claimRateLimitPrev claimId))).setClaim (claim.moveTo .withdrawn s.sequence) = t at h₄
  have hf : Frame [.openClaim, .rateLimit, .ratePrev, .claim] s t := by
    rw [← ht]
    simp
  have hfee : t.get (.claimFilingFeePaid claimId) = s.get (.claimFilingFeePaid claimId) :=
    hf.get (.claimFilingFeePaid claimId) rfl
  have hq : Quiet s t := hf.quiet rfl rfl rfl
  have hremove : Quiet t (t.remove (.claimFilingFeePaid claimId)) := by
    have hfr : Frame [.filingFeePaid] t (t.remove (.claimFilingFeePaid claimId)) := by simp
    exact hfr.quiet rfl rfl rfl
  dsimp only [State.refundFilingFee] at h₄
  rw [hfee] at h₄
  split at h₄
  · rename_i fee hpaid
    split at h₄
    · rename_i hpos
      simp only [bind_eq_ok, pure_eq_ok] at h₄
      obtain ⟨s₂, h₂, rfl⟩ := h₄
      exact .inr ⟨claim, fee, _, s₂, hclaim, hpaid, hpos, hq.trans hremove, h₂,
        (((Quiet.refl s₂).emit _).emit _).emit _⟩
    · cases h₄
      exact .inl (((hq.trans hremove).emit _).emit _)
  · cases h₄
    exact .inl ((hq.emit _).emit _)

theorem payout_book {claim claim' : Claim} (h : payout env s claim = .ok (claim', s')) :
    ∃ asset recipient net s₁ s₂, Quiet s s₁ ∧ s₁.recordPayoutOut asset net net = .ok s₂ ∧
      settlePayout env s₂ claim asset recipient net = .ok (claim', s') := by
  simp only [payout, bind_eq_ok] at h
  obtain ⟨policy, -, -, -, net, -, -, -, -, -, s₃, h₃, h₄⟩ := h
  refine ⟨_, _, net, _, s₃, ?_, h₃, h₄⟩
  have hf : ∀ (p q : Prop) [Decidable p] [Decidable q] (e f : Event),
      Frame eventKinds s
        (if q then (if p then s.emit e else s).emit f else if p then s.emit e else s) := by
    intro p q _ _ e f
    split <;> split <;> simp [Frame.emit_any_iff, eventKinds]
  exact (hf _ _ _ _).quiet rfl rfl rfl

theorem processClaim_book (h : processClaim env s claimId = .ok s') :
    ∃ claim claim₁ s₁ s₂, Quiet s s₁ ∧ payout env s₁ claim = .ok (claim₁, s₂) ∧
      (s' = s₂ ∨ ∃ claim₂ s₃ s₄, Quiet s₂ s₃ ∧ payout env s₃ claim₁ = .ok (claim₂, s₄) ∧
        Quiet s₄ s') := by
  simp only [processClaim, bind_eq_ok, Prod.exists] at h
  obtain ⟨claim, -, -, -, -, -, -, -, claim₂, s₄, h₄, h⟩ := h
  refine ⟨claim.moveTo .paid s.sequence, claim₂, _, s₄, ?_, h₄, ?_⟩
  · have hf : Frame [.openClaim, .ratePrev, .claim, .rolling] s
        ((((s.setOpenClaim claim.claimant claim.policyId false).remove
          (.claimRateLimitPrev claimId)).setClaim (claim.moveTo .paid s.sequence)).recordClaimPaid
            claim.claimant claim.policyId claim.amount s.sequence) := by
      refine Frame.trans ?_ ((frame_recordClaimPaid _ _ _ _ _).mono (by simp))
      simp
    exact hf.quiet rfl rfl rfl
  · split at h
    · cases h
      exact .inl rfl
    · simp only [bind_eq_ok, Prod.exists, pure_eq_ok] at h
      obtain ⟨claim₃, s₆, h₆, rfl⟩ := h
      exact .inr ⟨claim₃, _, s₆, (frame_recordClaimPaid _ _ _ _ _).quiet rfl rfl rfl, h₆,
        (Quiet.refl s₆).emit _⟩

theorem disburseInstallment_book {amount : Int}
    (h : disburseInstallment env s claimId amount = .ok s') :
    ∃ asset recipient s₁ s₂, s.recordPayoutOut asset amount 0 = .ok s₁ ∧
      s₁.tokenTransfer env asset env.contract recipient amount = .ok s₂ ∧ Quiet s₂ s' := by
  simp only [disburseInstallment, State.payFromTreasury, bind_eq_ok, pure_eq_ok] at h
  obtain ⟨-, -, claim, -, -, -, -, -, -, -, net, -, -, -, remaining, -, -, -, policy, -, -, -, s₁,
    h₁, s₂, ⟨s₃, h₃, rfl⟩, paid, -, count, -, rfl⟩ := h
  refine ⟨_, _, s₁, s₃, h₁, h₃, ?_⟩
  have hlog : ∀ (p : Payout) (e : Event), Frame ([.payout, .openClaim, .ratePrev, .claim,
      .rolling] ++ eventKinds) s₃ ((s₃.logPayout p).emit e) := by
    simp [Frame.emit_any_iff, eventKinds]
  have hf : ∀ (p : Payout) (e : Event) (c : Claim) (r : Address) (q : Prop) [Decidable q],
      Frame ([.payout, .openClaim, .ratePrev, .claim, .rolling] ++ eventKinds) s₃
        (if q then ((s₃.logPayout p).emit e).markFullyPaid claimId c r net
          else (c, (s₃.logPayout p).emit e)).2 := by
    intro p e c r q _
    split
    · exact (hlog p e).trans ((frame_markFullyPaid _ _ _ _ _).mono (by simp [eventKinds]))
    · exact hlog p e
  refine Frame.quiet
    (?_ : Frame ([.payout, .openClaim, .ratePrev, .claim, .rolling] ++ eventKinds) _ _) rfl rfl rfl
  rw [Frame.set_iff (by simp)]
  exact hf _ _ _ _ _

end Claims

/-! ## Policies -/

section Policies

variable {env : Env} {s s' : State}

/-- A new policy pays its premium and reserves its coverage. -/
theorem initiatePolicy_book {a : InitiatePolicyArgs} {policy : Policy}
    (h : initiatePolicy env s a = .ok (policy, s')) :
    ∃ treasuryAmount feeRecipient feeAmount s₁ s₂ s₃, env.auths a.holder = true ∧ Quiet s s₁ ∧
      s₁.collectPremiumWithFee env a.holder a.asset treasuryAmount feeRecipient feeAmount = .ok s₂ ∧
      s₂.reserveCoverage policy.asset policy.coverage = .ok s₃ ∧ Quiet s₃ s' := by
  obtain ⟨premium, deductible, decimals, treasuryAmount, feeAmount, feeRecipient, s₃, s₄, s₅, hauth,
    -, hf₃, -, -, -, h₄, h₅, hf, -⟩ := initiatePolicy_eq_ok h
  obtain ⟨s₆, s₇, h₆, -, h₇, rfl⟩ := bindPolicy_eq_ok h₅
  refine ⟨treasuryAmount, feeRecipient, feeAmount, s₃, s₄, s₆, hauth,
    hf₃.quiet rfl rfl rfl, h₄, h₆, ?_⟩
  have hwrite : Frame [.assetDecimals, .policy] s₆
      ((s₆.set (.assetDecimals policy.asset) policy.tokenDecimals).setPolicy policy.holder
        policy.policyId policy) := by simp
  exact (((hwrite.quiet rfl rfl rfl).trans ((frame_addVoter h₇).quiet rfl rfl rfl)).trans
    ((frame_indexPolicyByStatus _ _ _).quiet rfl rfl rfl)).trans (hf.quiet rfl rfl rfl)

theorem initiatePolicy_fresh {a : InitiatePolicyArgs} {policy : Policy}
    (h : initiatePolicy env s a = .ok (policy, s')) :
    s.getPolicy a.holder policy.policyId = none := by
  obtain ⟨premium, deductible, decimals, treasuryAmount, feeAmount, feeRecipient, s₃,
    s₄, s₅, -, -, -, -, hnone, -⟩ := initiatePolicy_eq_ok h
  exact hnone

theorem renewPolicy_book {a : RenewPolicyArgs} {o : RenewPolicyOutcome}
    (h : renewPolicy env s a = .ok (o, s')) :
    Quiet s s' ∨ ∃ asset premium s₁ s₂, env.auths a.holder = true ∧ Quiet s s₁ ∧
      s₁.collectPremium env a.holder asset premium = .ok s₂ ∧ Quiet s₂ s' := by
  obtain hf | ⟨policy, premium, s₁, s₂, hauth, -, -, -, -, hf₁, h₂, hf, -, -⟩ := renewPolicy_eq_ok h
  · exact .inl (hf.quiet rfl rfl rfl)
  · exact .inr ⟨policy.asset, premium, s₁, s₂, hauth, hf₁.quiet rfl rfl rfl, h₂,
      hf.quiet rfl rfl rfl⟩

/-- A termination releases the coverage, and pays the holder's refund. -/
theorem terminateInner_book {holder : Address} {policyId : Nat} {reason : TerminationReason}
    {byAdmin bypass : Bool}
    (h : terminateInner env s holder policyId reason byAdmin bypass = .ok s') :
    ∃ policy s₁ s₂, s.getPolicy holder policyId = some policy ∧ policy.isActive = true ∧
      SameKind .policy (s.setPolicy holder policyId (policy.ended s.sequence reason byAdmin)) s' ∧
      Quiet s s₁ ∧
      ((byAdmin = false ∧ 0 < computeProrataRefund policy s.sequence ∧
          (s₁.ignoreErr (s₁.releaseCoverage policy.asset policy.coverage)).payRefund
          env policy.asset
            holder (computeProrataRefund policy s.sequence) = .ok s₂) ∨
        s₂ = s₁.ignoreErr (s₁.releaseCoverage policy.asset policy.coverage)) ∧
      Quiet s₂ s' := by
  obtain ⟨policy, s₁, s₂, s₄, hpolicy, -, hactive, hrec, hf₁, h₂, hpay, hf, -⟩ :=
    terminateInner_eq_ok h
  have hdrop := frame_dropActivePolicy h₂
  refine ⟨policy, s₂, s₄, hpolicy, hactive, ?_,
    (hf₁.quiet rfl rfl rfl).trans (hdrop.quiet rfl rfl rfl), hpay.imp_right And.right,
    hf.quiet rfl rfl rfl⟩
  have hrefund := frame_of_refund hpay
  exact ((hrec.trans (hdrop.sameKind rfl)).trans (hrefund.sameKind rfl)).trans (hf.sameKind rfl)

end Policies

/-! ## Treasury -/

section Treasury

variable {env : Env} {s s' : State} {asset recipient : Address} {amount : Int}

theorem depositTreasury_book {depositor : Address}
    (h : depositTreasury env s depositor amount asset = .ok s') :
    ∃ s₁ s₂, env.auths depositor = true ∧ s.recordDeposit asset amount = .ok s₁ ∧
      s₁.tokenTransfer env asset depositor env.contract amount = .ok s₂ ∧ Quiet s₂ s' := by
  simp only [depositTreasury, State.transferIn, bind_eq_ok, pure_eq_ok, requireAuth_eq_ok] at h
  obtain ⟨-, -, -, -, -, -, -, hauth, s₁, ⟨-, -, -, -, s₂, h₂, h₁⟩, rfl⟩ := h
  exact ⟨s₂, s₁, hauth, h₂, h₁, (Quiet.refl s₁).emit _⟩

/-- `admin_sweep` books the sweep and moves the tokens out. -/
theorem adminSweep_book (h : adminSweep env s asset recipient amount = .ok s') :
    ∃ s₁ s₂ s₃, Quiet s s₁ ∧ s₁.recordSweep asset amount = .ok s₂ ∧
      s₂.tokenTransfer env asset env.contract recipient amount = .ok s₃ ∧ Quiet s₃ s' := by
  simp only [adminSweep, bind_eq_ok, mapErr_eq_ok, pure_eq_ok] at h
  obtain ⟨admin, -, -, -, -, -, -, -, -, -, s₁, h₁, s₂, h₂, s₃, h₃, rfl⟩ := h
  exact ⟨s₁, s₂, s₃, (frame_checkSweepLimit h₁).quiet rfl rfl rfl, h₂, h₃, (Quiet.refl s₃).emit _⟩

theorem sweepTokenInner_book {reasonCode : Nat}
    (h : sweepTokenInner env s asset recipient amount reasonCode = .ok s') :
    ∃ s₁ s₂, Quiet s s₁ ∧ 0 < amount ∧
      (s₁.ignoreErr (s₁.recordSweep asset amount)).tokenTransfer env asset env.contract recipient
        amount = .ok s₂ ∧ Quiet s₂ s' := by
  simp only [sweepTokenInner, bind_eq_ok, ensure_eq_ok, pure_eq_ok] at h
  obtain ⟨-, hpos, -, -, s₁, h₁, -, -, -, -, -, -, s₃, h₃, admin, -, rfl⟩ := h
  exact ⟨s₁, s₃, (frame_checkSweepLimit h₁).quiet rfl rfl rfl, hpos, h₃, (Quiet.refl s₃).emit _⟩

theorem drain_book (h : drain env s recipient amount = .ok s') :
    ∃ token s₁, s.get .token = some token ∧
      s.tokenTransfer env token env.contract recipient amount = .ok s₁ ∧ Quiet s₁ s' := by
  simp only [drain, State.getToken, bind_eq_ok, okOr_eq_ok, pure_eq_ok] at h
  obtain ⟨admin, -, -, -, token, htoken, s₁, h₁, rfl⟩ := h
  exact ⟨token, s₁, htoken, h₁, (Quiet.refl s₁).emit _⟩

theorem confirmAdminAction_book {confirmer : Address}
    (h : confirmAdminAction env s confirmer = .ok s') :
    ∃ pending s₁, s.get .pendingAdminAction = some pending ∧
      s.executeAdminAction env pending.action = .ok s₁ ∧ Quiet s₁ s' := by
  simp only [confirmAdminAction, bind_eq_ok, okOr_eq_ok, pure_eq_ok] at h
  obtain ⟨-, -, pending, hpending, -, -, -, -, s₁, h₁, rfl⟩ := h
  have hf : Frame [.pendingAction] s₁ (s₁.remove .pendingAdminAction) := by simp
  exact ⟨pending, s₁, hpending, h₁, (hf.quiet rfl rfl rfl).emit _⟩

end Treasury

end NiffyInsure
