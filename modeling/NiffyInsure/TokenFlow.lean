import NiffyInsure.Authority
import NiffyInsure.Lib.History
import NiffyInsure.Lib.Transfers
import NiffyInsure.PayoutPaths
import NiffyInsure.PolicyStep
import NiffyInsure.Trace

/-!
# Whose tokens move, and on whose word

Every entrypoint moves tokens by transfers of the token contracts, and by nothing else.
`Call.Sanctions` lists what each of them may move: from whom to whom, in which asset, and whose
authorisation it needs, all judged in the state before the call.

* `flows_of_exec`: a call makes admissible transfers, each of them sanctioned.
* `tokens_move_as_sanctioned`: so does every call of every run.
* `calls_respect_consent`: over a whole run the calls take nothing from an account that signs none
  of them, except what it let the contract take as the reinsurance pool; they create no tokens and
  destroy none.
-/

namespace NiffyInsure

open Machine Transfers

/-- A transfer of a token contract. -/
abbrev TokenTransfer := Transfer Address Address

/-- The accounts that the token contracts keep. -/
def State.accounts (s : State) : Accounts Address Address := ⟨s.balance, s.allowance⟩

/-- From `s` to `s'` tokens move by admissible transfers with `P`, and not otherwise. -/
def Flows (P : TokenTransfer → Prop) (s s' : State) : Prop :=
  ∃ ts, (∀ t ∈ ts, P t) ∧ Admissible s.accounts ts ∧ s'.accounts = s.accounts.after ts

/-! ## What is sanctioned -/

section Sanctions

variable (env : Env) (s : State) (t : TokenTransfer)

/-- The transfer comes out of the contract's own account. -/
def OwnTransfer : Prop := t.source = env.contract ∧ t.spender = none

/-- A charge to a holder who signed the call, out of the allowance that the holder gave the
contract. -/
structure ChargedTo (holder : Address) : Prop where
  signed : env.auths holder = true
  source : t.source = holder
  spender : t.spender = some env.contract
  target : t.target = s.getTreasury env ∨ t.target = s.getFeeRecipient env

/-- A payout for an approved claim after its dispute window, on the admin's word. -/
structure PaidFor (claimId : Nat) : Prop where
  signed : ∃ admin, s.get .admin = some admin ∧ env.auths admin = true
  approved : ∃ claim policy, s.getClaim claimId = some claim ∧
    (claim.status = .approved ∨ claim.status = .appealApproved) ∧
    claim.disputeDeadlineLedger < s.sequence ∧
    s.getPolicy claim.claimant claim.policyId = some policy ∧
    t.asset = s.effectiveAsset policy ∧ t.target = policy.payoutTo
  source : OwnTransfer env t ∨
    s.get .reinsuranceContract = some t.source ∧ t.spender = some env.contract

/-- The refund of a policy that its holder ends. -/
structure RefundedTo (holder : Address) (policyId : Nat) : Prop where
  signed : env.auths holder = true
  policy : ∃ policy, s.getPolicy holder policyId = some policy ∧ t.asset = policy.asset ∧
    t.amount = computeProrataRefund policy s.sequence
  target : t.target = holder
  source : t.source = s.getTreasury env ∧ t.spender = none ∧
    (t.source = env.contract ∨ env.auths t.source = true)

/-- The holder of the treasury role signed the call. -/
def TreasurySigned : Prop :=
  ∃ admin, (s.get .treasuryAdmin).or (s.get .admin) = some admin ∧ env.auths admin = true

/-- **The transfers that a call may make.** -/
def Call.Sanctions : Call → Prop
  | .claim (.fileClaim holder policyId _ _ _ _) => ChargedTo env s t holder ∧
    ∃ policy, s.getPolicy holder policyId = some policy ∧ t.asset = policy.asset
  | .claim (.withdrawClaim claimant claimId) =>
    env.auths claimant = true ∧ OwnTransfer env t ∧ t.target = claimant ∧
      s.get (.claimFilingFeePaid claimId) = some t.amount ∧
        ∃ claim, s.getClaim claimId = some claim ∧ t.asset = claim.asset
  | .claim (.processClaim claimId) => PaidFor env s t claimId
  | .claim (.disburseInstallment claimId amount) => PaidFor env s t claimId ∧ t.amount = amount
  | .policy (.initiatePolicy a) => ChargedTo env s t a.holder ∧ t.asset = a.asset
  | .policy (.renewPolicy a) => ChargedTo env s t a.holder ∧
    ∃ policy, s.getPolicy a.holder a.policyId = some policy ∧ t.asset = policy.asset
  | .policy (.terminatePolicy holder policyId _) => RefundedTo env s t holder policyId
  | .treasury (.depositTreasury depositor amount asset) =>
    env.auths depositor = true ∧ s.isAuthorizedDepositor depositor = true ∧
      t = ⟨asset, depositor, env.contract, amount, none⟩
  | .treasury (.adminSweep asset recipient amount)
  | .treasury (.sweepToken asset recipient amount _) =>
    TreasurySigned env s ∧ t = ⟨asset, env.contract, recipient, amount, none⟩
  | .treasury (.drain recipient amount) => TreasurySigned env s ∧
    ∃ token, s.get .token = some token ∧ t = ⟨token, env.contract, recipient, amount, none⟩
  | .treasury (.confirmAdminAction confirmer) => env.auths confirmer = true ∧
    ∃ pending reasonCode, s.get .pendingAdminAction = some pending ∧
      pending.action = .tokenSweep t.asset t.target t.amount reasonCode ∧
      confirmer ≠ pending.proposer ∧ OwnTransfer env t
  | _ => False

end Sanctions

/-! ## Flows of the helpers -/

section Flows

variable {env : Env} {s s' s'' : State} {P Q : TokenTransfer → Prop} {ks : List Kind}
  {asset src dst : Address} {amount : Int}

theorem Flows.refl (P : TokenTransfer → Prop) (s : State) : Flows P s s :=
  ⟨[], by simp, trivial, rfl⟩

theorem Flows.trans (h : Flows P s s') (h' : Flows P s' s'') : Flows P s s'' := by
  obtain ⟨ts, hP, hadm, hafter⟩ := h
  obtain ⟨ts', hP', hadm', hafter'⟩ := h'
  refine ⟨ts ++ ts', ?_, Admissible.append ts hadm ?_, ?_⟩
  · intro t ht
    exact (List.mem_append.mp ht).elim (hP t) (hP' t)
  · rwa [← hafter]
  · rw [after_append, ← hafter, hafter']

theorem Flows.mono (h : Flows P s s') (hPQ : ∀ t, P t → Q t) : Flows Q s s' := by
  obtain ⟨ts, hP, h⟩ := h
  exact ⟨ts, fun t ht => hPQ t (hP t ht), h⟩

theorem Flows.of_frame (h : Frame ks s s') (hk : ks.contains .cash = false) : Flows P s s' := by
  refine ⟨[], by simp, trivial, ?_⟩
  show Accounts.mk s'.balance s'.allowance = Accounts.mk s.balance s.allowance
  rw [h.balance hk, h.allowance hk]

theorem Flows.emit (h : Flows P s s') (e : Event) : Flows P s (s'.emit e) := h

theorem Flows.of_emit {e : Event} (h : Flows P (s.emit e) s') : Flows P s s' := h

theorem flows_tokenTransfer (h : s.tokenTransfer env asset src dst amount = .ok s') :
    Flows (· = ⟨asset, src, dst, amount, none⟩) s s' := by
  obtain ⟨-, hpos, hle, rfl⟩ := tokenTransfer_eq_ok.mp h
  refine ⟨[⟨asset, src, dst, amount, none⟩], by simp, ⟨⟨hpos, hle, by simp⟩, trivial⟩, ?_⟩
  simp only [State.accounts, State.moveTokens, after_cons, after_nil, Accounts.carry,
    Accounts.mk.injEq]
  refine ⟨?_, ?_⟩
  · funext a x
    by_cases ha : a = asset <;> simp [Transfer.debit, Transfer.credit, ha]
  · funext a x p
    simp [Transfer.draw]

theorem flows_tokenTransferFrom (h : s.tokenTransferFrom env asset src dst amount = .ok s') :
    Flows (· = ⟨asset, src, dst, amount, some env.contract⟩) s s' := by
  simp only [State.tokenTransferFrom, bind_eq_ok, ensure_eq_ok, pure_eq_ok] at h
  obtain ⟨-, hpos, -, hallowed, -, hle, rfl⟩ := h
  refine ⟨[⟨asset, src, dst, amount, some env.contract⟩], by simp,
    ⟨⟨hpos, hle, ?_⟩, trivial⟩, ?_⟩
  · intro p hp
    cases hp
    exact hallowed
  simp only [State.accounts, State.moveTokens, after_cons, after_nil, Accounts.carry,
    Accounts.mk.injEq]
  refine ⟨?_, ?_⟩
  · funext a x
    by_cases ha : a = asset <;> simp [Transfer.debit, Transfer.credit, ha]
  · funext a x p
    by_cases hd : a = asset ∧ x = src ∧ p = env.contract
    · obtain ⟨rfl, rfl, rfl⟩ := hd
      simp [Transfer.draw]
    · simp only [Transfer.draw, if_neg hd, Option.some.injEq]
      rw [if_neg fun hc => hd ⟨hc.1, hc.2.1, hc.2.2.symm⟩, sub_zero]

theorem getTreasury_of_frame (h : Frame ks s s') (hk : ks.contains .treasury = false) :
    s'.getTreasury env = s.getTreasury env := by
  simp only [State.getTreasury, h.get .treasury hk]

theorem flows_collectPremium (h : s.collectPremium env src asset amount = .ok s') :
    Flows (fun t => t.asset = asset ∧ t.source = src ∧ t.spender = some env.contract ∧
      t.target = s.getTreasury env) s s' := by
  dsimp only [State.collectPremium] at h
  split at h
  · cases h
    exact .refl _ s
  · have hf : Frame [.assetLedger] s (s.ignoreErr (s.recordPremiumIn asset amount)) :=
      (Frame.refl _ s).ignoreErr fun t ht => frame_recordPremiumIn ht
    refine (Flows.of_frame hf rfl).trans ((flows_tokenTransferFrom h).mono ?_)
    rintro t rfl
    exact ⟨rfl, rfl, rfl, getTreasury_of_frame hf rfl⟩

/-- What is paid for a claim comes from the contract or from the reinsurance pool. -/
def Settles (env : Env) (s : State) (asset recipient : Address) (t : TokenTransfer) : Prop :=
  t.asset = asset ∧ t.target = recipient ∧ (OwnTransfer env t ∨
    s.get .reinsuranceContract = some t.source ∧ t.spender = some env.contract)

theorem flows_payFromTreasury {claimId : Nat}
    (h : s.payFromTreasury env claimId asset dst amount = .ok s') :
    Flows (Settles env s'' asset dst) s s' := by
  simp only [State.payFromTreasury, bind_eq_ok, pure_eq_ok] at h
  obtain ⟨s₁, h₁, rfl⟩ := h
  refine (flows_tokenTransfer h₁).mono ?_
  rintro t rfl
  exact ⟨rfl, rfl, .inl ⟨rfl, rfl⟩⟩

theorem flows_payFromReinsurance {claimId : Nat} {reinsurance : Address}
    (hpool : s''.get .reinsuranceContract = some reinsurance)
    (h : s.payFromReinsurance env claimId asset reinsurance dst amount = .ok s') :
    Flows (Settles env s'' asset dst) s s' := by
  simp only [State.payFromReinsurance, bind_eq_ok, pure_eq_ok] at h
  obtain ⟨s₁, h₁, rfl⟩ := h
  refine (flows_tokenTransferFrom h₁).mono ?_
  rintro t rfl
  exact ⟨rfl, rfl, .inr ⟨hpool, rfl⟩⟩

theorem flows_settlePayout {claim claim' : Claim}
    (h : settlePayout env s claim asset dst amount = .ok (claim', s')) :
    Flows (Settles env s asset dst) s s' := by
  cases settlementRun_of_ok h with
  | treasury _ hpaid => exact (flows_payFromTreasury hpaid).emit _
  | short => exact Flows.refl _ s
  | both _ _ hpool _ _ hpaid hdrawn =>
    have hdraw := flows_payFromReinsurance hpool hdrawn
    exact (((flows_payFromTreasury hpaid).trans hdraw).of_emit.emit _).emit _
  | reinsurance _ _ hpool _ _ hdrawn =>
    exact ((flows_payFromReinsurance hpool hdrawn).of_emit.emit _).emit _

/-- A payout goes to whom the policy names, in the asset of its type. -/
theorem flows_payout {claim claim' : Claim} (h : payout env s claim = .ok (claim', s')) :
    ∃ policy, s.getPolicy claim.claimant claim.policyId = some policy ∧
      Flows (Settles env s (s.effectiveAsset policy) policy.payoutTo) s s' := by
  simp only [payout, bind_eq_ok, okOr_eq_ok] at h
  obtain ⟨policy, hpolicy, -, -, net, -, -, -, -, -, s₃, h₃, h₄⟩ := h
  refine ⟨policy, hpolicy, ?_⟩
  generalize ht : (if s.effectiveAsset policy ≠ policy.asset then _ else _ : State) = t at h₃
  have hf : Frame [] s t := by
    rw [← ht]
    split <;> split <;> simp
  have hf₃ : Frame [.assetLedger] s s₃ := (hf.mono (by simp)).trans (frame_recordPayoutOut h₃)
  refine (Flows.of_frame hf₃ rfl).trans ((flows_settlePayout h₄).mono ?_)
  rintro t ⟨hasset, htarget, hsource⟩
  refine ⟨hasset, htarget, hsource.imp_right fun hpool => ⟨?_, hpool.2⟩⟩
  rw [← hf₃.get .reinsuranceContract rfl]
  exact hpool.1

end Flows

/-! ## Flows of the claim entrypoints -/

section ClaimFlows

variable {env : Env} {s s' : State} {claimId : Nat}

theorem flows_collectFilingFee {holder asset : Address}
    (h : s.collectFilingFee env holder asset claimId = .ok s') :
    Flows (fun t => t.asset = asset ∧ t.source = holder ∧ t.spender = some env.contract ∧
      t.target = s.getTreasury env) s s' := by
  dsimp only [State.collectFilingFee] at h
  split at h
  · simp only [bind_eq_ok, pure_eq_ok] at h
    obtain ⟨-, -, s₁, h₁, rfl⟩ := h
    have hfee := flows_collectPremium h₁
    exact hfee
  · cases h
    exact .refl _ s

theorem flows_fileClaim {holder : Address} {policyId : Nat} {amount : Int} {details : Str}
    {evidence : List ClaimEvidenceEntry} {expectedNonce : Option Nat}
    (hauth : env.auths holder = true)
    (h : fileClaim env s holder policyId amount details evidence expectedNonce =
      .ok (claimId, s')) :
    Flows (fun t => ChargedTo env s t holder ∧
      ∃ policy, s.getPolicy holder policyId = some policy ∧ t.asset = policy.asset) s s' := by
  simp only [fileClaim, bind_eq_ok, okOr_eq_ok, pure_eq_ok, Prod.exists, Prod.mk.injEq] at h
  obtain ⟨-, -, s₁, h₁, policy, hpolicy, -, -, s₂, h₂, -, -, deadline, -, id, s₃, h₃,
    s₄, h₄, rfl, rfl⟩ := h
  replace hpolicy : s.getPolicy holder policyId = some policy := by
    rw [State.getPolicy, ← (frame_checkAndBumpNonce h₁).get (.policy holder policyId) rfl]
    exact hpolicy
  obtain ⟨-, rfl⟩ := nextClaimId_eq_ok h₃
  have hf : Frame [.nonce, .rolling, .claimCounter] s (s₂.set .claimCounter id) := by
    rw [Frame.set_iff (by simp)]
    exact ((frame_checkAndBumpNonce h₁).mono (by simp)).trans
      ((frame_checkFileClaim h₂).mono (by simp))
  have hsnap : Frame [.claimVoters] s₄ (s₄.snapshotClaimVoters id holder) := by
    rw [State.snapshotClaimVoters, Frame.set_iff (by simp)]
    exact .refl _ s₄
  have hfee : Flows (fun t => ChargedTo env s t holder ∧
      ∃ policy, s.getPolicy holder policyId = some policy ∧ t.asset = policy.asset)
      (s₂.set .claimCounter id) s₄ := by
    refine (flows_collectFilingFee h₄).mono ?_
    rintro t ⟨hasset, hsource, hspender, htarget⟩
    exact ⟨⟨hauth, hsource, hspender, .inl (htarget.trans (getTreasury_of_frame hf rfl))⟩, policy,
      hpolicy, hasset⟩
  exact (((Flows.of_frame hf rfl).trans hfee).trans (.of_frame hsnap rfl)).trans
    (.of_frame (frame_recordNewClaim _ _ _) rfl)

theorem flows_refundFilingFee {claim : Claim} (h : s.refundFilingFee env claimId claim = .ok s') :
    Flows (fun t => OwnTransfer env t ∧ t.target = claim.claimant ∧
      s.get (.claimFilingFeePaid claimId) = some t.amount ∧ t.asset = claim.asset) s s' := by
  have hremove : Frame [.filingFeePaid] s (s.remove (.claimFilingFeePaid claimId)) := by simp
  dsimp only [State.refundFilingFee] at h
  split at h
  · rename_i fee hpaid
    split at h
    · simp only [bind_eq_ok, pure_eq_ok] at h
      obtain ⟨s₂, h₂, rfl⟩ := h
      refine ((Flows.of_frame hremove rfl).trans ((flows_tokenTransfer h₂).mono ?_)).emit _
      rintro t rfl
      exact ⟨⟨rfl, rfl⟩, rfl, hpaid, rfl⟩
    · cases h
      exact .of_frame hremove rfl
  · cases h
    exact .refl _ s

theorem flows_withdrawClaim {claimant : Address} (hauth : env.auths claimant = true)
    (h : withdrawClaim env s claimant claimId = .ok s') :
    Flows (fun t => (Call.claim (.withdrawClaim claimant claimId)).Sanctions env s t) s s' := by
  simp only [withdrawClaim, bind_eq_ok, okOr_eq_ok, ensure_eq_ok, pure_eq_ok] at h
  obtain ⟨claim, hclaim, -, rfl, -, -, -, -, s₄, h₄, rfl⟩ := h
  generalize ht : (((s.setOpenClaim claim.claimant claim.policyId false).remove
    (.claimRateLimitPrev claimId)).setOrRemove (.lastClaimLedger claim.claimant)
      ((s.setOpenClaim claim.claimant claim.policyId false).get
        (.claimRateLimitPrev claimId))).setClaim (claim.moveTo .withdrawn s.sequence) = t at h₄
  have hf : Frame [.openClaim, .rateLimit, .ratePrev, .claim] s t := by
    rw [← ht]
    simp
  have hrefund := (flows_refundFilingFee h₄).mono
    (Q := fun t => (Call.claim (.withdrawClaim claim.claimant claimId)).Sanctions env s t) ?_
  · exact (((Flows.of_frame hf rfl).trans hrefund).emit _).emit _
  · rintro t' ⟨hown, htarget, hamount, hasset⟩
    rw [hf.get (.claimFilingFeePaid claimId) rfl] at hamount
    exact ⟨hauth, hown, htarget, hamount, claim, hclaim, hasset⟩

theorem effectiveAsset_of_frame {ks : List Kind} (h : Frame ks s s')
    (hk : ks.contains .config = false) (policy : Policy) :
    s'.effectiveAsset policy = s.effectiveAsset policy := by
  simp only [State.effectiveAsset, h.get (.policyTypeConfig policy.policyType) hk]

/-- What settles a claim later in a call is judged like at its start. -/
theorem Settles.paidFor {ks : List Kind} {t : State} {claim : Claim} {policy : Policy}
    {p : TokenTransfer} (hsigned : ∃ admin, s.get .admin = some admin ∧ env.auths admin = true)
    (hclaim : s.getClaim claimId = some claim)
    (hst : claim.status = .approved ∨ claim.status = .appealApproved)
    (hwindow : claim.disputeDeadlineLedger < s.sequence)
    (hpolicy : s.getPolicy claim.claimant claim.policyId = some policy) (hf : Frame ks s t)
    (hconfig : ks.contains .config = false)
    (h : Settles env t (t.effectiveAsset policy) policy.payoutTo p) : PaidFor env s p claimId := by
  obtain ⟨hasset, htarget, hsource⟩ := h
  rw [effectiveAsset_of_frame hf hconfig] at hasset
  rw [hf.get .reinsuranceContract hconfig] at hsource
  exact ⟨hsigned, ⟨claim, policy, hclaim, hst, hwindow, hpolicy, hasset, htarget⟩, hsource⟩

theorem flows_processClaim (hsigned : ∃ admin, s.get .admin = some admin ∧ env.auths admin = true)
    (h : processClaim env s claimId = .ok s') : Flows (PaidFor env s · claimId) s s' := by
  obtain ⟨claim, hclaim, hst, hwindow, hcase⟩ := processClaim_cases h
  have hmark := frame_markPaid (s := s) claimId claim
  -- one payout, from any state between that has the policies and the configuration of `s`
  have hpay : ∀ {ks : List Kind} {t t' : State} {claim' : Claim}, Frame ks s t →
      ks.contains .config = false → ks.contains .policy = false →
      payout env t (claim.moveTo .paid s.sequence) = .ok (claim', t') →
      Flows (PaidFor env s · claimId) t t' := by
    intro ks t t' claim' hf hconfig hpol hrun
    obtain ⟨policy, hpolicy, hflow⟩ := flows_payout hrun
    have hsame : s.getPolicy claim.claimant claim.policyId = some policy :=
      (hf.get (.policy claim.claimant claim.policyId) hpol).symm.trans hpolicy
    exact hflow.mono fun p hp => hp.paidFor hsigned hclaim hst hwindow hsame hf hconfig
  rcases hcase with ⟨-, h₄⟩ | ⟨-, s₄, claim₃, s₆, h₄, h₆, rfl⟩
  · exact (Flows.of_frame hmark rfl).trans (hpay hmark rfl rfl h₄)
  · have hfirst := (Flows.of_frame hmark rfl).trans (hpay hmark rfl rfl h₄)
    have hbetween := frame_recordClaimPaid s₄ claim.claimant claim.policyId claim.amount s.sequence
    have hf : Frame [.openClaim, .ratePrev, .claim, .rolling, .assetLedger, .cash, .payout,
        .statusEvent] s (s₄.recordClaimPaid claim.claimant claim.policyId claim.amount
        s.sequence) :=
      ((hmark.mono (by simp)).trans ((frame_payout h₄).mono (by simp))).trans
        (hbetween.mono (by simp))
    exact ((hfirst.trans (.of_frame hbetween rfl)).trans (hpay hf rfl rfl h₆)).emit _

theorem flows_disburseInstallment {amount : Int}
    (hsigned : ∃ admin, s.get .admin = some admin ∧ env.auths admin = true)
    (h : disburseInstallment env s claimId amount = .ok s') :
    Flows (fun t => PaidFor env s t claimId ∧ t.amount = amount) s s' := by
  simp only [disburseInstallment, State.payFromTreasury, bind_eq_ok, okOr_eq_ok, ensure_eq_ok,
    pure_eq_ok] at h
  obtain ⟨-, -, claim, hclaim, -, -, -, hst, -, hwindow, net, -, -, -, remaining, -, -, -, policy,
    hpolicy, -, -, s₁, h₁, s₂, ⟨s₃, h₃, rfl⟩, paid, -, count, -, rfl⟩ := h
  have hlog : ∀ (p : Payout) (e : Event), Frame ([.payout, .openClaim, .ratePrev, .claim,
      .rolling] ++ eventKinds) s₃ ((s₃.logPayout p).emit e) := by
    simp [Frame.emit_any_iff, eventKinds]
  have hf : ∀ (p : Payout) (e : Event) (c : Claim) (r : Address) (q : Prop) [Decidable q],
      Frame ([.payout, .openClaim, .ratePrev, .claim, .rolling] ++ eventKinds) s₃
        (if q then ((s₃.logPayout p).emit e).markFullyPaid claimId c r net
          else (c, (s₃.logPayout p).emit e)).2 := by
    intro p e c r q _
    split
    · exact (hlog p e).trans ((frame_markFullyPaid _ _ _ _ _).mono (by simp [eventKinds]))
    · exact hlog p e
  have hpaid : Flows (fun t => PaidFor env s t claimId ∧ t.amount = amount) s₁ s₃ := by
    refine (flows_tokenTransfer h₃).mono ?_
    rintro t rfl
    exact ⟨⟨hsigned, ⟨claim, policy, hclaim, .inl hst, hwindow, hpolicy, rfl, rfl⟩,
      .inl ⟨rfl, rfl⟩⟩, rfl⟩
  refine ((Flows.of_frame (frame_recordPayoutOut h₁) rfl).trans hpaid).trans (Flows.of_frame
    (?_ : Frame ([.payout, .openClaim, .ratePrev, .claim, .rolling] ++ eventKinds) _ _) rfl)
  rw [Frame.set_iff (by simp)]
  exact hf _ _ _ _ _

end ClaimFlows

/-! ## Flows of the policy entrypoints -/

section PolicyFlows

variable {env : Env} {s s' : State}

theorem flows_collectPremiumWithFee {src asset feeRecipient : Address}
    {treasuryAmount feeAmount : Int}
    (h : s.collectPremiumWithFee env src asset treasuryAmount feeRecipient feeAmount = .ok s') :
    Flows (fun t => t.asset = asset ∧ t.source = src ∧ t.spender = some env.contract ∧
      (t.target = s.getTreasury env ∨ t.target = feeRecipient)) s s' := by
  obtain ⟨s₁, h₁, hfee⟩ := collectPremiumWithFee_eq_ok h
  have hpremium := (flows_collectPremium h₁).mono
    (Q := fun t => t.asset = asset ∧ t.source = src ∧ t.spender = some env.contract ∧
      (t.target = s.getTreasury env ∨ t.target = feeRecipient))
    fun t ht => ⟨ht.1, ht.2.1, ht.2.2.1, .inl ht.2.2.2⟩
  rcases hfee with rfl | h₂
  · exact hpremium
  · refine hpremium.trans ((flows_tokenTransferFrom h₂).mono ?_)
    rintro t rfl
    exact ⟨rfl, rfl, rfl, .inr rfl⟩

theorem flows_initiatePolicy {a : InitiatePolicyArgs} {policy : Policy}
    (h : initiatePolicy env s a = .ok (policy, s')) :
    Flows (fun t => ChargedTo env s t a.holder ∧ t.asset = a.asset) s s' := by
  obtain ⟨-, -, hauth, h₁, -, h₂, -, -, -, h₃, -, -, -, h₄, h₅⟩ := initiateRun_of_ok h
  rename_i policyId finish decimals s₁ s₂ s₃ s₄ s₅
  obtain ⟨-, rfl⟩ := nextPolicyId_eq_ok h₃
  have hpre : Frame [.nonce, .calcVersion] s s₂ :=
    ((frame_checkAndBumpNonce h₁).mono (by simp)).trans ((frame_computeQuote h₂).mono (by simp))
  have hf : Frame [.nonce, .calcVersion, .policyCounter] s
      (s₂.set (.policyCounter a.holder) policyId) := by
    rw [Frame.set_iff (by simp)]
    exact hpre.mono (by simp)
  have hcharge : Flows (fun t => ChargedTo env s t a.holder ∧ t.asset = a.asset)
      (s₂.set (.policyCounter a.holder) policyId) s₄ := by
    refine (flows_collectPremiumWithFee h₄).mono ?_
    rintro t ⟨hasset, hsource, hspender, htarget⟩
    refine ⟨⟨hauth, hsource, hspender, ?_⟩, hasset⟩
    rw [getTreasury_of_frame hf rfl] at htarget
    refine htarget.imp_right fun hfee => hfee.trans ?_
    simp only [State.getFeeRecipient, hpre.get .feeRecipient rfl]
  have hbind := frame_bindPolicy h₅
  exact (((Flows.of_frame hf rfl).trans hcharge).trans (.of_frame hbind rfl)).trans
    (.of_frame (frame_emitPolicyInitiated _ _ _ _) rfl)

theorem flows_renewPolicy {a : RenewPolicyArgs} {o : RenewPolicyOutcome}
    (h : renewPolicy env s a = .ok (o, s')) :
    Flows (fun t => (Call.policy (.renewPolicy a)).Sanctions env s t) s s' := by
  obtain hf | ⟨policy, premium, s₁, s₂, hauth, hpolicy, -, -, -, hf₁, h₂, hf, -⟩ :=
    renewPolicy_eq_ok h
  · exact .of_frame hf rfl
  · refine ((Flows.of_frame hf₁ rfl).trans ((flows_collectPremium h₂).mono ?_)).trans
      (.of_frame hf rfl)
    rintro t ⟨hasset, hsource, hspender, htarget⟩
    exact ⟨⟨hauth, hsource, hspender, .inl (htarget.trans (getTreasury_of_frame hf₁ rfl))⟩,
      policy, hpolicy, hasset⟩

/-- A termination by the holder pays its refund from the treasury; one by the admin pays nothing. -/
theorem flows_terminateInner {holder : Address} {policyId : Nat} {reason : TerminationReason}
    {byAdmin bypass : Bool} (hauth : byAdmin = false → env.auths holder = true)
    (h : terminateInner env s holder policyId reason byAdmin bypass = .ok s') :
    Flows (fun t => byAdmin = false ∧ RefundedTo env s t holder policyId) s s' := by
  obtain ⟨policy, s₁, s₂, s₄, hpolicy, -, -, -, hf₁, h₂, hpay, hf, -⟩ := terminateInner_eq_ok h
  have hrel : Frame [.assetLedger] s₂
      (s₂.ignoreErr (s₂.releaseCoverage policy.asset policy.coverage)) :=
    (Frame.refl _ s₂).ignoreErr fun t ht => frame_releaseCoverage ht
  have hpre : Frame [.policy, .statusIndex, .registry, .activeCount, .assetLedger] s
      (s₂.ignoreErr (s₂.releaseCoverage policy.asset policy.coverage)) :=
    ((hf₁.mono (by simp)).trans ((frame_dropActivePolicy h₂).mono (by simp))).trans
      (hrel.mono (by simp))
  refine ((Flows.of_frame hpre rfl).trans ?_).trans (.of_frame hf rfl)
  rcases hpay with ⟨hadmin, -, h₄⟩ | ⟨-, rfl⟩
  · have hbook : Frame [.assetLedger] _ ((s₂.ignoreErr (s₂.releaseCoverage policy.asset
        policy.coverage)).ignoreErr ((s₂.ignoreErr (s₂.releaseCoverage policy.asset
          policy.coverage)).recordPayoutOut policy.asset (computeProrataRefund policy s.sequence)
          0)) :=
      (Frame.refl _ _).ignoreErr fun t ht => frame_recordPayoutOut ht
    refine (Flows.of_frame hbook rfl).trans ((flows_tokenTransfer h₄).mono ?_)
    rintro t rfl
    have hsource : _ = s.getTreasury env := getTreasury_of_frame hpre rfl
    obtain ⟨hsigned, -⟩ := tokenTransfer_eq_ok.mp h₄
    exact ⟨hadmin, hauth hadmin, ⟨policy, hpolicy, rfl, rfl⟩, rfl, hsource, rfl, hsigned⟩
  · exact .refl _ _

end PolicyFlows

/-! ## Flows of the treasury entrypoints -/

section TreasuryFlows

variable {env : Env} {s s' : State} {asset recipient : Address} {amount : Int}

theorem flows_depositTreasury {depositor : Address}
    (h : depositTreasury env s depositor amount asset = .ok s') :
    Flows (fun t => (Call.treasury (.depositTreasury depositor amount asset)).Sanctions env s t)
      s s' := by
  simp only [depositTreasury, State.transferIn, bind_eq_ok, ensure_eq_ok, pure_eq_ok,
    requireAuth_eq_ok] at h
  obtain ⟨-, -, -, hdepositor, -, -, -, hauth, s₁, ⟨-, -, -, -, s₂, h₂, h₁⟩, rfl⟩ := h
  refine ((Flows.of_frame (frame_recordDeposit h₂) rfl).trans
    ((flows_tokenTransfer h₁).mono ?_)).emit _
  rintro t rfl
  exact ⟨hauth, hdepositor, rfl⟩

theorem flows_adminSweep (h : adminSweep env s asset recipient amount = .ok s') :
    Flows (fun t => (Call.treasury (.adminSweep asset recipient amount)).Sanctions env s t) s
      s' := by
  simp only [adminSweep, bind_eq_ok, mapErr_eq_ok, pure_eq_ok] at h
  obtain ⟨admin, hadmin, -, -, -, -, -, -, -, -, s₁, h₁, s₂, h₂, s₃, h₃, rfl⟩ := h
  have hf : Frame [.sweepUse, .assetLedger] s s₂ :=
    ((frame_checkSweepLimit h₁).mono (by simp)).trans ((frame_recordSweep h₂).mono (by simp))
  refine ((Flows.of_frame hf rfl).trans ((flows_tokenTransfer h₃).mono ?_)).emit _
  rintro t rfl
  exact ⟨signed_of_requireTreasuryAdmin hadmin, rfl⟩

theorem flows_sweepTokenInner {reasonCode : Nat}
    (h : sweepTokenInner env s asset recipient amount reasonCode = .ok s') :
    Flows (· = ⟨asset, env.contract, recipient, amount, none⟩) s s' := by
  simp only [sweepTokenInner, bind_eq_ok, pure_eq_ok] at h
  obtain ⟨-, -, -, -, s₁, h₁, -, -, -, -, -, -, s₃, h₃, admin, -, rfl⟩ := h
  have hbook : Frame [.assetLedger] s₁ (s₁.ignoreErr (s₁.recordSweep asset amount)) :=
    (Frame.refl _ s₁).ignoreErr fun t ht => frame_recordSweep ht
  have hf : Frame [.sweepUse, .assetLedger] s (s₁.ignoreErr (s₁.recordSweep asset amount)) :=
    ((frame_checkSweepLimit h₁).mono (by simp)).trans (hbook.mono (by simp))
  exact ((Flows.of_frame hf rfl).trans (flows_tokenTransfer h₃)).emit _

theorem flows_drain (h : drain env s recipient amount = .ok s') :
    Flows (fun t => (Call.treasury (.drain recipient amount)).Sanctions env s t) s s' := by
  simp only [drain, State.getToken, bind_eq_ok, okOr_eq_ok, pure_eq_ok] at h
  obtain ⟨admin, hadmin, -, -, token, htoken, s₁, h₁, rfl⟩ := h
  refine ((flows_tokenTransfer h₁).mono ?_).emit _
  rintro t rfl
  exact ⟨signed_of_requireTreasuryAdmin hadmin, token, htoken, rfl⟩

theorem flows_confirmAdminAction {confirmer : Address}
    (h : confirmAdminAction env s confirmer = .ok s') :
    Flows (fun t => (Call.treasury (.confirmAdminAction confirmer)).Sanctions env s t) s s' := by
  simp only [confirmAdminAction, bind_eq_ok, okOr_eq_ok, ensure_eq_ok, pure_eq_ok,
    requireAuth_eq_ok] at h
  obtain ⟨-, hauth, pending, hpending, -, -, -, hne, s₁, h₁, rfl⟩ := h
  cases haction : pending.action with
  | treasuryRotation newTreasury =>
    rw [haction] at h₁
    cases h₁
    exact .refl _ s
  | tokenSweep asset recipient amount reasonCode =>
    rw [haction] at h₁
    have hsweep : Flows _ s s₁ := (flows_sweepTokenInner h₁).mono fun t ht =>
      (⟨hauth, pending, reasonCode, hpending, by rw [ht]; exact haction, hne, by rw [ht],
        by rw [ht]⟩ : (Call.treasury (.confirmAdminAction confirmer)).Sanctions env s t)
    exact hsweep

end TreasuryFlows

/-! ## Every call -/

section Calls

variable {env : Env} {s s' : State}

/-- **A call moves tokens by admissible transfers that it sanctions**, and not otherwise. -/
theorem flows_of_exec {c : Call} (h : c.exec env s = .ok s') :
    Flows (c.Sanctions env s ·) s s' := by
  cases c with
  | claim c =>
    have hexec : c.exec env s = .ok s' := h
    have hran := ran_of_exec hexec
    cases c with
    | fileClaim holder =>
      obtain ⟨u, hauth, -⟩ := bind_eq_ok.mp h
      obtain ⟨claimId, hran⟩ := hran
      exact flows_fileClaim (requireAuth_eq_ok.mp hauth) hran
    | withdrawClaim =>
      obtain ⟨u, hauth, -⟩ := bind_eq_ok.mp h
      exact flows_withdrawClaim (requireAuth_eq_ok.mp hauth) hran
    | processClaim =>
      obtain ⟨admin, hadmin, -⟩ := bind_eq_ok.mp h
      exact flows_processClaim (signed_of_requireStoredAdmin hadmin) hran
    | disburseInstallment =>
      obtain ⟨admin, hadmin, -⟩ := bind_eq_ok.mp h
      exact flows_disburseInstallment (signed_of_requireStoredAdmin hadmin) hran
    | _ => exact .of_frame (frame_claimCall hexec) rfl
  | policy c =>
    have hexec : c.exec env s = .ok s' := h
    have hran := policyRan_of_exec hexec
    cases c with
    | initiatePolicy =>
      obtain ⟨policy, hran⟩ := hran
      exact flows_initiatePolicy hran
    | renewPolicy =>
      obtain ⟨o, hran⟩ := hran
      exact flows_renewPolicy hran
    | terminatePolicy =>
      exact (flows_terminateInner (fun _ => hran.1) hran.2).mono fun t ht => ht.2
    | adminTerminatePolicy =>
      have hnone := flows_terminateInner (fun hadmin => by cases hadmin) hran
      exact hnone.mono fun t ht => absurd ht.1 (by decide)
    | _ => exact .of_frame (frame_policyCall hexec) rfl
  | treasury c =>
    have hexec : c.exec env s = .ok s' := h
    cases c with
    | depositTreasury => exact flows_depositTreasury h
    | adminSweep => exact flows_adminSweep h
    | sweepToken =>
      obtain ⟨admin, hadmin, h⟩ := bind_eq_ok.mp h
      exact (flows_sweepTokenInner h).mono fun t ht => ⟨signed_of_requireTreasuryAdmin hadmin, ht⟩
    | drain => exact flows_drain h
    | confirmAdminAction => exact flows_confirmAdminAction h
    | _ => exact .of_frame (frame_treasuryCall hexec) rfl
  | setting c => exact .of_frame (frame_setting h) rfl
  | governance c =>
    refine .of_frame (frame_governanceCall h) ?_
    cases c <;> rfl

end Calls

/-! ## Runs -/

section Runs

variable {host : Host} {s : State} {g : Journal}

/-- What the calls of a run changed about a quantity, together. -/
def byCalls (f : State → Int) : Journal → Int
  | [] => 0
  | ⟨before, .call _ _, after⟩ :: g => f after - f before + byCalls f g
  | _ :: g => byCalls f g

/-- Whose tokens a call takes: the contract's, those of an account that signed it, or those of the
reinsurance pool out of its allowance. -/
theorem Call.Sanctions.consent {env : Env} {c : Call} {t : TokenTransfer}
    (h : c.Sanctions env s t) : t.source = env.contract ∨ env.auths t.source = true ∨
      s.get .reinsuranceContract = some t.source ∧ t.spender = some env.contract := by
  have hcharged : ∀ {holder : Address}, ChargedTo env s t holder → env.auths t.source = true :=
    fun hc => hc.source ▸ hc.signed
  have hpaid : ∀ {claimId : Nat}, PaidFor env s t claimId → t.source = env.contract ∨
      env.auths t.source = true ∨
        s.get .reinsuranceContract = some t.source ∧ t.spender = some env.contract :=
    fun hp => hp.source.imp (fun hown => hown.1) .inr
  unfold Call.Sanctions at h
  split at h
  · exact .inr (.inl (hcharged h.1))
  · exact .inl h.2.1.1
  · exact hpaid h
  · exact hpaid h.1
  · exact .inr (.inl (hcharged h.1))
  · exact .inr (.inl (hcharged h.1))
  · exact h.source.2.2.imp_right .inl
  · obtain ⟨hauth, -, rfl⟩ := h
    exact .inr (.inl hauth)
  · exact .inl (h.2 ▸ rfl)
  · exact .inl (h.2 ▸ rfl)
  · obtain ⟨-, token, -, rfl⟩ := h
    exact .inl rfl
  · obtain ⟨-, pending, reasonCode, -, -, -, hown⟩ := h
    exact .inl hown.1
  · exact absurd h id

/-- **Tokens move as the calls sanction it**: in every run, every call changes the token accounts by
admissible transfers that it sanctions in the state before it, and by nothing else. -/
theorem tokens_move_as_sanctioned
    (h : (contract host).traced.Reach (fun p l => always p.1 l) (s, g)) :
    ∀ m ∈ g, ∀ env c, m.label = .call env c →
      Flows (c.Sanctions env m.before ·) m.before m.after := by
  rintro ⟨before, l, after⟩ hm env c hl
  change l = .call env c at hl
  subst hl
  exact flows_of_exec (h.step_of_mem hm).2

section Sums

variable {f f' : State → Int}

theorem byCalls_le : ∀ (g : Journal), (∀ m ∈ g, ∀ env c, m.label = .call env c →
    f m.after - f m.before ≤ f' m.after - f' m.before) → byCalls f g ≤ byCalls f' g := by
  intro g
  induction g with
  | nil => intro _; exact le_refl 0
  | cons m g ih =>
    intro hle
    have hrest := ih fun m' hm' => hle m' (List.mem_cons_of_mem _ hm')
    obtain ⟨before, l, after⟩ := m
    cases l with
    | call env c =>
      have hfirst : f after - f before ≤ f' after - f' before :=
        hle _ List.mem_cons_self env c rfl
      show f after - f before + byCalls f g ≤ f' after - f' before + byCalls f' g
      omega
    | closeLedger n => exact hrest
    | tokens b a => exact hrest

theorem byCalls_const (k : Int) : ∀ g : Journal, byCalls (fun _ => k) g = 0 := by
  intro g
  induction g with
  | nil => rfl
  | cons m g ih =>
    obtain ⟨before, l, after⟩ := m
    cases l with
    | call env c =>
      show k - k + byCalls (fun _ => k) g = 0
      omega
    | closeLedger n => exact ih
    | tokens b a => exact ih

end Sums

/-- An account that did not sign a call loses by it at most what it lets the contract take. -/
theorem Flows.unsigned {env : Env} {c : Call} {s' : State} {x : Address}
    (h : Flows (c.Sanctions env s ·) s s') (hx : x ≠ env.contract) (hunsigned : env.auths x ≠ true)
    (asset : Address) : s'.allowance asset x env.contract - s.allowance asset x env.contract ≤
      s'.balance asset x - s.balance asset x := by
  obtain ⟨ts, hts, hadm, hafter⟩ := h
  have hdrop := balance_drop_le asset x env.contract ts s.accounts hadm.amount_nonneg ?_
  · rw [← hafter] at hdrop
    simp only [State.accounts] at hdrop
    omega
  · rintro t ht rfl
    obtain hsource | hsigned | ⟨-, hspender⟩ := (hts t ht).consent
    · exact absurd hsource hx
    · exact absurd hsigned hunsigned
    · exact hspender

theorem Flows.untouched {env : Env} {c : Call} {s' : State} {x : Address}
    (h : Flows (c.Sanctions env s ·) s s') (hx : x ≠ env.contract) (hunsigned : env.auths x ≠ true)
    (hpool : s.get .reinsuranceContract ≠ some x) (asset : Address) :
    s.balance asset x ≤ s'.balance asset x := by
  obtain ⟨ts, hts, hadm, hafter⟩ := h
  have hle := le_balance_after asset x ts s.accounts hadm.amount_nonneg ?_
  · rwa [← hafter] at hle
  · rintro t ht rfl
    obtain hsource | hsigned | ⟨hsome, -⟩ := (hts t ht).consent
    · exact hx hsource
    · exact hunsigned hsigned
    · exact hpool hsome

/-- The accounts on either side of the transfers hold the same sum as before. -/
theorem Flows.conserved {P : TokenTransfer → Prop} {s' : State} (h : Flows P s s') :
    ∃ parties : Finset Address, ∀ S, parties ⊆ S → ∀ asset,
      ∑ x ∈ S, s'.balance asset x = ∑ x ∈ S, s.balance asset x := by
  obtain ⟨ts, -, -, hafter⟩ := h
  refine ⟨(ts.map (·.source) ++ ts.map (·.target)).toFinset, fun S hS asset => ?_⟩
  have hsum := sum_after (S := S) asset ts s.accounts ?_
  · rwa [← hafter] at hsum
  · intro t ht
    refine ⟨hS ?_, hS ?_⟩
    · exact List.mem_toFinset.mpr (List.mem_append_left _ (List.mem_map_of_mem ht))
    · exact List.mem_toFinset.mpr (List.mem_append_right _ (List.mem_map_of_mem ht))

/-- Some accounts hold the same sum before and after every call of a run. -/
theorem exists_parties : ∀ g : Journal,
    (∀ m ∈ g, ∀ env c, m.label = .call env c → ∃ P, Flows P m.before m.after) →
    ∃ parties : Finset Address, ∀ S, parties ⊆ S → ∀ asset,
      byCalls (fun s => ∑ x ∈ S, s.balance asset x) g = 0 := by
  intro g
  induction g with
  | nil => intro _; exact ⟨∅, fun _ _ _ => rfl⟩
  | cons m g ih =>
    intro hflow
    obtain ⟨parties, hrest⟩ := ih fun m' hm' => hflow m' (List.mem_cons_of_mem _ hm')
    obtain ⟨before, l, after⟩ := m
    cases l with
    | call env c =>
      obtain ⟨P, hP⟩ := hflow _ List.mem_cons_self env c rfl
      obtain ⟨here, hhere⟩ := hP.conserved
      refine ⟨here ∪ parties, fun S hS asset => ?_⟩
      have hfirst := hhere S (Finset.union_subset_left hS) asset
      have hlater := hrest S (Finset.union_subset_right hS) asset
      show ∑ x ∈ S, after.balance asset x - ∑ x ∈ S, before.balance asset x + _ = 0
      simp only at hfirst hlater ⊢
      omega
    | closeLedger n => exact ⟨parties, hrest⟩
    | tokens b a => exact ⟨parties, hrest⟩

/-- **The calls of a run respect consent and conserve tokens.**  From an account other than the
contract that signs none of them they take at most what it lets the contract take, and nothing at
all unless it is set as the reinsurance pool at some call.  What they take from one account they
bring to another. -/
theorem calls_respect_consent
    (h : (contract host).traced.Reach (fun p l => always p.1 l) (s, g)) :
    (∀ x asset, x ≠ host.contract → (∀ m ∈ g, ¬ m.label.SignedBy x) →
      byCalls (fun s => s.allowance asset x host.contract) g ≤
          byCalls (fun s => s.balance asset x) g ∧
        ((∀ m ∈ g, m.before.get .reinsuranceContract ≠ some x) →
          0 ≤ byCalls (fun s => s.balance asset x) g)) ∧
      ∃ parties : Finset Address, ∀ S, parties ⊆ S → ∀ asset,
        byCalls (fun s => ∑ x ∈ S, s.balance asset x) g = 0 := by
  have hcall : ∀ m ∈ g, ∀ env c, m.label = .call env c →
      env.toHost = host ∧ Flows (c.Sanctions env m.before ·) m.before m.after := by
    rintro ⟨before, l, after⟩ hm env c hl
    change l = .call env c at hl
    subst hl
    obtain ⟨hhost, hexec⟩ := h.step_of_mem hm
    exact ⟨hhost, flows_of_exec hexec⟩
  refine ⟨?_, exists_parties g fun m hm env c hl => ⟨_, (hcall m hm env c hl).2⟩⟩
  intro x asset hx hsilent
  have hunsigned : ∀ m ∈ g, ∀ env c, m.label = .call env c → env.auths x ≠ true := by
    intro m hm env c hl
    have hno := hsilent m hm
    rwa [hl] at hno
  refine ⟨byCalls_le g ?_, fun hpool => ?_⟩
  · intro m hm env c hl
    obtain ⟨rfl, hflow⟩ := hcall m hm env c hl
    exact hflow.unsigned hx (hunsigned m hm env c hl) asset
  · rw [← byCalls_const 0 g]
    refine byCalls_le g ?_
    intro m hm env c hl
    obtain ⟨rfl, hflow⟩ := hcall m hm env c hl
    have hle := hflow.untouched hx (hunsigned m hm env c hl) (hpool m hm) asset
    omega

end Runs

/-! ## A run -/

/-- Account 1 binds a policy and ends it later, the admin deposits and sweeps, and account 2 does
not take part. -/
def signedTrace : List Label :=
  [demoInit.under (signedBy [adminAddress]), (demoBind 1 .auto 10000000).under (signedBy [1]),
    (demoCall (.setting (.setAuthorizedDepositor adminAddress true))).under
    (signedBy [adminAddress]),
    (demoCall (.treasury (.depositTreasury adminAddress 20000000 assetAddress))).under
      (signedBy [adminAddress]),
    (demoCall (.treasury (.adminSweep assetAddress 3 5000000))).under (signedBy [adminAddress]),
    .closeLedger 201000,
    (demoCall (.policy (.terminatePolicy 1 1 .voluntaryCancellation))).under (signedBy [1])]

theorem tokens_move_as_sanctioned_demo : ∃ s g,
    (contract demoHost).traced.Reach (fun p l => always p.1 l) (s, g) ∧ g.length = 7 ∧
      ∀ m ∈ g, ∀ env c, m.label = .call env c →
        Flows (c.Sanctions env m.before ·) m.before m.after := by
  obtain ⟨s, g, hreach, hlen⟩ := exists_journal always_of_noCheck (deployed 0) signedTrace
    (f := fun p => p.2.length) (a := 7) (fresh_deployed (by decide))
    (by simp [signedTrace, demoInit, demoBind, demoCall, Label.under, Label.On])
    (by decide +kernel)
  exact ⟨s, g, hreach, hlen, tokens_move_as_sanctioned hreach⟩

/-- Account 1 pays for the time of its policy; account 2 signs nothing and loses nothing. -/
theorem calls_respect_consent_demo : ∃ s g,
    (contract demoHost).traced.Reach (fun p l => always p.1 l) (s, g) ∧
      byCalls (fun s => s.balance assetAddress 1) g < 0 ∧
      0 ≤ byCalls (fun s => s.balance assetAddress 2) g := by
  obtain ⟨s, g, hreach, hval⟩ := exists_journal always_of_noCheck (deployed 0) signedTrace
    (f := fun p => (decide (byCalls (fun s => s.balance assetAddress 1) p.2 < 0),
      p.2.all fun m => !decide (m.label.SignedBy 2) && (m.before.get .reinsuranceContract).isNone))
    (a := (true, true)) (fresh_deployed (by decide))
    (by simp [signedTrace, demoInit, demoBind, demoCall, Label.under, Label.On])
    (by decide +kernel)
  simp only [Prod.mk.injEq, decide_eq_true_eq, List.all_eq_true, Bool.and_eq_true,
    Bool.not_eq_true', decide_eq_false_iff_not, Option.isNone_iff_eq_none] at hval
  obtain ⟨hpays, hall⟩ := hval
  refine ⟨s, g, hreach, hpays, ?_⟩
  have hconsent := (calls_respect_consent hreach).1 2 assetAddress (by decide)
    fun m hm => (hall m hm).1
  exact hconsent.2 fun m hm => by simp [(hall m hm).2]

end NiffyInsure
