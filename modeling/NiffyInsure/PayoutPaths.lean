import NiffyInsure.Book
import NiffyInsure.Payout
import NiffyInsure.Provenance

/-!
# The two payout paths

`process_claim` and `disburse_installment` resolve the asset and the recipient of a payout by the
same rules, each in its own copy.  The copy of `disburse_installment` has the check of the asset
but not the one of the recipient, so that a contract off the allowlist is paid by installments
where a full payout is refused.

`process_claim` also books the payout before it looks for the funds.  Where they are missing the
claim ends as `PayoutFailed`, the call succeeds, and the booking stays.

* `payout_paths_agree_iff`: the two paths accept the same payouts exactly where the recipient is
  one that `process_claim` accepts.
* `failed_payout_touches_books`: every `process_claim` that ends in `PayoutFailed` has raised
  `total_paid`.
-/

namespace NiffyInsure

open Machine

/-! ## Recipients -/

/-- Every payout of the step that goes to a contract goes to one on the allowlist. -/
def PaysAllowlisted (env : Env) (s s' : State) : Prop :=
  ∃ ps, s'.payouts = s.payouts ++ ps ∧ ∀ p ∈ ps, env.executable p.recipient = true →
    s.isAllowedPayoutRecipient p.recipient = true

/-- The call was refused for the asset or for the recipient of the payout. -/
def Refused (r : Result State) : Prop :=
  r = .error (.error .invalidAsset) ∨ r = .error (.error .payoutRecipientContractNotAllowlisted)

/-- All that the two payout entrypoints check before they look at the asset and the recipient: an
installment of `amount` is due on the approved claim. -/
structure Due (env : Env) (s : State) (claimId : Nat) (amount : Int) (claim : Claim)
    (policy : Policy) : Prop where
  admin : ∃ admin, requireStoredAdmin env s = .ok admin
  stored : s.getClaim claimId = some claim
  approved : claim.status = .approved
  window : claim.disputeDeadlineLedger < s.sequence
  net_pos : 0 < claim.net
  net_le : claim.net ≤ I128_MAX
  remaining : claim.net - claim.paidAmount ≤ I128_MAX
  amount_pos : 0 < amount
  amount_le : amount ≤ claim.net - claim.paidAmount
  policy : s.getPolicy claim.claimant claim.policyId = some policy

/-- The two paths pay contracts only where they are on the allowlist, and refuse the same assets
and recipients. -/
structure PayoutPathsAgree (env : Env) (s : State) (claimId : Nat) (amount : Int) : Prop where
  full : ∀ s', (ClaimCall.processClaim claimId).exec env s = .ok s' → PaysAllowlisted env s s'
  installment : ∀ s', (ClaimCall.disburseInstallment claimId amount).exec env s = .ok s' →
    PaysAllowlisted env s s'
  same : ∀ claim policy, Due env s claimId amount claim policy →
    (Refused ((ClaimCall.processClaim claimId).exec env s) ↔
      Refused ((ClaimCall.disburseInstallment claimId amount).exec env s))

section Paths

variable {env : Env} {s s' : State} {claimId : Nat} {amount : Int} {claim : Claim} {policy : Policy}

theorem PaysOn.allowlisted (h : PaysOn s s' policy) (hpayee : s.PayeeAccepted env policy) :
    PaysAllowlisted env s s' := by
  obtain ⟨ps, hlog, hall⟩ := h
  refine ⟨ps, hlog, ?_⟩
  intro p hp hcode
  rw [(hall p hp).2] at hcode ⊢
  rcases hpayee with hplain | hlisted
  · rw [hplain] at hcode
    cases hcode
  · exact hlisted

theorem processClaim_allowlisted (h : (ClaimCall.processClaim claimId).exec env s = .ok s') :
    PaysAllowlisted env s s' := by
  have hran : processClaim env s claimId = .ok s' := ran_of_exec h
  obtain ⟨claim, hclaim, -, -, hcase⟩ := processClaim_cases hran
  have hpolicy : ∃ policy, s.getPolicy claim.claimant claim.policyId = some policy := by
    have hget := (frame_markPaid (s := s) claimId claim).get
      (.policy claim.claimant claim.policyId) rfl
    rcases hcase with ⟨-, h₄⟩ | ⟨-, s₄, claim₃, s₆, h₄, -, -⟩
    · obtain ⟨⟨policy, hpolicy⟩, -⟩ := payout_eq_ok h₄
      exact ⟨policy, hget.symm.trans hpolicy⟩
    · obtain ⟨⟨policy, hpolicy⟩, -⟩ := payout_eq_ok h₄
      exact ⟨policy, hget.symm.trans hpolicy⟩
  obtain ⟨policy, hpolicy⟩ := hpolicy
  obtain ⟨-, hpayee, hpays⟩ := processClaim_pays hclaim hpolicy hran
  exact hpays.allowlisted hpayee

theorem due_of_disburseInstallment
    (h : (ClaimCall.disburseInstallment claimId amount).exec env s = .ok s') :
    ∃ claim policy, Due env s claimId amount claim policy ∧ s.AssetAccepted policy ∧
      PaysOn s s' policy := by
  have hadmin : ∃ admin, requireStoredAdmin env s = .ok admin := by
    obtain ⟨admin, hadmin, -⟩ := bind_eq_ok.mp h
    exact ⟨admin, hadmin⟩
  have hran : disburseInstallment env s claimId amount = .ok s' := ran_of_exec h
  have hwalk := hran
  simp only [disburseInstallment, bind_eq_ok, okOr_eq_ok, ensure_eq_ok, checkedSub128,
    fit128_eq_some] at hwalk
  obtain ⟨-, hpos, claim, hclaim, -, -, -, hst, -, hwindow, net, ⟨⟨-, hnet⟩, rfl⟩, -, hnetpos,
    remaining, ⟨⟨-, hrem⟩, rfl⟩, -, hle, policy, hpolicy, -⟩ := hwalk
  obtain ⟨hasset, hpays⟩ := disburseInstallment_pays hclaim hpolicy hran
  exact ⟨claim, policy, ⟨hadmin, hclaim, hst, hwindow, hnetpos, hnet, hrem, hpos, hle, hpolicy⟩,
    hasset, hpays⟩

theorem Due.exec_processClaim (h : Due env s claimId amount claim policy) :
    (ClaimCall.processClaim claimId).exec env s = processClaim env s claimId := by
  obtain ⟨admin, hadmin⟩ := h.admin
  simp only [ClaimCall.exec, hadmin]
  rfl

theorem Due.exec_disburseInstallment (h : Due env s claimId amount claim policy) :
    (ClaimCall.disburseInstallment claimId amount).exec env s =
      disburseInstallment env s claimId amount := by
  obtain ⟨admin, hadmin⟩ := h.admin
  simp only [ClaimCall.exec, hadmin]
  rfl

theorem Due.checkedNet (h : Due env s claimId amount claim policy) :
    checkedSub128 claim.amount claim.deductible = some claim.net := by
  have hmin : I128_MIN ≤ 0 := by decide
  exact fit128_eq_some.mpr ⟨⟨hmin.trans h.net_pos.le, h.net_le⟩, rfl⟩

theorem Due.payout_refused (h : Due env s claimId amount claim policy)
    (href : ¬ (s.AssetAccepted policy ∧ s.PayeeAccepted env policy)) :
    ∃ e, payout env (s.markPaid claimId claim) (claim.moveTo .paid s.sequence) =
        .error (.error e) ∧
      (e = .invalidAsset ∨ e = .payoutRecipientContractNotAllowlisted) := by
  have hf := frame_markPaid (s := s) claimId claim
  have hpolicy : (s.markPaid claimId claim).getPolicy claim.claimant claim.policyId =
      some policy := by
    rw [← h.policy]
    exact hf.get (.policy claim.claimant claim.policyId) rfl
  rw [← assetAccepted_congr hf rfl, ← payeeAccepted_congr hf rfl] at href
  generalize s.markPaid claimId claim = t at hpolicy href
  by_cases hasset : t.AssetAccepted policy
  · have hpayee : ¬ t.PayeeAccepted env policy := fun hp => href ⟨hasset, hp⟩
    refine ⟨.payoutRecipientContractNotAllowlisted, ?_, .inr rfl⟩
    simp only [payout, bind_eq_error]
    refine .inr ⟨policy, okOr_eq_ok.mpr hpolicy, .inr ⟨(), ensure_eq_ok.mpr hasset, ?_⟩⟩
    refine .inr ⟨claim.net, okOr_eq_ok.mpr h.checkedNet, .inr ⟨(), ensure_eq_ok.mpr h.net_pos, ?_⟩⟩
    exact .inl (ensure_eq_error.mpr ⟨hpayee, rfl⟩)
  · refine ⟨.invalidAsset, ?_, .inl rfl⟩
    simp only [payout, bind_eq_error]
    exact .inr ⟨policy, okOr_eq_ok.mpr hpolicy, .inl (ensure_eq_error.mpr ⟨hasset, rfl⟩)⟩

/-- **What `process_claim` refuses on a claim that is due.** -/
theorem Due.refused_processClaim_iff (h : Due env s claimId amount claim policy) :
    Refused ((ClaimCall.processClaim claimId).exec env s) ↔
      ¬ (s.AssetAccepted policy ∧ s.PayeeAccepted env policy) := by
  rw [h.exec_processClaim]
  constructor
  · rintro (href | href) ⟨hasset, hpayee⟩
    · obtain ⟨-, hno⟩ | ⟨hno, -⟩ | hno := processClaim_error h.stored h.policy href
      · exact hno hasset
      · cases hno
      · exact absurd hno (by decide)
    · obtain ⟨hno, -⟩ | ⟨-, hno⟩ | hno := processClaim_error h.stored h.policy href
      · cases hno
      · exact hno hpayee
      · exact absurd hno (by decide)
  · intro href
    obtain ⟨e, hpay, he⟩ := h.payout_refused href
    have hst : claim.status ≠ .paid := by
      rw [h.approved]
      decide
    have hrun : processClaim env s claimId = .error (.error e) := by
      simp only [processClaim, bind_eq_error]
      refine .inr ⟨claim, okOr_eq_ok.mpr h.stored, .inr ⟨(), ensure_eq_ok.mpr hst, ?_⟩⟩
      refine .inr ⟨(), ensure_eq_ok.mpr (.inl h.approved), ?_⟩
      exact .inr ⟨(), ensure_eq_ok.mpr h.window, .inl hpay⟩
    rw [hrun]
    rcases he with rfl | rfl
    · exact .inl rfl
    · exact .inr rfl

/-- **What `disburse_installment` refuses on a claim that is due**: the asset alone decides. -/
theorem Due.refused_disburseInstallment_iff (h : Due env s claimId amount claim policy) :
    Refused ((ClaimCall.disburseInstallment claimId amount).exec env s) ↔
      ¬ s.AssetAccepted policy := by
  rw [h.exec_disburseInstallment]
  constructor
  · rintro (href | href)
    · obtain ⟨-, hno⟩ | hno := disburseInstallment_error h.stored h.policy href
      · exact hno
      · exact absurd hno (by decide)
    · obtain ⟨hno, -⟩ | hno := disburseInstallment_error h.stored h.policy href
      · cases hno
      · exact absurd hno (by decide)
  · intro hasset
    have hst : claim.status ≠ .paid := by
      rw [h.approved]
      decide
    have hmin : I128_MIN ≤ 0 := by decide
    have hrem : checkedSub128 claim.net claim.paidAmount = some (claim.net - claim.paidAmount) := by
      have hpos := h.amount_pos
      have hle := h.amount_le
      exact fit128_eq_some.mpr ⟨⟨by omega, h.remaining⟩, rfl⟩
    refine .inl ?_
    simp only [disburseInstallment, bind_eq_error]
    refine .inr ⟨(), ensure_eq_ok.mpr h.amount_pos, .inr ⟨claim, okOr_eq_ok.mpr h.stored, ?_⟩⟩
    refine .inr ⟨(), ensure_eq_ok.mpr hst, .inr ⟨(), ensure_eq_ok.mpr h.approved, ?_⟩⟩
    refine .inr ⟨(), ensure_eq_ok.mpr h.window, .inr ⟨_, okOr_eq_ok.mpr h.checkedNet, ?_⟩⟩
    refine .inr ⟨(), ensure_eq_ok.mpr h.net_pos, .inr ⟨_, okOr_eq_ok.mpr hrem, ?_⟩⟩
    refine .inr ⟨(), ensure_eq_ok.mpr h.amount_le, .inr ⟨_, okOr_eq_ok.mpr h.policy, ?_⟩⟩
    exact .inl (ensure_eq_error.mpr ⟨hasset, rfl⟩)

/-- **When the installments and the full payout agree.**  The two paths pay contracts only from
the allowlist and refuse the same assets and recipients exactly where, on a claim with an
installment due and an accepted asset, the recipient is no contract off the allowlist. -/
theorem payout_paths_agree_iff (env : Env) (s : State) (claimId : Nat) (amount : Int) :
    PayoutPathsAgree env s claimId amount ↔
      ∀ claim policy, Due env s claimId amount claim policy → s.AssetAccepted policy →
        s.PayeeAccepted env policy := by
  constructor
  · intro h claim policy hdue hasset
    by_contra hpayee
    have hfull := hdue.refused_processClaim_iff.mpr fun hboth => hpayee hboth.2
    exact hdue.refused_disburseInstallment_iff.mp ((h.same claim policy hdue).mp hfull) hasset
  · intro h
    refine ⟨fun s' => processClaim_allowlisted, ?_, ?_⟩
    · intro s' hexec
      obtain ⟨claim, policy, hdue, hasset, hpays⟩ := due_of_disburseInstallment hexec
      exact hpays.allowlisted (h claim policy hdue hasset)
    · intro claim policy hdue
      rw [hdue.refused_processClaim_iff, hdue.refused_disburseInstallment_iff, not_iff_not]
      exact ⟨fun hboth => hboth.1, fun hasset => ⟨hasset, h claim policy hdue hasset⟩⟩

end Paths

/-- The invocations of the deployment in which account 1 is a contract. -/
def walletEnv : Env := { demoEnv with executable := fun a => a == 1 }

/-- The same label in another invocation. -/
def Label.under (env : Env) : Label → Label
  | .call _ c => .call env c
  | l => l

/-- **A contract off the allowlist is paid by installments.**  Account 1 is a contract and nobody
has put it on the allowlist: `process_claim` refuses the payout, and `disburse_installment` pays
it. -/
theorem installment_to_unlisted_contract :
    ∃ s s', (contract demoHost).Reach always s ∧
      (ClaimCall.disburseInstallment 1 400).exec walletEnv s = .ok s' ∧
      ¬ PaysAllowlisted walletEnv s s' ∧
      (ClaimCall.processClaim 1).exec walletEnv s =
        .error (.error .payoutRecipientContractNotAllowlisted) := by
  obtain ⟨s, hreach, hval⟩ := exists_of_follow always_of_noCheck (deployed 5000)
    (approvedTrace.map (Label.under walletEnv))
    (f := fun s => (s.payouts, s.isAllowedPayoutRecipient 1,
      ((ClaimCall.disburseInstallment 1 400).exec walletEnv s).toOption.map (·.payouts),
      ((ClaimCall.processClaim 1).exec walletEnv s).fault))
    (a := ([], false, some [⟨1, assetAddress, contractAddress, 1, 400⟩],
      some (.error .payoutRecipientContractNotAllowlisted))) (fresh_deployed (by decide))
    (by simp [approvedTrace, filedTrace, demoSetup, demoInit, demoBind, demoFile, demoCall,
      Label.under, Label.On, walletEnv, demoEnv]) (by decide +kernel)
  simp only [Prod.mk.injEq, Option.map_eq_some_iff] at hval
  obtain ⟨hnone, hunlisted, ⟨s', hopt, hlog⟩, hfault⟩ := hval
  have hexec : (ClaimCall.disburseInstallment 1 400).exec walletEnv s = .ok s' := by
    cases hrun : (ClaimCall.disburseInstallment 1 400).exec walletEnv s with
    | error e =>
      rw [hrun] at hopt
      cases hopt
    | ok t =>
      rw [hrun] at hopt
      cases hopt
      rfl
  refine ⟨s, s', hreach, hexec, ?_, eq_error_of_fault hfault⟩
  rintro ⟨ps, hps, hall⟩
  rw [hnone, List.nil_append, hlog] at hps
  have hlisted := hall ⟨1, assetAddress, contractAddress, 1, 400⟩ (by simp [← hps]) rfl
  rw [hunlisted] at hlisted
  cases hlisted

/-! ## Failed payouts -/

/-- The cash, the book of every asset and the accumulators of the rolling cap are as before. -/
structure BooksUntouched (s s' : State) : Prop where
  balance : s'.balance = s.balance
  treasuryBalance : ∀ asset, (s'.getAssetLedger asset).treasuryBalance =
    (s.getAssetLedger asset).treasuryBalance
  reservedCoverage : ∀ asset, (s'.getAssetLedger asset).reservedCoverage =
    (s.getAssetLedger asset).reservedCoverage
  totalPaid : ∀ asset, (s'.getAssetLedger asset).totalPaid = (s.getAssetLedger asset).totalPaid
  rolling : SameKind .rolling s s'

/-- No `total_paid` went down and one went up. -/
structure PaidMore (s s' : State) : Prop where
  le : ∀ asset, (s.getAssetLedger asset).totalPaid ≤ (s'.getAssetLedger asset).totalPaid
  lt : ∃ asset, (s.getAssetLedger asset).totalPaid < (s'.getAssetLedger asset).totalPaid

section Failed

variable {env : Env} {s s' s'' : State} {claimId : Nat}

theorem PaidMore.of_same_left (h : SameKind .assetLedger s s') (hmore : PaidMore s' s'') :
    PaidMore s s'' where
  le asset := by
    rw [← getAssetLedger_of_same h]
    exact hmore.le asset
  lt := by
    obtain ⟨asset, hlt⟩ := hmore.lt
    exact ⟨asset, by rwa [← getAssetLedger_of_same h]⟩

theorem PaidMore.of_same_right (hmore : PaidMore s s') (h : SameKind .assetLedger s' s'') :
    PaidMore s s'' where
  le asset := by
    rw [getAssetLedger_of_same h]
    exact hmore.le asset
  lt := by
    obtain ⟨asset, hlt⟩ := hmore.lt
    exact ⟨asset, by rwa [getAssetLedger_of_same h]⟩

theorem PaidMore.trans (h : PaidMore s s') (h' : PaidMore s' s'') : PaidMore s s'' where
  le asset := (h.le asset).trans (h'.le asset)
  lt := by
    obtain ⟨asset, hlt⟩ := h.lt
    exact ⟨asset, hlt.trans_le (h'.le asset)⟩

theorem PaidMore.touches (h : PaidMore s s') : ¬ BooksUntouched s s' := by
  intro hbooks
  obtain ⟨asset, hlt⟩ := h.lt
  rw [hbooks.totalPaid asset] at hlt
  exact lt_irrefl _ hlt

theorem paidMore_of_recordPayoutOut {asset : Address} {amount release : Int}
    (h : s.recordPayoutOut asset amount release = .ok s') : PaidMore s s' := by
  obtain ⟨hpos, rfl⟩ := State.recordPayoutOut_eq_ok h
  have hself : (State.payoutLedger asset amount release s).totalPaid =
    (s.getAssetLedger asset).totalPaid + amount := rfl
  constructor
  · intro a
    rw [getAssetLedger_setAssetLedger]
    split
    · rename_i heq
      rw [heq, hself]
      omega
    · exact le_refl _
  · refine ⟨asset, ?_⟩
    rw [getAssetLedger_setAssetLedger, if_pos rfl, hself]
    omega

theorem paidMore_of_payout {claim claim' : Claim} (h : payout env s claim = .ok (claim', s')) :
    PaidMore s s' := by
  obtain ⟨asset, recipient, net, s₁, s₂, hq, hbook, hsettle⟩ := payout_book h
  have hmore : PaidMore s s₂ := .of_same_left hq.ledger (paidMore_of_recordPayoutOut hbook)
  exact hmore.of_same_right ((frame_settlePayout hsettle).sameKind rfl)

theorem paidMore_of_processClaim (h : processClaim env s claimId = .ok s') : PaidMore s s' := by
  obtain ⟨claim, claim₁, s₁, s₂, hq, hpay, hcase⟩ := processClaim_book h
  have hfirst : PaidMore s s₂ := .of_same_left hq.ledger (paidMore_of_payout hpay)
  rcases hcase with rfl | ⟨claim₂, s₃, s₄, hq₂, hpay₂, hq₄⟩
  · exact hfirst
  · have hsecond : PaidMore s₂ s₄ := .of_same_left hq₂.ledger (paidMore_of_payout hpay₂)
    exact (hfirst.trans hsecond).of_same_right hq₄.ledger

/-- What a failed payout is to leave alone: where the call ends with the claim in `PayoutFailed`,
the books are untouched. -/
def FailureKeepsBooks (env : Env) (s : State) (claimId : Nat) : Prop :=
  ∀ s' claim, (ClaimCall.processClaim claimId).exec env s = .ok s' →
    s'.getClaim claimId = some claim → claim.status = .payoutFailed → BooksUntouched s s'

/-- **A failed payout stays in the books.**  No `process_claim` that ends with the claim in
`PayoutFailed` leaves the books untouched: the payout was booked before the funds were looked
for. -/
theorem failed_payout_touches_books {claim : Claim}
    (h : (ClaimCall.processClaim claimId).exec env s = .ok s')
    (hclaim : s'.getClaim claimId = some claim) (hfailed : claim.status = .payoutFailed) :
    ¬ FailureKeepsBooks env s claimId := by
  intro hkeeps
  have hmore : PaidMore s s' := paidMore_of_processClaim (ran_of_exec h)
  exact hmore.touches (hkeeps s' claim h hclaim hfailed)

end Failed

/-- The claim of account 1 is approved and the treasury drained, and the reinsurance pool 5 cannot
pay the claim either. -/
def unfundedTrace : List Label :=
  [demoInit, demoCall (.setting (.adminSetReinsuranceContract 5)),
    demoBind 1 .auto 1400000000, demoBind 2 .auto 10000000, demoFile 1 1 1400000000,
    demoCall (.claim (.voteOnClaim 2 1 .approve)),
    demoCall (.treasury (.drain adminAddress 970785000)), .closeLedger 1003]

/-- The payout on this claim fails and stays in the books. -/
theorem failed_payout_touches_books_demo :
    ∃ s s' claim, (contract demoHost).Reach always s ∧
      (contract demoHost).step s (demoCall (.claim (.processClaim 1))) s' ∧
      s'.getClaim 1 = some claim ∧ claim.status = .payoutFailed ∧
      ¬ FailureKeepsBooks demoEnv s 1 := by
  obtain ⟨s, s', hreach, hstep, hval⟩ := exists_of_followCall (c := .claim (.processClaim 1))
    always_of_noCheck (deployed 0) unfundedTrace
    (f := fun _ s' => (s'.getClaim 1).map fun c : Claim => c.status) (a := some .payoutFailed)
    (fresh_deployed (by decide)) (by simp [unfundedTrace, demoInit, demoBind, demoFile])
    (by decide +kernel)
  obtain ⟨claim, hclaim, hst⟩ := Option.map_eq_some_iff.mp hval
  exact ⟨s, s', claim, hreach, hstep, hclaim, hst,
    failed_payout_touches_books hstep.2 hclaim hst⟩

/-- **The books of a payout that failed.**  Nothing was paid, but the call has added the amount to
`total_paid`, released the reserved coverage and charged the rolling cap of the policy. -/
theorem failed_payout_is_booked :
    ∃ s s', (contract demoHost).Reach always s ∧
      (contract demoHost).step s (demoCall (.claim (.processClaim 1))) s' ∧
      (s'.getClaim 1).map (·.status) = some .payoutFailed ∧ s'.payouts = s.payouts ∧
      (s.getAssetLedger assetAddress).totalPaid = 0 ∧
      (s'.getAssetLedger assetAddress).totalPaid = 1400000000 ∧
      (s'.getAssetLedger assetAddress).reservedCoverage <
        (s.getAssetLedger assetAddress).reservedCoverage ∧
      s'.get (.rollingClaimState 1 1) ≠ s.get (.rollingClaimState 1 1) ∧
      ¬ BooksUntouched s s' := by
  obtain ⟨s, s', hreach, hstep, hval⟩ := exists_of_followCall (c := .claim (.processClaim 1))
    always_of_noCheck (deployed 0) unfundedTrace
    (f := fun s s' => ((s'.getClaim 1).map fun c : Claim => c.status,
      decide (s'.payouts = s.payouts), (s.getAssetLedger assetAddress).totalPaid,
      (s'.getAssetLedger assetAddress).totalPaid,
      decide ((s'.getAssetLedger assetAddress).reservedCoverage <
        (s.getAssetLedger assetAddress).reservedCoverage),
      decide (s'.get (.rollingClaimState 1 1) = s.get (.rollingClaimState 1 1))))
    (a := (some .payoutFailed, true, 0, 1400000000, true, false))
    (fresh_deployed (by decide)) (by simp [unfundedTrace, demoInit, demoBind, demoFile])
    (by decide +kernel)
  simp only [Prod.mk.injEq, decide_eq_true_eq, decide_eq_false_iff_not] at hval
  obtain ⟨hst, hlog, hbefore, hafter, hres, hroll⟩ := hval
  refine ⟨s, s', hreach, hstep, hst, hlog, hbefore, hafter, hres, hroll, ?_⟩
  intro hbooks
  have htotal := hbooks.totalPaid assetAddress
  rw [hbefore, hafter] at htotal
  exact absurd htotal (by decide)

end NiffyInsure
