import NiffyInsure.ClaimEdit
import NiffyInsure.Lib.Replay
import NiffyInsure.Trace

/-!
# The event log and the stored status

An indexer that reads `claim_status_changed` alone starts from `Pending` for every claim and takes
the events one after another.  `State.statusOf` is the status that the contract stores, and
`Shows .pending s.statusChanges s.statusOf` says that the indexer shows it for every claim.

Three places change a status without the event: `process_payout_timeout`, `dispute_claim`, and a
payout that runs out of funds.  The last one happens in the first payout of `process_claim`, which
then publishes nothing, or in the second, and then the event says `Paid`.

* `announces_closeRound`, `announces_finalizeAppealOutcome`, ...: what a function publishes.
* `processClaim_announces`: `process_claim` publishes `Paid` and stores it when both of its payouts
  are funded.
* `indexed_status_of_steps`: a run without the three shows every status.
-/

namespace NiffyInsure

open Machine Replay

/-! ## What the log says -/

/-- The status of a claim; one that is not filed counts as `Pending`. -/
def State.statusOf (s : State) (id : Nat) : ClaimStatus :=
  match s.getClaim id with
  | some c => c.status
  | none => .pending

/-- What an event says about a status. -/
def Event.statusChange : Event → Option (Change Nat ClaimStatus)
  | .claimStatusChanged id old new _ => some ⟨id, old, new⟩
  | _ => none

/-- The changes of status that were published, in order. -/
def State.statusChanges (s : State) : List (Change Nat ClaimStatus) :=
  s.events.filterMap Event.statusChange

/-- The indexer shows the stored status of every claim. -/
def StatusShown (s : State) : Prop := Shows .pending s.statusChanges s.statusOf

/-- The change of the status of `id` from `a` to `b` is published, and no other one. -/
def Announces (s s' : State) (id : Nat) (a b : ClaimStatus) : Prop :=
  s'.statusChanges = s.statusChanges ++ [⟨id, a, b⟩]

section Log

variable {s s' : State} {ks : List Kind} {claimId : Nat}

theorem State.statusChanges_emit (s : State) (e : Event) :
    (s.emit e).statusChanges = s.statusChanges ++ e.statusChange.toList :=
  State.filterMap_emit _ s e

@[simp] theorem State.statusChanges_set (s : State) (k : DataKey) (v : k.Val) :
    (s.set k v).statusChanges = s.statusChanges := rfl

@[simp] theorem State.statusChanges_remove (s : State) (k : DataKey) :
    (s.remove k).statusChanges = s.statusChanges := rfl

@[simp] theorem State.statusChanges_setIfSome (s : State) (k : DataKey) (v : Option k.Val) :
    (s.setIfSome k v).statusChanges = s.statusChanges := by
  cases v <;> rfl

@[simp] theorem State.statusChanges_setOrRemove (s : State) (k : DataKey) (v : Option k.Val) :
    (s.setOrRemove k v).statusChanges = s.statusChanges := by
  cases v <;> rfl

theorem statusChanges_of_frame (h : Frame ks s s') (hk : ks.contains .statusEvent = false) :
    s'.statusChanges = s.statusChanges := by
  refine Frame.filterMap_events ?_ h hk
  intro e he
  cases e <;> first | rfl | exact absurd rfl he

theorem statusOf_of_same (h : SameKind .claim s s') : s'.statusOf = s.statusOf := by
  funext id
  rw [State.statusOf, State.statusOf, getClaim_of_same h]

theorem statusOf_of_write {c : Claim} (h : SameKind .claim (s.setClaim c) s') :
    s'.statusOf = Function.update s.statusOf c.claimId c.status := by
  funext id
  rw [State.statusOf, getClaim_of_write h]
  by_cases hid : id = c.claimId
  · subst hid
    rw [if_pos rfl, Function.update_self]
  · rw [if_neg hid, Function.update_of_ne hid]
    rfl

theorem statusOf_eq {c : Claim} (h : s.getClaim claimId = some c) :
    s.statusOf claimId = c.status := by
  rw [State.statusOf, h]

/-! ## What a step of the log keeps -/

theorem StatusShown.of_same (h : StatusShown s) (hclaim : SameKind .claim s s')
    (hlog : s'.statusChanges = s.statusChanges) : StatusShown s' := by
  unfold StatusShown
  rw [hlog, statusOf_of_same hclaim]
  exact h

/-- A record is written with the status that it had. -/
theorem StatusShown.still (h : StatusShown s) (hk : s.ClaimsKeyed) {c c' : Claim}
    (hc : s.getClaim claimId = some c) (hwrite : SameKind .claim (s.setClaim c') s')
    (hid : c'.claimId = c.claimId) (hst : c'.status = c.status)
    (hlog : s'.statusChanges = s.statusChanges) : StatusShown s' := by
  have hkey : c'.claimId = claimId := hid.trans (hk claimId c hc).1
  unfold StatusShown
  rw [hlog, statusOf_of_write hwrite, hkey, hst, ← statusOf_eq hc, Function.update_eq_self]
  exact h

/-- A record is written with a new status, and the change is published. -/
theorem StatusShown.announced (h : StatusShown s) (hk : s.ClaimsKeyed) {c c' : Claim}
    (hc : s.getClaim claimId = some c) (hwrite : SameKind .claim (s.setClaim c') s')
    (hid : c'.claimId = c.claimId) (hlog : Announces s s' claimId c.status c'.status) :
    StatusShown s' := by
  have hkey : c'.claimId = claimId := hid.trans (hk claimId c hc).1
  unfold StatusShown
  rw [hlog, statusOf_of_write hwrite, hkey, ← statusOf_eq hc]
  exact h.snoc claimId c'.status

end Log

/-! ## What the functions publish -/

section Functions

variable {env : Env} {s s' : State} {claimId : Nat}

theorem announces_closeRound {before : ClaimStatus} {claim : Claim}
    (h : closeRound s claimId before claim = .ok s') :
    Announces s s' claimId before claim.status := by
  have hrec : Announces s (s.recordDecision claimId before claim) claimId before claim.status := by
    dsimp only [Announces, State.recordDecision]
    simp only [State.statusChanges_set, apply_ite State.statusChanges, State.statusChanges_remove,
      ite_self, State.statusChanges_emit]
    rfl
  obtain ⟨-, h⟩ | ⟨-, rfl⟩ := closeRound_cases h
  · unfold Announces
    rw [statusChanges_of_frame (frame_onReject h) rfl]
    exact hrec
  · exact hrec

theorem announces_finalizeAppealOutcome {claim claim' : Claim} {outcome : ClaimStatus}
    (h : finalizeAppealOutcome s claim outcome = .ok (claim', s')) :
    Announces s s' claim.claimId claim.status outcome := by
  obtain ⟨_, -, _, -, -, rfl⟩ := finalizeAppealOutcome_cases h
  simp only [Announces, State.statusChanges_emit, State.statusChanges_set, Event.statusChange,
    Option.toList, List.append_nil]

theorem announces_fileClaim {holder : Address} {policyId : Nat} {amount : Int} {details : Str}
    {evidence : List ClaimEvidenceEntry} {expectedNonce : Option Nat}
    (h : fileClaim env s holder policyId amount details evidence expectedNonce =
      .ok (claimId, s')) :
    Announces s s' claimId .pending .processing := by
  simp only [fileClaim, bind_eq_ok, okOr_eq_ok, pure_eq_ok, Prod.exists, Prod.mk.injEq] at h
  obtain ⟨-, -, s₁, h₁, policy, -, -, -, s₂, h₂, -, -, deadline, -, id, s₃, h₃, s₄, h₄, rfl, rfl⟩ :=
    h
  have hpre : s₄.statusChanges = s.statusChanges := by
    rw [statusChanges_of_frame (frame_collectFilingFee h₄) rfl]
    obtain ⟨-, rfl⟩ := nextClaimId_eq_ok h₃
    rw [State.statusChanges_set, statusChanges_of_frame (frame_checkFileClaim h₂) rfl,
      statusChanges_of_frame (frame_checkAndBumpNonce h₁) rfl]
  unfold Announces
  rw [← hpre]
  dsimp only [State.recordNewClaim]
  simp only [State.statusChanges_emit, Event.statusChange, Option.toList, List.append_nil,
    State.statusChanges_setIfSome]
  rfl

theorem announces_withdrawClaim {claimant : Address} {claim : Claim}
    (h : withdrawClaim env s claimant claimId = .ok s') (hclaim : s.getClaim claimId = some claim) :
    Announces s s' claimId claim.status .withdrawn := by
  simp only [withdrawClaim, bind_eq_ok, okOr_eq_ok, ensure_eq_ok, pure_eq_ok] at h
  obtain ⟨c, hc, -, -, -, -, -, -, s₄, h₄, rfl⟩ := h
  rw [hclaim] at hc
  cases hc
  have hpre : s₄.statusChanges = s.statusChanges := by
    rw [statusChanges_of_frame (frame_refundFilingFee h₄) rfl, State.statusChanges_set,
      State.statusChanges_setOrRemove]
    rfl
  unfold Announces
  rw [State.statusChanges_emit, State.statusChanges_emit, hpre]
  simp only [Event.statusChange, Option.toList, List.append_nil]

theorem announces_openAppeal {claimant : Address} {claim : Claim}
    (h : openAppeal s claimant claimId = .ok s') (hclaim : s.getClaim claimId = some claim) :
    Announces s s' claimId claim.status .underAppeal := by
  simp only [openAppeal, bind_eq_ok, okOr_eq_ok, ensure_eq_ok, pure_eq_ok] at h
  obtain ⟨deadline, -, -, -, c, hc, -, -, -, -, -, -, -, -, rfl⟩ := h
  rw [hclaim] at hc
  cases hc
  unfold Announces
  rw [State.statusChanges_emit, State.statusChanges_emit]
  simp only [Event.statusChange, Option.toList, List.append_nil]
  rfl

/-- The last installment publishes `Paid`, and the others nothing. -/
theorem announces_disburseInstallment {amount : Int} {claim : Claim}
    (h : disburseInstallment env s claimId amount = .ok s')
    (hclaim : s.getClaim claimId = some claim) :
    (claim.Completes amount → Announces s s' claimId claim.status .paid) ∧
      (¬ claim.Completes amount → s'.statusChanges = s.statusChanges) := by
  simp only [disburseInstallment, bind_eq_ok, okOr_eq_ok, ensure_eq_ok, pure_eq_ok, checkedSub128,
    checkedAdd128, fit128_eq_some, add32_eq_ok] at h
  obtain ⟨-, -, c, hc, -, -, -, -, -, -, net, ⟨-, rfl⟩, -, -, remaining, ⟨-, rfl⟩, -, -,
    policy, -, -, -, s₁, h₁, s₂, h₂, paid, ⟨-, rfl⟩, count, ⟨-, rfl⟩, rfl⟩ := h
  rw [hclaim] at hc
  cases hc
  have hpre : s₂.statusChanges = s.statusChanges := by
    rw [statusChanges_of_frame (frame_payFromTreasury h₂) rfl,
      statusChanges_of_frame (frame_recordPayoutOut h₁) rfl]
  constructor
  · intro hcomp
    unfold Claim.Completes at hcomp
    rw [if_pos hcomp]
    unfold Announces
    rw [State.statusChanges_set, State.markFullyPaid,
      statusChanges_of_frame (frame_recordClaimPaid _ _ _ _ _) rfl]
    simp only [State.statusChanges_emit, State.statusChanges_set, State.statusChanges_remove, hpre,
      Event.statusChange, Option.toList, List.append_nil]
  · intro hcomp
    unfold Claim.Completes at hcomp
    rw [if_neg hcomp, State.statusChanges_set, State.statusChanges_emit, hpre]
    exact List.append_nil _

end Functions

/-! ## The two payouts of a claim -/

/-- The balances and allowances after one payout of `net`: from the contract's cash where that is
enough, else all of the cash and the rest from the reinsurance pool. -/
def State.paidOnce (env : Env) (s : State) (asset recipient : Address) (net : Int) : State :=
  if net ≤ s.balance asset env.contract then s.moveTokens asset env.contract recipient net
  else
    match s.get .reinsuranceContract with
    | none => s
    | some reinsurance =>
      let cash := max (s.balance asset env.contract) 0
      let s₁ := if 0 < cash then s.moveTokens asset env.contract recipient cash else s
      { s₁.moveTokens asset reinsurance recipient (net - cash) with
        allowance := fun a o x =>
          if a = asset ∧ o = reinsurance ∧ x = env.contract then s.allowance a o x - (net - cash)
          else s.allowance a o x }

/-- The funds cover the claim's net amount now, and again after it is paid. -/
def State.CanPayTwice (env : Env) (s : State) (claim : Claim) : Prop :=
  ∃ policy, s.getPolicy claim.claimant claim.policyId = some policy ∧
    s.Funded env (s.effectiveAsset policy) (claim.amount - claim.deductible) ∧
    (s.paidOnce env (s.effectiveAsset policy) policy.payoutTo
      (claim.amount - claim.deductible)).Funded
      env (s.effectiveAsset policy) (claim.amount - claim.deductible)

instance (env : Env) (s : State) (asset : Address) (net : Int) :
    Decidable (s.Funded env asset net) :=
  inferInstanceAs (Decidable (_ ∨ ∃ reinsurance ∈ s.get .reinsuranceContract,
    net - max (s.balance asset env.contract) 0 ≤ s.reinsuranceAvailable env asset reinsurance))

instance (env : Env) (s : State) (claim : Claim) : Decidable (s.CanPayTwice env claim) :=
  inferInstanceAs (Decidable (∃ policy ∈ s.getPolicy claim.claimant claim.policyId,
    s.Funded env (s.effectiveAsset policy) (claim.amount - claim.deductible) ∧
    (s.paidOnce env (s.effectiveAsset policy) policy.payoutTo
      (claim.amount - claim.deductible)).Funded
      env (s.effectiveAsset policy) (claim.amount - claim.deductible)))

section TwoPayouts

variable {env : Env} {s s' s₁ : State} {claimId : Nat} {asset recipient : Address} {net : Int}

theorem paidOnce_congr (hbal : s₁.balance = s.balance) (hall : s₁.allowance = s.allowance)
    (hre : s₁.get .reinsuranceContract = s.get .reinsuranceContract) :
    (s₁.paidOnce env asset recipient net).balance = (s.paidOnce env asset recipient net).balance ∧
      (s₁.paidOnce env asset recipient net).allowance =
        (s.paidOnce env asset recipient net).allowance := by
  unfold State.paidOnce
  rw [hbal, hre]
  split
  · exact ⟨by simp only [State.moveTokens, hbal], hall⟩
  · split
    · exact ⟨hbal, hall⟩
    · dsimp only
      rw [hall]
      refine ⟨?_, rfl⟩
      split <;> simp only [State.moveTokens, hbal]

theorem get_paidOnce (k : DataKey) : (s.paidOnce env asset recipient net).get k = s.get k := by
  unfold State.paidOnce
  split
  · rfl
  · split
    · rfl
    · dsimp only
      split <;> rfl

theorem payFromReinsurance_tokens {reinsurance : Address} {amount : Int}
    (h : s.payFromReinsurance env claimId asset reinsurance recipient amount = .ok s') :
    s'.balance = (s.moveTokens asset reinsurance recipient amount).balance ∧
      s'.allowance = fun a o x =>
        if a = asset ∧ o = reinsurance ∧ x = env.contract then s.allowance a o x - amount
        else s.allowance a o x := by
  simp only [State.payFromReinsurance, State.tokenTransferFrom, bind_eq_ok, ensure_eq_ok,
    pure_eq_ok] at h
  obtain ⟨_, ⟨-, -, -, -, -, -, rfl⟩, rfl⟩ := h
  exact ⟨rfl, rfl⟩

/-- A payout that goes through moves the tokens as `paidOnce` says. -/
theorem settlePayout_tokens {claim claim' : Claim}
    (h : settlePayout env s claim asset recipient net = .ok (claim', s'))
    (hfunded : s.Funded env asset net) :
    s'.balance = (s.paidOnce env asset recipient net).balance ∧
      s'.allowance = (s.paidOnce env asset recipient net).allowance := by
  unfold State.paidOnce
  cases settlementRun_of_ok h with
  | treasury hcash hpaid =>
    rw [if_pos hcash]
    obtain ⟨-, -, rfl⟩ := payFromTreasury_eq_ok hpaid
    exact ⟨rfl, rfl⟩
  | short hcash hmissing hpool hshort =>
    rcases hfunded with hle | ⟨r, hr, hle⟩
    · exact absurd hle hcash
    · rw [hpool] at hr
      cases hr
      omega
  | both hcash hmissing hpool _ hsome hpaid hdrawn =>
    subst hmissing
    simp only [if_neg hcash, hpool, if_pos hsome]
    obtain ⟨-, -, rfl⟩ := payFromTreasury_eq_ok hpaid
    obtain ⟨hbalance, hallowance⟩ := payFromReinsurance_tokens hdrawn
    exact ⟨hbalance, hallowance⟩
  | reinsurance hcash hmissing hpool _ hnone hdrawn =>
    subst hmissing
    simp only [if_neg hcash, hpool, if_neg hnone]
    obtain ⟨hbalance, hallowance⟩ := payFromReinsurance_tokens hdrawn
    exact ⟨hbalance, hallowance⟩

theorem payout_tokens {claim claim' : Claim} {policy : Policy}
    (h : payout env s claim = .ok (claim', s')) (hcan : s.CanPay env claim)
    (hpolicy : s.getPolicy claim.claimant claim.policyId = some policy) :
    s'.balance = (s.paidOnce env (s.effectiveAsset policy) policy.payoutTo
        (claim.amount - claim.deductible)).balance ∧
      s'.allowance = (s.paidOnce env (s.effectiveAsset policy) policy.payoutTo
        (claim.amount - claim.deductible)).allowance := by
  simp only [payout, bind_eq_ok, okOr_eq_ok, ensure_eq_ok, checkedSub128, fit128_eq_some] at h
  obtain ⟨p, hp, -, -, net, ⟨-, rfl⟩, -, -, -, -, s₃, h₃, h₄⟩ := h
  rw [hpolicy] at hp
  cases hp
  obtain ⟨p, hp, hfunded⟩ := hcan
  rw [hpolicy] at hp
  cases hp
  have hpre : Frame [.assetLedger] s s₃ := by
    refine Frame.trans ?_ (frame_recordPayoutOut h₃)
    split <;> split <;> simp
  have hbal := hpre.balance rfl
  have hall := hpre.allowance rfl
  have hre := hpre.get .reinsuranceContract rfl
  obtain ⟨h₁, h₂⟩ := settlePayout_tokens h₄ ((Funded_congr hbal hall hre).mpr hfunded)
  exact ⟨h₁.trans (paidOnce_congr hbal hall hre).1, h₂.trans (paidOnce_congr hbal hall hre).2⟩

theorem Settled.claims_of_paid {claim claim' : Claim} (h : Settled s claim net claim' s')
    (hst : claim'.status ≠ .payoutFailed) : SameKind .claim s s' := by
  cases h with
  | paid _ _ _ hclaim => exact hclaim
  | failed => exact absurd rfl hst

/-- **A claim that can be paid twice is stored as `Paid`, and announced so.** -/
theorem processClaim_announces {claim : Claim} (h : processClaim env s claimId = .ok s')
    (hclaim : s.getClaim claimId = some claim) (hcan : s.CanPayTwice env claim) :
    SameKind .claim (s.setClaim (claim.moveTo .paid s.sequence)) s' ∧
      Announces s s' claimId claim.status .paid := by
  obtain ⟨c, hc, -, -, hcase⟩ := processClaim_cases h
  rw [hclaim] at hc
  cases hc
  obtain ⟨policy, hpolicy, hnow, hagain⟩ := hcan
  rcases hcase with ⟨hno, -⟩ | ⟨-, s₄, claim₃, s₆, h₄, h₆, rfl⟩
  · exact absurd ⟨policy, hpolicy, hnow⟩ hno
  have hf₃ := frame_markPaid (s := s) claimId claim
  have hf₄ := frame_payout h₄
  have hf₅ := frame_recordClaimPaid s₄ claim.claimant claim.policyId claim.amount s.sequence
  generalize hs₅ : s₄.recordClaimPaid claim.claimant claim.policyId claim.amount
    s.sequence = s₅ at h₆ hf₅
  have hf : Frame [.openClaim, .ratePrev, .claim, .rolling, .assetLedger, .cash, .payout] s s₅ :=
    ((hf₃.mono (by simp)).trans (hf₄.mono (by simp))).trans (hf₅.mono (by simp))
  have hpol₃ : (s.markPaid claimId claim).getPolicy claim.claimant claim.policyId = some policy :=
    (hf₃.get _ rfl).trans hpolicy
  have hpol₅ : s₅.getPolicy claim.claimant claim.policyId = some policy :=
    (hf.get _ rfl).trans hpolicy
  have heff₃ : (s.markPaid claimId claim).effectiveAsset policy = s.effectiveAsset policy := by
    simp only [State.effectiveAsset, hf₃.get (.policyTypeConfig policy.policyType) rfl]
  have heff₅ : s₅.effectiveAsset policy = s.effectiveAsset policy := by
    simp only [State.effectiveAsset, hf.get (.policyTypeConfig policy.policyType) rfl]
  -- the tokens after the first payout
  have htokens := payout_tokens h₄ ((canPay_markPaid claimId claim).mpr ⟨policy, hpolicy, hnow⟩)
    hpol₃
  rw [heff₃] at htokens
  have hbal := hf₃.balance rfl
  have hall := hf₃.allowance rfl
  have hre := hf₃.get .reinsuranceContract rfl
  have hcan₅ : s₅.CanPay env (claim.moveTo .paid s.sequence) := by
    refine ⟨policy, hpol₅, ?_⟩
    rw [heff₅]
    refine (Funded_congr ?_ ?_ ?_).mpr hagain
    · rw [hf₅.balance rfl]
      exact htokens.1.trans (paidOnce_congr hbal hall hre).1
    · rw [hf₅.allowance rfl]
      exact htokens.2.trans (paidOnce_congr hbal hall hre).2
    · exact (hf.get _ rfl).trans (get_paidOnce _).symm
  obtain ⟨-, -, hcase₆, hset₆⟩ := payout_eq_ok h₆
  have hst₆ : claim₃.status ≠ .payoutFailed := by
    rcases hcase₆ with ⟨-, rfl⟩ | ⟨hno, -⟩
    · intro hfail
      cases hfail
    · exact absurd hcan₅ hno
  obtain ⟨-, -, -, hset₄⟩ := payout_eq_ok h₄
  have hclaim₄ := hset₄.claims_of_paid (by intro hfail; cases hfail)
  refine ⟨?_, ?_⟩
  · rw [SameKind.emit_iff]
    exact (((claim_markPaid claimId claim).trans hclaim₄).trans (hf₅.sameKind rfl)).trans
      (hset₆.claims_of_paid hst₆)
  · unfold Announces
    rw [State.statusChanges_emit, statusChanges_of_frame (frame_payout h₆) rfl,
      statusChanges_of_frame hf rfl]
    rfl

end TwoPayouts

/-! ## Calls -/

section Calls

variable {env : Env} {s s' : State} {claimId : Nat}

theorem statusShown_of_finalizeClaimInner {st : ClaimStatus} (hk : s.ClaimsKeyed)
    (h : finalizeClaimInner s claimId = .ok (st, s')) (hs : StatusShown s) : StatusShown s' := by
  obtain ⟨c, c', hc, -, -, -, -, hdec, hclose⟩ := finalizeClaimInner_eq_ok h
  obtain ⟨x, y, z, rfl⟩ := decide_eq_ok hdec
  exact hs.announced hk hc (closeRound_eq_ok hclose).1 rfl (announces_closeRound hclose)

theorem statusShown_of_voteOnClaim {voter : Address} {vote : VoteOption} {st : ClaimStatus}
    (hk : s.ClaimsKeyed) (h : voteOnClaim s voter claimId vote = .ok (st, s'))
    (hs : StatusShown s) : StatusShown s' := by
  obtain ⟨c, w, hc, -, -, ⟨-, -, rfl⟩ | ⟨outcome, c', -, -, hdec, hclose⟩⟩ := voteOnClaim_eq_ok h
  · exact hs.still hk hc (SameKind.set (by simp) _ _) (claimId_tally c vote w)
      (status_tally c vote w) rfl
  · obtain ⟨x, y, z, rfl⟩ := decide_eq_ok hdec
    have hlog := announces_closeRound hclose
    unfold Announces at hlog
    rw [State.statusChanges_set] at hlog
    refine hs.announced hk hc (SameKind.trans (SameKind.set ?_ _ _) (closeRound_eq_ok hclose).1)
      (claimId_tally c vote w) hlog
    simp

theorem statusShown_of_voteOnAppeal {voter : Address} {vote : VoteOption} {st : ClaimStatus}
    (hk : s.ClaimsKeyed) (h : voteOnAppeal s voter claimId vote = .ok (st, s'))
    (hs : StatusShown s) : StatusShown s' := by
  obtain ⟨c, hc, -, -, ⟨-, rfl⟩ | ⟨outcome, c', s₂, -, h₂, rfl⟩⟩ := voteOnAppeal_cases h
  · refine hs.still hk hc (SameKind.set (by simp) _ _) (claimId_tallyAppeal c vote 1)
      (status_tallyAppeal c vote 1) ?_
    rw [State.statusChanges_set, State.statusChanges_emit]
    exact List.append_nil _
  · have hlog := announces_finalizeAppealOutcome h₂
    have hf := frame_finalizeAppealOutcome h₂
    obtain ⟨⟨x, y, rfl⟩, -⟩ := finalizeAppealOutcome_eq_ok h₂
    refine hs.announced hk hc (SameKind.set (SameKind.trans ?_ (hf.sameKind rfl)) _ _)
      (claimId_tallyAppeal c vote 1) ?_
    · simp
    rw [claimId_tallyAppeal, status_tallyAppeal, (hk claimId c hc).1] at hlog
    unfold Announces at hlog ⊢
    rw [State.statusChanges_set, hlog, State.statusChanges_emit, State.statusChanges_set]
    exact congrArg (· ++ _) (List.append_nil _)

theorem statusShown_of_finalizeAppeal {st : ClaimStatus} (hk : s.ClaimsKeyed)
    (h : finalizeAppeal s claimId = .ok (st, s')) (hs : StatusShown s) : StatusShown s' := by
  obtain ⟨c, c', s₁, hc, -, h₁, rfl, -⟩ := finalizeAppeal_cases h
  have hlog := announces_finalizeAppealOutcome h₁
  have hf := frame_finalizeAppealOutcome h₁
  obtain ⟨⟨x, y, rfl⟩, -⟩ := finalizeAppealOutcome_eq_ok h₁
  rw [(hk claimId c hc).1] at hlog
  exact hs.announced hk hc (SameKind.set (hf.sameKind rfl) _ _) rfl hlog

theorem statusShown_of_fileClaim {holder : Address} {policyId : Nat} {amount : Int} {details : Str}
    {evidence : List ClaimEvidenceEntry} {expectedNonce : Option Nat} (hk : s.ClaimsKeyed)
    (h : fileClaim env s holder policyId amount details evidence expectedNonce = .ok (claimId, s'))
    (hs : StatusShown s) : StatusShown s' := by
  have hlog := announces_fileClaim h
  obtain ⟨policy, voters, deadline, -, -, -, hid, -, -, hrec, -⟩ := fileClaim_eq_ok h
  have hfresh : s.statusOf claimId = .pending := by
    rw [State.statusOf, hk.unfiled (by omega)]
  unfold StatusShown
  have hsnoc := hs.snoc claimId .processing
  rw [hfresh] at hsnoc
  rw [hlog, statusOf_of_write hrec]
  exact hsnoc

/-- The step publishes the change of status that it makes: no payout times out, no claim is
disputed, and a claim is processed when it can be paid twice. -/
def Announced (s : State) : Label → Prop
  | .call _ (.claim (.processPayoutTimeout _)) => False
  | .call _ (.claim (.disputeClaim _)) => False
  | .call env (.claim (.processClaim id)) => ∀ c, s.getClaim id = some c → s.CanPayTwice env c
  | _ => True

/-- **A claim call that publishes what it does keeps the log in step with the storage.** -/
theorem statusShown_of_claimCall {c : ClaimCall} (hk : s.ClaimsKeyed) (h : c.exec env s = .ok s')
    (hok : Announced s (.call env (.claim c))) (hs : StatusShown s) : StatusShown s' := by
  have hran := ran_of_exec h
  have hf := frame_claimCall h
  cases c with
  | fileClaim =>
    obtain ⟨id, hran⟩ := hran
    exact statusShown_of_fileClaim hk hran hs
  | withdrawClaim claimant id =>
    obtain ⟨claim, hclaim, -, -, -, hrec, -⟩ := withdrawClaim_eq_ok hran
    exact hs.announced hk hclaim hrec rfl (announces_withdrawClaim hran hclaim)
  | addClaimEvidence claimant id newEvidence =>
    obtain ⟨claim, hclaim, -, hrec⟩ := addClaimEvidence_eq_ok hran
    exact hs.still hk hclaim hrec rfl rfl (statusChanges_of_frame hf rfl)
  | voteOnClaim =>
    obtain ⟨st, hran⟩ := hran
    exact statusShown_of_voteOnClaim hk hran hs
  | finalizeClaim =>
    obtain ⟨st, hran⟩ := hran
    exact statusShown_of_finalizeClaimInner hk hran hs
  | processDeadline =>
    obtain ⟨-, st, hran⟩ := hran
    exact statusShown_of_finalizeClaimInner hk hran hs
  | finalizeExpiredBatch ids =>
    obtain ⟨n, m, t, hloop, rfl⟩ := hran
    have hall : t.ClaimsKeyed ∧ StatusShown t := by
      refine finalizeBatchLoop_keeps (I := fun u => u.ClaimsKeyed ∧ StatusShown u) ?_
        _ s 0 0 hloop ⟨hk, hs⟩
      rintro u u' id st - h₁ ⟨hku, hu⟩
      exact ⟨claimsKeyed_of_rewrites (rewrites_of_finalizeClaimInner h₁)
        ((frame_finalizeClaimInner h₁).sameKind rfl) hku,
        statusShown_of_finalizeClaimInner hku h₁ hu⟩
    refine hall.2.of_same (by simp) ?_
    rw [State.statusChanges_emit]
    exact List.append_nil _
  | escalateClaim id deadline =>
    obtain ⟨claim, hclaim, -, hrec⟩ := escalateClaim_eq_ok hran
    exact hs.still hk hclaim hrec rfl rfl (statusChanges_of_frame hf rfl)
  | processClaim id =>
    obtain ⟨claim, -, hclaim, -⟩ := processClaim_eq_ok hran
    obtain ⟨hrec, hlog⟩ := processClaim_announces hran hclaim (hok claim hclaim)
    exact hs.announced hk hclaim hrec rfl hlog
  | processPayoutTimeout => exact absurd hok id
  | disputeClaim => exact absurd hok id
  | disburseInstallment id amount =>
    obtain ⟨claim, p, hclaim, -, -, -, -, -, -, hdone, hmore⟩ := disburseInstallment_eq_ok hran
    obtain ⟨hlast, hnext⟩ := announces_disburseInstallment hran hclaim
    by_cases hcomp : claim.Completes amount
    · exact hs.announced hk hclaim (hdone hcomp).1 rfl (hlast hcomp)
    · exact hs.still hk hclaim (hmore hcomp).1 rfl rfl (hnext hcomp)
  | openAppeal claimant id =>
    obtain ⟨claim, deadline, hclaim, -, hrec, -⟩ := openAppeal_eq_ok hran
    exact hs.announced hk hclaim hrec rfl (announces_openAppeal hran hclaim)
  | voteOnAppeal =>
    obtain ⟨st, hran⟩ := hran
    exact statusShown_of_voteOnAppeal hk hran hs
  | finalizeAppeal =>
    obtain ⟨st, hran⟩ := hran
    exact statusShown_of_finalizeAppeal hk hran hs
  | revealVote voter id vote salt =>
    obtain ⟨claim, hclaim, -, hrec, -⟩ := revealVote_eq_ok hran
    exact hs.still hk hclaim hrec (claimId_tally claim vote 1) (status_tally claim vote 1)
      (statusChanges_of_frame hf rfl)
  | refreshSnapshot | setClaimFraudScore | setCommitRevealPhases | commitVote | delegateVote =>
    exact hs.of_same (hf.sameKind rfl) (statusChanges_of_frame hf rfl)

theorem statusShown_of_step {host : Host} {l : Label} (hk : s.ClaimsKeyed)
    (hstep : (contract host).step s l s') (hok : Announced s l) (hs : StatusShown s) :
    StatusShown s' := by
  cases l with
  | closeLedger n =>
    obtain ⟨-, -, rfl⟩ := hstep
    exact hs.of_same (fun _ _ => rfl) rfl
  | tokens b a =>
    obtain ⟨-, rfl⟩ := hstep
    exact hs.of_same (fun _ _ => rfl) rfl
  | call env c =>
    have hf := frame_exec hstep.2
    cases c with
    | claim c => exact statusShown_of_claimCall hk hstep.2 hok hs
    | policy c =>
      have hkind : (Call.policy c).kinds.contains .statusEvent = false := by cases c <;> rfl
      exact hs.of_same (hf.sameKind (c.untouched rfl)) (statusChanges_of_frame hf hkind)
    | treasury c =>
      have hkind : (Call.treasury c).kinds.contains .statusEvent = false := by cases c <;> rfl
      exact hs.of_same (hf.sameKind (c.untouched rfl)) (statusChanges_of_frame hf hkind)
    | setting c => exact hs.of_same (hf.sameKind rfl) (statusChanges_of_frame hf rfl)
    | governance c =>
      have hkind : (Call.governance c).kinds.contains .statusEvent = false := by cases c <;> rfl
      exact hs.of_same (hf.sameKind (c.untouched rfl)) (statusChanges_of_frame hf hkind)

end Calls

/-! ## Runs -/

/-- **The log shows the stored status.**  In a run whose steps publish the changes of status that
they make, the `claim_status_changed` events of every claim follow on each other from `Pending`
and end in the stored status. -/
theorem indexed_status_of_steps {host : Host} {s₀ s : State} (h₀ : s₀.Fresh host)
    (hlog : s₀.events = []) (hrun : (contract host).Steps Announced s₀ s) (id : Nat) :
    replay .pending id s.statusChanges = some (s.statusOf id) := by
  have hinit : StatusShown s₀ := by
    have hnone : s₀.statusOf = fun _ => .pending := by
      funext i
      have hget : s₀.getClaim i = none := State.Fresh.get host h₀ _
      rw [State.statusOf, hget]
    unfold StatusShown
    rw [hnone, State.statusChanges, hlog]
    exact Shows.nil ClaimStatus.pending
  have hboth := Steps.invariant (I := fun t => (contract host).Reach always t ∧ StatusShown t)
    (fun t l t' hok hstep ht => ⟨ht.1.tail trivial hstep,
      statusShown_of_step (claimsKeyed_of_reach ht.1) hstep hok ht.2⟩) hrun ⟨.of_init h₀, hinit⟩
  exact hboth.2 id

/-- `Announced`, computed. -/
def announcedCheck (s : State) : Label → Bool
  | .call _ (.claim (.processPayoutTimeout _)) => false
  | .call _ (.claim (.disputeClaim _)) => false
  | .call env (.claim (.processClaim id)) => decide (∀ c ∈ s.getClaim id, s.CanPayTwice env c)
  | _ => true

theorem announced_of_check (s : State) (l : Label) (h : announcedCheck s l = true) :
    Announced s l := by
  unfold announcedCheck at h
  unfold Announced
  split at h
  · cases h
  · cases h
  · exact of_decide_eq_true h
  · trivial

/-- A claim is approved and paid twice over, and another one is rejected, appealed and rejected
again. -/
theorem indexed_status_of_paid : ∃ s, (deployed 50000000).Fresh demoHost ∧
    (contract demoHost).Steps Announced (deployed 50000000) s ∧ s.statusOf 1 = .paid ∧
      replay .pending 1 s.statusChanges = some .paid ∧ s.statusOf 2 = .underAppeal ∧
      replay .pending 2 s.statusChanges = some .underAppeal := by
  obtain ⟨s, hrun, hval⟩ := exists_steps_of_follow announced_of_check (deployed 50000000)
    (demoSetup ++ [demoFile 1 1 1000, demoCall (.claim (.voteOnClaim 2 1 .approve)),
      .closeLedger 1001, demoCall (.claim (.processClaim 1)), demoFile 2 1 1000,
      demoCall (.claim (.voteOnClaim 1 2 .reject)), demoCall (.claim (.openAppeal 2 2))])
    (f := fun s => (s.statusOf 1, s.statusOf 2)) (a := (.paid, .underAppeal))
    (by simp [demoSetup, demoInit, demoBind, demoFile]) (by decide +kernel)
  obtain ⟨h₁, h₂⟩ := Prod.mk.inj hval
  have hfresh := fresh_deployed (by decide : (0 : Int) ≤ 50000000)
  have hshown := fun id => indexed_status_of_steps hfresh rfl hrun id
  exact ⟨s, hfresh, hrun, h₁, h₁ ▸ hshown 1, h₂, h₂ ▸ hshown 2⟩

/-- **Two transitions that the log does not show**: a payout that times out, and one that runs out
of funds. -/
theorem indexed_status_stale :
    (∃ s, (contract demoHost).Steps always (deployed 0) s ∧ s.statusOf 1 = .payoutTimeout ∧
      replay .pending 1 s.statusChanges = some .approved) ∧
    (∃ s, (contract demoHost).Steps always (deployed 0) s ∧ s.statusOf 1 = .payoutFailed ∧
      replay .pending 1 s.statusChanges = some .paid) := by
  constructor
  · obtain ⟨s, hrun, hval⟩ := exists_steps_of_follow always_of_noCheck (deployed 0)
      (demoSetup ++ [demoFile 1 1 1000, demoCall (.claim (.voteOnClaim 2 1 .approve)),
        .closeLedger 1000000, demoCall (.claim (.processPayoutTimeout 1))])
      (f := fun s => (s.statusOf 1, replay .pending 1 s.statusChanges))
      (a := (.payoutTimeout, some .approved))
      (by simp [demoSetup, demoInit, demoBind, demoFile]) (by decide +kernel)
    exact ⟨s, hrun, (Prod.mk.inj hval).1, (Prod.mk.inj hval).2⟩
  · obtain ⟨s, hrun, hval⟩ := exists_steps_of_follow always_of_noCheck (deployed 0)
      [demoInit, demoCall (.setting (.adminSetReinsuranceContract 5)),
        demoBind 1 .auto 1400000000, demoBind 2 .auto 10000000, .closeLedger 1001,
        demoFile 1 1 1400000000, .closeLedger 1002, demoCall (.claim (.voteOnClaim 2 1 .approve)),
        .closeLedger 1003, demoCall (.claim (.processClaim 1))]
      (f := fun s => (s.statusOf 1, replay .pending 1 s.statusChanges))
      (a := (.payoutFailed, some .paid))
      (by simp [demoInit, demoBind, demoFile]) (by decide +kernel)
    exact ⟨s, hrun, (Prod.mk.inj hval).1, (Prod.mk.inj hval).2⟩

end NiffyInsure
