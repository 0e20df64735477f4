import NiffyInsure.Lib.Tumbling
import NiffyInsure.ClaimSum
import NiffyInsure.Lifecycle
import NiffyInsure.PolicyStep
import NiffyInsure.Trace

/-!
# The rolling claim cap: meters and sums

`rolling_claim_cap.rs` caps what a policy can claim in a window of ledgers.  The cap is checked when
a claim is filed, against what has been paid in the window, and a paid claim is recorded when the
money goes out.  The accumulator of a policy is a meter of tumbling windows.

* `State.paidInBucket` and `State.filedAndPaidInBucket`: the sums that the module documentation
  speaks of, read off the stored claims.
* `CapHolds`: the second is within the cap, and the first is what the accumulator shows, in every
  window without a renewal.
* `KeepsCap`: the condition on a step.
* `fileClaim_meter`, `disburseInstallment_meter` and `rolling_renewRecord`: what the calls do to the
  accumulator.
* `CapInv`: the invariant, and `CalmStep.capInv`: a step that files and pays nothing keeps it.
-/

namespace NiffyInsure

open Machine Tumbling

/-! ## What has been paid in a window -/

/-- The ledger at which a paid claim was paid in full: the last entry of its history. -/
def Claim.paidAt (claim : Claim) : Option Nat :=
  if claim.status = .paid then claim.statusHistory.getLast?.map (·.ledger) else none

/-- The claim was paid in the `k`-th window of `w` ledgers. -/
def Claim.paidIn (claim : Claim) (w k : Nat) : Bool :=
  claim.paidAt.any fun n => Decidable.decide (InBucket w k n)

/-- The claim was filed in the window. -/
def Claim.filedIn (claim : Claim) (w k : Nat) : Bool :=
  Decidable.decide (InBucket w k claim.filedAt)

/-- The claim is not decided, or approved and not yet paid in full. -/
def Claim.isPending (claim : Claim) : Bool :=
  Decidable.decide (claim.status = .processing ∨ claim.status = .approved)

/-- The gross amount of the claim if it is one on the policy that `P` selects. -/
def Claim.amountIf (holder : Address) (policyId : Nat) (P : Claim → Bool) (claim : Claim) : Int :=
  if claim.claimant = holder ∧ claim.policyId = policyId ∧ P claim = true then claim.amount else 0

namespace State

variable (s : State) (holder : Address) (policyId k : Nat)

/-- The gross amounts of the claims on the policy that were paid in the window. -/
def paidInBucket : Int :=
  s.claimSum (Claim.amountIf holder policyId fun c => c.paidIn s.getRollingClaimWindowLedgers k)

/-- The gross amounts of those that were filed in it, too. -/
def filedAndPaidInBucket : Int :=
  s.claimSum (Claim.amountIf holder policyId fun c =>
    c.filedIn s.getRollingClaimWindowLedgers k && c.paidIn s.getRollingClaimWindowLedgers k)

/-- The gross amounts of the claims on the policy that were filed in the window and may still be
paid. -/
def pendingInBucket : Int :=
  s.claimSum (Claim.amountIf holder policyId fun c =>
    c.filedIn s.getRollingClaimWindowLedgers k && c.isPending)

/-- `cumulative_paid` of the policy at the present ledger, as the cap reads it. -/
def cumulativePaid : Int := (s.syncStateToLedger holder policyId s.sequence).cumulativePaid

end State

/-! ## Renewals -/

/-- A renewal of a policy. -/
structure Renewal where
  holder : Address
  policyId : Nat
  ledger : Nat

/-- A call that renews the policy is noted down; one that finds it lapsed is not. -/
def noteRenewal (s : State) (l : Label) (g : List Renewal) : List Renewal :=
  match l with
  | .call _ (.policy (.renewPolicy a)) =>
    match s.getPolicy a.holder a.policyId with
    | some p =>
      if p.endLedger + s.getGracePeriodLedgers ≤ s.sequence then g
      else ⟨a.holder, a.policyId, s.sequence⟩ :: g
    | none => g
  | _ => g

/-- The policy was not renewed in the window. -/
def Unrenewed (g : List Renewal) (holder : Address) (policyId w k : Nat) : Prop :=
  ∀ r ∈ g, r.holder = holder → r.policyId = policyId → ¬ InBucket w k r.ledger

/-- The contract with its renewals. -/
def renewing (host : Host) : Machine (State × List Renewal) Label :=
  (contract host).withHistory [] noteRenewal

/-- **The cap holds**: in every window in which the policy was not renewed, the claims on it that
were filed and paid there sum up to the cap at most, and in the present window the accumulator is
the sum of those that were paid. -/
structure CapHolds (s : State) (g : List Renewal) : Prop where
  capped : ∀ holder policyId k, Unrenewed g holder policyId s.getRollingClaimWindowLedgers k →
    s.filedAndPaidInBucket holder policyId k ≤ s.getRollingClaimCap
  recorded : ∀ holder policyId k, Unrenewed g holder policyId s.getRollingClaimWindowLedgers k →
    InBucket s.getRollingClaimWindowLedgers k s.sequence →
    s.cumulativePaid holder policyId = s.paidInBucket holder policyId k

/-! ## Conditions on a run -/

/-- The cap and the window do not change once a claim is filed, and the cap is finite when one
is. -/
def CapFixed (s : State) : Label → Prop
  | .call _ (.setting (.setRollingClaimCap cap)) =>
    s.getClaimCounter = 0 ∨ cap = s.getRollingClaimCap
  | .call _ (.setting (.setRollingClaimWindowLedgers w)) =>
    s.getClaimCounter = 0 ∨ w = s.getRollingClaimWindowLedgers
  | .call _ (.claim (.fileClaim ..)) => s.getRollingClaimCap ≠ I128_MAX
  | _ => True

/-- The condition on a step.  When claims of the window are pending, one is filed if the cap has
room for it beside them; no claim is processed, and none with a deductible is completed by
installments; and the base round approves no claim under appeal. -/
def KeepsCap (s : State) : Label → Prop
  | .call _ (.claim (.fileClaim holder policyId amount _ _ _)) =>
    0 < s.pendingInBucket holder policyId (s.sequence / s.getRollingClaimWindowLedgers) →
      s.cumulativePaid holder policyId +
        s.pendingInBucket holder policyId (s.sequence / s.getRollingClaimWindowLedgers) + amount ≤
          s.getRollingClaimCap
  | .call _ (.claim (.processClaim _)) => False
  | .call _ (.claim (.disburseInstallment claimId amount)) =>
    ∀ claim, s.getClaim claimId = some claim → claim.Completes amount → claim.deductible = 0
  | .call _ (.claim (.voteOnClaim voter claimId vote)) =>
    ∀ claim w, s.getClaim claimId = some claim → s.votingPowerFor claimId voter 1 = .ok w →
      s.ballotOutcome claimId (claim.tally vote w) = some .approved → claim.status ≠ .underAppeal
  | .call _ (.claim (.finalizeClaim claimId)) =>
    ∀ claim, s.getClaim claimId = some claim → s.deadlineOutcome claimId claim = .approved →
      claim.status ≠ .underAppeal
  | _ => True

/-! ## The accumulator as a meter -/

/-- The accumulator of a policy. -/
def State.meter (s : State) (holder : Address) (policyId : Nat) : Option (Meter Int) :=
  (s.get (.rollingClaimState holder policyId)).map fun st => ⟨st.windowStart, st.cumulativePaid⟩

section Meter

variable {s s' : State} {holder : Address} {policyId : Nat}

theorem getRollingClaimWindowLedgers_of_same (h : SameKind .rollingConfig s s') :
    s'.getRollingClaimWindowLedgers = s.getRollingClaimWindowLedgers := by
  simp only [State.getRollingClaimWindowLedgers, h .rollingClaimWindowLedgers rfl]

theorem getRollingClaimCap_of_same (h : SameKind .rollingConfig s s') :
    s'.getRollingClaimCap = s.getRollingClaimCap := by
  simp only [State.getRollingClaimCap, h .rollingClaimCap rfl]

/-- The cap and the window are the same. -/
structure SameCap (s s' : State) : Prop where
  window : s'.getRollingClaimWindowLedgers = s.getRollingClaimWindowLedgers
  cap : s'.getRollingClaimCap = s.getRollingClaimCap

theorem SameCap.of_same (h : SameKind .rollingConfig s s') : SameCap s s' :=
  ⟨getRollingClaimWindowLedgers_of_same h, getRollingClaimCap_of_same h⟩

theorem windowBucketStart_eq {now w : Nat} (hw : 0 < w) : windowBucketStart now w = now / w * w :=
  if_neg (Nat.ne_of_gt hw)

theorem cumulativePaid_eq_reading (hw : 0 < s.getRollingClaimWindowLedgers) :
    s.cumulativePaid holder policyId =
      reading s.getRollingClaimWindowLedgers s.sequence (s.meter holder policyId) := by
  unfold State.cumulativePaid State.syncStateToLedger State.meter
  rw [windowBucketStart_eq hw]
  cases s.get (.rollingClaimState holder policyId) with
  | none => rfl
  | some st =>
    simp only [Option.map_some, reading]
    split <;> rfl

theorem syncStateToLedger_start (now : Nat) :
    (s.syncStateToLedger holder policyId now).windowStart =
      windowBucketStart now s.getRollingClaimWindowLedgers := by
  unfold State.syncStateToLedger
  dsimp only
  split
  · split
    · assumption
    · rfl
  · rfl

theorem meter_of_same (h : SameKind .rolling s s') (a : Address) (id : Nat) :
    s'.meter a id = s.meter a id := by
  simp only [State.meter, h (.rollingClaimState a id) rfl]

/-- Reading the accumulators after one was written. -/
theorem meter_of_write {st : RollingClaimWindowState}
    (h : SameKind .rolling (s.set (.rollingClaimState holder policyId) st) s') (a : Address)
    (id : Nat) : s'.meter a id =
      if a = holder ∧ id = policyId then some ⟨st.windowStart, st.cumulativePaid⟩
      else s.meter a id := by
  rw [meter_of_same h]
  split
  · rename_i heq
    obtain ⟨rfl, rfl⟩ := heq
    simp [State.meter]
  · rename_i hne
    have hkey : DataKey.rollingClaimState a id ≠ .rollingClaimState holder policyId := by
      intro heq
      cases heq
      exact hne ⟨rfl, rfl⟩
    simp [State.meter, hkey]

end Meter

/-! ## What the calls do to the accumulator -/

section Calls

variable {env : Env} {s s' : State} {claimId : Nat}

/-- `file_claim` under a finite cap: the amount fits beside what was paid, and the accumulator is
brought up to date. -/
theorem fileClaim_meter {holder : Address} {policyId : Nat} {amount : Int} {details : Str}
    {evidence : List ClaimEvidenceEntry} {expectedNonce : Option Nat}
    (h : fileClaim env s holder policyId amount details evidence expectedNonce = .ok (claimId, s'))
    (hcap : s.getRollingClaimCap ≠ I128_MAX) :
    0 < amount ∧ s.getClaimCounter + 1 ≤ U64_MAX ∧
      s.cumulativePaid holder policyId + amount ≤ s.getRollingClaimCap ∧
      SameKind .rolling (s.set (.rollingClaimState holder policyId)
        (s.syncStateToLedger holder policyId s.sequence)) s' := by
  simp only [fileClaim, bind_eq_ok, okOr_eq_ok, pure_eq_ok, Prod.exists, Prod.mk.injEq] at h
  obtain ⟨-, -, s₁, h₁, policy, -, u, hcheck, s₂, h₂, -, -, deadline, -, id, s₃, h₃,
    s₄, h₄, rfl, rfl⟩ := h
  have hf₁ := frame_checkAndBumpNonce h₁
  have hf₄ := frame_collectFilingFee h₄
  have hcap₁ : s₁.getRollingClaimCap = s.getRollingClaimCap := by
    simp only [State.getRollingClaimCap, hf₁.get .rollingClaimCap rfl]
  have hsync : s₁.syncStateToLedger holder policyId s₁.sequence =
      s.syncStateToLedger holder policyId s.sequence := by
    simp only [State.syncStateToLedger, State.getRollingClaimWindowLedgers, hf₁.sequence,
      hf₁.get .rollingClaimWindowLedgers rfl, hf₁.get (.rollingClaimState holder policyId) rfl]
  simp only [State.checkFiling, State.checkClaimFields, bind_eq_ok, ensure_eq_ok] at hcheck
  obtain ⟨-, -, -, -, -, -, -, -, -, -, -, hpos, -⟩ := hcheck
  dsimp only [State.checkFileClaim] at h₂
  rw [if_neg (by rw [hcap₁]; exact hcap)] at h₂
  simp only [bind_eq_ok, ensure_eq_ok, okOr_eq_ok, pure_eq_ok, checkedAdd128, fit128_eq_some] at h₂
  obtain ⟨sum, ⟨-, rfl⟩, -, hle, rfl⟩ := h₂
  rw [hsync, hcap₁] at hle
  simp only [State.nextClaimId, bind_eq_ok, ensure_eq_ok, pure_eq_ok, Prod.mk.injEq] at h₃
  obtain ⟨-, hmax, rfl, rfl⟩ := h₃
  have hcount : (s₁.set (.rollingClaimState holder policyId)
      (s₁.syncStateToLedger holder policyId s₁.sequence)).getClaimCounter = s.getClaimCounter :=
    getClaimCounter_of_same ((hf₁.sameKind rfl).trans (.of_set_ne (by simp) _))
  refine ⟨hpos, ?_, hle, ?_⟩
  · rw [← hcount]
    exact hmax
  · simp only [State.recordNewClaim, SameKind.emit_iff]
    rw [SameKind.setIfSome_iff rfl, SameKind.set_iff rfl, SameKind.set_iff rfl,
      SameKind.set_iff rfl, SameKind.set_iff rfl, State.snapshotClaimVoters, SameKind.set_iff rfl]
    refine SameKind.trans ?_ (hf₄.sameKind rfl)
    rw [SameKind.set_iff rfl, hsync]
    exact SameKind.set (hf₁.sameKind rfl) _ _

theorem sameKind_recordClaimPaid (hroll : SameKind .rolling s s')
    (hconfig : SameKind .rollingConfig s s') (holder : Address) (policyId : Nat) (amount : Int)
    (now : Nat) : SameKind .rolling (s.recordClaimPaid holder policyId amount now)
      (s'.recordClaimPaid holder policyId amount now) := by
  have hsync : s'.syncStateToLedger holder policyId now =
      s.syncStateToLedger holder policyId now := by
    simp only [State.syncStateToLedger, State.getRollingClaimWindowLedgers,
      hconfig .rollingClaimWindowLedgers rfl, hroll (.rollingClaimState holder policyId) rfl]
  unfold State.recordClaimPaid
  rw [hsync]
  exact SameKind.set hroll _ _

/-- The writes of a renewal reset the accumulator. -/
theorem rolling_renewRecord {holder : Address} {policyId : Nat} {p q : Policy}
    (hroll : SameKind .rolling s s') (hconfig : SameKind .rollingConfig s s')
    (hseq : s'.sequence = s.sequence) :
    SameKind .rolling (s.set (.rollingClaimState holder policyId)
      ⟨windowBucketStart s.sequence s.getRollingClaimWindowLedgers, 0⟩)
      (s'.renewRecord holder policyId p q) := by
  have hindex := frame_reindexPolicy (s'.setPolicy holder policyId q) holder policyId p q
  have hwindow : ((s'.setPolicy holder policyId q).reindexPolicy holder policyId p
      q).getRollingClaimWindowLedgers = s.getRollingClaimWindowLedgers :=
    getRollingClaimWindowLedgers_of_same
      ((hconfig.trans (.of_set_ne (by simp) _)).trans (hindex.sameKind rfl))
  unfold State.renewRecord State.resetOnRenewal
  rw [hseq, hwindow]
  refine SameKind.set (SameKind.trans ?_ (hindex.sameKind rfl)) _ _
  rw [State.setPolicy, SameKind.set_iff rfl]
  exact hroll

/-- `disburse_installment`: the last installment records the net amount. -/
theorem disburseInstallment_meter {amount : Int} {claim : Claim}
    (h : disburseInstallment env s claimId amount = .ok s')
    (hclaim : s.getClaim claimId = some claim) :
    (claim.Completes amount →
      SameKind .rolling (s.recordClaimPaid claim.claimant claim.policyId
        (claim.amount - claim.deductible) s.sequence) s') ∧
    (¬ claim.Completes amount → SameKind .rolling s s') := by
  simp only [disburseInstallment, bind_eq_ok, okOr_eq_ok, ensure_eq_ok, pure_eq_ok, checkedSub128,
    checkedAdd128, fit128_eq_some, add32_eq_ok] at h
  obtain ⟨-, -, c, hc, -, -, -, -, -, -, net, ⟨-, rfl⟩, -, -, remaining, ⟨-, rfl⟩, -, -,
    policy, -, -, -, s₁, h₁, s₂, h₂, paid, ⟨-, rfl⟩, count, ⟨-, rfl⟩, rfl⟩ := h
  rw [hclaim] at hc
  cases hc
  have hf₁ := frame_recordPayoutOut h₁
  have hf₂ := frame_payFromTreasury h₂
  have hseq : s₂.sequence = s.sequence := by rw [hf₂.sequence, hf₁.sequence]
  have hsame : SameKind .rolling s s₂ := (hf₁.sameKind rfl).trans (hf₂.sameKind rfl)
  constructor
  · intro hcomp
    unfold Claim.Completes at hcomp
    rw [if_pos hcomp, SameKind.set_iff rfl, State.markFullyPaid, State.sequence_emit, hseq]
    refine sameKind_recordClaimPaid ?_ ?_ _ _ _ _
    · rw [SameKind.emit_iff, SameKind.emit_iff, SameKind.remove_iff rfl, SameKind.set_iff rfl,
        SameKind.emit_iff]
      exact hsame
    · rw [SameKind.emit_iff, SameKind.emit_iff, SameKind.remove_iff rfl, SameKind.set_iff rfl,
        SameKind.emit_iff]
      exact (hf₁.sameKind rfl).trans (hf₂.sameKind rfl)
  · intro hcomp
    unfold Claim.Completes at hcomp
    rw [if_neg hcomp, SameKind.set_iff rfl]
    exact hsame

end Calls

/-! ## What the calls do to the claims that count -/

theorem getLast_pushStatusTransition (history : List ClaimStatusHistoryEntry) (status : ClaimStatus)
    (ledger : Nat) : (pushStatusTransition history status ledger).getLast? =
      some ⟨status, ledger⟩ := by
  unfold pushStatusTransition
  dsimp only
  rw [List.getLast?_drop, if_neg]
  · simp
  · simp only [List.length_append, List.length_singleton, CLAIM_STATUS_HISTORY_MAX]
    omega

/-- A claim that is moved to `Paid` is paid at the ledger of the move. -/
theorem paidAt_moveTo_paid (claim : Claim) (now : Nat) :
    (claim.moveTo .paid now).paidAt = some now := by
  have hlast : (claim.moveTo .paid now).statusHistory.getLast? = some ⟨.paid, now⟩ :=
    getLast_pushStatusTransition _ _ _
  have hst : (claim.moveTo .paid now).status = .paid := rfl
  unfold Claim.paidAt
  rw [if_pos hst, hlast]
  rfl

/-- The claim keeps its terms and the ledgers at which it was filed and paid, and is pending only if
it was. -/
structure Claim.Calm (claim claim' : Claim) : Prop where
  terms : claim.SameTerms claim'
  filedAt : claim'.filedAt = claim.filedAt
  paidAt : claim'.paidAt = claim.paidAt
  pending : claim'.isPending = true → claim.isPending = true

theorem Claim.Calm.refl (claim : Claim) : claim.Calm claim := ⟨.refl claim, rfl, rfl, fun h => h⟩

/-- A paid claim is only tallied. -/
theorem Claim.Edit.paid {now : Nat} {c c' : Claim} (h : c.Edit now c') (hst : c.status = .paid) :
    c'.status = .paid ∧ c'.statusHistory = c.statusHistory := by
  obtain ⟨hsame, hlog⟩ := h.settled (.inl hst)
  exact ⟨hsame.trans hst, hlog⟩

/-- The statuses of a step that pays no claim and brings none back. -/
def CalmStatus (a b : ClaimStatus) : Prop :=
  (b = .paid → a = .paid) ∧ (b = .processing ∨ b = .approved → a = .processing ∨ a = .approved)

theorem Claim.Edits.calm {now : Nat} {c c' : Claim} (h : Claim.Edits now c c')
    (hst : CalmStatus c.status c'.status) : c.Calm c' where
  terms := h.sameTerms
  filedAt := h.lift (R := fun a b => b.filedAt = a.filedAt) (fun _ => rfl)
    (fun _ _ _ hab hbc => hbc.trans hab) fun _ _ => Claim.Edit.filedAt
  paidAt := by
    have hpaid : c.status = .paid → c'.status = .paid ∧ c'.statusHistory = c.statusHistory := by
      refine h.lift (R := fun a b => a.status = .paid → b.status = .paid ∧
        b.statusHistory = a.statusHistory) (fun _ ha => ⟨ha, rfl⟩) ?_ fun _ _ => Claim.Edit.paid
      intro a b c hab hbc ha
      obtain ⟨hb, hhist⟩ := hab ha
      obtain ⟨hc, hhist'⟩ := hbc hb
      exact ⟨hc, hhist'.trans hhist⟩
    unfold Claim.paidAt
    by_cases hc : c.status = .paid
    · obtain ⟨hc', hhist⟩ := hpaid hc
      rw [if_pos hc, if_pos hc', hhist]
    · rw [if_neg hc, if_neg fun hc' => hc (hst.1 hc')]
  pending hpend := by
    unfold Claim.isPending at hpend ⊢
    rw [decide_eq_true_eq] at hpend ⊢
    exact hst.2 hpend

section Calm

variable {env : Env} {s s' : State}

/-- The edges of a call that pays nothing are calm. -/
theorem calmStatus_of_edge {c : ClaimCall} {a b : ClaimStatus} (hc : c.pays = false)
    (h : c.Edge a b) : CalmStatus a b := by
  rcases h with rfl | ⟨hnext, hpays⟩
  · exact ⟨fun h => h, fun h => h⟩
  · refine ⟨fun hb => ?_, fun hb => ?_⟩
    · rw [hpays hb] at hc
      cases hc
    · rcases hb with rfl | rfl
      · cases a <;> simp [ClaimStatus.next] at hnext
      · cases a <;> simp [ClaimStatus.next] at hnext ⊢

/-- A base round that approves leaves an undecided claim pending. -/
theorem calmStatus_of_round {a b : ClaimStatus} (hlive : a.Live) (hterm : a.isTerminal = false)
    (hout : b = .approved ∨ b = .rejected) (happeal : b = .approved → a ≠ .underAppeal) :
    CalmStatus a b := by
  rcases hout with rfl | rfl
  · have hproc := eq_processing_of_live hlive hterm (happeal rfl)
    exact ⟨nofun, fun _ => .inl hproc⟩
  · refine ⟨nofun, ?_⟩
    rintro (h | h) <;> cases h

/-- **A claim call that neither files nor pays is calm**, if it approves no claim under appeal. -/
theorem calm_of_claimCall {c : ClaimCall} (h : c.exec env s = .ok s') (hk : s.ClaimsKeyed)
    (hlive : s.ClaimsLive) (hfiles : c.files = false) (hpays : c.pays = false)
    (hok : KeepsCap s (.call env (.claim c))) :
    ClaimsEdited s s' ∧ ∀ id claim claim', s.getClaim id = some claim →
      s'.getClaim id = some claim' → claim.Calm claim' := by
  have hedited := claimsEdited_of_claimCall hk h hfiles
  refine ⟨hedited, ?_⟩
  have hstatus : StatusStep CalmStatus s s' := by
    refine statusStep_of_claimCall h hk (fun a b => calmStatus_of_edge hpays) ?_ ?_
    · rintro voter claimId vote claim w outcome rfl hclaim hterm hw hout
      refine calmStatus_of_round (hlive _ _ hclaim) hterm (State.ballotOutcome_eq_some hout) ?_
      rintro rfl
      exact hok claim w hclaim hw hout
    · rintro claimId claim rfl hclaim hterm
      exact calmStatus_of_round (hlive _ _ hclaim) hterm (s.deadlineOutcome_cases claimId claim)
        (hok claim hclaim)
  intro id claim claim' hclaim hclaim'
  obtain ⟨c₁, hc₁, hmove⟩ := hstatus.moved id claim hclaim
  obtain ⟨c₂, hc₂, hedits⟩ := hedited.moved id claim hclaim
  rw [hclaim'] at hc₁ hc₂
  cases hc₁
  cases hc₂
  exact hedits.calm hmove

end Calm

/-! ## The invariant -/

/-- The gross amounts of the claims on the policy that were filed in the window and are paid there
or may still be paid. -/
def State.countedInBucket (s : State) (holder : Address) (policyId k : Nat) : Int :=
  s.claimSum (Claim.amountIf holder policyId fun c =>
    c.filedIn s.getRollingClaimWindowLedgers k &&
      (c.paidIn s.getRollingClaimWindowLedgers k || c.isPending))

/-- A stored claim has a positive id and amount, and was not filed or paid ahead of time. -/
structure Claim.Timely (claim : Claim) (id now : Nat) : Prop where
  id : 0 < id
  amount : 0 < claim.amount
  filed : claim.filedAt ≤ now
  paid : ∀ n, claim.paidAt = some n → n ≤ now

/-- What is true of the claims and the accumulators in a run that keeps the cap. -/
structure CapInv (s : State) (g : List Renewal) : Prop where
  timely : ∀ id claim, s.getClaim id = some claim → claim.Timely id s.sequence
  counter : s.getClaimCounter ≤ U64_MAX
  bounded : s.claimSum (fun c => c.amount) ≤ MAX_ROLLING_CLAIM_CAP * s.getClaimCounter
  positive : ∀ holder policyId m, s.meter holder policyId = some m → 0 ≤ m.total
  unused : s.getClaimCounter = 0 → ∀ holder policyId m, s.meter holder policyId = some m →
    m.total = 0
  tracks : ∀ holder policyId, Tracks s.getRollingClaimWindowLedgers s.sequence
    (s.meter holder policyId) (Unrenewed g holder policyId s.getRollingClaimWindowLedgers)
    (s.paidInBucket holder policyId)
  counted : ∀ holder policyId k, Unrenewed g holder policyId s.getRollingClaimWindowLedgers k →
    s.countedInBucket holder policyId k ≤ s.getRollingClaimCap

section Sums

variable {s s' : State} {holder : Address} {policyId k : Nat} {P Q : Claim → Bool}

theorem Claim.amountIf_le {c c' : Claim} (hterms : c.SameTerms c') (hpos : 0 < c.amount)
    (hPQ : P c' = true → Q c = true) :
    c'.amountIf holder policyId P ≤ c.amountIf holder policyId Q := by
  unfold Claim.amountIf
  rw [hterms.claimant, hterms.policyId, hterms.amount]
  split
  · rename_i hc
    rw [if_pos ⟨hc.1, hc.2.1, hPQ hc.2.2⟩]
  · split
    · exact hpos.le
    · exact le_refl 0

theorem Claim.amountIf_nonneg {c : Claim} (hpos : 0 < c.amount) :
    0 ≤ c.amountIf holder policyId P := by
  unfold Claim.amountIf
  split
  · exact hpos.le
  · exact le_refl 0

theorem Claim.amountIf_eq {c c' : Claim} (hterms : c.SameTerms c') (hP : P c' = P c) :
    c'.amountIf holder policyId P = c.amountIf holder policyId P := by
  unfold Claim.amountIf
  rw [hterms.claimant, hterms.policyId, hterms.amount, hP]

theorem Claim.Calm.paidIn {c c' : Claim} (h : c.Calm c') (w k : Nat) :
    c'.paidIn w k = c.paidIn w k := by
  unfold Claim.paidIn
  rw [h.paidAt]

theorem Claim.Calm.filedIn {c c' : Claim} (h : c.Calm c') (w k : Nat) :
    c'.filedIn w k = c.filedIn w k := by
  unfold Claim.filedIn
  rw [h.filedAt]

theorem Claim.Timely.of_calm {c c' : Claim} {id now : Nat} (hc : c.Timely id now)
    (h : c.Calm c') : c'.Timely id now where
  id := hc.id
  amount := by
    rw [h.terms.amount]
    exact hc.amount
  filed := by
    rw [h.filedAt]
    exact hc.filed
  paid := by
    rw [h.paidAt]
    exact hc.paid

end Sums

/-- Every stored claim is replaced by a calm one. -/
structure CalmStep (s s' : State) : Prop where
  edited : ClaimsEdited s s'
  calm : ∀ id claim claim', s.getClaim id = some claim → s'.getClaim id = some claim' →
    claim.Calm claim'
  config : SameCap s s'
  counter : SameKind .claimCounter s s'
  sequence : s'.sequence = s.sequence

namespace CalmStep

variable {s s' : State} {g : List Renewal}

theorem of_sameCap {ks : List Kind} (h : Frame ks s s') (hclaim : ks.contains .claim = false)
    (hcounter : ks.contains .claimCounter = false) (hcap : SameCap s s') : CalmStep s s' where
  edited := .of_same (h.sameKind hclaim)
  calm id claim claim' hc hc' := by
    rw [getClaim_of_same (h.sameKind hclaim), hc] at hc'
    cases hc'
    exact .refl claim
  config := hcap
  counter := h.sameKind hcounter
  sequence := h.sequence

theorem of_frame {ks : List Kind} (h : Frame ks s s') (hclaim : ks.contains .claim = false)
    (hconfig : ks.contains .rollingConfig = false) (hcounter : ks.contains .claimCounter = false) :
    CalmStep s s' :=
  of_sameCap h hclaim hcounter (.of_same (h.sameKind hconfig))

theorem timely (h : CalmStep s s') (hs : CapInv s g) :
    ∀ id claim, s'.getClaim id = some claim → claim.Timely id s'.sequence := by
  intro id claim' hclaim'
  rw [h.sequence]
  cases hclaim : s.getClaim id with
  | none =>
    rw [h.edited.unfiled id hclaim] at hclaim'
    cases hclaim'
  | some claim => exact (hs.timely id claim hclaim).of_calm (h.calm id claim claim' hclaim hclaim')

theorem bounded (h : CalmStep s s') (hs : CapInv s g) :
    s'.claimSum (fun c => c.amount) ≤ MAX_ROLLING_CLAIM_CAP * s'.getClaimCounter := by
  rw [getClaimCounter_of_same h.counter, claimSum_eq_of_edited h.edited]
  · exact hs.bounded
  · intro id c c' hc hc'
    exact (h.calm id c c' hc hc').terms.amount

theorem paidInBucket (h : CalmStep s s') (holder : Address) (policyId k : Nat) :
    s'.paidInBucket holder policyId k = s.paidInBucket holder policyId k := by
  unfold State.paidInBucket
  rw [h.config.window]
  refine claimSum_eq_of_edited h.edited fun id c c' hc hc' => ?_
  have hcalm := h.calm id c c' hc hc'
  exact Claim.amountIf_eq hcalm.terms (hcalm.paidIn _ _)

theorem counted (h : CalmStep s s') (hs : CapInv s g) (holder : Address) (policyId k : Nat) :
    s'.countedInBucket holder policyId k ≤ s.countedInBucket holder policyId k := by
  unfold State.countedInBucket
  rw [h.config.window]
  refine claimSum_le_of_edited h.edited fun id c c' hc hc' => ?_
  have hcalm := h.calm id c c' hc hc'
  refine Claim.amountIf_le hcalm.terms (hs.timely id c hc).amount ?_
  simp only [Bool.and_eq_true, Bool.or_eq_true, hcalm.paidIn, hcalm.filedIn]
  rintro ⟨hfiled, hpaid | hpend⟩
  · exact ⟨hfiled, .inl hpaid⟩
  · exact ⟨hfiled, .inr (hcalm.pending hpend)⟩

/-- A calm step that leaves the accumulators keeps the invariant. -/
theorem capInv (h : CalmStep s s') (hroll : SameKind .rolling s s') (hs : CapInv s g) :
    CapInv s' g where
  timely := h.timely hs
  counter := by
    rw [getClaimCounter_of_same h.counter]
    exact hs.counter
  bounded := h.bounded hs
  positive holder policyId := by
    rw [meter_of_same hroll]
    exact hs.positive holder policyId
  unused := by
    rw [getClaimCounter_of_same h.counter]
    intro hzero holder policyId
    rw [meter_of_same hroll]
    exact hs.unused hzero holder policyId
  tracks holder policyId := by
    rw [meter_of_same hroll, h.config.window, h.sequence]
    exact (hs.tracks holder policyId).mono (fun _ hk => hk) (h.paidInBucket holder policyId)
  counted holder policyId k hk := by
    rw [h.config.window] at hk
    rw [h.config.cap]
    exact le_trans (h.counted hs holder policyId k) (hs.counted holder policyId k hk)

end CalmStep

/-! ## The configuration -/

/-- The window is not empty, and the cap is the default or one that the admin can set. -/
structure State.RollingConfigured (s : State) : Prop where
  window : 0 < s.getRollingClaimWindowLedgers
  nonneg : 0 ≤ s.getRollingClaimCap
  finite : s.getRollingClaimCap = I128_MAX ∨ s.getRollingClaimCap ≤ MAX_ROLLING_CLAIM_CAP

section Config

variable {env : Env} {s s' : State}

theorem rollingConfigured_of_same (h : SameKind .rollingConfig s s') (hs : s.RollingConfigured) :
    s'.RollingConfigured := by
  constructor
  · rw [getRollingClaimWindowLedgers_of_same h]
    exact hs.window
  · rw [getRollingClaimCap_of_same h]
    exact hs.nonneg
  · rw [getRollingClaimCap_of_same h]
    exact hs.finite

theorem setRollingClaimCap_eq_ok {cap : Int}
    (h : (Setting.setRollingClaimCap cap).exec env s = .ok s') :
    (cap = I128_MAX ∨ MIN_ROLLING_CLAIM_CAP ≤ cap ∧ cap ≤ MAX_ROLLING_CLAIM_CAP) ∧
      s'.getRollingClaimWindowLedgers = s.getRollingClaimWindowLedgers ∧
      s'.getRollingClaimCap = cap := by
  obtain ⟨s₁, hf₁, hcheck, rfl⟩ := configure_eq_ok h
  refine ⟨ensure_eq_ok.mp hcheck, ?_, ?_⟩
  · simp [State.writeAll, State.setOrRemove, State.getRollingClaimWindowLedgers,
      hf₁.get .rollingClaimWindowLedgers rfl]
  · simp [State.writeAll, State.setOrRemove, State.getRollingClaimCap]

theorem setRollingClaimWindowLedgers_eq_ok {w : Nat}
    (h : (Setting.setRollingClaimWindowLedgers w).exec env s = .ok s') :
    (MIN_ROLLING_WINDOW_LEDGERS ≤ w ∧ w ≤ MAX_ROLLING_WINDOW_LEDGERS) ∧
      s'.getRollingClaimWindowLedgers = w ∧ s'.getRollingClaimCap = s.getRollingClaimCap := by
  obtain ⟨s₁, hf₁, hcheck, rfl⟩ := configure_eq_ok h
  refine ⟨ensure_eq_ok.mp hcheck, ?_, ?_⟩
  · simp [State.writeAll, State.setOrRemove, State.getRollingClaimWindowLedgers]
  · simp [State.writeAll, State.setOrRemove, State.getRollingClaimCap,
      hf₁.get .rollingClaimCap rfl]

theorem rollingConfigured_of_setting {c : Setting} (h : c.exec env s = .ok s')
    (hs : s.RollingConfigured) : s'.RollingConfigured := by
  have hf := frame_settingOf h
  cases c with
  | setRollingClaimCap newCap =>
    obtain ⟨hvalid, hwindow, hcap⟩ := setRollingClaimCap_eq_ok h
    constructor
    · rw [hwindow]
      exact hs.window
    · rw [hcap]
      rcases hvalid with rfl | ⟨hmin, -⟩
      · decide
      · exact le_trans (by decide) hmin
    · rw [hcap]
      exact hvalid.imp_right And.right
  | setRollingClaimWindowLedgers w =>
    obtain ⟨hvalid, hwindow, hcap⟩ := setRollingClaimWindowLedgers_eq_ok h
    constructor
    · rw [hwindow]
      exact Nat.lt_of_lt_of_le (by decide) hvalid.1
    · rw [hcap]
      exact hs.nonneg
    · rw [hcap]
      exact hs.finite
  | _ => exact rollingConfigured_of_same (hf.sameKind rfl) hs

theorem rollingConfigured_of_step {host : Host} {l : Label} (hstep : (contract host).step s l s')
    (hs : s.RollingConfigured) : s'.RollingConfigured := by
  cases l with
  | closeLedger n =>
    obtain ⟨-, -, rfl⟩ := hstep
    exact ⟨hs.window, hs.nonneg, hs.finite⟩
  | tokens b a =>
    obtain ⟨-, rfl⟩ := hstep
    exact ⟨hs.window, hs.nonneg, hs.finite⟩
  | call env c =>
    obtain ⟨-, h⟩ := hstep
    cases c with
    | claim c => exact rollingConfigured_of_same ((frame_claimCall h).sameKind (c.untouched rfl)) hs
    | policy c =>
      exact rollingConfigured_of_same ((frame_policyCall h).sameKind (c.untouched rfl)) hs
    | treasury c =>
      exact rollingConfigured_of_same ((frame_treasuryCall h).sameKind (c.untouched rfl)) hs
    | governance c =>
      exact rollingConfigured_of_same ((frame_governanceCall h).sameKind (c.untouched rfl)) hs
    | setting c => exact rollingConfigured_of_setting h hs

theorem rollingConfigured_of_reach {host : Host} (h : (contract host).Reach always s) :
    s.RollingConfigured := by
  refine h.invariant (I := State.RollingConfigured) ?_ fun s l s' _ hstep =>
    rollingConfigured_of_step hstep
  intro s hs
  constructor
  · rw [State.getRollingClaimWindowLedgers, State.Fresh.get host hs]
    decide
  · rw [State.getRollingClaimCap, State.Fresh.get host hs]
    decide
  · rw [State.getRollingClaimCap, State.Fresh.get host hs]
    exact .inl rfl

end Config

end NiffyInsure
