import NiffyInsure.Lifecycle
import NiffyInsure.SettingBounds
import NiffyInsure.StatusHistory

/-!
# The life of a claim is finite

Every change of a claim's status makes progress: an appeal is counted, and between two appeals a
claim only moves on.  The number of appeals is capped by a setting that is three at most, so the
life of a claim has at most ten entries.  The status log has room for more and is never cut.

* `Claim.progress`: how far a claim has come; no edit logs more than it adds to it.
* `appealsAtMost_of_reach`: no claim is appealed more than three times.
* `claims_live_finitely`: over a whole run, the log of a claim is its life, of at most ten entries.
-/

namespace NiffyInsure

open Machine

/-! ## Progress -/

/-- How far a status is from the last vote on the claim. -/
def ClaimStatus.stage : ClaimStatus → Nat
  | .pending | .appealed | .processing | .underAppeal => 1
  | .approved | .rejected | .withdrawn | .appealApproved | .appealRejected => 2
  | .paid | .payoutTimeout | .disputed => 3
  | .payoutFailed => 4

/-- How far a claim has come. -/
def Claim.progress (c : Claim) : Nat := 2 * c.appealsCount + c.status.stage

theorem ClaimStatus.stage_le (a : ClaimStatus) : a.stage ≤ 4 := by
  cases a <;> decide

theorem stage_of_open {a : ClaimStatus} (h : a.isTerminal = false) : a.stage = 1 := by
  cases a <;> first | rfl | cases h

theorem length_pushStatusTransition_le (history : List ClaimStatusHistoryEntry) (a : ClaimStatus)
    (now : Nat) : (pushStatusTransition history a now).length ≤ history.length + 1 := by
  unfold pushStatusTransition
  dsimp only
  rw [List.length_drop, List.length_append, List.length_singleton]
  omega

/-- The log of the claim is no longer than the claim has come. -/
def Claim.LogFits (c : Claim) : Prop :=
  c.appealsCount < U32_MAX → c.statusHistory.length ≤ c.progress

section Edits

variable {now : Nat} {c c' : Claim}

theorem Claim.LogFits.once {a : ClaimStatus} (h : c.LogFits)
    (hcount : c'.appealsCount = c.appealsCount)
    (hst : c'.status = a) (hlog : c'.statusHistory = pushStatusTransition c.statusHistory a now)
    (hstage : c.status.stage + 1 ≤ a.stage) : c'.LogFits := by
  intro hlt
  rw [hcount] at hlt
  have hfit := h hlt
  have hlen := length_pushStatusTransition_le c.statusHistory a now
  rw [hlog, Claim.progress, hcount, hst]
  rw [Claim.progress] at hfit
  omega

/-- **No edit logs more than it adds to the progress.** -/
theorem Claim.Edit.logFits (h : c.Edit now c') (hc : c.LogFits) : c'.LogFits := by
  cases h with
  | tally vote => cases vote <;> exact hc
  | tallyAppeal vote => cases vote <;> exact hc
  | evidence | escalate | installment => exact hc
  | withdraw hst => exact hc.once (a := .withdrawn) rfl rfl rfl (by rw [hst]; decide)
  | close outcome x y z hterm hout =>
    refine hc.once (a := outcome) rfl rfl rfl ?_
    rw [stage_of_open hterm]
    rcases hout with rfl | rfl <;> decide
  | process failed hst =>
    have hstage : c.status.stage = 2 := by
      rcases hst with hst | hst <;> rw [hst] <;> rfl
    have hpaid : (c.moveTo .paid now).LogFits :=
      hc.once (a := .paid) rfl rfl rfl (by rw [hstage]; decide)
    cases failed with
    | false => exact hpaid
    | true => exact hpaid.once (a := .payoutFailed) rfl rfl rfl (Nat.le_refl 4)
  | timeout hst => exact hc.once (a := .payoutTimeout) rfl rfl rfl (by rw [hst]; decide)
  | dispute hst => exact hc.once (a := .disputed) rfl rfl rfl (by rw [hst]; decide)
  | lastInstallment amount hst => exact hc.once (a := .paid) rfl rfl rfl (by rw [hst]; decide)
  | appeal deadline hst =>
    intro hlt
    change saturatingAdd32 c.appealsCount 1 < U32_MAX at hlt
    have hcount : saturatingAdd32 c.appealsCount 1 = c.appealsCount + 1 := by
      unfold saturatingAdd32 at hlt ⊢
      omega
    have hfit := hc (by omega)
    have hlen := length_pushStatusTransition_le c.statusHistory .underAppeal now
    show (pushStatusTransition c.statusHistory .underAppeal now).length ≤
      2 * saturatingAdd32 c.appealsCount 1 + ClaimStatus.stage .underAppeal
    have hstage : c.status.stage = 2 := by rw [hst]; rfl
    have happeal : ClaimStatus.stage .underAppeal = 1 := rfl
    rw [Claim.progress] at hfit
    omega
  | closeAppeal outcome x y hst hout =>
    refine hc.once (a := outcome) rfl rfl rfl ?_
    rw [hst]
    rcases hout with rfl | rfl <;> decide

end Edits

/-! ## Appeals -/

/-- No claim was appealed more than `n` times. -/
def State.AppealsAtMost (s : State) (n : Nat) : Prop :=
  ∀ id c, s.getClaim id = some c → c.appealsCount ≤ n

section Appeals

variable {env : Env} {s s' : State} {n : Nat} {c d : Claim} {claimId : Nat}

theorem State.AppealsAtMost.of_same (hs : s.AppealsAtMost n) (h : SameKind .claim s s') :
    s'.AppealsAtMost n := by
  intro id c hc
  rw [getClaim_of_same h] at hc
  exact hs id c hc

theorem State.AppealsAtMost.write (hs : s.AppealsAtMost n) (hcount : d.appealsCount ≤ n)
    (hrec : SameKind .claim (s.setClaim d) s') : s'.AppealsAtMost n := by
  intro id c hc
  rw [getClaim_of_write hrec] at hc
  split at hc
  · cases hc
    exact hcount
  · exact hs id c hc

theorem Closed.appealsAtMost {outcome : ClaimStatus} (h : Closed s s' c outcome)
    (hs : s.AppealsAtMost n) (hc : c.appealsCount ≤ n) : s'.AppealsAtMost n := by
  obtain ⟨x, y, z, hrec⟩ := h.record
  exact hs.write (d := c.closed outcome s.sequence x y z) hc hrec

theorem AppealStep.appealsAtMost (h : AppealStep s s' c) (hs : s.AppealsAtMost n)
    (hc : c.appealsCount ≤ n) : s'.AppealsAtMost n := by
  cases h with
  | voting hrec _ => exact hs.write hc hrec
  | decided outcome x y _ hrec _ =>
    exact hs.write (d := c.appealClosed outcome s.sequence x y) hc hrec

theorem appealsAtMost_of_finalizeClaimInner {st : ClaimStatus}
    (h : finalizeClaimInner s claimId = .ok (st, s')) (hs : s.AppealsAtMost n) :
    s'.AppealsAtMost n := by
  obtain ⟨c, hc, -, hclosed⟩ := finalizeClaimInner_cases h
  exact hclosed.appealsAtMost hs (hs claimId c hc)

theorem appealsCount_lt_of_openAppeal {claimant : Address}
    (h : openAppeal s claimant claimId = .ok s') (hc : s.getClaim claimId = some c) :
    c.appealsCount < s.getMaxAppealsPerClaim := by
  simp only [openAppeal, bind_eq_ok, okOr_eq_ok, ensure_eq_ok] at h
  obtain ⟨-, -, -, -, c', hc', -, -, -, -, -, -, u, hlt, -⟩ := h
  rw [hc] at hc'
  cases hc'
  exact hlt

/-- **No call appeals a claim beyond the cap.** -/
theorem appealsAtMost_of_claimCall {c : ClaimCall} (h : c.exec env s = .ok s')
    (hcap : s.getMaxAppealsPerClaim ≤ n) (hs : s.AppealsAtMost n) : s'.AppealsAtMost n := by
  have hran := ran_of_exec h
  cases c with
  | fileClaim =>
    obtain ⟨id, hran⟩ := hran
    obtain ⟨policy, voters, deadline, -, -, -, -, -, -, hrec, -⟩ := fileClaim_eq_ok hran
    exact hs.write (Nat.zero_le n) hrec
  | withdrawClaim claimant id =>
    obtain ⟨c, hc, -, -, -, hrec, -⟩ := withdrawClaim_eq_ok hran
    exact hs.write (d := c.moveTo .withdrawn s.sequence) (hs id c hc) hrec
  | addClaimEvidence claimant id evidence =>
    obtain ⟨c, hc, -, hrec⟩ := addClaimEvidence_eq_ok hran
    refine hs.write ?_ hrec
    exact hs id c hc
  | escalateClaim id deadline =>
    obtain ⟨c, hc, -, hrec⟩ := escalateClaim_eq_ok hran
    refine hs.write ?_ hrec
    exact hs id c hc
  | voteOnClaim voter id vote =>
    obtain ⟨st, hran⟩ := hran
    obtain ⟨c, w, hc, -, -, hcase⟩ := voteOnClaim_cases hran
    have hcount : (c.tally vote w).appealsCount ≤ n := by
      cases vote <;> exact hs id c hc
    have hvoted : (s.setVote id voter vote).AppealsAtMost n := hs.of_same (by simp)
    rcases hcase with ⟨-, rfl⟩ | ⟨outcome, -, hclosed⟩
    · exact hvoted.write hcount (.refl _ _)
    · obtain ⟨x, y, z, hrec⟩ := hclosed.record
      exact hs.write (d := (c.tally vote w).closed outcome s.sequence x y z) hcount
        (SameKind.trans (SameKind.set (by simp) _ _) hrec)
  | finalizeClaim =>
    obtain ⟨st, hran⟩ := hran
    exact appealsAtMost_of_finalizeClaimInner hran hs
  | processDeadline =>
    obtain ⟨-, st, hran⟩ := hran
    exact appealsAtMost_of_finalizeClaimInner hran hs
  | finalizeExpiredBatch ids =>
    obtain ⟨p, q, t, hloop, rfl⟩ := hran
    have ht : t.AppealsAtMost n := finalizeBatchLoop_keeps (I := (State.AppealsAtMost · n))
      (fun _ _ _ _ _ => appealsAtMost_of_finalizeClaimInner) ids s 0 0 hloop hs
    exact ht
  | processClaim id =>
    obtain ⟨c, failed, hc, -, -, -, hrec, -⟩ := processClaim_eq_ok hran
    refine hs.write (d := c.processed s.sequence failed) ?_ hrec
    cases failed <;> exact hs id c hc
  | processPayoutTimeout id =>
    obtain ⟨st, hran⟩ := hran
    obtain ⟨c, hc, -, hrec, -⟩ := processPayoutTimeout_eq_ok hran
    exact hs.write (d := c.moveTo .payoutTimeout s.sequence) (hs id c hc) hrec
  | disputeClaim id =>
    obtain ⟨c, hc, -, hrec⟩ := disputeClaim_eq_ok hran
    exact hs.write (d := c.moveTo .disputed s.sequence) (hs id c hc) hrec
  | disburseInstallment id amount =>
    obtain ⟨c, p, hc, -, -, -, -, -, -, hdone, hmore⟩ := disburseInstallment_eq_ok hran
    by_cases hcomp : c.Completes amount
    · exact hs.write (d := (c.paidInstallment amount).moveTo .paid s.sequence) (hs id c hc)
        (hdone hcomp).1
    · exact hs.write (d := c.paidInstallment amount) (hs id c hc) (hmore hcomp).1
  | openAppeal claimant id =>
    obtain ⟨c, deadline, hc, -, hrec, -⟩ := openAppeal_eq_ok hran
    have hlt := appealsCount_lt_of_openAppeal hran hc
    refine hs.write ?_ hrec
    show saturatingAdd32 c.appealsCount 1 ≤ n
    unfold saturatingAdd32
    omega
  | voteOnAppeal voter id vote =>
    obtain ⟨st, hran⟩ := hran
    obtain ⟨c, hc, -, hstep⟩ := voteOnAppeal_eq_ok hran
    refine hstep.appealsAtMost hs ?_
    cases vote <;> exact hs id c hc
  | finalizeAppeal id =>
    obtain ⟨st, hran⟩ := hran
    obtain ⟨c, hc, -, hstep⟩ := finalizeAppeal_eq_ok hran
    exact hstep.appealsAtMost hs (hs id c hc)
  | revealVote voter id vote salt =>
    obtain ⟨c, hc, -, hrec, -⟩ := revealVote_eq_ok hran
    refine hs.write (d := c.tally vote 1) ?_ hrec
    cases vote <;> exact hs id c hc
  | refreshSnapshot | setClaimFraudScore | setCommitRevealPhases | commitVote | delegateVote =>
    exact hs.of_same ((frame_claimCall h).sameKind rfl)

end Appeals

/-! ## Runs -/

section Runs

variable {host : Host} {s : State} {g : Journal} {id : Nat} {c : Claim}

/-- **No claim is appealed more than three times.** -/
theorem appealsAtMost_of_reach (h : (contract host).Reach always s) : s.AppealsAtMost 3 := by
  refine h.invariant_with (J := State.InBounds) (I := (State.AppealsAtMost · 3))
    (fun _ => inBounds_of_reach) ?_ ?_
  · intro s hs id c hc
    rw [State.getClaim, State.Fresh.get host hs] at hc
    cases hc
  · intro s l s' hbounds _ hstep hs
    obtain ⟨env, c, rfl, hexec⟩ | ⟨-, hsame⟩ := claimCall_or_same hstep
    · exact appealsAtMost_of_claimCall hexec hbounds.maxAppealsPerClaim.2 hs
    · exact hs.of_same (hsame .claim rfl)

theorem logFits_of_reach (h : (contract host).Reach always s) (hc : s.getClaim id = some c) :
    c.LogFits := by
  refine claims_rule (P := fun _ c => c.LogFits) h ?_ (fun _ _ _ _ => Claim.Edit.logFits) id c hc
  intro _ _ _ _ _ _ _ _ _ _ _ _
  exact Nat.le_refl 1

/-- **A claim lives finitely long**, and its log says all of it: over every run the log of a stored
claim is the sequence of the statuses that it went through, which is no longer than the stage of its
status and two for each of its appeals, of which there are three at most. -/
theorem claims_live_finitely
    (h : (contract host).traced.Reach (fun p l => always p.1 l) (s, g))
    (hc : s.getClaim id = some c) :
    c.statusHistory = lifeOf g id ∧ c.appealsCount ≤ 3 ∧
      (lifeOf g id).length ≤ 2 * c.appealsCount + c.status.stage ∧ (lifeOf g id).length ≤ 10 := by
  have hcount : c.appealsCount ≤ 3 := appealsAtMost_of_reach h.untrace id c hc
  have hstage := c.status.stage_le
  have hfit : c.statusHistory.length ≤ 2 * c.appealsCount + c.status.stage :=
    logFits_of_reach h.untrace hc (by rw [U32_MAX]; omega)
  obtain ⟨-, -, -, -, -, hall⟩ := status_history_of_reach h hc
  have hlife : c.statusHistory = lifeOf g id := hall (by rw [CLAIM_STATUS_HISTORY_MAX]; omega)
  rw [← hlife]
  exact ⟨rfl, hcount, hfit, by omega⟩

/-- A claim that is rejected, appealed and rejected again. -/
theorem claims_live_finitely_demo : ∃ s g c,
    (contract demoHost).traced.Reach (fun p l => always p.1 l) (s, g) ∧ s.getClaim 1 = some c ∧
      c.statusHistory.map (·.status) = [.processing, .rejected, .underAppeal, .appealRejected] ∧
      c.statusHistory = lifeOf g 1 := by
  obtain ⟨s, g, hreach, hval⟩ := exists_journal always_of_noCheck (deployed 0)
    (appealedTrace ++ [.closeLedger 200000, demoCall (.claim (.finalizeAppeal 1))])
    (f := fun p => (p.1.getClaim 1).map fun c => c.statusHistory.map (·.status))
    (a := some [.processing, .rejected, .underAppeal, .appealRejected])
    (fresh_deployed (by decide))
    (by simp [appealedTrace, filedTrace, demoSetup, demoInit, demoBind, demoFile])
      (by decide +kernel)
  obtain ⟨c, hc, hlog⟩ := Option.map_eq_some_iff.mp hval
  exact ⟨s, g, c, hreach, hc, hlog, (claims_live_finitely hreach hc).1⟩

end Runs

end NiffyInsure
